import SelectorClauses.Json.Print
import SelectorClauses.Selector

/-!
What the program writes about selectors: lines of text, JSON, or the names of the attributes.
-/
namespace SelectorClauses

namespace CommandLine

def tokenLine (t : Token) : Text :=
  Text.join ['\t']
    [t.kind.label, t.value, if t.negated then "negated".toList else ['-'],
      t.attribute?.getD ['-']]

def selectorText (s : Selector) : Text :=
  Text.join ['\n']
    (s.tokens.map tokenLine ++ ["attributes: ".toList ++ Text.join [' '] s.attributes.toList])

def textReport (ss : List Selector) : Text :=
  Text.join ['\n', '\n'] (ss.map selectorText) ++ ['\n']

def optionalText : Option Text → Value
  | some t => .text t
  | none => .null

def tokenRecord (t : Token) : Value :=
  .record
    [("kind".toList, .text t.kind.label),
     ("value".toList, .text t.value),
     ("negated".toList, .bool t.negated),
     ("attribute".toList, optionalText t.attribute?),
     ("operator".toList, optionalText t.operator),
     ("operand".toList, optionalText t.operand)]

def selectorRecord (s : Selector) : Value :=
  .record
    [("source".toList, .text s.source),
     ("tokens".toList, .list (s.tokens.map tokenRecord)),
     ("attributes".toList, .list (s.attributes.toList.map .text))]

def jsonReport (ss : List Selector) : Text :=
  Json.print 0 (.list (ss.map selectorRecord)) ++ ['\n']

def namesOf (ss : List Selector) : NameSet :=
  NameSet.ofList (ss.flatMap fun s => s.attributes.toList)

def namesReport (ss : List Selector) : Text := (namesOf ss).toList.flatMap (· ++ ['\n'])

end CommandLine

end SelectorClauses
