import SelectorClauses.Text.Basic

/-!
The options of the command line and the ways in which arguments can be misused.
-/
namespace SelectorClauses

namespace CommandLine

/-- The options in the order of the help. -/
inductive Flag
  | help
  | format
  | attributes
  | verbose
  | version
deriving DecidableEq, Repr

namespace Flag

def all : List Flag := [.help, .format, .attributes, .verbose, .version]

def long : Flag → Text
  | .help => "--help".toList
  | .format => "--format".toList
  | .attributes => "--attributes".toList
  | .verbose => "--verbose".toList
  | .version => "--version".toList

def title : Flag → Text
  | .help => "-h/--help".toList
  | f => f.long

def ofLong? (t : Text) : Option Flag := all.find? fun f => f.long == t

def beginningWith (t : Text) : List Flag := all.filter fun f => t.isPrefixOf f.long

end Flag

inductive Format
  | text
  | json
deriving DecidableEq, Repr

namespace Format

def all : List Format := [.text, .json]

def label : Format → Text
  | .text => "text".toList
  | .json => "json".toList

def ofLabel? (t : Text) : Option Format := all.find? fun f => f.label == t

end Format

inductive Misuse
  | ambiguous (argument : Text) (candidates : List Flag)
  | valueMissing (flag : Flag)
  | valueIgnored (flag : Flag) (value : Text)
  | invalidChoice (value : Text)
  | unrecognized (arguments : List Text)
deriving DecidableEq, Repr

end CommandLine

end SelectorClauses
