import SelectorClauses.CommandLine.Flag
import SelectorClauses.Text.Quoted

/-!
The usage, the help and the version of the program, and the wording of each misuse.
-/
namespace SelectorClauses

namespace CommandLine

def programName : Text := "simplesel".toList

def versionText : Text := "simplesel 0.1.0\n".toList

def usage : Text :=
  ("usage: simplesel [-h] [--format \x7btext,json\x7d] [--attributes] [--verbose]\n" ++
   "                 [--version]\n" ++
   "                 [selector]\n").toList

def description : Text :=
  ("\n" ++
   "Tokenize simple CSS selectors and list the attributes they depend on.\n" ++
   "\n" ++
   "positional arguments:\n" ++
   "  selector              Selector to tokenize, or '-' to read one selector per\n" ++
   "                        line from stdin\n" ++
   "\n" ++
   "options:\n" ++
   "  -h, --help            show this help message and exit\n" ++
   "  --format \x7btext,json\x7d  Output format (default: text)\n" ++
   "  --attributes          Only output the attribute names each selector depends\n" ++
   "                        on\n" ++
   "  --verbose             Log debug messages to stderr\n" ++
   "  --version             show program's version number and exit\n").toList

def epilogue : Text :=
  ("\n" ++
   "Examples:\n" ++
   "  simplesel 'a.external[href^=\"http\"]'\n" ++
   "  simplesel ':not(.hidden)' --format json\n" ++
   "  cat selectors.txt | simplesel - --attributes\n" ++
   "\n" ++
   "If you don't have the 'simplesel' command available, use:\n" ++
   "  python -m simplesel ...\n").toList

def help : Text := usage ++ description ++ epilogue

namespace Misuse

def argument (f : Flag) (problem : Text) : Text :=
  "argument ".toList ++ f.title ++ ": ".toList ++ problem

def message : Misuse → Text
  | .ambiguous t candidates =>
    "ambiguous option: ".toList ++ t ++ " could match ".toList
      ++ Text.join [',', ' '] (candidates.map Flag.long)
  | .valueMissing f => argument f "expected one argument".toList
  | .valueIgnored f value => argument f ("ignored explicit argument ".toList ++ value.quoted)
  | .invalidChoice value =>
    argument .format ("invalid choice: ".toList ++ value.quoted ++ " (choose from ".toList
      ++ Text.join [',', ' '] (Format.all.map fun f => f.label.quoted) ++ [')'])
  | .unrecognized ts => "unrecognized arguments: ".toList ++ Text.join [' '] ts

def report (m : Misuse) : Text :=
  usage ++ programName ++ ": error: ".toList ++ m.message ++ ['\n']

end Misuse

end CommandLine

end SelectorClauses
