import Polycalc.CommandLine.Invocation

namespace Polycalc.CommandLine.Topic

def about : Topic → String
  | program => "Simplify and evaluate integer polynomials"
  | simplify => "Print the canonical form of a polynomial"
  | evaluate => "Evaluate a polynomial at an integer x"
  | batch => "Answer JSON-line requests from stdin through one shared cache"
  | help => "Print this message or the help of the given subcommand(s)"

def usage : Topic → String
  | program => "Usage: polyproc [OPTIONS] <COMMAND>"
  | simplify => "Usage: polyproc simplify [OPTIONS] <POLYNOMIAL>"
  | evaluate => "Usage: polyproc evaluate [OPTIONS] <POLYNOMIAL> <X>"
  | batch => "Usage: polyproc batch [OPTIONS]"
  | help => "Usage: polyproc help [COMMAND]..."

def commandLines : List String :=
  ["  simplify  " ++ simplify.about, "  evaluate  " ++ evaluate.about,
    "  batch     " ++ batch.about, "  help      " ++ help.about]

def argumentLines : Topic → List String
  | simplify => ["  <POLYNOMIAL>  "]
  | evaluate => ["  <POLYNOMIAL>  ", "  <X>           "]
  | help => ["  [COMMAND]...  Print help for the subcommand(s)"]
  | _ => []

def optionLines : Topic → List String
  | help => []
  | program =>
    ["      --config <CONFIG>  TOML configuration file",
      "      --json             Print JSON objects instead of plain text",
      "  -h, --help             Print help",
      "  -V, --version          Print version"]
  | _ =>
    ["      --config <CONFIG>  TOML configuration file",
      "      --json             Print JSON objects instead of plain text",
      "  -h, --help             Print help"]

def part (title : String) : List String → List String
  | [] => []
  | lines => "" :: title :: lines

def lines (t : Topic) : List String :=
  [t.about, "", t.usage] ++ part "Commands:" (if t = program then commandLines else []) ++
    part "Arguments:" t.argumentLines ++ part "Options:" t.optionLines

end Polycalc.CommandLine.Topic
