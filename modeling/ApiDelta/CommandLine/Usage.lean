/-!
The texts that explain the command line: for each command a usage, which also stands before every
complaint, and the description that follows it when help is asked for.
-/
namespace ApiDelta.CommandLine

def textOfLines (lines : List String) : String :=
  String.join (lines.map (· ++ "\n"))

def generalUsage : String :=
  textOfLines [
    "usage: apibreak [-h] [--version] \x7bdiff,check\x7d ..."]

def generalDescription : String :=
  textOfLines [
    "",
    "apibreak: detect breaking public API changes and propose the next semantic",
    "version",
    "",
    "positional arguments:",
    "  \x7bdiff,check\x7d  Available commands",
    "    diff        Compare two API trees and propose the next version",
    "    check       Check that an API tree loads and translates",
    "",
    "options:",
    "  -h, --help    show this help message and exit",
    "  --version     show program's version number and exit"]

def diffUsage : String :=
  textOfLines [
    "usage: apibreak diff [-h] [--quiet] [-v] [--config CONFIG] --from OLD_TREE",
    "                     --to NEW_TREE [--current-version CURRENT_VERSION]",
    "                     [--format \x7btext,json\x7d] [--output OUTPUT]",
    "                     [--fail-on-breaking]"]

def diffDescription : String :=
  textOfLines [
    "",
    "options:",
    "  -h, --help            show this help message and exit",
    "  --quiet               Suppress all non-error output.",
    "  -v, --verbose         Increase log verbosity (-v info, -vv debug).",
    "  --config CONFIG       Path to a JSON settings file (defaults to",
    "                        ./apibreak.json if present)",
    "  --from OLD_TREE       Path to the API tree of the previous release",
    "  --to NEW_TREE         Path to the API tree of the current code",
    "  --current-version CURRENT_VERSION",
    "                        Version of the previous release (defaults to the old",
    "                        tree's crate_version)",
    "  --format \x7btext,json\x7d  Report format (default: text)",
    "  --output OUTPUT       Write the report to this file instead of stdout",
    "  --fail-on-breaking    Exit with status 1 when a breaking change is found"]

def checkUsage : String :=
  textOfLines [
    "usage: apibreak check [-h] [--quiet] [-v] [--config CONFIG] tree"]

def checkDescription : String :=
  textOfLines [
    "",
    "positional arguments:",
    "  tree             Path to the API tree",
    "",
    "options:",
    "  -h, --help       show this help message and exit",
    "  --quiet          Suppress all non-error output.",
    "  -v, --verbose    Increase log verbosity (-v info, -vv debug).",
    "  --config CONFIG  Path to a JSON settings file (defaults to ./apibreak.json",
    "                   if present)"]

end ApiDelta.CommandLine
