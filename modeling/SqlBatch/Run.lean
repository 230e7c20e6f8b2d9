import SqlBatch.Grammar.Check
import SqlBatch.Run.Ending
/-!
# The program

The command line and the configuration files say what to do.  Statements are judged by the grammar
check, the only validator that the program has.
-/

namespace SqlBatch

def Config.reports (config : Config) (files : Files) (stdin : List UInt8) :
    Except Failure (List SourceReport) :=
  config.check Grammar.check files stdin

namespace Ending

def version : Text := "sqlcheck 0.1.0".toList

def usage : List Text :=
  ["Usage: sqlcheck [OPTIONS] [FILES]...",
    "",
    "Split SQL scripts into statements and validate each one",
    "",
    "Options:",
    "  -q, --query <QUERY>          Validate an inline SQL string",
    "      --dialect <DIALECT>      mysql, generic, postgres, sqlite, ansi or mssql",
    "      --format <FORMAT>        json or text",
    "      --config <CONFIG>        Path to a configuration file",
    "      --log-level <LOG_LEVEL>  trace, debug, info, warn or error",
    "  -h, --help                   Print help",
    "  -V, --version                Print version"].map String.toList

def ofRefusal : CommandLine.Refusal → Ending
  | .displayHelp => { status := 0, stdout := Text.joinWith ['\n'] usage ++ ['\n'] }
  | .displayVersion => { status := 0, stdout := version ++ ['\n'] }
  | _ => { status := 2, stderr := "error: invalid arguments, see --help".toList ++ ['\n'] }

end Ending

def run (files : Files) (userFile : Option Text) (stdin : List UInt8) (arguments : List Text) :
    Ending :=
  match CommandLine.parse arguments with
  | .error refusal => .ofRefusal refusal
  | .ok arguments =>
    match Config.ofArguments files userFile arguments with
    | .error failure => .ofFailure failure
    | .ok config => config.carryOut Grammar.check files stdin

end SqlBatch
