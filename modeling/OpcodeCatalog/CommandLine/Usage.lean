import OpcodeCatalog.CommandLine.Request

/-!
# Texts about the command line

Main definitions:

* `CommandLine.versionText` — the name and the version of the program;
* `CommandLine.helpText` — the help on the program or on a command;
* `CommandLine.UsageError.message` — what is wrong with a command line.
-/

set_option autoImplicit false

namespace OpcodeCatalog

namespace CommandLine

/-- The name under which the program is called. -/
def programName : String := "pyc_opcodes"

/-- What the program answers when asked for its version. -/
def versionText : Text := (programName ++ " 0.1.0\n").toList

/-- The help on the settings, which every command has. -/
def settingsHelp : String :=
  "Options:\n" ++
  "      --format <FORMAT>     Output format [env: " ++ formatVariable ++ "=] [default: text] " ++
  "[possible values: text, json]\n" ++
  "      --log-level <FILTER>  Log filter for diagnostics on stderr, overrides RUST_LOG\n" ++
  "  -h, --help                Print help\n"

/-- The help on the whole program, or on a command. -/
def helpText : Option Command → Text
  | none =>
    ("Lists the opcodes of a bytecode virtual machine as `NAME = 0xHH # DDD` lines\n\n" ++
      "Usage: " ++ programName ++ " [OPTIONS] [COMMAND]\n\n" ++
      "Commands:\n" ++
      "  python  The CPython 2.6 virtual machine (default)\n" ++
      "  yarv    Ruby YARV instructions read from an insns.def file\n" ++
      "  help    Print this message or the help of the given subcommand(s)\n\n" ++
      settingsHelp ++ "  -V, --version             Print version\n").toList
  | some .python =>
    ("The CPython 2.6 virtual machine (default)\n\n" ++
      "Usage: " ++ programName ++ " python [OPTIONS]\n\n" ++ settingsHelp).toList
  | some .yarv =>
    ("Ruby YARV instructions read from an insns.def file\n\n" ++
      "Usage: " ++ programName ++ " yarv [OPTIONS] <INSNS_DEF>\n\n" ++
      "Arguments:\n  <INSNS_DEF>  Path to insns.def\n\n" ++ settingsHelp).toList
  | some .help =>
    ("Print this message or the help of the given subcommand(s)\n\n" ++
      "Usage: " ++ programName ++ " help [COMMAND]...\n").toList

/-- The name of a setting on the command line. -/
def Setting.name : Setting → Text
  | .format => "--format".toList
  | .logLevel => "--log-level".toList

/-- What the user reads about a command line that asks for nothing. -/
def UsageError.message : UsageError → Text
  | .unknownOption arg => "unexpected option '".toList ++ Utf8.decodeLossy arg ++ ['\'']
  | .unwantedValue arg => "unexpected value in '".toList ++ Utf8.decodeLossy arg ++ ['\'']
  | .missingValue setting => "a value is required for '".toList ++ setting.name ++ ['\'']
  | .repeatedSetting setting =>
    ['\''] ++ setting.name ++ "' cannot be used multiple times".toList
  | .invalidValue setting value =>
    "invalid value '".toList ++ Utf8.decodeLossy value ++ "' for '".toList ++ setting.name
      ++ ['\'']
  | .unexpectedArgument arg => "unexpected argument '".toList ++ Utf8.decodeLossy arg ++ ['\'']
  | .missingPath => "the path of a definition file is required".toList
  | .emptyPath => "the path of a definition file may not be empty".toList

end CommandLine

end OpcodeCatalog
