import JavadocCoverage.Report.Rendering
import JavadocCoverage.Text.Control

/-!
# Help texts

The texts that the program shows when it is asked about itself.
-/

namespace JavadocCoverage

/-- What help is asked for. -/
inductive Topic
  | program
  | check
  | files
  | help
deriving DecidableEq, Repr

/-- The name of the program, and its version, as they are shown. -/
def versionText : Text :=
  "javadoc-scan 0.1.0\n".toList

/-- The name that the program goes by when it is not known by which it was called. -/
def standardName : Text :=
  "javadoc-scan".toList

/-- The first line of the program's help. -/
def summaryLine : Text :=
  "Report public Java types and methods that lack a Javadoc comment".toList

/-- The help on the filter of the log, which all commands take. -/
def logLevelLine : Text :=
  ("      --log-level <LEVEL>  Log filter used when RUST_LOG is unset (e.g. \"info\", "
    ++ "\"javadoc_scan=debug\") [default: warn]").toList

namespace Topic

/-- The name by which the usage line of a topic goes, where the program was called by
the given name. -/
def usageName (name : Option Text) : Topic → Text
  | program => name.getD standardName
  | check => called "check".toList
  | files => called "files".toList
  | help => called "help".toList
where
  /-- The name of a command after that of the program. -/
  called (command : Text) : Text :=
    name.elim command (· ++ ' ' :: command)

/-- The usage line of a topic: the name, as it is shown, and the given parameters. -/
def usageLine (medium : Control.Medium) (name : Option Text) (topic : Topic) (parameters : Text) :
    Text :=
  "Usage: ".toList ++ Control.shown medium (topic.usageName name) ++ ' ' :: parameters

/-- The lines of the help on a topic. -/
def lines (medium : Control.Medium) (name : Option Text) : Topic → List Text
  | program => [
      summaryLine,
      [],
      usageLine medium name program "[OPTIONS] <COMMAND>".toList,
      [],
      "Commands:".toList,
      "  check  Scan a source tree and report undocumented declarations".toList,
      "  files  List the Java source files that would be scanned".toList,
      "  help   Print this message or the help of the given subcommand(s)".toList,
      [],
      "Options:".toList,
      logLevelLine,
      "  -h, --help               Print help".toList,
      "  -V, --version            Print version".toList,
      [],
      ("Without a subcommand, `check` is assumed. A root directory named `check`, `files` "
        ++ "or `help` must be given after an explicit `check`.").toList]
  | check => [
      "Scan a source tree and report undocumented declarations".toList,
      [],
      usageLine medium name check "[OPTIONS] [ROOT]".toList,
      [],
      "Arguments:".toList,
      "  [ROOT]  Source root (defaults to $JAVADOC_SCAN_ROOT, then src/main/java)".toList,
      [],
      "Options:".toList,
      "  -f, --format <FORMAT>    [default: text] [possible values: text, json]".toList,
      "  -o, --output <FILE>      ".toList,
      ("      --fail-on-findings   Exit with status 1 when any finding or unreadable file "
        ++ "is reported").toList,
      logLevelLine,
      "      --parallel           Check files on a thread pool".toList,
      "  -h, --help               Print help".toList]
  | files => [
      "List the Java source files that would be scanned".toList,
      [],
      usageLine medium name files "[OPTIONS] [ROOT]".toList,
      [],
      "Arguments:".toList,
      "  [ROOT]  ".toList,
      [],
      "Options:".toList,
      logLevelLine,
      "  -h, --help               Print help".toList]
  | help => [
      "Print this message or the help of the given subcommand(s)".toList,
      [],
      usageLine medium name help "[COMMAND]...".toList,
      [],
      "Arguments:".toList,
      "  [COMMAND]...  Print help for the subcommand(s)".toList]

/-- The help on a topic. -/
def text (medium : Control.Medium) (name : Option Text) (topic : Topic) : Text :=
  ofLines (topic.lines medium name)

end Topic

end JavadocCoverage
