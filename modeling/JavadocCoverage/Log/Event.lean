import JavadocCoverage.Files.Cause
import JavadocCoverage.Report.Rendering

/-!
# Log events

What the program tells of its work while it works: the events, and for each its
level, the module it is told by, its message, its fields, and its line in the log.
-/

namespace JavadocCoverage

/-- The levels of events, from grave to detailed. -/
inductive Level
  | error
  | warn
  | info
  | debug
  | trace
deriving DecidableEq, Repr

namespace Level

/-- How detailed a level is. -/
def detail : Level → Nat
  | error => 1
  | warn => 2
  | info => 3
  | debug => 4
  | trace => 5

/-- The name of a level in the log. -/
def label : Level → Text
  | error => "ERROR".toList
  | warn => "WARN".toList
  | info => "INFO".toList
  | debug => "DEBUG".toList
  | trace => "TRACE".toList

end Level

/-- The forms of a report. -/
inductive Format
  | text
  | json
deriving DecidableEq, Repr

/-- The name of a form in the log. -/
def Format.label : Format → Text
  | text => "Text".toList
  | json => "Json".toList

/-- The events of the program's work. -/
inductive Event
  | checkStarts (root : Path) (format : Format) (parallel : Bool)
  | rootIsNoDirectory (root : Path)
  | unopenable (root path : Path) (cause : Cause)
  | sourcesFound (root : Path) (count : Nat)
  | illFormedSource (path : Path)
  | commentStaysOpen (path : Path) (lastEnd : Option Nat)
  | unreadable (path : Path) (failure : Failure)
  | scanFinished (report : Report)
deriving DecidableEq, Repr

namespace Event

/-- The level of an event. -/
def level : Event → Level
  | unreadable .. => .warn
  | scanFinished .. => .info
  | _ => .debug

/-- The module that tells an event. -/
def origin : Event → Text
  | checkStarts .. => "javadoc_scan::main".toList
  | rootIsNoDirectory .. => "javadoc_scan::scan".toList
  | unopenable .. => "javadoc_scan::scan".toList
  | illFormedSource .. => "javadoc_scan::doc".toList
  | _ => "javadoc_scan::audit".toList

/-- The message of an event. -/
def message : Event → Text
  | checkStarts .. => "starting check".toList
  | rootIsNoDirectory .. => "root is not a directory, nothing to scan".toList
  | unopenable .. => "skipping unwalkable entry".toList
  | sourcesFound .. => "discovered java sources".toList
  | illFormedSource .. => "source is not valid UTF-8, decoding lossily".toList
  | commentStaysOpen .. => "file ends inside an unclosed doc comment".toList
  | unreadable .. => "skipping unreadable file".toList
  | scanFinished .. => "scan finished".toList

/-- A truth value in the log. -/
def renderBool (b : Bool) : Text :=
  if b then "true".toList else "false".toList

/-- An index that may be missing, in the log. -/
def renderIndex : Option Nat → Text
  | none => "None".toList
  | some n => "Some(".toList ++ decimal n ++ ")".toList

/-- The fields of an event besides its message, in order. -/
def fields : Event → List (Text × Text)
  | checkStarts root format parallel =>
    [("root".toList, root.render), ("format".toList, format.label),
      ("parallel".toList, renderBool parallel)]
  | rootIsNoDirectory root => [("root".toList, root.render)]
  | unopenable root path cause =>
    [("root".toList, root.render),
      ("error".toList, path.render ++ ": IO error for operation on ".toList ++ path.render
        ++ ": ".toList ++ cause.message)]
  | sourcesFound root count => [("root".toList, root.render), ("files".toList, decimal count)]
  | illFormedSource path => [("path".toList, path.render)]
  | commentStaysOpen path lastEnd =>
    [("path".toList, path.render), ("last_comment_end".toList, renderIndex lastEnd)]
  | unreadable path failure =>
    [("path".toList, path.render), ("error".toList, failure.message)]
  | scanFinished report =>
    [("root".toList, report.root), ("files_scanned".toList, decimal report.filesScanned),
      ("files_with_findings".toList, decimal report.filesWithFindings),
      ("total_findings".toList, decimal report.totalFindings),
      ("unreadable_files".toList, decimal report.unreadableFiles),
      ("duration_ms".toList, decimal report.durationMs)]

/-- The event has a field of the given name. -/
def hasField (event : Event) (name : Text) : Bool :=
  name == "message".toList || event.fields.any (·.1 == name)

/-- The line of an event in the log. -/
def line (event : Event) : Text :=
  event.level.label ++ ' ' :: event.message
    ++ event.fields.flatMap fun (name, value) => ' ' :: name ++ '=' :: value

end Event

end JavadocCoverage
