import JavadocCoverage.Files.Change
import JavadocCoverage.Files.Walk
import JavadocCoverage.Log.Event

/-!
# Audits

From what was read of a file to what a check has to say of it, and to the events that
are told on the way; and from a walk and its readings to the report on all files.
-/

namespace JavadocCoverage

/-- What was read of the file at a path: its content, or why there is none. -/
structure FileReading where
  path : Path
  content : Except Cause Bytes

namespace FileReading

/-- That the file could not be read. -/
def failure (reading : FileReading) (cause : Cause) : Failure :=
  ⟨.readSource reading.path, cause⟩

/-- The source that was read, or why there is none. -/
def source (reading : FileReading) : Except Failure SourceFile :=
  match reading.content with
  | .ok content => .ok (SourceFile.ofText reading.path (Utf8.decode content))
  | .error cause => .error (reading.failure cause)

/-- The report on the file. -/
def report (reading : FileReading) : FileReport :=
  match reading.source with
  | .ok source => ⟨reading.path.render, source.check, none⟩
  | .error failure => ⟨reading.path.render, [], some failure.message⟩

/-- The events of the audit of the file. -/
def events (reading : FileReading) : List Event :=
  match reading.content with
  | .error cause => [.unreadable reading.path (reading.failure cause)]
  | .ok content =>
    let scan := scanLines (splitLines (Utf8.decode content))
    (if Utf8.isWellFormed content then [] else [.illFormedSource reading.path])
      ++ (if scan.unterminatedComment then [.commentStaysOpen reading.path scan.lastCommentEnd]
        else [])

end FileReading

/-- The event of a visit that is not to a source. -/
def Visit.event? (root : Path) : Visit → Option Event
  | source _ => none
  | unopenable path cause => some (.unopenable root path cause)

/-- The events of a walk. -/
def Walk.events (root : Path) (walk : Walk) : List Event :=
  if walk.rootIsDirectory then walk.visits.filterMap (Visit.event? root)
  else [.rootIsNoDirectory root]

/-- The events of the audit of all files below a root. -/
def auditEvents (root : Path) (walk : Walk) (readings : List FileReading) (report : Report) :
    List Event :=
  walk.events root ++ .sourcesFound root readings.length :: readings.flatMap FileReading.events
    ++ [.scanFinished report]

/-- The report on the files that were read below a root. -/
def auditReport (root : Path) (durationMs : Nat) (readings : List FileReading) : Report :=
  Report.summarize root durationMs (readings.map FileReading.report)

namespace Node

/-- What is read of the file at a path. -/
def reading (tree : Node) (path : Path) : FileReading :=
  ⟨path, tree.read path⟩

/-- What is read of the sources below a root, in the order of the walk. -/
def readings (tree : Node) (root : Path) : List FileReading :=
  (tree.findSources root).map tree.reading

/-- The report on the sources below a root. -/
def audit (tree : Node) (root : Path) (durationMs : Nat) : Report :=
  auditReport root durationMs (tree.readings root)

end Node

end JavadocCoverage
