import JavadocCoverage.Command.Implicit
import JavadocCoverage.Command.Root
import JavadocCoverage.Log.Filter
import JavadocCoverage.Report.Audit

/-!
# The program

From the arguments and the environment to a plan, and from the plan and the files to
what is printed, what is written and the exit code.  `Node.run` is a run of the
program on a tree.
-/

namespace JavadocCoverage

/-- What the program takes from the environment: the root, and the filter of the
log. -/
structure Environment where
  root : Option Text := none
  logFilter : Option Text := none

/-- What a run prints on the two streams, and its exit code. -/
structure Output where
  code : Nat
  stdout : Text
  stderr : Text
deriving DecidableEq, Repr

/-- What a run is to do: reply at once, list the sources below a root, or check
them. -/
inductive Plan
  | reply (output : Output)
  | files (filter : Filter) (root : Path)
  | check (filter : Filter) (root : Path) (options : CheckOptions)

/-- The name by which the program was called: the file name of its first argument. -/
def calledName? (arguments : List Text) : Option Text :=
  (arguments.head?.bind fun program => (Path.ofText program).fileName?).map Path.render

/-- The reply to a command line that asks for no work. -/
def Stop.output (name : Option Text) : Stop → Output
  | usage error => ⟨2, [], error.message .stream name ++ ['\n']⟩
  | help topic => ⟨0, topic.text .stream name, []⟩
  | version => ⟨0, versionText, []⟩

/-- The plan of an invocation. -/
def Invocation.plan (invocation : Invocation) (environment : Environment) : Plan :=
  let filter := Filter.choose (environment.logFilter.toList ++ [invocation.logLevel])
  match invocation.command with
  | .files root => .files filter (chooseRoot (root.map Path.ofText) environment.root)
  | .check options =>
    .check filter (chooseRoot (options.root.map Path.ofText) environment.root) options

/-- The plan of a command line.  Its first argument is the name of the program. -/
def plan (arguments : List Text) (environment : Environment) : Plan :=
  match readCommandLine (withImplicitCheck arguments) with
  | .ok invocation => invocation.plan environment
  | .error stop => .reply (stop.output (calledName? arguments))

/-- What the listing of the sources below a root prints. -/
def filesOutput (filter : Filter) (root : Path) (walk : Walk) : Output :=
  ⟨0, renderPaths walk.sources, filter.log (walk.events root)⟩

namespace CheckOptions

/-- The report in the form that is asked for. -/
def content (options : CheckOptions) (report : Report) : Text :=
  match options.format with
  | .text => report.text
  | .json => report.jsonText ++ ['\n']

/-- The path that the report is to be written to. -/
def outputPath? (options : CheckOptions) : Option Path :=
  options.output.map Path.ofText

/-- The events of a check. -/
def events (options : CheckOptions) (root : Path) (walk : Walk) (readings : List FileReading)
    (report : Report) : List Event :=
  .checkStarts root options.format options.parallel :: auditEvents root walk readings report

/-- The exit code of a check whose report was delivered. -/
def exitCode (options : CheckOptions) (report : Report) : Nat :=
  if options.failOnFindings && report.hasProblems then 1 else 0

/-- What a check prints, when the delivery of its report has failed as told.  A report
that is written to a file is not printed. -/
def result (options : CheckOptions) (log : Text) (report : Report)
    (failure : Option Failure) : Output :=
  match failure with
  | some failure =>
    ⟨1, [], log ++ "Error: ".toList ++ failure.task.message ++ "\n\nCaused by:\n    ".toList
      ++ failure.cause.message ++ ['\n']⟩
  | none =>
    ⟨options.exitCode report,
      if options.output.isSome then [] else options.content report, log⟩

end CheckOptions

namespace Node

/-- The check of the sources below a root: the tree that it leaves, and what it
prints.  The answers are those of the system to the writing of the report. -/
def check (tree : Node) (filter : Filter) (root : Path) (options : CheckOptions)
    (durationMs : Nat) (answers : List WriteAnswer := []) : Node × Output :=
  let readings := tree.readings root
  let report := auditReport root durationMs readings
  let log := filter.log (options.events root (tree.walk root) readings report)
  let (tree, failure) :=
    match options.outputPath? with
    | some path => tree.deliver path (Utf8.encode (options.content report)) answers
    | none => (tree, none)
  (tree, options.result log report failure)

/-- A run of the program: the tree that it leaves, and what it prints. -/
def run (tree : Node) (arguments : List Text) (environment : Environment) (durationMs : Nat)
    (answers : List WriteAnswer := []) : Node × Output :=
  match plan arguments environment with
  | .reply output => (tree, output)
  | .files filter root => (tree, filesOutput filter root (tree.walk root))
  | .check filter root options => tree.check filter root options durationMs answers

end Node

end JavadocCoverage
