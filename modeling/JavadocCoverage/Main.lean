import JavadocCoverage.Program

/-!
# The command line

The program on the files of the machine.  What the program reads is gathered first,
then its output is computed, and then it is written and printed.
-/

namespace JavadocCoverage

/-- The number and the words of an error of the operating system. -/
def osError? : IO.Error → Option (UInt32 × String)
  | .alreadyExists _ code words => some (code, words)
  | .invalidArgument _ code words => some (code, words)
  | .permissionDenied _ code words => some (code, words)
  | .resourceExhausted _ code words => some (code, words)
  | .inappropriateType _ code words => some (code, words)
  | .noSuchThing _ code words => some (code, words)
  | .noFileOrDirectory _ code words => some (code, words)
  | .interrupted _ code words => some (code, words)
  | .otherError code words => some (code, words)
  | .resourceBusy code words => some (code, words)
  | .resourceVanished code words => some (code, words)
  | .unsupportedOperation code words => some (code, words)
  | .hardwareFault code words => some (code, words)
  | .unsatisfiedConstraints code words => some (code, words)
  | .illegalOperation code words => some (code, words)
  | .protocolError code words => some (code, words)
  | .timeExpired code words => some (code, words)
  | .unexpectedEof => none
  | .userError _ => none

/-- The number of an error.  Some of the operations give it negated. -/
def errorNumber (code : UInt32) : Nat :=
  if code.toNat < Nat.pow 2 31 then code.toNat else UInt32.size - code.toNat

/-- The cause that an error stands for. -/
def Cause.ofError (error : IO.Error) : Cause :=
  match osError? error with
  | none => other (toString error).toList
  | some (code, words) =>
    match errorNumber code with
    | 2 => notFound
    | 17 => alreadyExists
    | 20 => notADirectory
    | 21 => isADirectory
    | 36 => nameTooLong
    | 40 => tooManyLinks
    | n => other (words.toList ++ " (os error ".toList ++ decimal n ++ ")".toList)

/-- The path as the operating system takes it. -/
def Path.spelled (path : Path) : String :=
  String.ofList path.render

/-- The directories, links and files below a directory, all files being empty.  A
directory that cannot be opened counts as empty. -/
partial def outline (directory : String) : IO Node := do
  let mut entries := #[]
  for entry in ← (System.mkFilePath [directory]).readDir <|> pure #[] do
    let status ← entry.path.symlinkMetadata
    let node ←
      match status.type with
      | .dir => outline (directory ++ "/" ++ entry.fileName)
      | .symlink => pure (.link [])
      | _ => pure (.file [])
    entries := entries.push (Utf8.encode entry.fileName.toList, node)
  return .directory entries.toList

/-- The walk from a root on the machine. -/
def walkFiles (root : Path) : IO Walk := do
  let location := System.mkFilePath [root.spelled]
  if ← location.isDir then
    let status ← location.symlinkMetadata
    return Node.walkFrom root (status.type == .symlink) (← outline root.spelled)
  else return ⟨false, []⟩

/-- What is read of a file on the machine. -/
def readSource (path : Path) : IO FileReading := do
  try return ⟨path, .ok (← IO.FS.readBinFile path.spelled).toList⟩
  catch error => return ⟨path, .error (Cause.ofError error)⟩

/-- Does a task that may fail. -/
def attempt (task : Task) (work : IO Unit) : IO (Option Failure) := do
  try
    work
    return none
  catch error => return some ⟨task, Cause.ofError error⟩

/-- Writes a report to a path on the machine, after making the directory that the path
needs. -/
def deliver (path : Path) (content : Bytes) : IO (Option Failure) := do
  let parent := path.parent
  let made ←
    if parent.isEmpty then pure none
    else attempt (.createDirectory parent) (IO.FS.createDirAll parent.spelled)
  match made with
  | some failure => return some failure
  | none =>
    attempt (.writeReport path) (IO.FS.writeBinFile path.spelled ⟨content.toArray⟩)

/-- The check of the sources below a root on the machine. -/
def checkFiles (filter : Filter) (root : Path) (options : CheckOptions) : IO Output := do
  let start ← IO.monoMsNow
  let walk ← walkFiles root
  let readings ← walk.sources.mapM readSource
  let report := auditReport root ((← IO.monoMsNow) - start) readings
  let log := filter.log (options.events root walk readings report)
  let failure ←
    match options.outputPath? with
    | some path => deliver path (Utf8.encode (options.content report))
    | none => pure none
  return options.result log report failure

/-- Carries out a plan on the machine. -/
def Plan.carryOut : Plan → IO Output
  | reply output => return output
  | files filter root => return filesOutput filter root (← walkFiles root)
  | check filter root options => checkFiles filter root options

end JavadocCoverage

open JavadocCoverage in
/-- Runs the program with the arguments after its name. -/
def main (arguments : List String) : IO UInt32 := do
  let environment : Environment :=
    ⟨(← IO.getEnv "JAVADOC_SCAN_ROOT").map (·.toList), (← IO.getEnv "RUST_LOG").map (·.toList)⟩
  let output ← (plan (standardName :: arguments.map (·.toList)) environment).carryOut
  IO.eprint (String.ofList output.stderr)
  IO.print (String.ofList output.stdout)
  return UInt32.ofNat output.code
