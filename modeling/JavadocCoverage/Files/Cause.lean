import JavadocCoverage.Files.Path

/-!
# Why a file operation fails

The causes for which an operation on files fails, and the failures of the program
that they lead to.
-/

namespace JavadocCoverage

/-- The causes for which an operation on files fails. -/
inductive Cause
  | notFound
  | alreadyExists
  | notADirectory
  | isADirectory
  | nameTooLong
  | tooManyLinks
  | zeroOctet
  /-- The system has written nothing of what it was asked to write. -/
  | nothingWritten
  /-- Any other cause, in words. -/
  | other (words : Text)
deriving DecidableEq, Repr

/-- A cause as it is shown to a reader. -/
def Cause.message : Cause → Text
  | notFound => "No such file or directory (os error 2)".toList
  | alreadyExists => "File exists (os error 17)".toList
  | notADirectory => "Not a directory (os error 20)".toList
  | isADirectory => "Is a directory (os error 21)".toList
  | nameTooLong => "File name too long (os error 36)".toList
  | tooManyLinks => "Too many levels of symbolic links (os error 40)".toList
  | zeroOctet => "file name contained an unexpected NUL byte".toList
  | nothingWritten => "failed to write whole buffer".toList
  | other words => words

/-- What the program was doing when an operation failed. -/
inductive Task
  | readSource (path : Path)
  | createDirectory (path : Path)
  | writeReport (path : Path)
deriving DecidableEq, Repr

/-- That a task failed, as it is shown to a reader. -/
def Task.message : Task → Text
  | readSource path => "Failed to read source file: ".toList ++ path.render
  | createDirectory path => "Failed to create directory: ".toList ++ path.render
  | writeReport path => "Failed to write report: ".toList ++ path.render

/-- A task that failed, and why. -/
structure Failure where
  task : Task
  cause : Cause
deriving DecidableEq, Repr

/-- A failure in one line. -/
def Failure.message (failure : Failure) : Text :=
  failure.task.message ++ ": ".toList ++ failure.cause.message

end JavadocCoverage
