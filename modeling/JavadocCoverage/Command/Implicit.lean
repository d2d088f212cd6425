import JavadocCoverage.Command.Reader

/-!
# The implicit command

The command `check` may be left out: it is put in as the first argument when the
arguments name no command and do not ask for help or the version.
-/

namespace JavadocCoverage

/-- The arguments that take the next argument as their value. -/
def valueArguments : List Text :=
  ["--log-level".toList, "--format".toList, "-f".toList, "--output".toList, "-o".toList]

/-- The arguments that ask the program about itself. -/
def informationArguments : List Text :=
  ["-h".toList, "--help".toList, "-V".toList, "--version".toList]

/-- The first argument that is neither an option nor the value of one names a
command. -/
def namesCommand : List Text → Bool
  | [] => false
  | argument :: arguments =>
    if argument = "--".toList then false
    else if valueArguments.elem argument then
      match arguments with
      | [] => false
      | _ :: arguments => namesCommand arguments
    else if Text.startsWith "-".toList argument then namesCommand arguments
    else (CommandName.ofWord? argument).isSome

/-- Some argument asks the program about itself. -/
def asksForInformation (arguments : List Text) : Bool :=
  arguments.any (informationArguments.elem ·)

/-- The arguments with the command `check` where it may be left out.  The first
argument is the name of the program. -/
def withImplicitCheck : List Text → List Text
  | [] => []
  | program :: arguments =>
    if namesCommand arguments || asksForInformation arguments then program :: arguments
    else program :: CommandName.check.word :: arguments

end JavadocCoverage
