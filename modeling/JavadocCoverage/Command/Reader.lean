import JavadocCoverage.Command.Help
import JavadocCoverage.Command.Parameter

/-!
# Reading the command line

The reading of arguments, from left to right, up to the first error or request for
help.  A value that stands in an argument of its own is held until the next argument
has been recognised, and is looked at then; an argument that is not recognised is
reported before the value that is held.
-/

namespace JavadocCoverage

/-- The errors of a command line. -/
inductive UsageError
  | unknownArgument (argument : Text)
  | unknownCommand (word : Text)
  | missingValue (parameter : Parameter)
  | invalidValue (value : Text) (parameter : Parameter)
  | repeated (parameter : Parameter)
  | unwantedValue (value : Text) (parameter : Parameter)
  | missingCommand
  | nothingGiven
deriving DecidableEq, Repr

/-- A text between single quotes. -/
def singleQuoted (text : Text) : Text :=
  '\x27' :: text ++ ['\x27']

namespace UsageError

/-- What is said of an error, where the program was called by the given name.  Of what
the user wrote, the control sequences are taken out. -/
def explanation (medium : Control.Medium) (name : Option Text) : UsageError → Text
  | unknownArgument argument =>
    "error: unexpected argument ".toList ++ given argument ++ " found".toList
  | unknownCommand word => "error: unrecognized subcommand ".toList ++ given word
  | missingValue parameter =>
    "error: a value is required for ".toList ++ singleQuoted parameter.label
      ++ " but none was supplied".toList
  | invalidValue value parameter =>
    "error: invalid value ".toList ++ given value ++ " for ".toList ++ singleQuoted parameter.label
  | repeated parameter =>
    "error: the argument ".toList ++ singleQuoted parameter.label
      ++ " cannot be used multiple times".toList
  | unwantedValue value parameter =>
    "error: unexpected value ".toList ++ given value ++ " for ".toList
      ++ singleQuoted parameter.label ++ " found; no more were expected".toList
  | missingCommand =>
    "error: ".toList ++ given (name.getD standardName)
      ++ " requires a subcommand but one was not provided".toList
  | nothingGiven => summaryLine
where
  /-- What the user wrote, as it is shown. -/
  given (text : Text) : Text :=
    singleQuoted (Control.shown medium text)

/-- The first line of what is said of an error. -/
def message (medium : Control.Medium) (name : Option Text) (error : UsageError) : Text :=
  firstLine (error.explanation medium name)

end UsageError

/-- What ends the reading before a command is understood. -/
inductive Stop
  | usage (error : UsageError)
  | help (topic : Topic)
  | version
deriving DecidableEq, Repr

/-- The parameters that have been given in a scope. -/
structure Settings where
  logLevel : Option Text := none
  format : Option Format := none
  output : Option Text := none
  root : Option Text := none
  failOnFindings : Bool := false
  parallel : Bool := false
deriving DecidableEq, Repr

namespace Settings

/-- The parameter has been given. -/
def has (settings : Settings) : Parameter → Bool
  | .logLevel => settings.logLevel.isSome
  | .format => settings.format.isSome
  | .output => settings.output.isSome
  | .root => settings.root.isSome
  | .failOnFindings => settings.failOnFindings
  | .parallel => settings.parallel
  | .help => false
  | .version => false

/-- The settings with the value of a parameter, which has to be one that the parameter
can have. -/
def withValue (settings : Settings) (parameter : Parameter) (value : Text) :
    Except UsageError Settings :=
  match parameter with
  | .logLevel => .ok { settings with logLevel := some value }
  | .format =>
    match Format.ofName? value with
    | some format => .ok { settings with format := some format }
    | none =>
      if value.isEmpty then .error (.missingValue parameter)
      else .error (.invalidValue value parameter)
  | .output =>
    if value.isEmpty then .error (.missingValue parameter)
    else .ok { settings with output := some value }
  | .root =>
    if value.isEmpty then .error (.missingValue parameter)
    else .ok { settings with root := some value }
  | _ => .ok settings

/-- The settings with a value of a parameter that has not been given before. -/
def give (settings : Settings) (parameter : Parameter) (value : Text) :
    Except UsageError Settings :=
  if settings.has parameter then .error (.repeated parameter)
  else settings.withValue parameter value

/-- The settings with a flag that has not been given before. -/
def raise (settings : Settings) (parameter : Parameter) : Except UsageError Settings :=
  if settings.has parameter then .error (.repeated parameter)
  else
    match parameter with
    | .failOnFindings => .ok { settings with failOnFindings := true }
    | .parallel => .ok { settings with parallel := true }
    | _ => .ok settings

end Settings

/-- The state of reading within a scope: what has been given, and the parameter whose
value is held or still awaited. -/
structure Progress where
  settings : Settings := {}
  held : Option (Parameter × Option Text) := none
deriving DecidableEq, Repr

namespace Progress

/-- The parameter whose value is awaited. -/
def awaited? (progress : Progress) : Option Parameter :=
  match progress.held with
  | some (parameter, none) => some parameter
  | _ => none

/-- The root has been given, or is held. -/
def hasRoot (progress : Progress) : Bool :=
  progress.settings.has .root || progress.held.any (·.1 == .root)

/-- What has been given, after a look at what is held. -/
def settle (progress : Progress) : Except Stop Settings :=
  match progress.held with
  | none => .ok progress.settings
  | some (parameter, none) => .error (.usage (.missingValue parameter))
  | some (parameter, some value) => (progress.settings.give parameter value).mapError .usage

end Progress

/-- The forms of an argument. -/
inductive Shape
  /-- Two dashes: all that follows are words. -/
  | separator
  /-- Two dashes and a name, and perhaps a value after a sign of equality. -/
  | long (name : Text) (value : Option Text)
  /-- A dash and a letter, and what follows the letter. -/
  | short (letter : Char) (rest : Text)
  /-- Anything else, a dash alone too. -/
  | word
deriving DecidableEq, Repr

/-- The form of an argument. -/
def Shape.of : Text → Shape
  | ['-', '-'] => separator
  | '-' :: '-' :: rest =>
    match rest.span (· ≠ '=') with
    | (name, []) => long name none
    | (name, _ :: value) => long name (some value)
  | '-' :: letter :: rest => short letter rest
  | _ => word

/-- The topic of the help that a scope gives. -/
def Scope.topic : Scope → Topic
  | program => .program
  | check => .check
  | files => .files

namespace Progress

/-- The reading after a parameter that takes a value, which may be in the same
argument. -/
def takeValue (progress : Progress) (parameter : Parameter) (value : Option Text) :
    Except Stop Progress := do
  let settings ← progress.settle
  match value with
  | some value => return { settings := ← (settings.give parameter value).mapError .usage }
  | none => return { settings, held := some (parameter, none) }

/-- The reading after a parameter without a value.  Help and version end it. -/
def takeFlag (progress : Progress) (scope : Scope) (parameter : Parameter) :
    Except Stop Progress := do
  let settings ← progress.settle
  match parameter with
  | .help => throw (.help scope.topic)
  | .version => throw .version
  | _ => return { settings := ← (settings.raise parameter).mapError .usage }

/-- The reading after an argument that starts with two dashes. -/
def takeLong (progress : Progress) (scope : Scope) (name : Text) (value : Option Text) :
    Except Stop Progress :=
  match scope.ofLongName? name with
  | none => .error (.usage (.unknownArgument ("--".toList ++ name)))
  | some parameter =>
    if parameter.takesValue then progress.takeValue parameter value
    else
      match value with
      | some value => .error (.usage (.unwantedValue value parameter))
      | none => progress.takeFlag scope parameter

/-- The value that follows a letter in the same argument. -/
def attached? : Text → Option Text
  | [] => none
  | '=' :: value => some value
  | value => some value

/-- The reading after an argument that starts with one dash.  The letters that take no
value end the reading, so what follows them does not matter. -/
def takeShort (progress : Progress) (scope : Scope) (letter : Char) (rest : Text) :
    Except Stop Progress :=
  match scope.ofLetter? letter with
  | none => .error (.usage (.unknownArgument ['-', letter]))
  | some parameter =>
    if parameter.takesValue then progress.takeValue parameter (attached? rest)
    else progress.takeFlag scope parameter

/-- The reading after a word, which is the root. -/
def takeRoot (progress : Progress) (word : Text) : Except Stop Progress := do
  if progress.hasRoot then throw (.usage (.unknownArgument word))
  let settings ← progress.settle
  return { settings, held := some (.root, some word) }

/-- The reading after a word: the awaited value, or else the root. -/
def takeWord (progress : Progress) (word : Text) : Except Stop Progress :=
  match progress.awaited? with
  | some parameter => .ok { progress with held := some (parameter, some word) }
  | none => progress.takeRoot word

/-- Reads arguments that are all words. -/
def readWords (progress : Progress) : List Text → Except Stop Settings
  | [] => progress.settle
  | word :: words => do (← progress.takeRoot word).readWords words

/-- Reads the arguments after a command. -/
def read (progress : Progress) (scope : Scope) : List Text → Except Stop Settings
  | [] => progress.settle
  | argument :: arguments =>
    match Shape.of argument with
    | .separator => progress.readWords arguments
    | .long name value => do (← progress.takeLong scope name value).read scope arguments
    | .short letter rest => do (← progress.takeShort scope letter rest).read scope arguments
    | .word => do (← progress.takeWord argument).read scope arguments

end Progress

/-- What a check is asked to do. -/
structure CheckOptions where
  root : Option Text
  format : Format
  output : Option Text
  failOnFindings : Bool
  parallel : Bool
deriving DecidableEq, Repr

/-- The commands that do work. -/
inductive Command
  | check (options : CheckOptions)
  | files (root : Option Text)
deriving DecidableEq, Repr

/-- What the command line asks for. -/
structure Invocation where
  logLevel : Text
  command : Command
deriving DecidableEq, Repr

/-- The words that name commands. -/
inductive CommandName
  | check
  | files
  | help
deriving DecidableEq, Repr

namespace CommandName

/-- The word that names a command. -/
def word : CommandName → Text
  | check => "check".toList
  | files => "files".toList
  | help => "help".toList

/-- The command that a word names. -/
def ofWord? (word : Text) : Option CommandName :=
  [check, files, help].find? (·.word == word)

/-- The topic of the help on a command. -/
def topic : CommandName → Topic
  | check => .check
  | files => .files
  | help => .help

end CommandName

/-- The settings of a check. -/
def Settings.checkOptions (settings : Settings) : CheckOptions :=
  { root := settings.root
    format := settings.format.getD .text
    output := settings.output
    failOnFindings := settings.failOnFindings
    parallel := settings.parallel }

/-- The filter of the log when none is given. -/
def standardLogLevel : Text :=
  "warn".toList

/-- The invocation of a command with the settings given after it and those given
before it. -/
def invocation (outer inner : Settings) (command : Command) : Invocation :=
  ⟨(inner.logLevel.or outer.logLevel).getD standardLogLevel, command⟩

/-- Reads the words after `help`. -/
def readHelp : List Text → Stop
  | [] => .help .program
  | word :: words =>
    match CommandName.ofWord? word, words with
    | none, _ => .usage (.unknownCommand word)
    | some name, [] => .help name.topic
    | some _, word :: _ => .usage (.unknownCommand word)

namespace Progress

/-- The end of a command line without a command. -/
def withoutCommand (progress : Progress) : Stop :=
  match progress.settle with
  | .error stop => stop
  | .ok settings =>
    .usage (if settings.logLevel.isSome then .missingCommand else .nothingGiven)

/-- Reads what stands after the separator, where no command may stand. -/
def readAfterSeparator (progress : Progress) : List Text → Stop
  | [] => progress.withoutCommand
  | word :: _ =>
    .usage (if (CommandName.ofWord? word).isSome then .unknownArgument word
      else .unknownCommand word)

/-- Reads a command and its arguments.  What is held is looked at after them. -/
def readCommand (progress : Progress) (name : CommandName) (arguments : List Text) :
    Except Stop Invocation :=
  match name with
  | .check => do
    let inner ← Progress.read {} .check arguments
    return invocation (← progress.settle) inner (.check inner.checkOptions)
  | .files => do
    let inner ← Progress.read {} .files arguments
    return invocation (← progress.settle) inner (.files inner.root)
  | .help => .error (readHelp arguments)

/-- Reads the arguments of the program. -/
def readProgram (progress : Progress) : List Text → Except Stop Invocation
  | [] => .error progress.withoutCommand
  | argument :: arguments =>
    match Shape.of argument, progress.awaited? with
    | .separator, _ => .error (progress.readAfterSeparator arguments)
    | .long name value, _ => do
      (← progress.takeLong .program name value).readProgram arguments
    | .short letter rest, _ => do
      (← progress.takeShort .program letter rest).readProgram arguments
    | .word, some parameter =>
      readProgram { progress with held := some (parameter, some argument) } arguments
    | .word, none =>
      match CommandName.ofWord? argument with
      | some name => progress.readCommand name arguments
      | none => .error (.usage (.unknownCommand argument))

end Progress

/-- What a command line asks for.  Its first argument is the name of the program. -/
def readCommandLine (arguments : List Text) : Except Stop Invocation :=
  Progress.readProgram {} (arguments.drop 1)

end JavadocCoverage
