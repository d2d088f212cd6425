import JavadocCoverage.Log.Event

/-!
# Parameters

The parameters of the command line, the names they are given by, and the scopes in
which they are known: before the command, and after each of the two commands that
take parameters.
-/

namespace JavadocCoverage

/-- The parameters of the command line. -/
inductive Parameter
  | logLevel
  | format
  | output
  | root
  | failOnFindings
  | parallel
  | help
  | version
deriving DecidableEq, Repr

namespace Parameter

/-- A parameter as it is shown to a user. -/
def label : Parameter → Text
  | logLevel => "--log-level <LEVEL>".toList
  | format => "--format <FORMAT>".toList
  | output => "--output <FILE>".toList
  | root => "[ROOT]".toList
  | failOnFindings => "--fail-on-findings".toList
  | parallel => "--parallel".toList
  | help => "--help".toList
  | version => "--version".toList

/-- The name of a parameter after two dashes. -/
def longName? : Parameter → Option Text
  | logLevel => some "log-level".toList
  | format => some "format".toList
  | output => some "output".toList
  | root => none
  | failOnFindings => some "fail-on-findings".toList
  | parallel => some "parallel".toList
  | help => some "help".toList
  | version => some "version".toList

/-- The letter of a parameter after one dash. -/
def letter? : Parameter → Option Char
  | format => some 'f'
  | output => some 'o'
  | help => some 'h'
  | version => some 'V'
  | _ => none

/-- The parameter is given with a value. -/
def takesValue : Parameter → Bool
  | logLevel => true
  | format => true
  | output => true
  | root => true
  | _ => false

end Parameter

/-- The places on the command line: before the command, or after one that takes
parameters. -/
inductive Scope
  | program
  | check
  | files
deriving DecidableEq, Repr

namespace Scope

/-- The parameters that are given by name in a scope. -/
def named : Scope → List Parameter
  | program => [.logLevel, .help, .version]
  | check => [.format, .output, .failOnFindings, .logLevel, .parallel, .help]
  | files => [.logLevel, .help]

/-- The parameter with the given name in a scope. -/
def ofLongName? (scope : Scope) (name : Text) : Option Parameter :=
  scope.named.find? (·.longName? == some name)

/-- The parameter with the given letter in a scope. -/
def ofLetter? (scope : Scope) (letter : Char) : Option Parameter :=
  scope.named.find? (·.letter? == some letter)

end Scope

/-- The form of a report with the given name. -/
def Format.ofName? (name : Text) : Option Format :=
  if name = "text".toList then some .text
  else if name = "json".toList then some .json
  else none

end JavadocCoverage
