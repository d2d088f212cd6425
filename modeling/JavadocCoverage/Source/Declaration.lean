import JavadocCoverage.Text.Basic

/-!
# Declarations

The two kinds of public declaration that want a documentation comment, and the
tests that tell them from one line of source.  The tests look for words in the
line and do not parse it.
-/

namespace JavadocCoverage

/-- The kinds of declaration. -/
inductive DeclarationKind
  | type
  | method
deriving DecidableEq, Repr

namespace DeclarationKind

/-- The heading under which a kind is shown. -/
def label : DeclarationKind → Text
  | type => "Class/Interface".toList
  | method => "Method".toList

end DeclarationKind

/-- The word that both kinds of declaration need. -/
def visibilityWord : Text := "public".toList

/-- The words that introduce a type. -/
def typeWords : List Text :=
  ["class ".toList, "interface ".toList, "enum ".toList, "record ".toList]

/-- The line declares a public class, interface, enumeration or record. -/
def isTypeDeclaration (line : Text) : Bool :=
  Text.occursIn visibilityWord line && typeWords.any (Text.occursIn · line)

/-- The line declares a public method or constructor: it has the visibility word,
both parentheses and an opening brace, and neither constructs a value nor assigns
one. -/
def isMethodDeclaration (line : Text) : Bool :=
  Text.occursIn visibilityWord line && line.elem '(' && line.elem ')' && line.elem '\x7b'
    && !Text.occursIn "new ".toList line && !line.elem '='

/-- The line is a declaration of the given kind. -/
def DeclarationKind.matches : DeclarationKind → Text → Bool
  | type, line => isTypeDeclaration line
  | method, line => isMethodDeclaration line

/-- The line is a declaration of some kind. -/
def isDeclaration (line : Text) : Bool :=
  isTypeDeclaration line || isMethodDeclaration line

/-- The kinds of declaration that the line is, types first. -/
def declarationKinds (line : Text) : List DeclarationKind :=
  [DeclarationKind.type, DeclarationKind.method].filter (·.matches line)

end JavadocCoverage
