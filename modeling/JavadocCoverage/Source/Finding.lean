import JavadocCoverage.Source.Declaration
import JavadocCoverage.Text.Decimal

/-!
# Findings

A finding is a declaration that has no documentation comment.
-/

namespace JavadocCoverage

/-- A declaration without a documentation comment: its kind, the number of its
line, counted from 1, and the line without the white space at its ends. -/
structure Finding where
  kind : DeclarationKind
  line : Nat
  text : Text
deriving DecidableEq, Repr

/-- A finding as it is shown to a reader. -/
def Finding.render (finding : Finding) : Text :=
  finding.kind.label ++ ": ".toList ++ finding.text ++ " at line ".toList ++ decimal finding.line

end JavadocCoverage
