import JavadocCoverage.Files.Path
import JavadocCoverage.Text.WhiteSpace

/-!
# The root

The directory below which sources are looked for.
-/

namespace JavadocCoverage

/-- The root when none is given. -/
def standardRoot : Path :=
  Path.ofText "src/main/java".toList

/-- The root: the one that is given as an argument, or else the one that the
environment gives, if it is not blank, or else the standard one. -/
def chooseRoot (argument : Option Path) (environment : Option Text) : Path :=
  match argument, environment.filter (!Text.isBlank ·) with
  | some root, _ => root
  | none, some root => Path.ofText root
  | none, none => standardRoot

end JavadocCoverage
