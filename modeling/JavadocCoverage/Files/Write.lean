import JavadocCoverage.Files.Cause

/-!
# Writing octets

Octets are written to an open file piece by piece: the system is asked to write what
is left, and answers how much of it has been written, until nothing is left or the
system refuses.  Whether it refuses is not a matter of the files: a disk may be full,
a quota used up, a limit reached.  So its answers are taken as they come.  A request
that a signal has broken off is made again and not counted.
-/

namespace JavadocCoverage

/-- The answer of the system when it is asked to write: how many octets it has
written, or why it has written none. -/
inductive WriteAnswer
  | wrote (count : Nat)
  | refused (cause : Cause)
deriving DecidableEq, Repr

/-- What comes of writing octets: the octets that are written, and the cause for
which the others are not.  When no answers are left, the system writes all that it is
asked for. -/
def writeAll : List WriteAnswer → Bytes → Bytes × Option Cause
  | _, [] => ([], none)
  | [], octets => (octets, none)
  | .refused cause :: _, _ => ([], some cause)
  | .wrote 0 :: _, _ => ([], some .nothingWritten)
  | .wrote (count + 1) :: answers, octets =>
    let (written, cause?) := writeAll answers (octets.drop (count + 1))
    (octets.take (count + 1) ++ written, cause?)

end JavadocCoverage
