import Mathlib.Tactic.ByContra
import JavadocCoverage.Proofs.Files.Place

/-!
# The last name of a path

The last name of a path, read off its octets: it is what stands behind the last slash, or is
the whole path, once the slashes and the segments `.` at the end are dropped
(`HasLastName`).  A path names a source just when its last name is not `..` and ends in the
octets of the ending of sources (`isSource_iff`).  The name is compared as a text, which
makes no difference: in decoded octets, the ending is found only where its own octets are.
-/

namespace JavadocCoverage

namespace Path

/-- The path ends in the name, apart from slashes and segments `.` behind it. -/
inductive HasLastName : Path → Name → Prop
  | alone {name : Name} (hslash : slash ∉ name) (hidle : name ≠ [] ∧ name ≠ here) :
    HasLastName name name
  | behind (above : Path) {name : Name} (hslash : slash ∉ name) (hidle : name ≠ [] ∧ name ≠ here) :
    HasLastName (above ++ slash :: name) name
  | slash {path : Path} {name : Name} (h : HasLastName path name) :
    HasLastName (path ++ [Path.slash]) name
  | here {path : Path} {name : Name} (h : HasLastName path name) :
    HasLastName (path ++ Path.slash :: Path.here) name

/-- The last segment of a path that is not idle. -/
def lastName? (path : Path) : Option Name :=
  (path.segments.reverse.dropWhile isIdle).head?

/-- The file name of a path is its last name, unless that leads upward. -/
theorem fileName?_eq_some_iff {path : Path} {name : Name} :
  path.fileName? = some name ↔ path.lastName? = some name ∧ name ≠ up
  := by
  rw [fileName?, lastName?]
  cases path.segments.reverse.dropWhile isIdle with
  | nil => simp
  | cons last rest =>
    dsimp only [List.head?_cons]
    rw [Option.some_inj]
    by_cases hup : last = up
    · rw [if_pos hup]
      constructor
      · rintro ⟨⟩
      · rintro ⟨rfl, hname⟩
        exact absurd hup hname
    · rw [if_neg hup, Option.some_inj]
      constructor
      · rintro rfl
        exact ⟨rfl, hup⟩
      · rintro ⟨rfl, -⟩
        rfl

theorem isIdle_iff {segment : Name} :
  isIdle segment = true ↔ segment = [] ∨ segment = here
  := by
  simp [isIdle]

section

variable {segment : Name} (hslash : slash ∉ segment)
include hslash

theorem lastName?_segment :
  lastName? segment = if isIdle segment then none else some segment
  := by
  rw [lastName?, segments_name hslash, List.reverse_singleton, List.dropWhile_cons]
  cases isIdle segment <;> rfl

/-- Behind an idle segment, the last name is that of the path before it. -/
theorem lastName?_append_slash (above : Path) :
  lastName? (above ++ slash :: segment) = if isIdle segment then above.lastName? else some segment
  := by
  rw [lastName?, segments_append_slash above hslash, List.reverse_append, List.reverse_singleton,
    List.singleton_append, List.dropWhile_cons]
  cases isIdle segment <;> rfl

end

/-- A path is a single segment or has a last one. -/
theorem exists_last_segment (path : Path) :
  slash ∉ path ∨ ∃ above segment, path = above ++ slash :: segment ∧ slash ∉ segment
  := by
  by_cases hslash : slash ∈ path
  · right
    obtain ⟨front, back, hreverse, hfront⟩ :=
      List.eq_append_cons_of_mem (List.mem_reverse.mpr hslash)
    use back.reverse, front.reverse
    constructor
    · rw [← List.reverse_reverse path, hreverse]
      simp
    · rw [List.mem_reverse]
      exact hfront
  · left
    exact hslash

theorem HasLastName.lastName? {path : Path} {name : Name} (h : HasLastName path name) :
  path.lastName? = some name
  := by
  induction h with
  | alone hslash hidle =>
    rw [lastName?_segment hslash, if_neg (by rwa [isIdle_iff, not_or])]
  | behind above hslash hidle =>
    rw [lastName?_append_slash hslash, if_neg (by rwa [isIdle_iff, not_or])]
  | slash h ih =>
    rw [lastName?_append_slash List.not_mem_nil, if_pos (isIdle_iff.mpr (Or.inl rfl)), ih]
  | here h ih =>
    rw [lastName?_append_slash (by decide), if_pos (isIdle_iff.mpr (Or.inr rfl)), ih]

theorem hasLastName_of_lastName? {path : Path} {name : Name} (h : path.lastName? = some name) :
  HasLastName path name
  := by
  induction hlength : path.length using Nat.strong_induction_on generalizing path with
  | _ length ih =>
    rcases path.exists_last_segment with hslash | ⟨above, segment, rfl, hslash⟩
    · rw [lastName?_segment hslash] at h
      split at h
      · cases h
      · next hidle =>
        cases h
        rw [isIdle_iff, not_or] at hidle
        apply HasLastName.alone hslash hidle
    · rw [lastName?_append_slash hslash] at h
      have habove : above.length < length := by
        rw [← hlength]
        simp
      split at h
      · next hidle =>
        have hrest := ih above.length habove h rfl
        rcases isIdle_iff.mp hidle with rfl | rfl
        · apply hrest.slash
        · apply hrest.here
      · next hidle =>
        cases h
        rw [isIdle_iff, not_or] at hidle
        apply HasLastName.behind above hslash hidle

theorem lastName?_eq_some_iff {path : Path} {name : Name} :
  path.lastName? = some name ↔ HasLastName path name
  := ⟨hasLastName_of_lastName?, HasLastName.lastName?⟩

/-- A path has one last name at most. -/
theorem HasLastName.unique
    {path : Path} {name name' : Name} (h : HasLastName path name) (h' : HasLastName path name') :
  name = name'
  := Option.some.inj (h.lastName?.symm.trans h'.lastName?)

/-- A path names a source just when, apart from slashes and segments `.` at its end, it has a
last name, this is not `..`, and its octets end in those of the ending of sources.  As a
text, no name gains or loses that ending. -/
theorem isSource_iff (path : Path) :
  (path.isSource = true ↔ ∃ name, path.HasLastName name ∧ name ≠ up ∧ sourceOctets <:+ name)
    ∧ ∀ name : Name, Text.endsIn ".java".toList (Utf8.decode name) = true ↔ sourceOctets <:+ name
  := by
  constructor
  · rw [isSource, Option.any_eq_true]
    simp only [fileName?_eq_some_iff, lastName?_eq_some_iff, endsIn_sourceEnding_decode_iff,
      and_assoc]
  · intro name
    exact endsIn_sourceEnding_decode_iff

/-- The name of a source may have a broken character right before its ending, and a slash and
a segment `.` behind it. -/
example :
    isSource ([0x61, 0x2F, 0xE2, 0x82] ++ sourceOctets ++ [0x2F, 0x2F, 0x2E]) = true := by
  decide +kernel

end Path

end JavadocCoverage
