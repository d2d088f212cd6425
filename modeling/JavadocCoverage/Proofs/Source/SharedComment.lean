import Mathlib.Data.Nat.Init
import Mathlib.Tactic.ByContra
import JavadocCoverage.Proofs.Source.Findings

/-!
# Comments shared by declarations

Where looking back from a line ends: at the nearest line above it that is not transparent, or
nowhere (`decider?`).  A declaration is documented when that line closes a comment
(`Documents`).  Two lines have the same decider just when all lines from the first up to the
second are transparent (`decider?_eq_iff`).  So a comment is shared by declarations only if
those before the last are written on annotation lines, and any other declaration keeps what
is below it from the comments above (`decider?_declarations`).
-/

namespace JavadocCoverage

/-! ### Deciders -/

/-- The line with the given index may be passed over when looking back. -/
def IsTransparentAt (lines : List Text) (index : Nat) : Prop :=
  ∀ line ∈ lines[index]?, line = [] ∨ "@".toList <+: line

instance (lines : List Text) (index : Nat) :
    Decidable (IsTransparentAt lines index) :=
  inferInstanceAs (Decidable (∀ line ∈ lines[index]?, _))

/-- The index of the line at which looking back from a line ends, if it does not run off the
top. -/
def decider? (lines : List Text) : Nat → Option Nat
  | 0 => none
  | index + 1 => if IsTransparentAt lines index then decider? lines index else some index

variable {lines : List Text}

theorem decider?_succ_of_isTransparentAt {index : Nat} (h : IsTransparentAt lines index) :
  decider? lines (index + 1) = decider? lines index
  := if_pos h

theorem decider?_succ_of_not_isTransparentAt {index : Nat} (h : ¬ IsTransparentAt lines index) :
  decider? lines (index + 1) = some index
  := if_neg h

/-- A decider stands above the line. -/
theorem lt_of_decider? {index d : Nat} (h : decider? lines index = some d) :
  d < index
  := by
  induction index with
  | zero => cases h
  | succ index ih =>
    by_cases htransparent : IsTransparentAt lines index
    · rw [decider?_succ_of_isTransparentAt htransparent] at h
      apply Nat.lt_succ_of_lt (ih h)
    · rw [decider?_succ_of_not_isTransparentAt htransparent] at h
      cases h
      apply Nat.lt_succ_self

/-- Over transparent lines, looking back goes on. -/
theorem decider?_eq_of_isTransparentAt
    {i j : Nat} (hij : i ≤ j) (h : ∀ k, i ≤ k → k < j → IsTransparentAt lines k) :
  decider? lines j = decider? lines i
  := by
  induction j, hij using Nat.le_induction with
  | base => rfl
  | succ j hij ih =>
    rw [decider?_succ_of_isTransparentAt (h j hij (Nat.lt_succ_self j))]
    apply ih
    intro k hik hkj
    apply h k hik (Nat.lt_succ_of_lt hkj)

/-- Looking back does not go beyond a line that is not transparent. -/
theorem exists_decider?_of_not_isTransparentAt
    {k j : Nat} (hkj : k < j) (h : ¬ IsTransparentAt lines k) :
  ∃ d, decider? lines j = some d ∧ k ≤ d
  := by
  induction j, hkj using Nat.le_induction with
  | base => exact ⟨k, decider?_succ_of_not_isTransparentAt h, Nat.le_refl k⟩
  | succ j hkj ih =>
    by_cases htransparent : IsTransparentAt lines j
    · rw [decider?_succ_of_isTransparentAt htransparent]
      exact ih
    · exact ⟨j, decider?_succ_of_not_isTransparentAt htransparent, Nat.le_of_lt hkj⟩

/-- Looking back from two lines ends at the same line just when all lines from the first up
to the second are transparent. -/
theorem decider?_eq_iff {i j : Nat} (hij : i ≤ j) :
  decider? lines i = decider? lines j ↔ ∀ k, i ≤ k → k < j → IsTransparentAt lines k
  := by
  constructor
  · intro heq k hik hkj
    by_contra hsolid
    obtain ⟨d, hd, hkd⟩ := exists_decider?_of_not_isTransparentAt hkj hsolid
    have hdi := lt_of_decider? (heq.trans hd)
    omega
  · intro h
    symm
    apply decider?_eq_of_isTransparentAt hij h

/-! ### What documents a line -/

theorem isTransparentAt_iff {index : Nat} {line : Text} (hline : lines[index]? = some line) :
  IsTransparentAt lines index ↔ isTransparent line = true
  := by
  rw [IsTransparentAt, hline, isTransparent_iff]
  simp

/-- What looking back from a line finds is the line with the index of its decider. -/
theorem find?_reverse_take {index : Nat} (hindex : index ≤ lines.length) :
  (lines.take index).reverse.find? (!isTransparent ·) = (decider? lines index).bind (lines[·]?)
  := by
  induction index with
  | zero => rfl
  | succ index ih =>
    have hline := List.getElem?_eq_getElem hindex
    rw [List.take_succ_eq_append_getElem hindex, List.reverse_append, List.reverse_singleton,
      List.singleton_append]
    by_cases htransparent : isTransparent lines[index] = true
    · rw [List.find?_cons_of_neg (by simp [htransparent]), ih (Nat.le_of_succ_le hindex),
        decider?_succ_of_isTransparentAt ((isTransparentAt_iff hline).mpr htransparent)]
    · rw [List.find?_cons_of_pos (by simp [htransparent]),
        decider?_succ_of_not_isTransparentAt (mt (isTransparentAt_iff hline).mp htransparent),
        Option.bind_some, hline]

/-- The line with index `d` documents the line with the given index: looking back from the
latter ends at the former, which closes a comment. -/
def Documents (lines : List Text) (d index : Nat) : Prop :=
  decider? lines index = some d ∧ ∃ line ∈ lines[d]?, closesComment line = true

instance (lines : List Text) (d index : Nat) :
    Decidable (Documents lines d index) :=
  inferInstanceAs (Decidable (_ ∧ ∃ line ∈ lines[d]?, _))

/-- A line is documented when some line documents it. -/
theorem isDocumented_iff_exists_documents {index : Nat} (hindex : index ≤ lines.length) :
  isDocumented (lines.take index).reverse = true ↔ ∃ d, Documents lines d index
  := by
  rw [isDocumented, find?_reverse_take hindex, Option.any_eq_true]
  constructor
  · rintro ⟨line, hline, hcloses⟩
    obtain ⟨d, hd, hline⟩ := Option.bind_eq_some_iff.mp hline
    exact ⟨d, hd, line, hline, hcloses⟩
  · rintro ⟨d, hd, line, hline, hcloses⟩
    exact ⟨line, Option.bind_eq_some_iff.mpr ⟨d, hd, hline⟩, hcloses⟩

/-! ### Declarations -/

/-- The line with the given index is a declaration. -/
def IsDeclarationAt (lines : List Text) (index : Nat) : Prop :=
  ∃ line ∈ lines[index]?, isDeclaration line = true

instance (lines : List Text) (index : Nat) :
    Decidable (IsDeclarationAt lines index) :=
  inferInstanceAs (Decidable (∃ line ∈ lines[index]?, _))

/-- The line with the given index is an annotation. -/
def IsAnnotationAt (lines : List Text) (index : Nat) : Prop :=
  ∃ line ∈ lines[index]?, "@".toList <+: line

instance (lines : List Text) (index : Nat) :
    Decidable (IsAnnotationAt lines index) :=
  inferInstanceAs (Decidable (∃ line ∈ lines[index]?, _))

/-- A declaration that may be passed over is on an annotation line. -/
theorem IsDeclarationAt.isAnnotationAt
    {index : Nat} (h : IsDeclarationAt lines index) (htransparent : IsTransparentAt lines index) :
  IsAnnotationAt lines index
  := by
  obtain ⟨line, hline, hdeclares⟩ := h
  use line, hline
  rcases htransparent line hline with rfl | hannotation
  · cases hdeclares
  · exact hannotation

/-- There is no finding for a declaration just when some line documents it. -/
theorem forall_checkLines_line_ne_iff
    {index : Nat} (h : IsDeclarationAt (lines.map Text.trim) index) :
  (∀ finding ∈ checkLines lines, finding.line ≠ index + 1)
    ↔ ∃ d, Documents (lines.map Text.trim) d index
  := by
  obtain ⟨line, hline, hdeclares⟩ := h
  obtain ⟨hindex, -⟩ := List.getElem?_eq_some_iff.mp hline
  rw [← isDocumented_iff_exists_documents (Nat.le_of_lt hindex)]
  constructor
  · intro hnone
    by_contra hundocumented
    rw [isDocumented_reverse_take_iff _ (Nat.le_of_lt hindex)] at hundocumented
    obtain ⟨kind, hkind⟩ : ∃ kind : DeclarationKind, kind.matches line = true := by
      rcases Bool.or_eq_true_iff.mp hdeclares with htype | hmethod
      · exact ⟨.type, htype⟩
      · exact ⟨.method, hmethod⟩
    apply hnone ⟨kind, index + 1, line⟩ _ rfl
    apply mem_findingsFrom_nil_iff_isDue.mpr
    constructor
    · apply Nat.succ_pos
    · exact hindex
    · exact hline
    · exact hkind
    · exact hundocumented
  · intro hdocumented finding hmem hnumber
    have hdue := mem_findingsFrom_nil_iff_isDue.mp hmem
    apply hdue.undocumented
    rw [hnumber, Nat.add_sub_cancel]
    exact (isDocumented_reverse_take_iff _ (Nat.le_of_lt hindex)).mp hdocumented

/-- A declaration gives no finding when some line documents it.  Looking back from two
declarations ends at the same line, or runs off the top, just when every line from the first
up to the second is empty or an annotation.  So of the declarations that one line documents,
all but the last are on annotation lines; and below a declaration that is on none, nothing
above it documents. -/
theorem decider?_declarations (lines : List Text) :
  let trimmed := lines.map Text.trim
  (∀ i, IsDeclarationAt trimmed i →
    ((∀ finding ∈ checkLines lines, finding.line ≠ i + 1) ↔ ∃ d, Documents trimmed d i))
  ∧ ∀ i j, i < j → IsDeclarationAt trimmed i → IsDeclarationAt trimmed j →
    (decider? trimmed i = decider? trimmed j
      ↔ ∀ k, i ≤ k → k < j → ∀ line ∈ trimmed[k]?, line = [] ∨ "@".toList <+: line)
    ∧ (∀ d, Documents trimmed d i → Documents trimmed d j → IsAnnotationAt trimmed i)
    ∧ (¬ IsAnnotationAt trimmed i → ∀ d, Documents trimmed d j → i ≤ d)
  := by
  intro trimmed
  refine ⟨fun i => forall_checkLines_line_ne_iff, ?_⟩
  intro i j hij hi hj
  have hsame : decider? trimmed i = decider? trimmed j
      ↔ ∀ k, i ≤ k → k < j → IsTransparentAt trimmed k :=
    decider?_eq_iff (Nat.le_of_lt hij)
  refine ⟨hsame, ?_, ?_⟩
  · rintro d ⟨hfirst, -⟩ ⟨hsecond, -⟩
    apply hi.isAnnotationAt
    apply hsame.mp (hfirst.trans hsecond.symm) i (Nat.le_refl i) hij
  · rintro hannotation d ⟨hd, -⟩
    obtain ⟨d', hd', hle⟩ :=
      exists_decider?_of_not_isTransparentAt hij (mt hi.isAnnotationAt hannotation)
    cases hd.symm.trans hd'
    exact hle

/-- A source with one comment above three declarations, the first of them on an annotation
line. -/
def sharedComment : List Text :=
  ["/** B and D. */".toList, "@A public class B \x7b".toList, [], "\t@C".toList,
    "public enum D \x7b".toList, "public record E(int x) \x7b".toList]

/-- The comment documents the first two declarations, and the second one keeps the third from
it. -/
theorem decider?_declarations_sharedComment :
  let trimmed := sharedComment.map Text.trim
  (∀ finding ∈ checkLines sharedComment, finding.line ≠ 2)
    ∧ decider? trimmed 1 = decider? trimmed 4
    ∧ IsAnnotationAt trimmed 1
    ∧ ∀ d, Documents trimmed d 5 → 4 ≤ d
  := by
  intro trimmed
  have hfirst : IsDeclarationAt trimmed 1 := by decide
  have hsecond : IsDeclarationAt trimmed 4 := by decide
  have hthird : IsDeclarationAt trimmed 5 := by decide
  obtain ⟨hfindings, hpairs⟩ := decider?_declarations sharedComment
  obtain ⟨hsame, hannotation, -⟩ := hpairs 1 4 (by decide) hfirst hsecond
  obtain ⟨-, -, hshield⟩ := hpairs 4 5 (by decide) hsecond hthird
  refine ⟨?_, ?_, ?_, ?_⟩
  · apply (hfindings 1 hfirst).mpr
    use 0
    decide
  · apply hsame.mpr
    decide
  · apply hannotation 0
    · decide
    · decide
  · apply hshield
    decide

end JavadocCoverage
