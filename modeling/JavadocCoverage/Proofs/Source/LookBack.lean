import Mathlib.Tactic.Use
import JavadocCoverage.Source.Comment

/-!
# Looking back

What `isDocumented` finds above a line.  The lines above enter into it through one
truth value only, which every line passes on (`isDocumented_cons`): a transparent line
keeps it, and any other line replaces it.  `DocumentedAt` says the same by the positions
of lines, without a search, and `isDocumented_reverse_take_iff` shows the two to agree at
every line.

All lines here are trimmed.
-/

namespace JavadocCoverage

theorem isTransparent_iff
    {line : Text} :
  isTransparent line = true ↔ line = [] ∨ "@".toList <+: line
  := by
  rw [isTransparent, Bool.or_eq_true, List.isEmpty_iff, isAnnotation, Text.startsWith_iff]

theorem closesComment_iff
    {line : Text} :
  closesComment line = true ↔ "*/".toList <:+ line
  := Text.endsIn_iff

/-- A line that closes a comment is transparent only as an annotation. -/
theorem isTransparent_of_closesComment
    {line : Text} (hcloses : closesComment line = true) :
  isTransparent line = isAnnotation line
  := by
  cases line with
  | nil => cases hcloses
  | cons c line => rfl

/-! ### One line -/

/-- What stands below a line is documented, when `documented` tells whether the line
itself is. -/
def documentedBelow (documented : Bool) (line : Text) : Bool :=
  if isTransparent line then documented else closesComment line

theorem documentedBelow_of_isTransparent
    {line : Text} (h : isTransparent line = true) (documented : Bool) :
  documentedBelow documented line = documented
  := if_pos h

/-- Below a line that is not transparent, nothing above the line counts. -/
theorem documentedBelow_of_not_isTransparent
    {line : Text} (h : isTransparent line = false) (documented : Bool) :
  documentedBelow documented line = closesComment line
  := by
  rw [documentedBelow, h]
  rfl

/-! ### Many lines -/

theorem isDocumented_nil :
  isDocumented [] = false
  := rfl

theorem isDocumented_cons
    (line : Text) (above : List Text) :
  isDocumented (line :: above) = documentedBelow (isDocumented above) line
  := by
  cases hline : isTransparent line with
  | true =>
    rw [documentedBelow_of_isTransparent hline, isDocumented,
      List.find?_cons_of_neg (by simp [hline])]
    rfl
  | false =>
    rw [documentedBelow_of_not_isTransparent hline, isDocumented,
      List.find?_cons_of_pos (by simp [hline])]
    rfl

/-- What stands below the end of a comment is documented. -/
theorem isDocumented_cons_of_closesComment
    {line : Text} (hcloses : closesComment line = true) (hmarker : isAnnotation line = false)
    (above : List Text) :
  isDocumented (line :: above) = true
  := by
  have htransparent := isTransparent_of_closesComment hcloses
  rw [isDocumented_cons, documentedBelow_of_not_isTransparent (htransparent.trans hmarker), hcloses]

/-- More documentation above a line never means less below it. -/
theorem isDocumented_cons_mono
    {above above' : List Text} (h : isDocumented above = true → isDocumented above' = true)
    (line : Text) (hbelow : isDocumented (line :: above) = true) :
  isDocumented (line :: above') = true
  := by
  rw [isDocumented_cons] at hbelow ⊢
  cases hline : isTransparent line with
  | true =>
    rw [documentedBelow_of_isTransparent hline] at hbelow ⊢
    apply h hbelow
  | false =>
    rw [documentedBelow_of_not_isTransparent hline] at hbelow ⊢
    apply hbelow

/-- Transparent lines may stand between a comment and what it documents. -/
theorem isDocumented_append_of_isTransparent
    {block : List Text} (h : ∀ line ∈ block, isTransparent line = true) (above : List Text) :
  isDocumented (block ++ above) = isDocumented above
  := by
  induction block with
  | nil => rfl
  | cons line block ih =>
    obtain ⟨hline, hblock⟩ := List.forall_mem_cons.mp h
    rw [List.cons_append, isDocumented_cons, documentedBelow_of_isTransparent hline, ih hblock]

/-! ### Positions -/

/-- Some line above the one with the given index ends a comment and is neither empty
nor an annotation, and every line between the two is empty or an annotation. -/
def DocumentedAt (lines : List Text) (index : Nat) : Prop :=
  ∃ d < index, (∃ line ∈ lines[d]?, line ≠ [] ∧ ¬ "@".toList <+: line ∧ "*/".toList <:+ line) ∧
    ∀ k < index, d < k → ∀ line ∈ lines[k]?, line = [] ∨ "@".toList <+: line

instance (lines : List Text) (index : Nat) :
    Decidable (DocumentedAt lines index) :=
  inferInstanceAs (Decidable (∃ d < index, _ ∧ _))

theorem not_documentedAt_zero
    (lines : List Text) :
  ¬ DocumentedAt lines 0
  := by
  rintro ⟨d, hd, -⟩
  apply Nat.not_lt_zero d hd

/-- Below a transparent line, what counts for the line counts still. -/
theorem documentedAt_succ_of_isTransparent
    {lines : List Text} {index : Nat} {line : Text} (hline : lines[index]? = some line)
    (htransparent : isTransparent line = true) :
  DocumentedAt lines (index + 1) ↔ DocumentedAt lines index
  := by
  constructor
  · rintro ⟨d, hd, ⟨closing, hmem, hclosing⟩, hbetween⟩
    have hne : d ≠ index := by
      rintro rfl
      obtain rfl : line = closing := Option.some.inj (hline.symm.trans hmem)
      rcases isTransparent_iff.mp htransparent with h | h
      · apply hclosing.1 h
      · apply hclosing.2.1 h
    use d, by omega, ⟨closing, hmem, hclosing⟩
    intro k hk
    apply hbetween k (by omega)
  · rintro ⟨d, hd, hclosing, hbetween⟩
    use d, by omega, hclosing
    intro k hk hdk other hmem
    rcases Nat.lt_succ_iff_lt_or_eq.mp hk with h | rfl
    · apply hbetween k h hdk other hmem
    · obtain rfl : line = other := Option.some.inj (hline.symm.trans hmem)
      apply isTransparent_iff.mp htransparent

/-- Below a line that is not transparent, the line decides. -/
theorem documentedAt_succ_of_not_isTransparent
    {lines : List Text} {index : Nat} {line : Text} (hline : lines[index]? = some line)
    (htransparent : isTransparent line = false) :
  DocumentedAt lines (index + 1) ↔ closesComment line = true
  := by
  have hsolid : ¬ (line = [] ∨ "@".toList <+: line) := by
    rw [← isTransparent_iff, htransparent]
    apply Bool.false_ne_true
  constructor
  · rintro ⟨d, hd, ⟨closing, hmem, hclosing⟩, hbetween⟩
    -- A comment that ends further up is cut off by the line itself.
    rcases Nat.lt_succ_iff_lt_or_eq.mp hd with h | rfl
    · apply absurd (hbetween index (by omega) h line hline) hsolid
    · obtain rfl : line = closing := Option.some.inj (hline.symm.trans hmem)
      apply closesComment_iff.mpr hclosing.2.2
  · intro hcloses
    obtain ⟨hne, hmarker⟩ := not_or.mp hsolid
    use index, by omega, ⟨line, hline, hne, hmarker, closesComment_iff.mp hcloses⟩
    intro k hk hindex
    omega

/-- Looking back from a line finds it documented exactly when the positions of the
lines above it say so. -/
theorem isDocumented_reverse_take_iff
    (lines : List Text) {index : Nat} (hindex : index ≤ lines.length) :
  isDocumented (lines.take index).reverse = true ↔ DocumentedAt lines index
  := by
  induction index with
  | zero => simpa [isDocumented_nil] using not_documentedAt_zero lines
  | succ index ih =>
    have hline := List.getElem?_eq_getElem hindex
    rw [List.take_succ_eq_append_getElem hindex, List.reverse_append, List.reverse_singleton,
      List.singleton_append, isDocumented_cons]
    cases htransparent : isTransparent lines[index] with
    | true =>
      rw [documentedBelow_of_isTransparent htransparent,
        documentedAt_succ_of_isTransparent hline htransparent]
      apply ih (Nat.le_of_succ_le hindex)
    | false =>
      rw [documentedBelow_of_not_isTransparent htransparent,
        documentedAt_succ_of_not_isTransparent hline htransparent]

/-- An annotation and an empty line stand between the comment and what it documents. -/
example :
    DocumentedAt ["/** A. */".toList, "@B".toList, [], "public class C \x7b".toList] 3 := by
  decide

end JavadocCoverage
