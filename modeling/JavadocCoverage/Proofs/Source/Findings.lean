import JavadocCoverage.Proofs.Source.LookBack
import JavadocCoverage.Source.Scan

/-!
# Which findings there are

The findings in a list of lines, read off the lines: `Finding.IsDue` says by
positions alone which declarations want a comment and have none.  The findings of a
scan are those that are due, each once, and in the order `Finding.Precedes`.

The first part holds the laws of `findingsFrom` from which everything about findings
is derived: how it goes over blocks of lines, how far it depends on what stands above
and on the number of the first line, and which numbers its findings have.
-/

namespace JavadocCoverage

/-! ### The findings of one line -/

theorem lineFindings_eq
    (above : List Text) (number : Nat) (line : Text) :
  lineFindings above number line
    = if isDocumented above then [] else (declarationKinds line).map (⟨·, number, line⟩)
  := by
  cases h : isDocumented above with
  | true => simp [lineFindings, h]
  | false => simp [lineFindings, h]

theorem lineFindings_of_isDocumented
    {above : List Text} (h : isDocumented above = true) (number : Nat) (line : Text) :
  lineFindings above number line = []
  := by
  rw [lineFindings_eq, if_pos h]

theorem declarationKinds_eq_nil
    {line : Text} (h : isDeclaration line = false) :
  declarationKinds line = []
  := by
  obtain ⟨htype, hmethod⟩ := Bool.or_eq_false_iff.mp h
  simp [declarationKinds, DeclarationKind.matches, htype, hmethod]

theorem lineFindings_of_not_isDeclaration
    {line : Text} (h : isDeclaration line = false) (above : List Text) (number : Nat) :
  lineFindings above number line = []
  := by
  rw [lineFindings, declarationKinds_eq_nil h]
  rfl

theorem mem_declarationKinds
    {kind : DeclarationKind} {line : Text} :
  kind ∈ declarationKinds line ↔ kind.matches line = true
  := by
  cases kind <;> simp [declarationKinds]

theorem mem_lineFindings
    {finding : Finding} {above : List Text} {number : Nat} {line : Text} :
  finding ∈ lineFindings above number line ↔
    finding.line = number ∧ finding.text = line ∧ finding.kind.matches line = true ∧
      isDocumented above = false
  := by
  obtain ⟨kind, _, _⟩ := finding
  cases h : isDocumented above with
  | true => simp [lineFindings_eq, h]
  | false =>
    simp only [lineFindings_eq, h, Bool.false_eq_true, if_false, List.mem_map, Finding.mk.injEq,
      and_true]
    constructor
    · rintro ⟨_, hmem, rfl, rfl, rfl⟩
      use rfl, rfl
      apply mem_declarationKinds.mp hmem
    · rintro ⟨rfl, rfl, hmatches⟩
      use kind, mem_declarationKinds.mpr hmatches

/-! ### Laws of `findingsFrom` -/

/-- The findings in two blocks of lines are those in the first and then those in the
second, which has the first above it. -/
theorem findingsFrom_append
    (above : List Text) (number : Nat) (xs ys : List Text) :
  findingsFrom above number (xs ++ ys)
    = findingsFrom above number xs ++ findingsFrom (xs.reverse ++ above) (number + xs.length) ys
  := by
  induction xs generalizing above number with
  | nil => rfl
  | cons x xs ih =>
    rw [List.cons_append, findingsFrom, findingsFrom, ih, List.append_assoc, List.reverse_cons,
      List.append_assoc, List.singleton_append, List.length_cons, Nat.add_right_comm, Nat.add_assoc]

/-- More lines at the end add their own findings. -/
theorem checkLines_append
    (xs ys : List Text) :
  checkLines (xs ++ ys)
    = checkLines xs
      ++ findingsFrom (xs.map Text.trim).reverse (1 + xs.length) (ys.map Text.trim)
  := by
  simp [checkLines, scanLines, findingsFrom_append]

/-- What stands above counts only as documentation. -/
theorem findingsFrom_congr
    {above above' : List Text} (h : isDocumented above = isDocumented above') (number : Nat)
    (lines : List Text) :
  findingsFrom above number lines = findingsFrom above' number lines
  := by
  induction lines generalizing above above' number with
  | nil => rfl
  | cons line lines ih =>
    have hbelow : isDocumented (line :: above) = isDocumented (line :: above') := by
      rw [isDocumented_cons, isDocumented_cons, h]
    rw [findingsFrom, findingsFrom, lineFindings_eq, lineFindings_eq, h, ih hbelow]

/-- A line that decides shields all below it from what stands above it. -/
theorem findingsFrom_cons_of_not_isTransparent
    {line : Text} (h : isTransparent line = false) (above above' : List Text) (number : Nat)
    (lines : List Text) :
  findingsFrom (line :: above) number lines = findingsFrom (line :: above') number lines
  := by
  apply findingsFrom_congr
  rw [isDocumented_cons, isDocumented_cons, documentedBelow_of_not_isTransparent h,
    documentedBelow_of_not_isTransparent h]

theorem findingsFrom_eq_nil_of_not_isDeclaration
    {lines : List Text} (h : ∀ line ∈ lines, isDeclaration line = false) (above : List Text)
    (number : Nat) :
  findingsFrom above number lines = []
  := by
  induction lines generalizing above number with
  | nil => rfl
  | cons line lines ih =>
    obtain ⟨hline, hlines⟩ := List.forall_mem_cons.mp h
    rw [findingsFrom, lineFindings_of_not_isDeclaration hline, ih hlines]
    rfl

/-- The findings in lines are those of each line, below the lines before it. -/
theorem mem_findingsFrom
    {finding : Finding} {above : List Text} {number : Nat} {lines : List Text} :
  finding ∈ findingsFrom above number lines ↔
    ∃ i, ∃ line ∈ lines[i]?,
      finding ∈ lineFindings ((lines.take i).reverse ++ above) (number + i) line
  := by
  induction lines generalizing above number with
  | nil => simp [findingsFrom]
  | cons first lines ih =>
    rw [findingsFrom, List.mem_append, ih]
    constructor
    · rintro (hfirst | ⟨i, line, hline, hmem⟩)
      · use 0, first, rfl
        apply hfirst
      · use i + 1, line, hline
        simpa [Nat.add_assoc, Nat.add_comm 1 i] using hmem
    · rintro ⟨i, line, hline, hmem⟩
      cases i with
      | zero =>
        obtain rfl := Option.some.inj hline
        left
        apply hmem
      | succ i =>
        right
        use i, line, hline
        simpa [Nat.add_assoc, Nat.add_comm 1 i] using hmem

/-- The findings in lines have the numbers of these lines. -/
theorem line_bounds_of_mem_findingsFrom
    {finding : Finding} {above : List Text} {number : Nat} {lines : List Text}
    (h : finding ∈ findingsFrom above number lines) :
  number ≤ finding.line ∧ finding.line < number + lines.length
  := by
  obtain ⟨i, line, hline, hmem⟩ := mem_findingsFrom.mp h
  obtain ⟨hi, -⟩ := List.getElem?_eq_some_iff.mp hline
  obtain ⟨hnumber, -⟩ := mem_lineFindings.mp hmem
  omega

theorem line_bounds_of_mem_checkLines
    {finding : Finding} {lines : List Text} (h : finding ∈ checkLines lines) :
  1 ≤ finding.line ∧ finding.line ≤ lines.length
  := by
  obtain ⟨hpos, hlt⟩ := line_bounds_of_mem_findingsFrom h
  rw [List.length_map] at hlt
  omega

/-! ### Order -/

/-- The first finding stands before the second: on an earlier line, or on the same line
as the one for its type before the one for its method. -/
def Finding.Precedes (first second : Finding) : Prop :=
  first.line < second.line ∨
    first.line = second.line ∧ first.kind = .type ∧ second.kind = .method

theorem Finding.Precedes.ne
    {first second : Finding} (h : first.Precedes second) :
  (first.line, first.kind) ≠ (second.line, second.kind)
  := by
  intro heq
  obtain ⟨hline, hkind⟩ := Prod.mk.inj heq
  rcases h with hlt | ⟨-, htype, hmethod⟩
  · omega
  · rw [htype, hmethod] at hkind
    cases hkind

/-- The kinds of a line come types first. -/
theorem pairwise_declarationKinds
    (line : Text) :
  (declarationKinds line).Pairwise fun first second => first = .type ∧ second = .method
  := by
  apply List.Pairwise.filter
  simp

theorem pairwise_lineFindings
    (above : List Text) (number : Nat) (line : Text) :
  (lineFindings above number line).Pairwise Finding.Precedes
  := by
  cases h : isDocumented above with
  | true =>
    rw [lineFindings_of_isDocumented h]
    apply List.Pairwise.nil
  | false =>
    rw [lineFindings_eq, h]
    apply (pairwise_declarationKinds line).map
    intro first second hkinds
    apply Or.inr ⟨rfl, hkinds⟩

theorem pairwise_findingsFrom
    (above : List Text) (number : Nat) (lines : List Text) :
  (findingsFrom above number lines).Pairwise Finding.Precedes
  := by
  induction lines generalizing above number with
  | nil => apply List.Pairwise.nil
  | cons line lines ih =>
    apply List.pairwise_append.mpr
    use pairwise_lineFindings above number line, ih (line :: above) (number + 1)
    intro first hfirst second hsecond
    obtain ⟨hnumber, -⟩ := mem_lineFindings.mp hfirst
    obtain ⟨hbound, -⟩ := line_bounds_of_mem_findingsFrom hsecond
    left
    omega

/-! ### The findings that are due -/

/-- The finding is due in the trimmed lines: it is of a declaration, with its number,
its text and its kind, and the declaration is not documented. -/
structure Finding.IsDue (lines : List Text) (finding : Finding) : Prop where
  line_pos : 1 ≤ finding.line
  line_le : finding.line ≤ lines.length
  text_eq : lines[finding.line - 1]? = some finding.text
  isDeclaration : finding.kind.matches finding.text = true
  undocumented : ¬ DocumentedAt lines (finding.line - 1)

theorem mem_findingsFrom_nil_iff_isDue
    {finding : Finding} {lines : List Text} :
  finding ∈ findingsFrom [] 1 lines ↔ finding.IsDue lines
  := by
  rw [mem_findingsFrom]
  constructor
  · rintro ⟨i, line, hline, hmem⟩
    obtain ⟨hi, -⟩ := List.getElem?_eq_some_iff.mp hline
    obtain ⟨hnumber, htext, hmatches, hdocumented⟩ := mem_lineFindings.mp hmem
    obtain rfl : i = finding.line - 1 := by omega
    rw [List.append_nil, ← Bool.not_eq_true,
      isDocumented_reverse_take_iff lines (Nat.le_of_lt hi)] at hdocumented
    subst htext
    constructor
    · omega
    · omega
    · apply hline
    · apply hmatches
    · apply hdocumented
  · rintro ⟨hpos, hle, htext, hmatches, hundocumented⟩
    use finding.line - 1, finding.text, htext
    apply mem_lineFindings.mpr
    use by omega, rfl, hmatches
    rw [List.append_nil, ← Bool.not_eq_true,
      isDocumented_reverse_take_iff lines (by omega)]
    apply hundocumented

/-- The findings of a scan are the findings that are due in its trimmed lines, in order
and each of them once. -/
theorem findings_scanLines_exact
    (lines : List Text) :
  (∀ finding, finding ∈ (scanLines lines).findings ↔ finding.IsDue (lines.map Text.trim)) ∧
    (scanLines lines).findings.Pairwise Finding.Precedes ∧
    ((scanLines lines).findings.map fun finding => (finding.line, finding.kind)).Nodup
  := by
  have hordered := pairwise_findingsFrom [] 1 (lines.map Text.trim)
  use fun finding => mem_findingsFrom_nil_iff_isDue, hordered
  apply hordered.map
  intro first second h
  apply h.ne

end JavadocCoverage
