import JavadocCoverage.Proofs.Source.Findings

/-!
# Repairing a source

A source is repaired by putting a comment line above every line that has a finding
(`commented`).  All comments go in at once, and what is found then is nothing
(`checkLines_commented`).

The repaired lines are read beside the lines themselves.  What carries the induction
over them is that each line is documented in the repaired source where it was documented
before: a comment put in documents all that was in its way.
-/

namespace JavadocCoverage

/-- The lines with `comment` put above each one whose number is among `numbers`, where
the first line has the given number. -/
def commented (comment : Text) (numbers : List Nat) (number : Nat) : List Text → List Text
  | [] => []
  | line :: lines =>
    if number ∈ numbers then
      comment :: line :: commented comment numbers (number + 1) lines
    else
      line :: commented comment numbers (number + 1) lines

theorem map_trim_commented
    (comment : Text) (numbers : List Nat) (number : Nat) (lines : List Text) :
  (commented comment numbers number lines).map Text.trim
    = commented comment.trim numbers number (lines.map Text.trim)
  := by
  induction lines generalizing number with
  | nil => rfl
  | cons line lines ih =>
    rw [commented, List.map_cons, commented, ← ih]
    split
    · rfl
    · rfl

/-- A line without findings has none either where it is documented if it was before. -/
theorem lineFindings_eq_nil_mono
    {above above' : List Text}
    (hdocumented : isDocumented above = true → isDocumented above' = true) {number : Nat}
    {line : Text} (h : lineFindings above number line = []) (number' : Nat) :
  lineFindings above' number' line = []
  := by
  cases habove : isDocumented above with
  | true => apply lineFindings_of_isDocumented (hdocumented habove)
  | false =>
    rw [lineFindings_eq, habove] at h
    have hkinds : declarationKinds line = [] := List.map_eq_nil_iff.mp h
    rw [lineFindings, hkinds]
    rfl

/-- A line whose number is not among those of its findings has no findings. -/
theorem lineFindings_eq_nil_of_not_mem
    {above : List Text} {number : Nat} {line : Text} {numbers : List Nat}
    (hnumbers : ∀ finding ∈ lineFindings above number line, finding.line ∈ numbers)
    (hnumber : number ∉ numbers) :
  lineFindings above number line = []
  := by
  apply List.eq_nil_iff_forall_not_mem.mpr
  intro finding hmem
  apply hnumber
  rw [← (mem_lineFindings.mp hmem).1]
  apply hnumbers finding hmem

/-- In trimmed lines with a comment above every line that has a finding, and maybe above
others, there are no findings. -/
theorem findingsFrom_commented
    {comment : Text} (hdeclaration : isDeclaration comment = false)
    (hcloses : closesComment comment = true) (hmarker : isAnnotation comment = false)
    {above above' : List Text}
    (hdocumented : isDocumented above = true → isDocumented above' = true) {numbers : List Nat}
    {number : Nat} {lines : List Text}
    (hnumbers : ∀ finding ∈ findingsFrom above number lines, finding.line ∈ numbers)
    (number' : Nat) :
  findingsFrom above' number' (commented comment numbers number lines) = []
  := by
  induction lines generalizing above above' number number' with
  | nil => rfl
  | cons line lines ih =>
    obtain ⟨hfirst, hrest⟩ := List.forall_mem_append.mp hnumbers
    rw [commented]
    split
    next =>
      have hcomment := isDocumented_cons_of_closesComment hcloses hmarker above'
      rw [findingsFrom, lineFindings_of_not_isDeclaration hdeclaration, findingsFrom,
        lineFindings_of_isDocumented hcomment, List.nil_append, List.nil_append]
      apply ih (isDocumented_cons_mono (fun _ => hcomment) line) hrest
    next hnumber =>
      have hnone := lineFindings_eq_nil_of_not_mem hfirst hnumber
      rw [findingsFrom, lineFindings_eq_nil_mono hdocumented hnone, List.nil_append]
      apply ih (isDocumented_cons_mono hdocumented line) hrest

/-- A comment line above every line that has a finding leaves no findings. -/
theorem checkLines_commented
    {comment : Text} (hdeclaration : isDeclaration comment.trim = false)
    (hcloses : closesComment comment.trim = true) (hmarker : isAnnotation comment.trim = false)
    (lines : List Text) :
  checkLines (commented comment ((checkLines lines).map Finding.line) 1 lines) = []
  := by
  change findingsFrom [] 1 ((commented comment _ 1 lines).map Text.trim) = []
  rw [map_trim_commented]
  apply findingsFrom_commented hdeclaration hcloses hmarker id
  intro finding hmem
  apply List.mem_map_of_mem hmem

/-- A source in which an annotation is a declaration as well, once documented and once
not, and in which the last line is a declaration of both kinds. -/
def annotatedDeclarations : List Text :=
  ["/** A class. */".toList, "@A public class B \x7b".toList, "\tpublic enum C \x7b X \x7d".toList,
    "\t@D public void e() \x7b".toList, [], "\tpublic record F(int x) \x7b".toList]

/-- The annotation that is reported and the record below it get a comment each. -/
theorem checkLines_commented_annotatedDeclarations :
  (checkLines annotatedDeclarations).map Finding.line = [4, 6, 6] ∧
    checkLines (commented " /** */ ".toList [4, 6, 6] 1 annotatedDeclarations) = []
  := by
  have hnumbers : (checkLines annotatedDeclarations).map Finding.line = [4, 6, 6] := by decide
  use hnumbers
  rw [← hnumbers]
  apply checkLines_commented (by decide) (by decide) (by decide)

end JavadocCoverage
