import JavadocCoverage.Proofs.Source.Findings

/-!
# Lines put in

What becomes of the findings when lines are put into a source: those above the place
stay, and those below it are moved (`Finding.moved`).  What may change besides is which
lines below the place are documented.

The lines put in here are a block that ends in a comment.  Such a block takes away the
findings of the line it is written for, which is the first below it that is neither
empty nor an annotation, and no others (`checkLines_insert_commentBlock`): that line
decides for all lines below it, with the block as without.
-/

namespace JavadocCoverage

/-! ### Moving findings -/

/-- The finding after `count` lines have been put in below the line numbered
`position`. -/
def Finding.moved (position count : Nat) (finding : Finding) : Finding :=
  { finding with line := if position < finding.line then finding.line + count else finding.line }

/-- Findings down to the place stay. -/
theorem map_moved_of_le
    {findings : List Finding} {position : Nat}
    (h : ∀ finding ∈ findings, finding.line ≤ position) (count : Nat) :
  findings.map (Finding.moved position count) = findings
  := by
  rw [List.map_congr_left (g := id), List.map_id]
  intro finding hmem
  have hline := h finding hmem
  rw [Finding.moved, if_neg (by omega)]
  rfl

theorem map_moved_lineFindings
    {position number : Nat} (h : position < number) (count : Nat) (above : List Text)
    (line : Text) :
  (lineFindings above number line).map (Finding.moved position count)
    = lineFindings above (number + count) line
  := by
  cases hdocumented : isDocumented above with
  | true =>
    rw [lineFindings_of_isDocumented hdocumented, lineFindings_of_isDocumented hdocumented,
      List.map_nil]
  | false =>
    rw [lineFindings_eq, lineFindings_eq, hdocumented]
    simp [Finding.moved, h]

/-- Findings below the place are those of the same lines with greater numbers. -/
theorem map_moved_findingsFrom
    {position number : Nat} (h : position < number) (count : Nat) (above lines : List Text) :
  (findingsFrom above number lines).map (Finding.moved position count)
    = findingsFrom above (number + count) lines
  := by
  induction lines generalizing above number with
  | nil => rfl
  | cons line lines ih =>
    rw [findingsFrom, findingsFrom, List.map_append, map_moved_lineFindings h,
      ih (Nat.lt_succ_of_lt h), Nat.add_right_comm]

theorem filter_line_ne_eq_self
    {findings : List Finding} {number : Nat}
    (h : ∀ finding ∈ findings, finding.line ≠ number) :
  findings.filter (·.line ≠ number) = findings
  := by
  apply List.filter_eq_self.mpr
  intro finding hmem
  apply decide_eq_true (h finding hmem)

/-- Neither moving findings below a place nor removing some of these touches the findings
above it. -/
theorem map_moved_filter_checkLines
    {lines : List Text} {position number : Nat} (hposition : lines.length ≤ position)
    (hnumber : position < number) (count : Nat) :
  ((checkLines lines).filter (·.line ≠ number)).map (Finding.moved position count)
    = checkLines lines
  := by
  have hbound : ∀ finding ∈ checkLines lines, finding.line ≤ position := by
    intro finding hmem
    apply Nat.le_trans (line_bounds_of_mem_checkLines hmem).2 hposition
  have hkept : (checkLines lines).filter (·.line ≠ number) = checkLines lines := by
    apply filter_line_ne_eq_self
    intro finding hmem
    apply Nat.ne_of_lt (Nat.lt_of_le_of_lt (hbound finding hmem) hnumber)
  rw [hkept, map_moved_of_le hbound]

/-! ### A comment put in -/

/-- A block of trimmed lines that documents what stands right below it: no line of it is
a declaration, and its last line closes a comment and is no annotation. -/
structure IsCommentBlock (block : List Text) : Prop where
  no_declaration : ∀ line ∈ block, isDeclaration line = false
  last_closes : ∃ line ∈ block.getLast?, closesComment line = true ∧ isAnnotation line = false

theorem IsCommentBlock.isDocumented
    {block : List Text} (h : IsCommentBlock block) (above : List Text) :
  isDocumented (block.reverse ++ above) = true
  := by
  obtain ⟨last, hlast, hcloses, hmarker⟩ := h.last_closes
  obtain ⟨lines, rfl⟩ := List.getLast?_eq_some_iff.mp hlast
  rw [List.reverse_append, List.reverse_singleton, List.singleton_append, List.cons_append]
  apply isDocumented_cons_of_closesComment hcloses hmarker

/-- Transparent lines that are no declarations put off what stands below them, and have no
other effect. -/
theorem findingsFrom_append_of_isTransparent
    {between : List Text}
    (hbetween : ∀ line ∈ between, isTransparent line = true ∧ isDeclaration line = false)
    (above : List Text) (number : Nat) (below : List Text) :
  findingsFrom above number (between ++ below)
    = findingsFrom above (number + between.length) below
  := by
  have hnothing := findingsFrom_eq_nil_of_not_isDeclaration (fun line h => (hbetween line h).2)
    above number
  have hpassed : isDocumented (between.reverse ++ above) = isDocumented above := by
    apply isDocumented_append_of_isTransparent
    intro line h
    apply (hbetween line (List.mem_reverse.mp h)).1
  rw [findingsFrom_append, hnothing, List.nil_append, findingsFrom_congr hpassed]

theorem findingsFrom_append_cons_of_isTransparent
    {between : List Text}
    (hbetween : ∀ line ∈ between, isTransparent line = true ∧ isDeclaration line = false)
    (above : List Text) (number : Nat) (line : Text) (below : List Text) :
  findingsFrom above number (between ++ line :: below)
    = lineFindings above (number + between.length) line
      ++ findingsFrom (line :: above) (number + between.length + 1) below
  := findingsFrom_append_of_isTransparent hbetween above number (line :: below)

/-- A comment block put in above a line, with transparent lines between the two or none,
takes away the findings of that line and moves those below it. -/
theorem findingsFrom_insert_commentBlock
    {block between : List Text} {line : Text} (hblock : IsCommentBlock block)
    (hbetween : ∀ line ∈ between, isTransparent line = true ∧ isDeclaration line = false)
    (hline : isTransparent line = false) {position number : Nat} (hposition : position < number)
    (above below : List Text) :
  findingsFrom above number (block ++ (between ++ line :: below))
    = ((findingsFrom above number (between ++ line :: below)).filter
        (·.line ≠ number + between.length)).map (Finding.moved position block.length)
  := by
  have hremoved : (lineFindings above (number + between.length) line).filter
      (·.line ≠ number + between.length) = [] := by
    apply List.filter_eq_nil_iff.mpr
    intro finding hmem
    simp [(mem_lineFindings.mp hmem).1]
  have hkept : (findingsFrom (line :: above) (number + between.length + 1) below).filter
      (·.line ≠ number + between.length)
        = findingsFrom (line :: above) (number + between.length + 1) below := by
    apply filter_line_ne_eq_self
    intro finding hmem
    obtain ⟨hbound, -⟩ := line_bounds_of_mem_findingsFrom hmem
    omega
  rw [findingsFrom_append, findingsFrom_eq_nil_of_not_isDeclaration hblock.no_declaration,
    List.nil_append, findingsFrom_append_cons_of_isTransparent hbetween,
    findingsFrom_append_cons_of_isTransparent hbetween,
    lineFindings_of_isDocumented (hblock.isDocumented above), List.filter_append, hremoved, hkept,
    List.nil_append, List.nil_append, map_moved_findingsFrom (by omega),
    -- The line itself decides below it, so that the block is out of sight there.
    findingsFrom_cons_of_not_isTransparent hline _ above]
  congr 1
  omega

/-- The lines from a position on are those before a given line, that line, and those
below it. -/
theorem drop_eq_append_cons
    {lines : List Text} {position index : Nat} {line : Text} (hposition : position ≤ index)
    (hline : lines[index]? = some line) :
  lines.drop position = (lines.take index).drop position ++ line :: lines.drop (index + 1)
  := by
  obtain ⟨hindex, rfl⟩ := List.getElem?_eq_some_iff.mp hline
  have hlength : position ≤ (lines.take index).length := by
    rw [List.length_take]
    omega
  rw [← List.drop_eq_getElem_cons hindex, ← List.drop_append_of_le_length hlength,
    List.take_append_drop]

/-- Putting a comment block in takes away the findings of the line it is written for, and
moves those below: all other findings stay as they are. -/
theorem checkLines_insert_commentBlock
    {lines block : List Text} {position index : Nat} {line : Text}
    (hposition : position ≤ index) (hline : (lines.map Text.trim)[index]? = some line)
    (hsolid : isTransparent line = false)
    (hbetween : ∀ line ∈ ((lines.map Text.trim).take index).drop position,
      isTransparent line = true ∧ isDeclaration line = false)
    (hblock : IsCommentBlock (block.map Text.trim)) :
  checkLines (lines.take position ++ block ++ lines.drop position)
    = ((checkLines lines).filter (·.line ≠ index + 1)).map (Finding.moved position block.length)
  := by
  have hindex : index < lines.length := by
    simpa using (List.getElem?_eq_some_iff.mp hline).1
  have habove : (lines.take position).length = position := by
    rw [List.length_take]
    omega
  have hnumber : 1 + position + (((lines.map Text.trim).take index).drop position).length
      = index + 1 := by
    rw [List.length_drop, List.length_take, List.length_map]
    omega
  have hbelow := findingsFrom_insert_commentBlock hblock hbetween hsolid
    (show position < 1 + position by omega) ((lines.take position).map Text.trim).reverse
    ((lines.map Text.trim).drop (index + 1))
  rw [← drop_eq_append_cons hposition hline, hnumber, List.length_map, ← List.map_drop] at hbelow
  have hlines := checkLines_append (lines.take position) (lines.drop position)
  rw [List.take_append_drop, habove] at hlines
  rw [List.append_assoc, checkLines_append, habove, List.map_append, hbelow, hlines,
    List.filter_append, List.map_append,
    map_moved_filter_checkLines (Nat.le_of_eq habove) (Nat.lt_succ_of_le hposition)]

/-- A source with a record below an annotation and an empty line. -/
def annotatedRecord : List Text :=
  ["public class A \x7b".toList, [], "\t@Deprecated".toList, "\tpublic record P(int x) \x7b".toList,
    "\tpublic void go() \x7b".toList]

/-- A comment for the record. -/
def recordComment : List Text :=
  ["\t/**".toList, "\t * A point.".toList, "\t */".toList]

/-- The record loses its two findings, and the method below it stays undocumented. -/
theorem checkLines_insert_recordComment :
  checkLines (annotatedRecord.take 1 ++ recordComment ++ annotatedRecord.drop 1)
    = [⟨.type, 1, "public class A \x7b".toList⟩, ⟨.method, 8, "public void go() \x7b".toList⟩]
  := by
  have hblock : IsCommentBlock (recordComment.map Text.trim) := by
    constructor
    · decide
    · use "*/".toList
      decide
  have hposition : 1 ≤ 3 := by decide
  have hline : (annotatedRecord.map Text.trim)[3]? = some "public record P(int x) \x7b".toList := by
    decide
  rw [checkLines_insert_commentBlock hposition hline (by decide) (by decide) hblock]
  decide

end JavadocCoverage
