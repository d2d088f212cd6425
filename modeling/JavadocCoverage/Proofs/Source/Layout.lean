import JavadocCoverage.Proofs.Source.CommentSpans
import JavadocCoverage.Proofs.Source.Insertion

/-!
# The layout of a source

What of its layout a source may change without a change to its scan.

Blank lines, and annotations that declare nothing, may be put in anywhere
(`checkLines_insert_transparent`): the findings below them are moved, and so is the end of
the last comment below blank lines.  An annotation may close a comment, so that only blank
lines leave the spans as they are.

White space may be put in at both ends of every line (`scanLines_padded`): a scan looks at
trimmed lines only.
-/

namespace JavadocCoverage

/-! ### Transparent lines put in -/

/-- Two blocks of lines with transparent lines between them that declare nothing have the
findings of the two blocks alone. -/
theorem checkLines_append_transparent
    {block : List Text}
    (hblock : ∀ line ∈ block.map Text.trim,
      isTransparent line = true ∧ isDeclaration line = false)
    (xs ys : List Text) :
  checkLines (xs ++ (block ++ ys))
    = (checkLines (xs ++ ys)).map (Finding.moved xs.length block.length)
  := by
  have hxs : (checkLines xs).map (Finding.moved xs.length block.length) = checkLines xs := by
    apply map_moved_of_le
    intro finding hmem
    apply (line_bounds_of_mem_checkLines hmem).2
  have hbelow : xs.length < 1 + xs.length := by omega
  rw [checkLines_append, checkLines_append, List.map_append, List.map_append, hxs,
    findingsFrom_append_of_isTransparent hblock, List.length_map, map_moved_findingsFrom hbelow]

namespace CommentSpans

/-- The spans after `count` lines have been put in above the line with the index
`position`. -/
def moved (position count : Nat) (spans : CommentSpans) : CommentSpans :=
  { spans with
    lastEnd := spans.lastEnd.map fun index => if position ≤ index then index + count else index }

/-- Spans that have ended above the place stay. -/
theorem moved_of_lt
    {spans : CommentSpans} {position : Nat} (h : ∀ index ∈ spans.lastEnd, index < position)
    (count : Nat) :
  spans.moved position count = spans
  := by
  obtain ⟨isOpen, closed, lastEnd⟩ := spans
  cases lastEnd with
  | none => rfl
  | some index =>
    have hindex : index < position := h index rfl
    rw [moved, Option.map_some, if_neg (by omega)]

/-- Before and after one more line below the place, the spans are moved alike. -/
theorem next_moved
    {position index : Nat} (h : position ≤ index) (count : Nat) (spans : CommentSpans)
    (line : Text) :
  (spans.moved position count).next (index + count) line
    = (spans.next index line).moved position count
  := by
  cases hends : (spans.isOpen || opensComment line) && closesComment line with
  | true =>
    have hmoved : (((spans.moved position count).isOpen || opensComment line)
        && closesComment line) = true := hends
    have hindex : (if position ≤ index then index + count else index) = index + count := if_pos h
    -- A span that ends here ends below the place, so that its end is moved too.
    rw [next_of_closes hmoved, next_of_closes hends, ← hindex]
    rfl
  | false =>
    have hmoved : (((spans.moved position count).isOpen || opensComment line)
        && closesComment line) = false := hends
    rw [next_of_not_closes hmoved, next_of_not_closes hends]
    rfl

/-- The spans after lines below the place are moved as those before them are. -/
theorem after_moved
    {position index : Nat} (h : position ≤ index) (count : Nat) (spans : CommentSpans)
    (lines : List Text) :
  (spans.moved position count).after (index + count) lines
    = (spans.after index lines).moved position count
  := by
  induction lines generalizing spans index with
  | nil => rfl
  | cons line lines ih =>
    rw [after, after, next_moved h, Nat.add_right_comm, ih (Nat.le_succ_of_le h)]

/-- An empty line neither opens a comment nor closes one. -/
theorem next_nil
    (spans : CommentSpans) (index : Nat) :
  spans.next index [] = spans
  := by
  have hopens : opensComment [] = false := by decide
  have hcloses : closesComment [] = false := by decide
  rw [next, hopens, hcloses, Bool.or_false, Bool.and_false]
  rfl

/-- The last span of lines has ended on one of them. -/
theorem AreIn.lastEnd_lt
    {spans : CommentSpans} {lines : List Text} (h : spans.AreIn lines) :
  ∀ index ∈ spans.lastEnd, index < lines.length
  := by
  intro index hindex
  rw [h.lastEnd_eq] at hindex
  have hend := mem_spanEnds.mp (List.mem_of_getLast? hindex)
  apply hend.1.lt_length

end CommentSpans

/-- A blank line moves the spans that end below it. -/
theorem spans_scanLines_append_blank
    {line : Text} (hline : line.trim = []) (xs ys : List Text) :
  (scanLines (xs ++ line :: ys)).spans = (scanLines (xs ++ ys)).spans.moved xs.length 1
  := by
  have habove : (scanLines xs).spans.moved xs.length 1 = (scanLines xs).spans := by
    apply CommentSpans.moved_of_lt
    have hlast := (areIn_scanLines xs).lastEnd_lt
    rw [List.length_map] at hlast
    apply hlast
  rw [spans_scanLines_append, spans_scanLines_append, List.map_cons, hline, CommentSpans.after,
    CommentSpans.next_nil, ← CommentSpans.after_moved (Nat.le_refl xs.length), habove]

/-- A line put in that is blank, or an annotation that declares nothing, moves the
findings below it and leaves all as they are otherwise.  A blank line does the same to
the statistics of comments. -/
theorem checkLines_insert_transparent
    {lines : List Text} {position : Nat} (hposition : position ≤ lines.length) {line : Text}
    (hline : line.trim = [] ∨ isAnnotation line.trim = true ∧ isDeclaration line.trim = false) :
  checkLines (lines.take position ++ [line] ++ lines.drop position)
      = (checkLines lines).map (Finding.moved position 1) ∧
    (line.trim = [] →
      (scanLines (lines.take position ++ [line] ++ lines.drop position)).docComments
          = (scanLines lines).docComments ∧
        (scanLines (lines.take position ++ [line] ++ lines.drop position)).unterminatedComment
          = (scanLines lines).unterminatedComment ∧
        (scanLines (lines.take position ++ [line] ++ lines.drop position)).lastCommentEnd
          = (scanLines lines).lastCommentEnd.map fun index =>
              if position ≤ index then index + 1 else index)
  := by
  have hlength : (lines.take position).length = position := List.length_take_of_le hposition
  rw [List.append_assoc]
  constructor
  · have hblock : ∀ trimmed ∈ [line].map Text.trim,
        isTransparent trimmed = true ∧ isDeclaration trimmed = false := by
      rw [List.map_singleton, List.forall_mem_singleton]
      rcases hline with hblank | ⟨hmarker, hdeclaration⟩
      · rw [hblank]
        decide
      · rw [isTransparent, hmarker, Bool.or_true]
        use rfl
    rw [checkLines_append_transparent hblock, hlength, List.take_append_drop]
    rfl
  · intro hblank
    have hspans := spans_scanLines_append_blank hblank (lines.take position)
      (lines.drop position)
    rw [hlength, List.take_append_drop] at hspans
    have hclosed := congrArg CommentSpans.closed hspans
    have hopen := congrArg CommentSpans.isOpen hspans
    have hlast := congrArg CommentSpans.lastEnd hspans
    use hclosed, hopen, hlast

/-- A class below a comment of two lines, and a method in it. -/
def commentedClass : List Text :=
  ["/**".toList, " * A. */".toList, "public class A \x7b".toList,
    "\tpublic void go() \x7b".toList]

/-- An annotation that closes a comment does not keep the class from being documented, and a
blank line within the comment makes it end one line below. -/
theorem checkLines_insert_transparent_commentedClass :
  checkLines (commentedClass.take 2 ++ ["@Since(1) */".toList] ++ commentedClass.drop 2)
      = [⟨.method, 5, "public void go() \x7b".toList⟩] ∧
    (scanLines (commentedClass.take 1 ++ ["\u0085".toList] ++ commentedClass.drop 1)).lastCommentEnd
      = some 2
  := by
  have hmarker : isAnnotation (Text.trim "@Since(1) */".toList) = true ∧
      isDeclaration (Text.trim "@Since(1) */".toList) = false := by decide
  have hblank : Text.trim "\u0085".toList = [] := by decide
  obtain ⟨hfindings, -⟩ := checkLines_insert_transparent
    (show 2 ≤ commentedClass.length by decide) (Or.inr hmarker)
  obtain ⟨-, hspans⟩ := checkLines_insert_transparent
    (show 1 ≤ commentedClass.length by decide) (Or.inl hblank)
  rw [hfindings, (hspans hblank).2.2]
  decide

/-! ### White space at the ends of lines -/

theorem map_trim_zipWith
    {lines before after : List Text} (hbefore : before.length = lines.length)
    (hafter : after.length = lines.length)
    (hblank : ∀ padding ∈ before ++ after, Text.isBlank padding = true) :
  (List.zipWith (· ++ ·) before (List.zipWith (· ++ ·) lines after)).map Text.trim
    = lines.map Text.trim
  := by
  induction lines generalizing before after with
  | nil =>
    rw [List.eq_nil_of_length_eq_zero hbefore]
    rfl
  | cons line lines ih =>
    obtain ⟨first, before, rfl⟩ := List.exists_cons_of_length_eq_add_one hbefore
    obtain ⟨last, after, rfl⟩ := List.exists_cons_of_length_eq_add_one hafter
    obtain ⟨hbefores, hafters⟩ := List.forall_mem_append.mp hblank
    obtain ⟨hfirst, hbefores⟩ := List.forall_mem_cons.mp hbefores
    obtain ⟨hlast, hafters⟩ := List.forall_mem_cons.mp hafters
    have hrest := ih (Nat.succ.inj hbefore) (Nat.succ.inj hafter)
      (List.forall_mem_append.mpr ⟨hbefores, hafters⟩)
    rw [List.zipWith_cons_cons, List.zipWith_cons_cons, List.map_cons, List.map_cons, hrest,
      Text.trim_padded hfirst hlast]

/-- White space before and behind the lines changes nothing in their scan. -/
theorem scanLines_padded
    {lines before after : List Text} (hbefore : before.length = lines.length)
    (hafter : after.length = lines.length)
    (hblank : ∀ padding ∈ before ++ after, Text.isBlank padding = true) :
  scanLines (List.zipWith (· ++ ·) before (List.zipWith (· ++ ·) lines after)) = scanLines lines
  := by
  rw [scanLines, map_trim_zipWith hbefore hafter hblank]
  rfl

/-- The word that introduces a type needs the space behind it, which is trimmed off where
no name follows, and an empty line stays one. -/
theorem scanLines_padded_lineWithoutName :
  scanLines ["\u0085public class A".toList, "\u2028\r".toList, "\tpublic class \u00A0".toList]
    = ⟨[⟨.type, 1, "public class A".toList⟩], 0, none, false⟩
  := by
  have hbefore : ["\u0085".toList, "\u2028".toList, "\t".toList].length
      = ["public class A".toList, [], "public class".toList].length := rfl
  have hafter : [[], "\r".toList, " \u00A0".toList].length
      = ["public class A".toList, [], "public class".toList].length := rfl
  have hscan := scanLines_padded hbefore hafter (by decide)
  apply hscan.trans
  decide

end JavadocCoverage
