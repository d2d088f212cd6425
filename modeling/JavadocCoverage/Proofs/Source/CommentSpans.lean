import Mathlib.Tactic.Use
import JavadocCoverage.Source.Scan

/-!
# Where comments end

The spans of documentation comments read off the lines by their positions: a span ends at
a line that closes a comment, when some line from there upward opens one and no line from
that one on closes it before (`IsSpanEnd`).  An opening line within an open span thus
counts for nothing, and a line may open a span and close it.

`CommentSpans.AreIn` says what the three statistics mean in these terms.  One more line
keeps it (`areIn_next`), so that it holds after all lines, and
`scanLines_comments_exact` reads the statistics of a scan off it.

But for the statements about scans, all lines here are trimmed.
-/

namespace JavadocCoverage

/-! ### Lines by position -/

/-- The line with the given index has the property. -/
def HasLineAt (property : Text → Prop) (lines : List Text) (index : Nat) : Prop :=
  ∃ line ∈ lines[index]?, property line

instance (property : Text → Prop) [DecidablePred property] (lines : List Text) (index : Nat) :
    Decidable (HasLineAt property lines index) :=
  inferInstanceAs (Decidable (∃ line ∈ lines[index]?, property line))

theorem HasLineAt.lt_length
    {property : Text → Prop} {lines : List Text} {index : Nat}
    (h : HasLineAt property lines index) :
  index < lines.length
  := by
  obtain ⟨line, hline, -⟩ := h
  obtain ⟨hindex, -⟩ := List.getElem?_eq_some_iff.mp hline
  apply hindex

theorem hasLineAt_concat_of_lt
    {property : Text → Prop} {lines : List Text} {index : Nat} (hindex : index < lines.length)
    (line : Text) :
  HasLineAt property (lines ++ [line]) index ↔ HasLineAt property lines index
  := by
  rw [HasLineAt, HasLineAt, List.getElem?_append_left hindex]

theorem hasLineAt_concat_length
    {property : Text → Prop} {lines : List Text} {line : Text} :
  HasLineAt property (lines ++ [line]) lines.length ↔ property line
  := by
  simp [HasLineAt]

/-- The line with the given index opens a documentation comment. -/
def OpensAt : List Text → Nat → Prop :=
  HasLineAt ("/**".toList <+: ·)

/-- The line with the given index closes a comment. -/
def ClosesAt : List Text → Nat → Prop :=
  HasLineAt ("*/".toList <:+ ·)

theorem opensAt_concat_length
    {lines : List Text} {line : Text} :
  OpensAt (lines ++ [line]) lines.length ↔ opensComment line = true
  := hasLineAt_concat_length.trans Text.startsWith_iff.symm

theorem closesAt_concat_length
    {lines : List Text} {line : Text} :
  ClosesAt (lines ++ [line]) lines.length ↔ closesComment line = true
  := hasLineAt_concat_length.trans Text.endsIn_iff.symm

/-! ### Spans -/

/-- The line with the given index stands within a span, which it may open itself: from
some line that opens one down to this line, no line before it closes a comment. -/
def IsWithinSpan (lines : List Text) (index : Nat) : Prop :=
  ∃ first ≤ index, OpensAt lines first ∧ ∀ k < index, first ≤ k → ¬ ClosesAt lines k

/-- A span ends at the line with the given index. -/
def IsSpanEnd (lines : List Text) (index : Nat) : Prop :=
  ClosesAt lines index ∧ IsWithinSpan lines index

/-- A span is open below the lines. -/
def IsLeftOpen (lines : List Text) : Prop :=
  ∃ first, OpensAt lines first ∧ ∀ k, first ≤ k → ¬ ClosesAt lines k

instance (lines : List Text) : DecidablePred (IsSpanEnd lines) :=
  fun index => inferInstanceAs (Decidable
    (HasLineAt ("*/".toList <:+ ·) lines index ∧ ∃ first ≤ index,
      HasLineAt ("/**".toList <+: ·) lines first ∧
        ∀ k < index, first ≤ k → ¬ HasLineAt ("*/".toList <:+ ·) lines k))

/-- The indices of the lines at which spans end, from the first to the last. -/
def spanEnds (lines : List Text) : List Nat :=
  (List.range lines.length).filter (IsSpanEnd lines ·)

theorem mem_spanEnds
    {lines : List Text} {index : Nat} :
  index ∈ spanEnds lines ↔ IsSpanEnd lines index
  := by
  rw [spanEnds, List.mem_filter, List.mem_range, decide_eq_true_iff]
  constructor
  · rintro ⟨-, hend⟩
    apply hend
  · intro hend
    use hend.1.lt_length

theorem pairwise_spanEnds
    (lines : List Text) :
  (spanEnds lines).Pairwise (· < ·)
  := List.pairwise_lt_range.filter _

/-- No span end is greater than the last. -/
theorem le_of_getLast?_spanEnds
    {lines : List Text} {last index : Nat} (hlast : (spanEnds lines).getLast? = some last)
    (hindex : index ∈ spanEnds lines) :
  index ≤ last
  := by
  obtain ⟨before, heq⟩ := List.getLast?_eq_some_iff.mp hlast
  have hsorted := pairwise_spanEnds lines
  rw [heq] at hsorted hindex
  obtain ⟨-, -, hless⟩ := List.pairwise_append.mp hsorted
  rcases List.mem_append.mp hindex with hbefore | hself
  · apply Nat.le_of_lt
    apply hless index hbefore last (List.mem_singleton_self last)
  · apply Nat.le_of_eq (List.mem_singleton.mp hself)

theorem getLast?_spanEnds_eq_some_iff
    {lines : List Text} {index : Nat} :
  (spanEnds lines).getLast? = some index ↔
    IsSpanEnd lines index ∧ ∀ k, IsSpanEnd lines k → k ≤ index
  := by
  constructor
  · intro hlast
    use mem_spanEnds.mp (List.mem_of_getLast? hlast)
    intro k hk
    apply le_of_getLast?_spanEnds hlast (mem_spanEnds.mpr hk)
  · rintro ⟨hend, hgreatest⟩
    have hindex := mem_spanEnds.mpr hend
    cases hlast : (spanEnds lines).getLast? with
    | none =>
      rw [List.getLast?_eq_none_iff.mp hlast] at hindex
      apply absurd hindex List.not_mem_nil
    | some last =>
      have hle := hgreatest last (mem_spanEnds.mp (List.mem_of_getLast? hlast))
      rw [Nat.le_antisymm hle (le_of_getLast?_spanEnds hlast hindex)]

theorem getLast?_spanEnds_eq_none_iff
    {lines : List Text} :
  (spanEnds lines).getLast? = none ↔ ∀ k, ¬ IsSpanEnd lines k
  := by
  rw [List.getLast?_eq_none_iff, List.eq_nil_iff_forall_not_mem]
  simp only [mem_spanEnds]

/-! ### One more line -/

theorem isWithinSpan_concat_of_lt
    {lines : List Text} {index : Nat} (hindex : index < lines.length) (line : Text) :
  IsWithinSpan (lines ++ [line]) index ↔ IsWithinSpan lines index
  := by
  apply exists_congr
  intro first
  apply and_congr_right
  intro hle
  apply and_congr (hasLineAt_concat_of_lt (by omega) line)
  apply forall₂_congr
  intro k hk
  rw [ClosesAt, hasLineAt_concat_of_lt (by omega) line]

/-- The next line stands within a span when one is open or the line opens one. -/
theorem isWithinSpan_concat_length
    {lines : List Text} {line : Text} :
  IsWithinSpan (lines ++ [line]) lines.length ↔ IsLeftOpen lines ∨ opensComment line = true
  := by
  constructor
  · rintro ⟨first, hle, hfirst, hnone⟩
    -- The span is opened above the line or on it.
    rcases Nat.lt_or_eq_of_le hle with hlt | rfl
    · left
      use first, (hasLineAt_concat_of_lt hlt line).mp hfirst
      intro k hbelow hk
      apply hnone k hk.lt_length hbelow
      apply (hasLineAt_concat_of_lt hk.lt_length line).mpr hk
    · right
      apply opensAt_concat_length.mp hfirst
  · rintro (⟨first, hfirst, hnone⟩ | hopens)
    · use first, Nat.le_of_lt hfirst.lt_length
      use (hasLineAt_concat_of_lt hfirst.lt_length line).mpr hfirst
      intro k hk hbelow hcloses
      apply hnone k hbelow
      apply (hasLineAt_concat_of_lt hk line).mp hcloses
    · use lines.length, Nat.le_refl _, opensAt_concat_length.mpr hopens
      intro k hk hle
      omega

theorem isSpanEnd_concat_of_lt
    {lines : List Text} {index : Nat} (hindex : index < lines.length) (line : Text) :
  IsSpanEnd (lines ++ [line]) index ↔ IsSpanEnd lines index
  := and_congr (hasLineAt_concat_of_lt hindex line) (isWithinSpan_concat_of_lt hindex line)

/-- A span is open below the next line when the line stands within one and closes none. -/
theorem isLeftOpen_concat
    {lines : List Text} {line : Text} :
  IsLeftOpen (lines ++ [line]) ↔
    IsWithinSpan (lines ++ [line]) lines.length ∧ ¬ closesComment line = true
  := by
  have hself : ClosesAt (lines ++ [line]) lines.length ↔ closesComment line = true :=
    closesAt_concat_length
  rw [← hself]
  constructor
  · rintro ⟨first, hfirst, hnone⟩
    have hle : first ≤ lines.length := by
      have hlt := hfirst.lt_length
      rw [List.length_append, List.length_singleton] at hlt
      omega
    use ⟨first, hle, hfirst, fun k _ => hnone k⟩, hnone lines.length hle
  · rintro ⟨⟨first, hle, hfirst, hnone⟩, hlast⟩
    use first, hfirst
    intro k hbelow hk
    have hlt := hk.lt_length
    rw [List.length_append, List.length_singleton] at hlt
    rcases Nat.lt_succ_iff_lt_or_eq.mp hlt with hlt | rfl
    · apply hnone k hlt hbelow hk
    · apply hlast hk

/-- The next line is a new span end or leaves the span ends as they are. -/
theorem spanEnds_concat
    (lines : List Text) (line : Text) :
  spanEnds (lines ++ [line])
    = spanEnds lines
      ++ if IsSpanEnd (lines ++ [line]) lines.length then [lines.length] else []
  := by
  rw [spanEnds, List.length_append, List.length_singleton, List.range_succ, List.filter_append,
    List.filter_cons, List.filter_nil]
  congr 1
  · apply List.filter_congr
    intro index hmem
    rw [decide_eq_decide]
    apply isSpanEnd_concat_of_lt (List.mem_range.mp hmem)
  · simp only [decide_eq_true_iff]

namespace CommentSpans

/-! ### One line -/

/-- A line that closes an open span is the end of it. -/
theorem next_of_closes
    {spans : CommentSpans} {line : Text}
    (h : ((spans.isOpen || opensComment line) && closesComment line) = true) (index : Nat) :
  spans.next index line = ⟨false, spans.closed + 1, some index⟩
  := if_pos h

/-- Any other line at most opens a span. -/
theorem next_of_not_closes
    {spans : CommentSpans} {line : Text}
    (h : ((spans.isOpen || opensComment line) && closesComment line) = false) (index : Nat) :
  spans.next index line = { spans with isOpen := spans.isOpen || opensComment line }
  := by
  apply if_neg
  rw [h]
  apply Bool.false_ne_true

/-- Within an open span it does not matter whether a line opens one. -/
theorem next_of_isOpen
    {spans : CommentSpans} (h : spans.isOpen = true) (index : Nat) {line line' : Text}
    (hcloses : closesComment line = closesComment line') :
  spans.next index line = spans.next index line'
  := by
  rw [next, next, h, hcloses]
  rfl

/-! ### What the statistics mean -/

/-- The spans are those in the lines. -/
structure AreIn (spans : CommentSpans) (lines : List Text) : Prop where
  isOpen_iff : spans.isOpen = true ↔ IsLeftOpen lines
  closed_eq : spans.closed = (spanEnds lines).length
  lastEnd_eq : spans.lastEnd = (spanEnds lines).getLast?

theorem areIn_nil :
  AreIn {} []
  := by
  constructor
  · constructor
    · nofun
    · rintro ⟨first, hfirst, -⟩
      apply absurd hfirst.lt_length (Nat.not_lt_zero first)
  · rfl
  · rfl

/-- The spans after one more line are those in the lines with that line. -/
theorem areIn_next
    {spans : CommentSpans} {lines : List Text} (h : spans.AreIn lines) (line : Text) :
  (spans.next lines.length line).AreIn (lines ++ [line])
  := by
  have hwithin : IsWithinSpan (lines ++ [line]) lines.length ↔
      (spans.isOpen || opensComment line) = true := by
    rw [isWithinSpan_concat_length, Bool.or_eq_true, h.isOpen_iff]
  have hend : IsSpanEnd (lines ++ [line]) lines.length ↔
      (spans.isOpen || opensComment line) = true ∧ closesComment line = true := by
    rw [IsSpanEnd, closesAt_concat_length, hwithin, and_comm]
  have hends := spanEnds_concat lines line
  cases hcloses : (spans.isOpen || opensComment line) && closesComment line with
  | true =>
    rw [next_of_closes hcloses]
    rw [Bool.and_eq_true] at hcloses
    rw [if_pos (hend.mpr hcloses)] at hends
    constructor
    · rw [isLeftOpen_concat]
      simp [hcloses.2]
    · rw [hends, List.length_append, h.closed_eq]
      rfl
    · rw [hends, List.getLast?_concat]
  | false =>
    rw [next_of_not_closes hcloses]
    rw [← Bool.not_eq_true, Bool.and_eq_true] at hcloses
    rw [if_neg (mt hend.mp hcloses), List.append_nil] at hends
    constructor
    · rw [isLeftOpen_concat, hwithin]
      constructor
      · intro hopen
        use hopen, fun hclose => hcloses ⟨hopen, hclose⟩
      · rintro ⟨hopen, -⟩
        apply hopen
    · rw [hends]
      apply h.closed_eq
    · rw [hends]
      apply h.lastEnd_eq

theorem areIn_after
    {spans : CommentSpans} {above : List Text} (h : spans.AreIn above) (lines : List Text) :
  (spans.after above.length lines).AreIn (above ++ lines)
  := by
  induction lines generalizing spans above with
  | nil =>
    rw [List.append_nil]
    apply h
  | cons line lines ih =>
    have hrest := ih (areIn_next h line)
    rw [List.length_append, List.append_assoc] at hrest
    apply hrest

/-! ### Blocks of lines -/

theorem after_append
    (spans : CommentSpans) (index : Nat) (xs ys : List Text) :
  spans.after index (xs ++ ys) = (spans.after index xs).after (index + xs.length) ys
  := by
  induction xs generalizing spans index with
  | nil => rfl
  | cons x xs ih =>
    rw [List.cons_append, after, after, ih, List.length_cons, Nat.add_right_comm, Nat.add_assoc]

end CommentSpans

/-! ### Scans -/

/-- The spans that a scan tells of. -/
def LineScan.spans (scan : LineScan) : CommentSpans :=
  ⟨scan.unterminatedComment, scan.docComments, scan.lastCommentEnd⟩

theorem spans_scanLines
    (lines : List Text) :
  (scanLines lines).spans = CommentSpans.after {} 0 (lines.map Text.trim)
  := rfl

theorem areIn_scanLines
    (lines : List Text) :
  (scanLines lines).spans.AreIn (lines.map Text.trim)
  := CommentSpans.areIn_after CommentSpans.areIn_nil (lines.map Text.trim)

/-- More lines are read on from the spans so far. -/
theorem spans_scanLines_append
    (lines further : List Text) :
  (scanLines (lines ++ further)).spans
    = (scanLines lines).spans.after lines.length (further.map Text.trim)
  := by
  rw [spans_scanLines, spans_scanLines, List.map_append, CommentSpans.after_append, List.length_map,
    Nat.zero_add]

/-- The number of comments is that of span ends, the last of them is the greatest, and a
comment is unterminated when a line opens one that is closed on no line from there on.  A
line that opens a comment and closes it is a span end, also where the two share a star, and
where a comment is open already it does not matter whether the next line opens one. -/
theorem scanLines_comments_exact
    (lines : List Text) :
  (scanLines lines).docComments = (spanEnds (lines.map Text.trim)).length ∧
    (∀ k, (scanLines lines).lastCommentEnd = some k ↔
      IsSpanEnd (lines.map Text.trim) k ∧ ∀ m, IsSpanEnd (lines.map Text.trim) m → m ≤ k) ∧
    ((scanLines lines).lastCommentEnd = none ↔ ∀ k, ¬ IsSpanEnd (lines.map Text.trim) k) ∧
    ((scanLines lines).unterminatedComment = true ↔ IsLeftOpen (lines.map Text.trim)) ∧
    (∀ k, OpensAt (lines.map Text.trim) k → ClosesAt (lines.map Text.trim) k →
      IsSpanEnd (lines.map Text.trim) k) ∧
    (∀ k, (lines.map Text.trim)[k]? = some "/**/".toList →
      OpensAt (lines.map Text.trim) k ∧ ClosesAt (lines.map Text.trim) k) ∧
    ∀ line line' further, (scanLines lines).unterminatedComment = true →
      closesComment line.trim = closesComment line'.trim →
      (scanLines (lines ++ line :: further)).spans
        = (scanLines (lines ++ line' :: further)).spans
  := by
  obtain ⟨hopen, hclosed, hlast⟩ := areIn_scanLines lines
  use hclosed
  constructor
  · intro k
    rw [← getLast?_spanEnds_eq_some_iff, ← hlast]
    rfl
  constructor
  · rw [← getLast?_spanEnds_eq_none_iff, ← hlast]
    rfl
  use hopen
  constructor
  · intro k hopens hcloses
    use hcloses, k, Nat.le_refl k, hopens
    intro m hm hk
    omega
  constructor
  · intro k hk
    constructor
    · use "/**/".toList, hk
      decide
    · use "/**/".toList, hk
      decide
  · intro line line' further hunterminated hcloses
    have hopened : (scanLines lines).spans.isOpen = true := hunterminated
    have hnext := CommentSpans.next_of_isOpen hopened lines.length hcloses
    rw [spans_scanLines_append, spans_scanLines_append, List.map_cons, List.map_cons,
      CommentSpans.after, CommentSpans.after, hnext]

/-- A comment that is opened twice, a close without a comment, and a comment that stays
open since code follows its close. -/
def openComment : List Text :=
  ["/**".toList, "\t/** a".toList, "\t*/ ".toList, "b */".toList, "/** c */ d".toList]

/-- One comment has ended, on the third line, and the last line to come ends another one
whether it opens one or not. -/
theorem scanLines_comments_exact_openComment :
  (scanLines openComment).docComments = 1 ∧
    (scanLines openComment).unterminatedComment = true ∧
    (scanLines (openComment ++ ["/**/".toList])).spans
      = (scanLines (openComment ++ ["e */".toList])).spans ∧
    (scanLines (openComment ++ ["e */".toList])).spans = ⟨false, 2, some 5⟩
  := by
  obtain ⟨hcount, -, -, -, -, -, hwithin⟩ := scanLines_comments_exact openComment
  have hends : spanEnds (openComment.map Text.trim) = [2] := by decide
  have hopen : (scanLines openComment).unterminatedComment = true := by decide
  rw [hends] at hcount
  use hcount, hopen, hwithin "/**/".toList "e */".toList [] hopen (by decide)
  decide

end JavadocCoverage
