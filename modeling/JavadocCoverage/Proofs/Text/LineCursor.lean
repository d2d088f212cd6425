import Mathlib.Tactic.Use
import JavadocCoverage.Proofs.Text.Encoding

/-!
# The cursor that cuts lines out of octets

A cursor is safe over the octets of a text when it has not passed their end, the line that
it reads starts between two characters, and it stands between two characters whenever it
is about to cut that line off (`LineCursor.IsSafe`).  A safe cursor has a next one, which
is safe again and tells the same lines (`LineCursor.IsSafe.exists_next`).

So no slice is ever refused, the end is reached in at most as many turns as there are
octets, and the lines that are cut out are the octets of the lines of the text
(`cutLines_encode`).
-/

namespace JavadocCoverage

/-- Slices between two characters are never refused. -/
theorem Utf8.slice?_encode
    {text : Text} {first past : Nat} (hle : first ≤ past) (hfirst : text.IsBoundary first)
    (hpast : text.IsBoundary past) :
  slice? (encode text) first past = some (((encode text).take past).drop first)
  := by
  have hdecide : (first ≤ past && isBoundary (encode text) first
      && isBoundary (encode text) past) = true := by
    rw [Bool.and_eq_true, Bool.and_eq_true, isBoundary_encode_iff, isBoundary_encode_iff,
      decide_eq_true_eq]
    use ⟨hle, hfirst⟩
  apply if_pos hdecide

theorem Text.isBoundary_zero
    (text : Text) :
  text.IsBoundary 0
  := ⟨[], text, rfl, rfl⟩

theorem Text.isBoundary_length
    (text : Text) :
  text.IsBoundary (Utf8.encode text).length
  := ⟨text, [], (List.append_nil text).symm, rfl⟩

/-! ### Ends of lines among octets -/

/-- The octet `b` at an offset ends a line, and the offset `below` is the one at which the
next line starts. -/
inductive EndsLineAt (octets : Bytes) (offset : Nat) : UInt8 → Nat → Prop
  | lineFeed : EndsLineAt octets offset 0x0A (offset + 1)
  | both (h : octets[offset + 1]? = some 0x0A) : EndsLineAt octets offset 0x0D (offset + 2)
  | carriageReturn (h : octets[offset + 1]? ≠ some 0x0A) :
    EndsLineAt octets offset 0x0D (offset + 1)

namespace EndsLineAt

variable {octets : Bytes} {offset below : Nat} {b : UInt8}

theorem isAsciiOctet
    (h : EndsLineAt octets offset b below) :
  IsAsciiOctet b
  := by
  cases h with
  | lineFeed => apply Utf8.isAsciiOctet_lineFeed
  | both => apply Utf8.isAsciiOctet_carriageReturn
  | carriageReturn => apply Utf8.isAsciiOctet_carriageReturn

theorem below_le
    (h : EndsLineAt octets offset b below) (hb : octets[offset]? = some b) :
  below ≤ octets.length
  := by
  obtain ⟨hlt, -⟩ := List.getElem?_eq_some_iff.mp hb
  cases h with
  | lineFeed => apply hlt
  | both hfeed =>
    obtain ⟨hlt', -⟩ := List.getElem?_eq_some_iff.mp hfeed
    apply hlt'
  | carriageReturn => apply hlt

/-- The line below starts between two characters. -/
theorem isBoundary_below
    {text : Text} (h : EndsLineAt (Utf8.encode text) offset b below)
    (hb : (Utf8.encode text)[offset]? = some b) :
  text.IsBoundary below
  := by
  have hpast := (Utf8.isBoundary_of_isAsciiOctet h.isAsciiOctet hb).2
  cases h with
  | lineFeed => apply hpast
  | both hfeed => apply (Utf8.isBoundary_of_isAsciiOctet Utf8.isAsciiOctet_lineFeed hfeed).2
  | carriageReturn => apply hpast

/-- At the end of a line the line that has been read is the first of all that are to come. -/
theorem linesFrom_drop
    (h : EndsLineAt octets offset b below) (hb : octets[offset]? = some b) (line : Bytes) :
  linesFrom 0x0A 0x0D false line (octets.drop offset)
    = line.reverse :: linesFrom 0x0A 0x0D false [] (octets.drop below)
  := by
  rw [drop_eq_cons hb]
  cases h with
  | lineFeed => rw [linesFrom, if_pos rfl, if_neg (by decide)]
  | both hfeed =>
    rw [linesFrom, if_neg (by decide), if_pos rfl, drop_eq_cons hfeed, linesFrom, if_pos rfl,
      if_pos rfl]
  | carriageReturn hfeed =>
    rw [linesFrom, if_neg (by decide), if_pos rfl, linesFrom_true_eq]
    rw [List.head?_drop]
    apply hfeed

end EndsLineAt

namespace LineCursor

/-- Either the octet ends a line, which is cut off, or the cursor passes over it. -/
theorem next_cases
    (octets : Bytes) (cursor : LineCursor) (b : UInt8) :
  (b ≠ 0x0A ∧ b ≠ 0x0D ∧
      cursor.next octets b = some { cursor with position := cursor.position + 1 }) ∨
    ∃ below, EndsLineAt octets cursor.position b below ∧
      cursor.next octets b = cursor.endLine octets below
  := by
  unfold next
  split
  next hfeed =>
    right
    rw [hfeed]
    use cursor.position + 1, .lineFeed
  next hfeed =>
    split
    next hreturn =>
      right
      rw [hreturn]
      split
      next hboth => use cursor.position + 2, .both hboth
      next hboth => use cursor.position + 1, .carriageReturn hboth
    next hreturn =>
      left
      use hfeed, hreturn

/-! ### Safe cursors -/

/-- The cursor stands where it cuts a line off: at the end of a line, or of the octets. -/
def CutsLine (octets : Bytes) (cursor : LineCursor) : Prop :=
  octets[cursor.position]? = some 0x0A ∨ octets[cursor.position]? = some 0x0D ∨
    cursor.position = octets.length

/-- The cursor is within the octets of the text, and what it cuts off where it stands starts
and ends between two characters. -/
structure IsSafe (text : Text) (cursor : LineCursor) : Prop where
  start_le : cursor.start ≤ cursor.position
  position_le : cursor.position ≤ (Utf8.encode text).length
  isBoundary_start : text.IsBoundary cursor.start
  isBoundary_position : cursor.CutsLine (Utf8.encode text) → text.IsBoundary cursor.position

/-- The lines that the cursor tells: those it has cut off, and those of what is left, where
the current line goes on from what has been read of it. -/
def told (octets : Bytes) (cursor : LineCursor) : List Bytes :=
  cursor.lines.reverse ++ linesFrom 0x0A 0x0D false
    ((octets.take cursor.position).drop cursor.start).reverse (octets.drop cursor.position)

theorem told_start
    (octets : Bytes) :
  told octets {} = splitByteLines octets
  := rfl

/-- Cutting a line off leaves the lines that are told as they are. -/
theorem told_cut
    {octets : Bytes} {cursor : LineCursor} {b : UInt8} {below : Nat}
    (h : EndsLineAt octets cursor.position b below) (hb : octets[cursor.position]? = some b) :
  told octets ⟨below, below, (octets.take cursor.position).drop cursor.start :: cursor.lines⟩
    = told octets cursor
  := by
  have hnone : (octets.take below).drop below = [] := by
    apply List.drop_eq_nil_of_le
    apply List.length_take_le
  rw [told, told, h.linesFrom_drop hb, hnone, List.reverse_cons, List.append_assoc,
    List.reverse_reverse]
  rfl

/-- So does passing over an octet that does not end a line. -/
theorem told_pass
    {octets : Bytes} {cursor : LineCursor} {b : UInt8} (hle : cursor.start ≤ cursor.position)
    (hb : octets[cursor.position]? = some b) (hfeed : b ≠ 0x0A) (hreturn : b ≠ 0x0D) :
  told octets { cursor with position := cursor.position + 1 } = told octets cursor
  := by
  obtain ⟨hlt, hget⟩ := List.getElem?_eq_some_iff.mp hb
  have hread : (octets.take (cursor.position + 1)).drop cursor.start
      = (octets.take cursor.position).drop cursor.start ++ [b] := by
    rw [List.take_succ_eq_append_getElem hlt, hget, List.drop_append_of_le_length]
    rw [List.length_take]
    omega
  rw [told, told, drop_eq_cons hb, linesFrom, if_neg hfeed, if_neg hreturn, hread,
    List.reverse_append]
  rfl

/-- All lines that a cursor tells, once it has come to the end, have been cut off but for a
last one without an end. -/
theorem told_of_position_eq
    {octets : Bytes} {cursor : LineCursor} (h : cursor.position = octets.length) :
  told octets cursor = cursor.lines.reverse ++
    if cursor.start < octets.length then [octets.drop cursor.start] else []
  := by
  rw [told, h, List.take_length, List.drop_length, linesFrom, List.reverse_reverse,
    List.isEmpty_reverse]
  congr 1
  by_cases hlt : cursor.start < octets.length
  · have hne : octets.drop cursor.start ≠ [] := by
      rw [ne_eq, List.drop_eq_nil_iff]
      omega
    rw [if_pos hlt, if_neg (by simpa using hne)]
  · have hnil : octets.drop cursor.start = [] := List.drop_eq_nil_of_le (Nat.not_lt.mp hlt)
    rw [if_neg hlt, hnil]
    rfl

namespace IsSafe

variable {text : Text} {cursor : LineCursor}

/-- Where a line is cut off the cursor stands between two characters, since the octet that
ends it is an ASCII octet. -/
theorem of_isBoundary_start
    (hle : cursor.start ≤ cursor.position)
    (hposition : cursor.position ≤ (Utf8.encode text).length)
    (hstart : text.IsBoundary cursor.start) :
  cursor.IsSafe text
  := by
  use hle, hposition, hstart
  rintro (hfeed | hreturn | hend)
  · apply (Utf8.isBoundary_of_isAsciiOctet Utf8.isAsciiOctet_lineFeed hfeed).1
  · apply (Utf8.isBoundary_of_isAsciiOctet Utf8.isAsciiOctet_carriageReturn hreturn).1
  · rw [hend]
    apply Text.isBoundary_length

theorem start
    (text : Text) :
  IsSafe text {}
  := of_isBoundary_start (Nat.le_refl 0) (Nat.zero_le _) text.isBoundary_zero

/-- A safe cursor has a next one, which is safe and tells the same lines. -/
theorem exists_next
    (h : cursor.IsSafe text) {b : UInt8} (hb : (Utf8.encode text)[cursor.position]? = some b) :
  ∃ cursor', cursor.next (Utf8.encode text) b = some cursor' ∧ cursor'.IsSafe text ∧
    told (Utf8.encode text) cursor' = told (Utf8.encode text) cursor
  := by
  rcases next_cases (Utf8.encode text) cursor b with
    ⟨hfeed, hreturn, hnext⟩ | ⟨below, hends, hnext⟩
  · use { cursor with position := cursor.position + 1 }, hnext
    constructor
    · obtain ⟨hlt, -⟩ := List.getElem?_eq_some_iff.mp hb
      apply of_isBoundary_start
      · apply Nat.le_succ_of_le h.start_le
      · apply hlt
      · apply h.isBoundary_start
    · apply told_pass h.start_le hb hfeed hreturn
  · have hposition : text.IsBoundary cursor.position :=
      (Utf8.isBoundary_of_isAsciiOctet hends.isAsciiOctet hb).1
    rw [hnext, endLine, Utf8.slice?_encode h.start_le h.isBoundary_start hposition]
    use ⟨below, below, ((Utf8.encode text).take cursor.position).drop cursor.start :: cursor.lines⟩,
      rfl
    constructor
    · apply of_isBoundary_start (Nat.le_refl below) (hends.below_le hb)
        (hends.isBoundary_below hb)
    · apply told_cut hends hb

theorem of_next
    (h : cursor.IsSafe text) {b : UInt8} (hb : (Utf8.encode text)[cursor.position]? = some b)
    {cursor' : LineCursor} (hnext : cursor.next (Utf8.encode text) b = some cursor') :
  cursor'.IsSafe text ∧ told (Utf8.encode text) cursor' = told (Utf8.encode text) cursor
  := by
  obtain ⟨_, hnext', hsafe⟩ := h.exists_next hb
  obtain rfl := Option.some.inj (hnext.symm.trans hnext')
  apply hsafe

/-- At the end of the octets the slice for a last line without an end is not refused either. -/
theorem finish_eq
    (h : cursor.IsSafe text) (hend : cursor.position = (Utf8.encode text).length) :
  cursor.finish (Utf8.encode text) = some (told (Utf8.encode text) cursor)
  := by
  have hle : cursor.start ≤ (Utf8.encode text).length := hend ▸ h.start_le
  rw [finish, told_of_position_eq hend,
    Utf8.slice?_encode hle h.isBoundary_start text.isBoundary_length, List.take_length]
  split
  next => simp
  next => simp

/-- A run from a safe cursor comes to an end and gives the lines that the cursor tells. -/
theorem run_eq
    (h : cursor.IsSafe text) :
  cursor.run (Utf8.encode text) = some (told (Utf8.encode text) cursor)
  := by
  fun_induction run (Utf8.encode text) cursor with
  | case1 cursor hlt cursor' hnext ih =>
    obtain ⟨hsafe, htold⟩ := h.of_next (List.getElem?_eq_getElem hlt) hnext
    rw [ih hsafe, htold]
  | case2 cursor hlt hnone =>
    -- Here a slice would have been refused.
    obtain ⟨_, hnext', -⟩ := h.exists_next (List.getElem?_eq_getElem hlt)
    cases hnone.symm.trans hnext'
  | case3 cursor hge =>
    apply h.finish_eq (Nat.le_antisymm h.position_le (Nat.not_lt.mp hge))

end IsSafe

/-! ### The run -/

/-- The cursors that come to stand over the octets, each with the number of turns that it
takes from the start. -/
inductive IsReached (octets : Bytes) : Nat → LineCursor → Prop
  | start : IsReached octets 0 {}
  | next {turns : Nat} {cursor cursor' : LineCursor} {b : UInt8}
    (h : IsReached octets turns cursor) (hb : octets[cursor.position]? = some b)
    (hnext : cursor.next octets b = some cursor') : IsReached octets (turns + 1) cursor'

namespace IsReached

variable {text : Text} {turns : Nat} {cursor : LineCursor}

theorem turns_le
    {octets : Bytes} (h : IsReached octets turns cursor) :
  turns ≤ cursor.position
  := by
  induction h with
  | start => apply Nat.le_refl
  | next _ _ hnext ih =>
    have hlt := position_lt_of_next_eq_some hnext
    omega

theorem isSafe
    (h : IsReached (Utf8.encode text) turns cursor) :
  cursor.IsSafe text
  := by
  induction h with
  | start => apply IsSafe.start
  | next _ hb hnext ih =>
    apply (ih.of_next hb hnext).1

/-- From every cursor that is reached the end of the octets is reached. -/
theorem exists_end
    (h : IsReached (Utf8.encode text) turns cursor) :
  ∃ turns last, IsReached (Utf8.encode text) turns last ∧
    last.position = (Utf8.encode text).length
  := by
  -- Each turn leaves fewer octets to be read.
  induction hleft : (Utf8.encode text).length - cursor.position using Nat.strong_induction_on
    generalizing turns cursor with
  | _ left ih =>
    by_cases hend : cursor.position = (Utf8.encode text).length
    · use turns, cursor
    · have hlt : cursor.position < (Utf8.encode text).length :=
        Nat.lt_of_le_of_ne h.isSafe.position_le hend
      have hb := List.getElem?_eq_getElem hlt
      obtain ⟨cursor', hnext, -⟩ := h.isSafe.exists_next hb
      have hforward := position_lt_of_next_eq_some hnext
      apply ih _ _ (h.next hb hnext) rfl
      omega

theorem told_eq
    (h : IsReached (Utf8.encode text) turns cursor) :
  told (Utf8.encode text) cursor = splitByteLines (Utf8.encode text)
  := by
  induction h with
  | start => apply told_start
  | next h hb hnext ih =>
    rw [(h.isSafe.of_next hb hnext).2, ih]

end IsReached

end LineCursor

/-- Over the octets of a text the cursor stays safe from turn to turn and comes to their end
after at most as many turns as there are octets, and the lines that it has cut out there are
the octets of the lines of the text. -/
theorem cutLines_encode
    (text : Text) :
  (∀ turns cursor, LineCursor.IsReached (Utf8.encode text) turns cursor →
      turns ≤ cursor.position ∧ cursor.IsSafe text) ∧
    (∃ turns last, LineCursor.IsReached (Utf8.encode text) turns last ∧
      last.position = (Utf8.encode text).length ∧
      last.finish (Utf8.encode text) = some ((splitLines text).map Utf8.encode)) ∧
    cutLines (Utf8.encode text) = some ((splitLines text).map Utf8.encode)
  := by
  rw [← splitByteLines_encode]
  constructor
  · intro turns cursor h
    exact ⟨h.turns_le, h.isSafe⟩
  · constructor
    · have hstart : LineCursor.IsReached (Utf8.encode text) 0 {} := .start
      obtain ⟨turns, last, hlast, hend⟩ := hstart.exists_end
      use turns, last, hlast, hend
      rw [hlast.isSafe.finish_eq hend, hlast.told_eq]
    · apply (LineCursor.IsSafe.start text).run_eq

/-- A text with characters of two, three and four octets, and two kinds of line ends. -/
def mixedText : Text :=
  "é\r\n€\r😀".toList

/-- A cursor may stand within a character, but then it does not cut anything off. -/
theorem cutLines_encode_withinCharacter :
  LineCursor.IsReached (Utf8.encode mixedText) 8
      ⟨8, 9, [[0xE2, 0x82, 0xAC], [0xC3, 0xA9]]⟩ ∧
    8 ≤ 9 ∧
    LineCursor.IsSafe mixedText ⟨8, 9, [[0xE2, 0x82, 0xAC], [0xC3, 0xA9]]⟩ ∧
    cutLines (Utf8.encode mixedText)
      = some (["é".toList, "€".toList, "😀".toList].map Utf8.encode)
  := by
  obtain ⟨hreached, -, hlines⟩ := cutLines_encode mixedText
  have hfirst : LineCursor.IsReached (Utf8.encode mixedText) 3 ⟨4, 4, [[0xC3, 0xA9]]⟩ :=
    .next (.next (.next .start rfl rfl) rfl rfl) rfl rfl
  have hsecond : LineCursor.IsReached (Utf8.encode mixedText) 7
      ⟨8, 8, [[0xE2, 0x82, 0xAC], [0xC3, 0xA9]]⟩ :=
    .next (.next (.next (.next hfirst rfl rfl) rfl rfl) rfl rfl) rfl rfl
  have hwithin : LineCursor.IsReached (Utf8.encode mixedText) 8
      ⟨8, 9, [[0xE2, 0x82, 0xAC], [0xC3, 0xA9]]⟩ := hsecond.next rfl rfl
  obtain ⟨hturns, hsafe⟩ := hreached 8 _ hwithin
  use hwithin, hturns, hsafe
  rw [hlines]
  rfl

/-- These octets are not those of a text: after the end of the line they go on within a
character, and the slice from there is refused. -/
example : cutLines [0x0A, 0x80] = none := by decide +kernel

end JavadocCoverage
