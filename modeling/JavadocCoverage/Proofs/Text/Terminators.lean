import Mathlib.Tactic.Use
import JavadocCoverage.Proofs.Text.Lines

/-!
# Texts put together from lines

Lines make a text when each is followed by a terminator (`terminated`).  Which
terminators stand where is free, but for two things (`AreEnds`): only the last line may go
without one, and only when it is not empty; and no line feed comes right after a carriage
return that is a terminator by itself, since the two would be read as one.

`splitLines_eq_iff_terminated` shows that splitting a text undoes this and nothing else:
its lines are the only unbroken lines that make the text, and they are read back from
every text that they make.
-/

namespace JavadocCoverage

/-- The ways in which a line may end. -/
inductive Terminator
  | lineFeed
  | both
  | carriageReturn
deriving DecidableEq, Repr

/-- The marks of which a terminator consists. -/
def Terminator.marks : Terminator → Text
  | lineFeed => ['\n']
  | both => ['\r', '\n']
  | carriageReturn => ['\r']

/-- The text that the lines make, each followed by its terminator.  Lines for which no
terminator is left go without. -/
def terminated : List Text → List Terminator → Text
  | [], _ => []
  | line :: lines, [] => line ++ terminated lines []
  | line :: lines, terminator :: ends => line ++ (terminator.marks ++ terminated lines ends)

/-- The terminators are a choice of ends for the lines. -/
structure AreEnds (ends : List Terminator) (lines : List Text) : Prop where
  /-- Each line has its terminator; the last one, if it is not empty, may have none. -/
  length_eq : ends.length = lines.length ∨
    ends.length + 1 = lines.length ∧ ∃ last ∈ lines.getLast?, last ≠ []
  /-- What comes after a carriage return does not start with a line feed. -/
  head?_ne : ∀ i, ends[i]? = some .carriageReturn →
    (terminated (lines.drop (i + 1)) (ends.drop (i + 1))).head? ≠ some '\n'

namespace AreEnds

theorem nil :
  AreEnds [] []
  := ⟨Or.inl rfl, fun _ h => nomatch h⟩

/-- A last line that is not empty needs no end. -/
theorem singleton
    {line : Text} (hne : line ≠ []) :
  AreEnds [] [line]
  := ⟨Or.inr ⟨rfl, line, rfl, hne⟩, fun _ h => nomatch h⟩

/-- A choice of ends is made one line after the other. -/
theorem cons_iff
    {terminator : Terminator} {ends : List Terminator} {line : Text} {lines : List Text} :
  AreEnds (terminator :: ends) (line :: lines) ↔
    (terminator = .carriageReturn → (terminated lines ends).head? ≠ some '\n') ∧
      AreEnds ends lines
  := by
  have hlast (h : ends.length + 1 = lines.length) :
      (line :: lines).getLast? = lines.getLast? := by
    apply List.getLast?_cons_of_ne_nil
    apply List.ne_nil_of_length_pos
    omega
  constructor
  · rintro ⟨hlength, hhead⟩
    constructor
    · rintro rfl
      apply hhead 0 rfl
    · constructor
      · rcases hlength with hlength | ⟨hlength, hnonempty⟩
        · left
          apply Nat.succ.inj hlength
        · have hlength : ends.length + 1 = lines.length := Nat.succ.inj hlength
          right
          rw [hlast hlength] at hnonempty
          use hlength
      · intro i
        apply hhead (i + 1)
  · rintro ⟨hfirst, hlength, hhead⟩
    constructor
    · rcases hlength with hlength | ⟨hlength, hnonempty⟩
      · left
        apply congrArg Nat.succ hlength
      · right
        rw [hlast hlength]
        use congrArg Nat.succ hlength
    · intro i hi
      cases i with
      | zero => apply hfirst (Option.some.inj hi)
      | succ i => apply hhead i hi

end AreEnds

/-- A text that is cut into lines is made of them. -/
theorem IsCutInto.exists_ends
    {text : Text} {lines : List Text} (h : IsCutInto '\n' '\r' text lines) :
  ∃ ends, AreEnds ends lines ∧ text = terminated lines ends
  := by
  induction h with
  | nil =>
    use [], AreEnds.nil
    rfl
  | @unended line _ hne =>
    use [], AreEnds.singleton hne
    symm
    apply List.append_nil
  | lineFeed _ _ ih =>
    obtain ⟨ends, hends, rfl⟩ := ih
    use .lineFeed :: ends, AreEnds.cons_iff.mpr ⟨nofun, hends⟩
    rfl
  | both _ _ ih =>
    obtain ⟨ends, hends, rfl⟩ := ih
    use .both :: ends, AreEnds.cons_iff.mpr ⟨nofun, hends⟩
    rfl
  | carriageReturn _ hfirst _ ih =>
    obtain ⟨ends, hends, rfl⟩ := ih
    use .carriageReturn :: ends, AreEnds.cons_iff.mpr ⟨fun _ => hfirst, hends⟩
    rfl

/-- The text that unbroken lines make is cut into them. -/
theorem isCutInto_terminated
    {lines : List Text} (hlines : ∀ line ∈ lines, IsUnbroken '\n' '\r' line)
    {ends : List Terminator} (h : AreEnds ends lines) :
  IsCutInto '\n' '\r' (terminated lines ends) lines
  := by
  induction lines generalizing ends with
  | nil => apply IsCutInto.nil
  | cons line lines ih =>
    obtain ⟨hline, hrest⟩ := List.forall_mem_cons.mp hlines
    cases ends with
    | nil =>
      -- Without a terminator the line is the last one.
      obtain hlength | ⟨hlength, last, hlast, hne⟩ := h.length_eq
      · cases hlength
      · obtain rfl : lines = [] := List.eq_nil_of_length_eq_zero (Nat.succ.inj hlength).symm
        obtain rfl : line = last := Option.some.inj hlast
        rw [terminated, terminated, List.append_nil]
        apply IsCutInto.unended hline hne
    | cons terminator ends =>
      obtain ⟨hfirst, hends⟩ := AreEnds.cons_iff.mp h
      have hbelow := ih hrest hends
      cases terminator with
      | lineFeed => apply IsCutInto.lineFeed hline hbelow
      | both => apply IsCutInto.both hline hbelow
      | carriageReturn => apply IsCutInto.carriageReturn hline (hfirst rfl) hbelow

/-- The lines of a text are the unbroken lines that make the text with some choice of
ends, and with any other choice they make a text that has the same lines. -/
theorem splitLines_eq_iff_terminated
    (text : Text) (lines : List Text) :
  (splitLines text = lines ↔
    (∀ line ∈ lines, IsUnbroken '\n' '\r' line) ∧
      ∃ ends, AreEnds ends lines ∧ text = terminated lines ends) ∧
    ∀ ends, AreEnds ends (splitLines text) →
      splitLines (terminated (splitLines text) ends) = splitLines text
  := by
  constructor
  · rw [splitLines_eq_iff]
    constructor
    · intro hcut
      constructor
      · apply hcut.isUnbroken
      · apply hcut.exists_ends
    · rintro ⟨hlines, ends, hends, rfl⟩
      apply isCutInto_terminated hlines hends
  · intro ends hends
    have hcut : IsCutInto '\n' '\r' text (splitLines text) := splitLines_eq_iff.mp rfl
    apply splitLines_eq_iff.mpr
    apply isCutInto_terminated hcut.isUnbroken hends

/-- A carriage return that comes before an empty line keeps that line when a carriage
return and a line feed end it together. -/
theorem splitLines_eq_iff_terminated_otherEnds :
  splitLines "a\r\n\rb\nc".toList = ["a".toList, [], "b".toList, "c".toList] ∧
    AreEnds [.carriageReturn, .both, .carriageReturn, .lineFeed]
      ["a".toList, [], "b".toList, "c".toList] ∧
    splitLines "a\r\r\nb\rc\n".toList = ["a".toList, [], "b".toList, "c".toList]
  := by
  have hlines : splitLines "a\r\n\rb\nc".toList
      = ["a".toList, [], "b".toList, "c".toList] := by decide
  have hends : AreEnds [.carriageReturn, .both, .carriageReturn, .lineFeed]
      ["a".toList, [], "b".toList, "c".toList] := by
    apply AreEnds.cons_iff.mpr ⟨by decide, _⟩
    apply AreEnds.cons_iff.mpr ⟨by decide, _⟩
    apply AreEnds.cons_iff.mpr ⟨by decide, _⟩
    apply AreEnds.cons_iff.mpr ⟨by decide, AreEnds.nil⟩
  use hlines, hends
  obtain ⟨-, hagain⟩ := splitLines_eq_iff_terminated "a\r\n\rb\nc".toList []
  rw [hlines] at hagain
  apply hagain _ hends

/-- A line feed after a carriage return belongs to it, so that no empty line is read. -/
example :
    splitLines (terminated ["a".toList, []] [.carriageReturn, .lineFeed]) = ["a".toList] := by
  decide

end JavadocCoverage
