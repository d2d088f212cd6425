import Mathlib.Data.List.DropRight
import JavadocCoverage.Proofs.Json.Grammar

/-!
# Reading what is written

The grammar of JSON is unambiguous (`IsDocument.unique`): there is a reader that gives the
value that is written, whatever comes after it.  A value that is written is also skipped to
its end (`Written.skipValue_eq`).  Both follow from one induction on how the value is written
(`Written.isTaken`), in which two units of fuel are enough for a character.
-/

namespace JavadocCoverage

namespace Json

/-! ### A reader -/

namespace Value

mutual

/-- Reads one value.  Each step down takes one unit of fuel. -/
def readWith : Nat → Text → Reading Value
  | 0, _ => .error .malformed
  | fuel + 1, text =>
    match skipSpace text with
    | [] => .error .truncated
    | '"' :: rest => (readString true [] rest).map fun (value, rest) => (string value, rest)
    | '[' :: rest =>
      match skipSpace rest with
      | ']' :: rest => .ok (array [], rest)
      | rest => (readElementsWith fuel rest).map fun (elements, rest) => (array elements, rest)
    | '\x7b' :: rest =>
      match skipSpace rest with
      | '\x7d' :: rest => .ok (object [], rest)
      | rest => (readMembersWith fuel rest).map fun (members, rest) => (object members, rest)
    | 'n' :: rest => (readWord "ull".toList rest).map fun rest => (null, rest)
    | 't' :: rest => (readWord "rue".toList rest).map fun rest => (bool true, rest)
    | 'f' :: rest => (readWord "alse".toList rest).map fun rest => (bool false, rest)
    | c :: rest =>
      if startsNumber c then
        (readNumeral .truncated (c :: rest)).map fun (numeral, rest) => (number numeral, rest)
      else .error .malformed

/-- Reads the elements of an array, from one of them to the closing bracket. -/
def readElementsWith : Nat → Text → Reading (List Value)
  | 0, _ => .error .malformed
  | fuel + 1, text =>
    match readWith fuel text with
    | .error fault => .error fault
    | .ok (value, rest) =>
      match skipSpace rest with
      | ',' :: rest =>
        (readElementsWith fuel rest).map fun (elements, rest) => (value :: elements, rest)
      | ']' :: rest => .ok ([value], rest)
      | _ => .error .malformed

/-- Reads the members of an object, from one of them to the closing bracket. -/
def readMembersWith : Nat → Text → Reading (List (Text × Value))
  | 0, _ => .error .malformed
  | fuel + 1, text =>
    match skipSpace text with
    | '"' :: rest =>
      match readString true [] rest with
      | .error fault => .error fault
      | .ok (key, rest) =>
        match readMark ':' rest with
        | .error fault => .error fault
        | .ok rest =>
          match readWith fuel rest with
          | .error fault => .error fault
          | .ok (value, rest) =>
            match skipSpace rest with
            | ',' :: rest =>
              (readMembersWith fuel rest).map fun (members, rest) =>
                ((key, value) :: members, rest)
            | '\x7d' :: rest => .ok ([(key, value)], rest)
            | _ => .error .malformed
    | _ => .error .malformed

end

end Value

namespace Form

/-- The text is read as the form, and skipped, with the given fuel. -/
def IsTaken (fuel : Nat) (text rest : Text) : Form → Prop
  | value v =>
    Value.readWith fuel text = .ok (v, rest) ∧ skipValueWith fuel text = .ok rest
  | elements vs =>
    Value.readElementsWith fuel text = .ok (vs, rest) ∧ skipElementsWith fuel text = .ok rest
  | members ms =>
    Value.readMembersWith fuel text = .ok (ms, rest) ∧ skipMembersWith fuel text = .ok rest

/-- The fuel that is enough for a form that a text starts with. -/
def fuel (text : Text) : Form → Nat
  | value _ => 2 * text.length
  | elements _ => 2 * text.length + 1
  | members _ => 2 * text.length + 1

/-- What has to come after the form: a value has no mark at its end. -/
def IsEndedBy (rest : Text) : Form → Prop
  | value _ => FollowsValue rest
  | elements _ => True
  | members _ => True

variable {text text' rest : Text}

/-- White space before a form does not matter. -/
theorem isTaken_congr (h : skipSpace text = skipSpace text') (fuel : Nat) (form : Form) :
  form.IsTaken fuel text rest ↔ form.IsTaken fuel text' rest
  := by
  have hvalue : ∀ fuel, Value.readWith fuel text = Value.readWith fuel text'
      ∧ skipValueWith fuel text = skipValueWith fuel text' := by
    rintro (_ | fuel)
    · exact ⟨rfl, rfl⟩
    · simp only [Value.readWith, skipValueWith, h, and_self]
  cases form with
  | value v => rw [IsTaken, IsTaken, (hvalue fuel).1, (hvalue fuel).2]
  | elements vs =>
    cases fuel with
    | zero => exact Iff.rfl
    | succ fuel =>
      simp only [IsTaken, Value.readElementsWith, skipElementsWith, (hvalue fuel).1,
        (hvalue fuel).2]
  | members ms =>
    cases fuel with
    | zero => exact Iff.rfl
    | succ fuel => simp only [IsTaken, Value.readMembersWith, skipMembersWith, h]

theorem isTaken_skipSpace {fuel : Nat} {form : Form} :
  form.IsTaken fuel (skipSpace text) rest ↔ form.IsTaken fuel text rest
  := isTaken_congr (List.dropWhile_idempotent _ _) fuel form

end Form

section

variable {text below rest : Text} {c : Char} {fuel : Nat}

theorem isTaken_string {value : Text} (h : Spells text value rest) :
  (Form.value (.string value)).IsTaken (fuel + 1) ('"' :: text) rest
  := by
  constructor
  · rw [Value.readWith, skipSpace_cons_of_not_isSpace (by decide)]
    simp only [h.readString_eq]
    rfl
  · obtain ⟨value', hvalue'⟩ := h.exists_readString []
    rw [skipValueWith, skipSpace_cons_of_not_isSpace (by decide)]
    simp only [hvalue']
    rfl

theorem isTaken_number
    (hc : startsNumber c = true) {numeral : Numeral}
    (hread : ∀ atEnd, readNumeral atEnd (c :: below) = .ok (numeral, rest)) :
  (Form.value (.number numeral)).IsTaken (fuel + 1) (c :: below) rest
  := by
  have hne := not_mem_of_startsNumber hc
  simp only [List.mem_cons, not_or] at hne
  have hspace : ¬ IsSpace c := by
    simp [IsSpace, hne]
  constructor
  · rw [Value.readWith, skipSpace_cons_of_not_isSpace hspace]
    split
    all_goals simp_all [Except.map]
  · rw [skipValueWith, skipSpace_cons_of_not_isSpace hspace]
    split
    all_goals simp_all [Except.map]

theorem isTaken_array
    {elements : List Value} (hskip : skipSpace text = c :: below) (hc : c ≠ ']')
    (h : (Form.elements elements).IsTaken fuel text rest) :
  (Form.value (.array elements)).IsTaken (fuel + 1) ('[' :: text) rest
  := by
  obtain ⟨hread, hpass⟩ := Form.isTaken_skipSpace.mpr h
  rw [hskip] at hread hpass
  constructor
  · rw [Value.readWith, skipSpace_cons_of_not_isSpace (by decide)]
    simp only [hskip]
    split
    · next heq => exact absurd (List.cons.inj heq).1 hc
    · rw [hread]
      rfl
  · rw [skipValueWith, skipSpace_cons_of_not_isSpace (by decide)]
    simp only [hskip]
    split
    · next heq => cases heq
    · next heq => exact absurd (List.cons.inj heq).1 hc
    · exact hpass

theorem isTaken_object
    {members : List (Text × Value)} (hskip : skipSpace text = c :: below) (hc : c ≠ '\x7d')
    (h : (Form.members members).IsTaken fuel text rest) :
  (Form.value (.object members)).IsTaken (fuel + 1) ('\x7b' :: text) rest
  := by
  obtain ⟨hread, hpass⟩ := Form.isTaken_skipSpace.mpr h
  rw [hskip] at hread hpass
  constructor
  · rw [Value.readWith, skipSpace_cons_of_not_isSpace (by decide)]
    simp only [hskip]
    split
    · next heq => exact absurd (List.cons.inj heq).1 hc
    · rw [hread]
      rfl
  · rw [skipValueWith, skipSpace_cons_of_not_isSpace (by decide)]
    simp only [hskip]
    split
    · next heq => cases heq
    · next heq => exact absurd (List.cons.inj heq).1 hc
    · exact hpass

variable {value : Value} {after : Text}

theorem isTaken_element
    (h : (Form.value value).IsTaken fuel text after) (hafter : Spaced after (']' :: rest)) :
  (Form.elements [value]).IsTaken (fuel + 1) text rest
  := by
  have hskip := hafter.skipSpace_eq_cons (by decide)
  constructor
  · simp only [Value.readElementsWith, h.1, hskip]
  · simp only [skipElementsWith, h.2, hskip]

theorem isTaken_elements
    {elements : List Value} (h : (Form.value value).IsTaken fuel text after)
    (hafter : Spaced after (',' :: below))
    (hbelow : (Form.elements elements).IsTaken fuel below rest) :
  (Form.elements (value :: elements)).IsTaken (fuel + 1) text rest
  := by
  have hskip := hafter.skipSpace_eq_cons (by decide)
  constructor
  · simp only [Value.readElementsWith, h.1, hskip, hbelow.1, Except.map]
  · simp only [skipElementsWith, h.2, hskip, hbelow.2]

variable {key afterKey valueText : Text} (hkey : Spells text key afterKey)
  (hcolon : Spaced afterKey (':' :: valueText))
include hkey hcolon

theorem isTaken_member
    (h : (Form.value value).IsTaken fuel valueText after) (hafter : Spaced after ('\x7d' :: rest)) :
  (Form.members [(key, value)]).IsTaken (fuel + 1) ('"' :: text) rest
  := by
  have hquote := skipSpace_cons_of_not_isSpace (c := '"') (by decide) text
  have hmark := hcolon.readMark (by decide)
  have hskip := hafter.skipSpace_eq_cons (by decide)
  obtain ⟨key', hkey'⟩ := hkey.exists_readString []
  constructor
  · simp only [Value.readMembersWith, hquote, hkey.readString_eq, hmark, h.1, hskip]
    rfl
  · simp only [skipMembersWith, hquote, hkey', hmark, h.2, hskip]

theorem isTaken_members
    {members : List (Text × Value)} (h : (Form.value value).IsTaken fuel valueText after)
    (hafter : Spaced after (',' :: below))
    (hbelow : (Form.members members).IsTaken fuel below rest) :
  (Form.members ((key, value) :: members)).IsTaken (fuel + 1) ('"' :: text) rest
  := by
  have hquote := skipSpace_cons_of_not_isSpace (c := '"') (by decide) text
  have hmark := hcolon.readMark (by decide)
  have hskip := hafter.skipSpace_eq_cons (by decide)
  obtain ⟨key', hkey'⟩ := hkey.exists_readString []
  constructor
  · simp only [Value.readMembersWith, hquote, hkey.readString_eq, hmark, h.1, hskip, hbelow.1]
    rfl
  · simp only [skipMembersWith, hquote, hkey', hmark, h.2, hskip, hbelow.2]

end

theorem Form.fuel_le_of_length_le
    {text text' : Text} (h : text.length ≤ text'.length) (form : Form) :
  form.fuel text ≤ form.fuel text'
  := by
  cases form with
  | value | elements | members =>
    simp only [Form.fuel]
    omega

theorem followsValue_cons {c : Char} (hc : c = ',' ∨ c = ']' ∨ c = '\x7d') (rest : Text) :
  FollowsValue (c :: rest)
  := by
  rintro _ ⟨rfl⟩
  exact Or.inr hc

namespace Written

/-- What is written is read as what it is, and skipped. -/
theorem isTaken
    {form : Form} {text rest : Text} (h : Written form text rest) {fuel : Nat}
    (hfuel : form.fuel text ≤ fuel) (hend : form.IsEndedBy rest) :
  form.IsTaken fuel text rest
  := by
  induction h generalizing fuel with
  | @space form c text rest hc _ ih =>
    apply (Form.isTaken_congr (skipSpace_cons_of_isSpace hc _) fuel form).mpr
    apply ih (Nat.le_trans (form.fuel_le_of_length_le (Nat.le_succ _)) hfuel) hend
  | null rest =>
    obtain _ | fuel := fuel
    · simp [Form.fuel] at hfuel
    · exact ⟨rfl, rfl⟩
  | isTrue rest =>
    obtain _ | fuel := fuel
    · simp [Form.fuel] at hfuel
    · exact ⟨rfl, rfl⟩
  | isFalse rest =>
    obtain _ | fuel := fuel
    · simp [Form.fuel] at hfuel
    · exact ⟨rfl, rfl⟩
  | @number written numeral h rest =>
    have hread : ∀ atEnd, readNumeral atEnd (written ++ rest) = .ok (numeral, rest) := by
      intro atEnd
      apply h.readNumeral_append atEnd (FollowsValue.endsNumeral hend)
    obtain ⟨c, below, rfl, hc⟩ := h.exists_cons
    obtain _ | fuel := fuel
    · simp [Form.fuel] at hfuel
    · apply isTaken_number hc hread
  | string h =>
    obtain _ | fuel := fuel
    · simp [Form.fuel] at hfuel
    · apply isTaken_string h
  | emptyArray h =>
    obtain _ | fuel := fuel
    · simp [Form.fuel] at hfuel
    · have hskip := h.skipSpace_eq_cons (by decide)
      constructor
      · simp only [Value.readWith, skipSpace_cons_of_not_isSpace (c := '[') (by decide), hskip]
      · simp only [skipValueWith, skipSpace_cons_of_not_isSpace (c := '[') (by decide), hskip]
  | emptyObject h =>
    obtain _ | fuel := fuel
    · simp [Form.fuel] at hfuel
    · have hskip := h.skipSpace_eq_cons (by decide)
      constructor
      · simp only [Value.readWith, skipSpace_cons_of_not_isSpace (c := '\x7b') (by decide), hskip]
      · simp only [skipValueWith, skipSpace_cons_of_not_isSpace (c := '\x7b') (by decide), hskip]
  | array h ih =>
    obtain ⟨c, below, hskip, hc, -⟩ := h.exists_skipSpace_eq_cons
    simp only [not_or] at hc
    obtain _ | fuel := fuel
    · simp [Form.fuel] at hfuel
    · apply isTaken_array hskip hc.2.1 (ih _ trivial)
      simp only [Form.fuel, List.length_cons] at hfuel ⊢
      omega
  | object h ih =>
    obtain ⟨c, below, hskip, hc, -⟩ := h.exists_skipSpace_eq_cons
    simp only [not_or] at hc
    obtain _ | fuel := fuel
    · simp [Form.fuel] at hfuel
    · apply isTaken_object hskip hc.2.2 (ih _ trivial)
      simp only [Form.fuel, List.length_cons] at hfuel ⊢
      omega
  | element _ hafter ih =>
    obtain _ | fuel := fuel
    · simp [Form.fuel] at hfuel
    · apply isTaken_element (ih _ (hafter.followsValue (followsValue_cons (by simp) _))) hafter
      simp only [Form.fuel] at hfuel ⊢
      omega
  | elements h hafter _ ih ihbelow =>
    have := h.length_lt
    have := hafter.length_le
    obtain _ | fuel := fuel
    · simp [Form.fuel] at hfuel
    · simp only [Form.fuel, List.length_cons] at *
      apply isTaken_elements (ih _ (hafter.followsValue (followsValue_cons (by simp) _))) hafter
        (ihbelow _ trivial)
      · omega
      · omega
  | member hkey hcolon _ hafter ih =>
    have := hkey.length_lt
    have := hcolon.length_le
    obtain _ | fuel := fuel
    · simp [Form.fuel] at hfuel
    · simp only [Form.fuel, List.length_cons] at *
      apply isTaken_member hkey hcolon
        (ih _ (hafter.followsValue (followsValue_cons (by simp) _))) hafter
      omega
  | members hkey hcolon h hafter _ ih ihbelow =>
    have := hkey.length_lt
    have := hcolon.length_le
    have := h.length_lt
    have := hafter.length_le
    obtain _ | fuel := fuel
    · simp [Form.fuel] at hfuel
    · simp only [Form.fuel, List.length_cons] at *
      apply isTaken_members hkey hcolon
        (ih _ (hafter.followsValue (followsValue_cons (by simp) _))) hafter (ihbelow _ trivial)
      · omega
      · omega

/-- A value that is written is skipped. -/
theorem skipValue_eq
    {value : Value} {text rest : Text} (h : Written (.value value) text rest)
    (hrest : FollowsValue rest) :
  skipValue text = .ok rest
  := (h.isTaken (Nat.le_succ _) hrest).2

end Written

/-- A text is a written form of one value at most. -/
theorem IsDocument.unique
    {text : Text} {value value' : Value} (h : IsDocument text value)
    (h' : IsDocument text value') :
  value = value'
  := by
  have hend : FollowsValue [] := by
    intro c hc
    cases hc
  obtain ⟨after, hvalue, hafter⟩ := h
  obtain ⟨after', hvalue', hafter'⟩ := h'
  have hread : Value.readWith (2 * text.length) text = .ok (value, after) :=
    (hvalue.isTaken (Nat.le_refl _) (hafter.followsValue hend)).1
  have hread' : Value.readWith (2 * text.length) text = .ok (value', after') :=
    (hvalue'.isTaken (Nat.le_refl _) (hafter'.followsValue hend)).1
  rw [hread'] at hread
  cases hread
  rfl

end Json

end JavadocCoverage
