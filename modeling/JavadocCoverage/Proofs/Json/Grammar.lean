import JavadocCoverage.Json.Skip
import JavadocCoverage.Proofs.Json.Lexeme

/-!
# The grammar of JSON

`Written` tells how values are written, with white space between the tokens: a text starts
with a written form of a value, or with the elements of an array or the members of an object
up to the closing bracket.  `IsDocument` is a text that is a written value and nothing else.
-/

namespace JavadocCoverage

namespace Json

/-- A JSON value.  A number is held by its parts, the members of an object in order. -/
inductive Value
  | null
  | bool (value : Bool)
  | number (numeral : Numeral)
  | string (value : Text)
  | array (elements : List Value)
  | object (members : List (Text × Value))

/-- What the grammar has rules for. -/
inductive Form
  | value (value : Value)
  | elements (elements : List Value)
  | members (members : List (Text × Value))

/-- The text starts with a written form, after white space; what is left follows it.  The
elements of an array and the members of an object extend to the closing bracket. -/
inductive Written : Form → Text → Text → Prop
  | space {form : Form} {c : Char} {text rest : Text} (hc : IsSpace c)
      (h : Written form text rest) :
    Written form (c :: text) rest
  | null (rest : Text) : Written (.value .null) ("null".toList ++ rest) rest
  | isTrue (rest : Text) : Written (.value (.bool true)) ("true".toList ++ rest) rest
  | isFalse (rest : Text) : Written (.value (.bool false)) ("false".toList ++ rest) rest
  | number {written : Text} {numeral : Numeral} (h : IsNumeral written numeral) (rest : Text) :
    Written (.value (.number numeral)) (written ++ rest) rest
  | string {text value rest : Text} (h : Spells text value rest) :
    Written (.value (.string value)) ('"' :: text) rest
  | emptyArray {text rest : Text} (h : Spaced text (']' :: rest)) :
    Written (.value (.array [])) ('[' :: text) rest
  | array {elements : List Value} {text rest : Text}
      (h : Written (.elements elements) text rest) :
    Written (.value (.array elements)) ('[' :: text) rest
  | emptyObject {text rest : Text} (h : Spaced text ('\x7d' :: rest)) :
    Written (.value (.object [])) ('\x7b' :: text) rest
  | object {members : List (Text × Value)} {text rest : Text}
      (h : Written (.members members) text rest) :
    Written (.value (.object members)) ('\x7b' :: text) rest
  | element {value : Value} {text after rest : Text} (h : Written (.value value) text after)
      (hafter : Spaced after (']' :: rest)) :
    Written (.elements [value]) text rest
  | elements {value : Value} {elements : List Value} {text after below rest : Text}
      (h : Written (.value value) text after) (hafter : Spaced after (',' :: below))
      (hbelow : Written (.elements elements) below rest) :
    Written (.elements (value :: elements)) text rest
  | member {key : Text} {value : Value} {text afterKey valueText after rest : Text}
      (hkey : Spells text key afterKey) (hcolon : Spaced afterKey (':' :: valueText))
      (h : Written (.value value) valueText after) (hafter : Spaced after ('\x7d' :: rest)) :
    Written (.members [(key, value)]) ('"' :: text) rest
  | members {key : Text} {value : Value} {members : List (Text × Value)}
      {text afterKey valueText after below rest : Text}
      (hkey : Spells text key afterKey) (hcolon : Spaced afterKey (':' :: valueText))
      (h : Written (.value value) valueText after) (hafter : Spaced after (',' :: below))
      (hbelow : Written (.members members) below rest) :
    Written (.members ((key, value) :: members)) ('"' :: text) rest

/-- The text is a written form of the value, with white space around it. -/
def IsDocument (text : Text) (value : Value) : Prop :=
  ∃ after, Written (.value value) text after ∧ Spaced after []

/-- The text may follow a value. -/
def FollowsValue (rest : Text) : Prop :=
  ∀ c ∈ rest.head?, IsSpace c ∨ c = ',' ∨ c = ']' ∨ c = '\x7d'

theorem FollowsValue.endsNumeral {rest : Text} (h : FollowsValue rest) :
  EndsNumeral rest
  := by
  intro c hc
  obtain (rfl | rfl | rfl | rfl) | rfl | rfl | rfl := h c hc
  all_goals decide

theorem Spaced.followsValue
    {text rest : Text} (h : Spaced text rest) (hrest : FollowsValue rest) :
  FollowsValue text
  := by
  cases h with
  | refl => exact hrest
  | cons hc _ =>
    rintro c ⟨rfl⟩
    exact Or.inl hc

theorem Spells.length_lt {text value rest : Text} (h : Spells text value rest) :
  rest.length < text.length
  := by
  induction h with
  | close => exact Nat.lt_succ_self _
  | plain _ _ _ _ ih | letter _ _ ih | code _ _ _ ih | pair _ _ _ _ _ ih =>
    simp only [List.length_cons, List.length_append]
    omega

/-- A number starts with none of the characters that other tokens start with. -/
theorem not_mem_of_startsNumber {c : Char} (h : startsNumber c = true) :
  c ∉ [' ', '\t', '\n', '\r', '"', '[', ']', '\x7b', '\x7d', 'n', 't', 'f']
  := by
  have hall : ∀ c' ∈ [' ', '\t', '\n', '\r', '"', '[', ']', '\x7b', '\x7d', 'n', 't', 'f'],
      startsNumber c' = false := by
    simp [startsNumber]
  intro hmem
  rw [hall c hmem] at h
  cases h

theorem IsNumeral.exists_cons {written : Text} {numeral : Numeral} (h : IsNumeral written numeral) :
  ∃ c below, written = c :: below ∧ startsNumber c = true
  := by
  obtain @⟨isNegative, whole, exponentText, fraction, exponent, hwhole, -, -⟩ := h
  cases isNegative with
  | true =>
    use '-', whole ++ (fractionText fraction ++ exponentText), rfl
    rfl
  | false =>
    obtain ⟨c, digits, rfl⟩ := List.exists_cons_of_ne_nil hwhole.1.1
    use c, digits ++ (fractionText fraction ++ exponentText), rfl
    rw [startsNumber, hwhole.1.2 c List.mem_cons_self, Bool.or_true]

namespace Written

variable {form : Form} {text rest : Text}

theorem length_lt (h : Written form text rest) :
  rest.length < text.length
  := by
  induction h with
  | space _ _ ih => exact Nat.lt_succ_of_lt ih
  | null | isTrue | isFalse =>
    simp only [List.length_append, String.length_toList]
    exact Nat.lt_add_of_pos_left (by decide)
  | number h =>
    obtain ⟨c, below, rfl, -⟩ := h.exists_cons
    simp only [List.cons_append, List.length_cons, List.length_append]
    omega
  | string h => exact Nat.lt_succ_of_lt h.length_lt
  | emptyArray h | emptyObject h => exact Nat.lt_succ_of_lt h.length_le
  | array _ ih | object _ ih => exact Nat.lt_succ_of_lt ih
  | element _ hafter ih => exact Nat.lt_trans hafter.length_le ih
  | elements _ hafter _ ih ihbelow =>
    exact Nat.lt_trans ihbelow (Nat.lt_trans hafter.length_le ih)
  | member hkey hcolon _ hafter ih =>
    have := hkey.length_lt
    have := hcolon.length_le
    have := hafter.length_le
    simp only [List.length_cons] at *
    omega
  | members hkey hcolon _ hafter _ ih ihbelow =>
    have := hkey.length_lt
    have := hcolon.length_le
    have := hafter.length_le
    simp only [List.length_cons] at *
    omega

theorem exists_skipSpace_eq_cons_of_cons
    {c : Char} {below : Text} (hc : ¬ (IsSpace c ∨ c = ']' ∨ c = '\x7d'))
    (h : Written form (c :: below) rest) :
  ∃ c' below', skipSpace (c :: below) = c' :: below' ∧ ¬ (IsSpace c' ∨ c' = ']' ∨ c' = '\x7d')
    ∧ Written form (c' :: below') rest
  := ⟨c, below, skipSpace_cons_of_not_isSpace (mt Or.inl hc) below, hc, h⟩

/-- After white space, what is written starts with a character that is neither white space
nor a closing bracket. -/
theorem exists_skipSpace_eq_cons (h : Written form text rest) :
  ∃ c below, skipSpace text = c :: below ∧ ¬ (IsSpace c ∨ c = ']' ∨ c = '\x7d')
    ∧ Written form (c :: below) rest
  := by
  induction h with
  | space hc _ ih =>
    rw [skipSpace_cons_of_isSpace hc]
    exact ih
  | null rest => exact exists_skipSpace_eq_cons_of_cons (by decide) (.null rest)
  | isTrue rest => exact exists_skipSpace_eq_cons_of_cons (by decide) (.isTrue rest)
  | isFalse rest => exact exists_skipSpace_eq_cons_of_cons (by decide) (.isFalse rest)
  | number h rest =>
    have hwritten := Written.number h rest
    obtain ⟨c, below, rfl, hc⟩ := h.exists_cons
    have hne := not_mem_of_startsNumber hc
    simp only [List.mem_cons, not_or] at hne
    apply exists_skipSpace_eq_cons_of_cons _ hwritten
    simp [IsSpace, hne]
  | string h => exact exists_skipSpace_eq_cons_of_cons (by decide) (.string h)
  | emptyArray h => exact exists_skipSpace_eq_cons_of_cons (by decide) (.emptyArray h)
  | array h => exact exists_skipSpace_eq_cons_of_cons (by decide) (.array h)
  | emptyObject h => exact exists_skipSpace_eq_cons_of_cons (by decide) (.emptyObject h)
  | object h => exact exists_skipSpace_eq_cons_of_cons (by decide) (.object h)
  | element _ hafter ih =>
    obtain ⟨c, below, hskip, hc, hwritten⟩ := ih
    exact ⟨c, below, hskip, hc, .element hwritten hafter⟩
  | elements _ hafter hbelow ih =>
    obtain ⟨c, below, hskip, hc, hwritten⟩ := ih
    exact ⟨c, below, hskip, hc, .elements hwritten hafter hbelow⟩
  | member hkey hcolon h hafter =>
    exact exists_skipSpace_eq_cons_of_cons (by decide) (.member hkey hcolon h hafter)
  | members hkey hcolon h hafter hbelow =>
    exact exists_skipSpace_eq_cons_of_cons (by decide) (.members hkey hcolon h hafter hbelow)

end Written

end Json

end JavadocCoverage
