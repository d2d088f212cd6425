import Mathlib.Tactic.SplitIfs
import JavadocCoverage.Json.Value
import JavadocCoverage.Proofs.Json.Reading
import JavadocCoverage.Proofs.Text.Decimal

/-!
# What is printed is written

The compact form and the pretty form of a document are written forms of its value, whatever
comes after them (`written_compact`, `written_pretty`).  Both follow the recursion of the
printers; the escapes of a string and the digits of a number are the same for both.
-/

namespace JavadocCoverage

namespace Json

/-! ### Strings and numbers -/

theorem hexValue?_hexDigit {n : Nat} (h : n < 16) :
  hexValue? (hexDigit n) = some n
  := by
  have hall : ∀ n < 16, hexValue? (hexDigit n) = some n := by decide
  exact hall n h

/-- The escape of a control character is its code. -/
theorem denotesHex_control {n : Nat} (h : n < 0x20) :
  DenotesHex ['0', '0', hexDigit (n / 16), hexDigit (n % 16)] n
  := by
  have hcode : n = ((0 * 16 + 0) * 16 + n / 16) * 16 + n % 16 := by omega
  nth_rewrite 3 [hcode]
  constructor
  · decide
  · decide
  · apply hexValue?_hexDigit
    omega
  · apply hexValue?_hexDigit
    omega

/-- What is written for a character stands for it. -/
theorem Spells.escape
    {text value rest : Text} (c : Char) (h : Spells text value rest) :
  Spells (escape c ++ text) (c :: value) rest
  := by
  have hletter {letter c' : Char} (hmem : (letter, c') ∈ letterEscapes) (hc : c = c') :
      Spells (['\\', letter] ++ text) (c :: value) rest := by
    rw [hc]
    exact .letter hmem h
  unfold Json.escape
  split_ifs with hquote hbackslash hb ht hn hf hr hcontrol
  · exact hletter (by decide) hquote
  · exact hletter (by decide) hbackslash
  · exact hletter (by decide) hb
  · exact hletter (by decide) ht
  · exact hletter (by decide) hn
  · exact hletter (by decide) hf
  · exact hletter (by decide) hr
  · have hcode := Spells.code (denotesHex_control hcontrol) (by omega) h
    rw [Char.ofNat_toNat] at hcode
    exact hcode
  · exact .plain hquote hbackslash (Nat.le_of_not_lt hcontrol) h

theorem spells_flatMap_escape (value rest : Text) :
  Spells (value.flatMap escape ++ '"' :: rest) value rest
  := by
  induction value with
  | nil => exact .close rest
  | cons c value ih =>
    rw [List.flatMap_cons, List.append_assoc]
    exact ih.escape c

theorem quote_append (value rest : Text) :
  quote value ++ rest = '"' :: (value.flatMap escape ++ '"' :: rest)
  := by
  rw [quote, List.cons_append, List.cons_append, List.append_assoc]
  rfl

/-- A natural number as it is written: digits only. -/
def Numeral.ofNat (n : Nat) : Numeral :=
  ⟨false, decimal n, none, none⟩

theorem Numeral.ofNat_injective :
  Function.Injective Numeral.ofNat
  := by
  intro n m h
  exact decimal_injective (Numeral.mk.inj h).2.1

theorem isNumeral_decimal (n : Nat) :
  IsNumeral (decimal n) (.ofNat n)
  := by
  have hwhole : IsWhole (decimal n) := by
    constructor
    · exact ⟨decimal_ne_nil n, fun _ => isDigit_of_mem_decimal⟩
    · intro below
      exact eq_nil_of_decimal_eq_zero_cons
  have h := @IsNumeral.mk false _ _ none _ hwhole nofun .none
  rw [fractionText, Option.elim_none, List.append_nil, List.append_nil] at h
  exact h

/-! ### Documents -/

mutual

/-- The value of a document. -/
def value : Json → Value
  | null => .null
  | bool value => .bool value
  | number n => .number (.ofNat n)
  | string text => .string text
  | array elements => .array (elementValues elements)
  | object members => .object (memberValues members)

/-- The values of the elements of an array. -/
def elementValues : List Json → List Value
  | [] => []
  | element :: elements => element.value :: elementValues elements

/-- The members of an object with their values. -/
def memberValues : List (Text × Json) → List (Text × Value)
  | [] => []
  | (key, element) :: members => (key, element.value) :: memberValues members

end

theorem elementValues_eq_map (elements : List Json) :
  elementValues elements = elements.map value
  := by
  induction elements with
  | nil => rfl
  | cons element elements ih => rw [elementValues, ih, List.map_cons]

/-- What holds of a document when it holds of its parts holds of all documents. -/
@[elab_as_elim]
theorem induction
    {P : Json → Prop} (null : P null) (bool : ∀ value, P (bool value))
    (number : ∀ n, P (number n)) (string : ∀ text, P (string text))
    (array : ∀ elements, (∀ element ∈ elements, P element) → P (array elements))
    (object : ∀ members, (∀ member ∈ members, P member.2) → P (object members)) (json : Json) :
  P json
  := by
  have hcons {α : Type} {Q : α → Prop} (x : α) (xs : List α) (hx : Q x) (hxs : ∀ y ∈ xs, Q y) :
      ∀ y ∈ x :: xs, Q y :=
    List.forall_mem_cons.mpr ⟨hx, hxs⟩
  apply @Json.rec P (fun elements => ∀ element ∈ elements, P element)
    (fun members => ∀ member ∈ members, P member.2) (fun member => P member.2)
  · exact null
  · exact bool
  · exact number
  · exact string
  · exact array
  · exact object
  · exact nofun
  · exact hcons
  · exact nofun
  · exact hcons
  · exact fun _ _ ih => ih

theorem written_decimal (n : Nat) (rest : Text) :
  Written (.value (number n).value) (decimal n ++ rest) rest
  := .number (isNumeral_decimal n) rest

theorem written_quote (text rest : Text) :
  Written (.value (string text).value) (quote text ++ rest) rest
  := by
  rw [quote_append]
  exact .string (spells_flatMap_escape text rest)

/-! ### The compact form -/

/-- The compact form of the document is written, whatever comes after it. -/
def IsWrittenCompact (json : Json) : Prop :=
  ∀ rest, Written (.value json.value) (json.compact ++ rest) rest

theorem compactElements_cons_cons (element next : Json) (elements : List Json) :
  compactElements (element :: next :: elements)
    = element.compact ++ ',' :: compactElements (next :: elements)
  := rfl

theorem compactMembers_cons_cons
    (key : Text) (json : Json) (next : Text × Json) (members : List (Text × Json)) :
  compactMembers ((key, json) :: next :: members)
    = quote key ++ ':' :: json.compact ++ ',' :: compactMembers (next :: members)
  := rfl

theorem written_compactElements
    {element : Json} {elements : List Json} (h : element.IsWrittenCompact)
    (hs : ∀ element ∈ elements, element.IsWrittenCompact) (rest : Text) :
  Written (.elements (elementValues (element :: elements)))
    (compactElements (element :: elements) ++ ']' :: rest) rest
  := by
  induction elements generalizing element with
  | nil => exact .element (h _) (.refl _)
  | cons next elements ih =>
    obtain ⟨hnext, hs⟩ := List.forall_mem_cons.mp hs
    rw [compactElements_cons_cons, List.append_assoc]
    exact .elements (h _) (.refl _) (ih hnext hs)

theorem written_compactMembers
    {key : Text} {json : Json} {members : List (Text × Json)} (h : json.IsWrittenCompact)
    (hs : ∀ member ∈ members, member.2.IsWrittenCompact) (rest : Text) :
  Written (.members (memberValues ((key, json) :: members)))
    (compactMembers ((key, json) :: members) ++ '\x7d' :: rest) rest
  := by
  induction members generalizing key json with
  | nil =>
    rw [compactMembers, List.append_assoc, quote_append]
    exact .member (spells_flatMap_escape _ _) (.refl _) (h _) (.refl _)
  | cons next members ih =>
    obtain ⟨hnext, hs⟩ := List.forall_mem_cons.mp hs
    rw [compactMembers_cons_cons, List.append_assoc, List.append_assoc, quote_append]
    exact .members (spells_flatMap_escape _ _) (.refl _) (h _) (.refl _) (ih hnext hs)

/-- The compact form of a document is written, whatever comes after it. -/
theorem written_compact (json : Json) :
  json.IsWrittenCompact
  := by
  induction json using induction with
  | null => exact .null
  | bool value =>
    cases value with
    | true => exact .isTrue
    | false => exact .isFalse
  | number n => exact written_decimal n
  | string text => exact written_quote text
  | array elements ih =>
    intro rest
    rw [compact]
    simp only [List.cons_append, List.append_assoc]
    cases elements with
    | nil => exact .emptyArray (.refl _)
    | cons element elements =>
      obtain ⟨h, hs⟩ := List.forall_mem_cons.mp ih
      exact .array (written_compactElements h hs rest)
  | object members ih =>
    intro rest
    rw [compact]
    simp only [List.cons_append, List.append_assoc]
    cases members with
    | nil => exact .emptyObject (.refl _)
    | cons member members =>
      obtain ⟨h, hs⟩ := List.forall_mem_cons.mp ih
      exact .object (written_compactMembers h hs rest)

/-! ### The pretty form -/

/-- The pretty form of the document is written at every depth, whatever comes after it. -/
def IsWrittenPretty (json : Json) : Prop :=
  ∀ depth rest, Written (.value json.value) (json.pretty depth ++ rest) rest

theorem Written.spaces
    {form : Form} {text rest : Text} (h : Written form text rest) {spaces : Text}
    (hspaces : ∀ c ∈ spaces, IsSpace c) :
  Written form (spaces ++ text) rest
  := by
  induction spaces with
  | nil => exact h
  | cons c spaces ih =>
    obtain ⟨hc, hspaces⟩ := List.forall_mem_cons.mp hspaces
    exact .space hc (ih hspaces)

theorem Spaced.append {spaces : Text} (hspaces : ∀ c ∈ spaces, IsSpace c) (rest : Text) :
  Spaced (spaces ++ rest) rest
  := by
  induction spaces with
  | nil => exact .refl rest
  | cons c spaces ih =>
    obtain ⟨hc, hspaces⟩ := List.forall_mem_cons.mp hspaces
    exact .cons hc (ih hspaces)

theorem isSpace_of_mem_newLine {depth : Nat} :
  ∀ c ∈ newLine depth, IsSpace c
  := by
  rw [newLine, List.forall_mem_cons]
  constructor
  · decide
  · intro c hc
    rw [(List.mem_replicate.mp hc).2]
    decide

section

variable (depth : Nat) {after rest : Text}

theorem prettyElements_cons_cons (element next : Json) (elements : List Json) :
  prettyElements depth (element :: next :: elements)
    = newLine depth ++ element.pretty depth ++ ',' :: prettyElements depth (next :: elements)
  := rfl

theorem prettyMembers_cons_cons
    (key : Text) (json : Json) (next : Text × Json) (members : List (Text × Json)) :
  prettyMembers depth ((key, json) :: next :: members)
    = newLine depth ++ quote key ++ ": ".toList ++ json.pretty depth
      ++ ',' :: prettyMembers depth (next :: members)
  := rfl

theorem written_prettyElements
    {element : Json} {elements : List Json} (h : element.IsWrittenPretty)
    (hs : ∀ element ∈ elements, element.IsWrittenPretty) (hafter : Spaced after (']' :: rest)) :
  Written (.elements (elementValues (element :: elements)))
    (prettyElements depth (element :: elements) ++ after) rest
  := by
  induction elements generalizing element with
  | nil =>
    rw [prettyElements, List.append_assoc]
    exact Written.spaces (.element (h _ _) hafter) isSpace_of_mem_newLine
  | cons next elements ih =>
    obtain ⟨hnext, hs⟩ := List.forall_mem_cons.mp hs
    rw [prettyElements_cons_cons, List.append_assoc, List.append_assoc]
    exact Written.spaces (.elements (h _ _) (.refl _) (ih hnext hs)) isSpace_of_mem_newLine

theorem written_prettyMembers
    {key : Text} {json : Json} {members : List (Text × Json)} (h : json.IsWrittenPretty)
    (hs : ∀ member ∈ members, member.2.IsWrittenPretty) (hafter : Spaced after ('\x7d' :: rest)) :
  Written (.members (memberValues ((key, json) :: members)))
    (prettyMembers depth ((key, json) :: members) ++ after) rest
  := by
  have hcolon (text : Text) : Spaced (": ".toList ++ text) (':' :: ' ' :: text) := .refl _
  induction members generalizing key json with
  | nil =>
    rw [prettyMembers, List.append_assoc, List.append_assoc, List.append_assoc, quote_append]
    exact Written.spaces (.member (spells_flatMap_escape _ _) (hcolon _)
      (.space (by decide) (h _ _)) hafter) isSpace_of_mem_newLine
  | cons next members ih =>
    obtain ⟨hnext, hs⟩ := List.forall_mem_cons.mp hs
    rw [prettyMembers_cons_cons, List.append_assoc, List.append_assoc, List.append_assoc,
      List.append_assoc, quote_append]
    exact Written.spaces (.members (spells_flatMap_escape _ _) (hcolon _)
      (.space (by decide) (h _ _)) (.refl _) (ih hnext hs)) isSpace_of_mem_newLine

end

/-- The pretty form of a document is written at every depth, whatever comes after it. -/
theorem written_pretty (json : Json) :
  json.IsWrittenPretty
  := by
  induction json using induction with
  | null => exact fun _ => .null
  | bool value =>
    cases value with
    | true => exact fun _ => .isTrue
    | false => exact fun _ => .isFalse
  | number n => exact fun _ => written_decimal n
  | string text => exact fun _ => written_quote text
  | array elements ih =>
    intro depth rest
    cases elements with
    | nil => exact .emptyArray (.refl _)
    | cons element elements =>
      obtain ⟨h, hs⟩ := List.forall_mem_cons.mp ih
      rw [pretty]
      · simp only [List.cons_append, List.append_assoc]
        exact .array (written_prettyElements _ h hs (.append isSpace_of_mem_newLine _))
      · exact nofun
  | object members ih =>
    intro depth rest
    cases members with
    | nil => exact .emptyObject (.refl _)
    | cons member members =>
      obtain ⟨h, hs⟩ := List.forall_mem_cons.mp ih
      rw [pretty]
      · simp only [List.cons_append, List.append_assoc]
        exact .object (written_prettyMembers _ h hs (.append isSpace_of_mem_newLine _))
      · exact nofun

theorem isDocument_compact (json : Json) :
  IsDocument json.compact json.value
  := by
  use [], List.append_nil json.compact ▸ written_compact json []
  exact .refl []

theorem isDocument_pretty (json : Json) (depth : Nat) :
  IsDocument (json.pretty depth) json.value
  := by
  use [], List.append_nil (json.pretty depth) ▸ written_pretty json depth []
  exact .refl []

end Json

end JavadocCoverage
