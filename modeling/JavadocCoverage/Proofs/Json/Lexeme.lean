import Mathlib.Data.List.TakeDrop
import Mathlib.Data.List.TakeWhile
import Mathlib.Tactic.Use
import JavadocCoverage.Json.Lexeme

/-!
# The lexemes of JSON

How white space, strings and numbers are written.  A relation such as `Spells text value rest`
says that `text` starts with a written form of `value` and that `rest` is what is left, so
that one form can be put before another without cutting texts.

Each reader reads what is written: a string to its characters (`Spells.readString`), a number
to its parts (`IsNumeral.readNumeral`).  A number has no mark at its end, so that it is read
only where no character follows that would continue it.
-/

namespace JavadocCoverage

namespace Json

/-! ### White space and marks -/

/-- `c` may stand between the tokens of a document. -/
def IsSpace (c : Char) : Prop :=
  c = ' ' ∨ c = '\t' ∨ c = '\n' ∨ c = '\r'

instance : DecidablePred IsSpace :=
  fun c => inferInstanceAs (Decidable (c = ' ' ∨ c = '\t' ∨ c = '\n' ∨ c = '\r'))

/-- The first text is the second after white space. -/
inductive Spaced : Text → Text → Prop
  | refl (text : Text) : Spaced text text
  | cons {c : Char} {text rest : Text} (hc : IsSpace c) (h : Spaced text rest) :
    Spaced (c :: text) rest

theorem skipSpace_cons_of_isSpace {c : Char} (hc : IsSpace c) (text : Text) :
  skipSpace (c :: text) = skipSpace text
  := by
  apply List.dropWhile_cons_of_pos
  simpa [IsSpace, or_assoc] using hc

theorem skipSpace_cons_of_not_isSpace {c : Char} (hc : ¬ IsSpace c) (text : Text) :
  skipSpace (c :: text) = c :: text
  := by
  apply List.dropWhile_cons_of_neg
  simpa [IsSpace, or_assoc] using hc

namespace Spaced

theorem skipSpace_eq {text rest : Text} (h : Spaced text rest) :
  skipSpace text = skipSpace rest
  := by
  induction h with
  | refl => rfl
  | cons hc _ ih => rw [skipSpace_cons_of_isSpace hc, ih]

/-- White space before a mark is skipped. -/
theorem skipSpace_eq_cons
    {text rest : Text} {mark : Char} (h : Spaced text (mark :: rest)) (hmark : ¬ IsSpace mark) :
  skipSpace text = mark :: rest
  := by
  rw [h.skipSpace_eq, skipSpace_cons_of_not_isSpace hmark]

theorem readMark
    {text rest : Text} {mark : Char} (h : Spaced text (mark :: rest)) (hmark : ¬ IsSpace mark) :
  readMark mark text = .ok rest
  := by
  rw [Json.readMark, h.skipSpace_eq_cons hmark]
  exact if_pos rfl

theorem length_le {text rest : Text} (h : Spaced text rest) :
  rest.length ≤ text.length
  := by
  induction h with
  | refl => exact Nat.le_refl _
  | cons _ _ ih => exact Nat.le_succ_of_le ih

end Spaced

/-! ### Strings -/

/-- Four hexadecimal digits and the number they denote. -/
inductive DenotesHex : Text → Nat → Prop
  | mk {a b c d : Char} {i j k l : Nat} (ha : hexValue? a = some i) (hb : hexValue? b = some j)
      (hc : hexValue? c = some k) (hd : hexValue? d = some l) :
    DenotesHex [a, b, c, d] (((i * 16 + j) * 16 + k) * 16 + l)

/-- The letters that may follow a backslash, and what they stand for. -/
def letterEscapes : List (Char × Char) :=
  [('"', '"'), ('\\', '\\'), ('/', '/'), ('b', '\x08'), ('f', '\x0c'), ('n', '\n'),
    ('r', '\r'), ('t', '\t')]

/-- The text starts with the inside of a string and its closing quote.  A character beyond
the basic plane may be escaped as a pair of surrogates; none stands alone. -/
inductive Spells : Text → Text → Text → Prop
  | close (rest : Text) : Spells ('"' :: rest) [] rest
  | plain {c : Char} {text value rest : Text} (hquote : c ≠ '"') (hbackslash : c ≠ '\\')
      (hcontrol : 0x20 ≤ c.toNat) (h : Spells text value rest) :
    Spells (c :: text) (c :: value) rest
  | letter {letter c : Char} {text value rest : Text} (hletter : (letter, c) ∈ letterEscapes)
      (h : Spells text value rest) :
    Spells ('\\' :: letter :: text) (c :: value) rest
  | code {n : Nat} {digits text value rest : Text} (hdigits : DenotesHex digits n)
      (hn : n < 0xD800 ∨ 0xE000 ≤ n) (h : Spells text value rest) :
    Spells ('\\' :: 'u' :: (digits ++ text)) (Char.ofNat n :: value) rest
  | pair {leading trailing : Nat} {digits digits' text value rest : Text}
      (hdigits : DenotesHex digits leading) (hleading : 0xD800 ≤ leading ∧ leading < 0xDC00)
      (hdigits' : DenotesHex digits' trailing) (htrailing : 0xDC00 ≤ trailing ∧ trailing < 0xE000)
      (h : Spells text value rest) :
    Spells ('\\' :: 'u' :: (digits ++ '\\' :: 'u' :: (digits' ++ text)))
      (Char.ofNat (0x10000 + (leading - 0xD800) * 0x400 + (trailing - 0xDC00)) :: value) rest

theorem DenotesHex.readHex
    {digits : Text} {n : Nat} (h : DenotesHex digits n) (rest : Text) :
  readHex (digits ++ rest) = .ok (n, rest)
  := by
  obtain ⟨ha, hb, hc, hd⟩ := h
  simp only [List.cons_append, List.nil_append, Json.readHex, ha, hb, hc, hd]

theorem readEscape_letter
    {letter c : Char} (h : (letter, c) ∈ letterEscapes) (paired : Bool) (rest : Text) :
  readEscape paired (letter :: rest) = .ok (c, rest)
  := by
  simp only [letterEscapes, List.mem_cons, Prod.mk.injEq, List.not_mem_nil, or_false] at h
  obtain ⟨rfl, rfl⟩ | ⟨rfl, rfl⟩ | ⟨rfl, rfl⟩ | ⟨rfl, rfl⟩ | ⟨rfl, rfl⟩ | ⟨rfl, rfl⟩ | ⟨rfl, rfl⟩
    | ⟨rfl, rfl⟩ := h
  all_goals rfl

theorem isLeading_iff {n : Nat} :
  isLeading n = true ↔ 0xD800 ≤ n ∧ n < 0xDC00
  := by
  rw [isLeading, Bool.and_eq_true, decide_eq_true_iff, decide_eq_true_iff]

theorem isTrailing_iff {n : Nat} :
  isTrailing n = true ↔ 0xDC00 ≤ n ∧ n < 0xE000
  := by
  rw [isTrailing, Bool.and_eq_true, decide_eq_true_iff, decide_eq_true_iff]

section

variable {digits : Text} {n : Nat} (hdigits : DenotesHex digits n)
include hdigits

theorem readEscape_code
    (hn : n < 0xD800 ∨ 0xE000 ≤ n) (paired : Bool) (rest : Text) :
  readEscape paired ('u' :: (digits ++ rest)) = .ok (Char.ofNat n, rest)
  := by
  have htrailing : ¬ isTrailing n = true := by
    rw [isTrailing_iff]
    omega
  have hleading : ¬ isLeading n = true := by
    rw [isLeading_iff]
    omega
  simp only [readEscape, hdigits.readHex, if_neg htrailing, if_neg hleading]

/-- Of a pair, the first surrogate is read together with the second. -/
theorem readEscape_leading
    (hn : 0xD800 ≤ n ∧ n < 0xDC00) {digits' : Text} {m : Nat} (hdigits' : DenotesHex digits' m)
    (hm : 0xDC00 ≤ m ∧ m < 0xE000) (rest : Text) :
  readEscape true ('u' :: (digits ++ '\\' :: 'u' :: (digits' ++ rest)))
    = .ok (Char.ofNat (0x10000 + (n - 0xD800) * 0x400 + (m - 0xDC00)), rest)
  := by
  have htrailing : ¬ isTrailing n = true := by
    rw [isTrailing_iff]
    omega
  simp only [readEscape, hdigits.readHex, if_neg htrailing, if_pos (isLeading_iff.mpr hn),
    readTrailing, hdigits'.readHex, if_pos (isTrailing_iff.mpr hm), if_true]

/-- Where surrogates need no partner, each is read by itself. -/
theorem readEscape_surrogate
    (hn : 0xD800 ≤ n ∧ n < 0xE000) (rest : Text) :
  readEscape false ('u' :: (digits ++ rest)) = .ok (Utf8.replacement, rest)
  := by
  by_cases htrailing : isTrailing n = true
  · simp only [readEscape, hdigits.readHex, if_pos htrailing, Bool.false_eq_true, if_false]
  · have hleading : isLeading n = true := by
      rw [isTrailing_iff] at htrailing
      rw [isLeading_iff]
      omega
    simp only [readEscape, hdigits.readHex, if_neg htrailing, if_pos hleading, Bool.false_eq_true,
      if_false]

end

theorem readString_escape
    {paired : Bool} {text rest : Text} {c : Char} (h : readEscape paired text = .ok (c, rest))
    (decoded : Text) :
  readString paired decoded ('\\' :: text) = readString paired (c :: decoded) rest
  := by
  rw [readString]
  split
  · next h' =>
    rw [h] at h'
    cases h'
  · next h' =>
    rw [h] at h'
    cases h'
    rfl

theorem readString_plain
    {c : Char} (hquote : c ≠ '"') (hbackslash : c ≠ '\\') (hcontrol : 0x20 ≤ c.toNat)
    (paired : Bool) (decoded text : Text) :
  readString paired decoded (c :: text) = readString paired (c :: decoded) text
  := by
  rw [readString.eq_4 _ _ _ _ hquote hbackslash, if_neg (Nat.not_lt.mpr hcontrol)]

namespace Spells

variable {text value rest : Text}

/-- A string is read to its characters. -/
theorem readString_eq (h : Spells text value rest) (decoded : Text) :
  readString true decoded text = .ok (decoded.reverse ++ value, rest)
  := by
  induction h generalizing decoded with
  | close rest => rw [readString.eq_2, List.append_nil]
  | plain hquote hbackslash hcontrol _ ih =>
    rw [readString_plain hquote hbackslash hcontrol, ih, List.reverse_cons, List.append_assoc]
    rfl
  | letter hletter _ ih =>
    rw [readString_escape (readEscape_letter hletter true _), ih, List.reverse_cons,
      List.append_assoc]
    rfl
  | code hdigits hn _ ih =>
    rw [readString_escape (readEscape_code hdigits hn true _), ih, List.reverse_cons,
      List.append_assoc]
    rfl
  | pair hdigits hleading hdigits' htrailing _ ih =>
    rw [readString_escape (readEscape_leading hdigits hleading hdigits' htrailing _), ih,
      List.reverse_cons, List.append_assoc]
    rfl

/-- Where surrogates need no partner, a string is read to the same end. -/
theorem exists_readString (h : Spells text value rest) (decoded : Text) :
  ∃ value', readString false decoded text = .ok (value', rest)
  := by
  induction h generalizing decoded with
  | close rest =>
    use decoded.reverse
    rw [readString.eq_2]
  | plain hquote hbackslash hcontrol _ ih =>
    rw [readString_plain hquote hbackslash hcontrol]
    apply ih
  | letter hletter _ ih =>
    rw [readString_escape (readEscape_letter hletter false _)]
    apply ih
  | code hdigits hn _ ih =>
    rw [readString_escape (readEscape_code hdigits hn false _)]
    apply ih
  | pair hdigits hleading hdigits' htrailing _ ih =>
    rw [readString_escape (readEscape_surrogate hdigits (by omega) _),
      readString_escape (readEscape_surrogate hdigits' (by omega) _)]
    apply ih

end Spells

/-! ### Numbers -/

/-- One or more digits. -/
def IsDigits (digits : Text) : Prop :=
  digits ≠ [] ∧ ∀ c ∈ digits, c.isDigit = true

/-- The digits before the point: the first is not zero unless it is the only one. -/
def IsWhole (digits : Text) : Prop :=
  IsDigits digits ∧ ∀ below, digits = '0' :: below → below = []

/-- The ways to write an exponent, or that there is none. -/
inductive IsExponent : Text → Option Int → Prop
  | none : IsExponent [] none
  | unsigned {e : Char} {digits : Text} (he : e = 'e' ∨ e = 'E') (h : IsDigits digits) :
    IsExponent (e :: digits) (some (ofDigits digits))
  | positive {e : Char} {digits : Text} (he : e = 'e' ∨ e = 'E') (h : IsDigits digits) :
    IsExponent (e :: '+' :: digits) (some (ofDigits digits))
  | negative {e : Char} {digits : Text} (he : e = 'e' ∨ e = 'E') (h : IsDigits digits) :
    IsExponent (e :: '-' :: digits) (some (-ofDigits digits))

/-- What is written of the digits after the point. -/
def fractionText (fraction : Option Text) : Text :=
  fraction.elim [] ('.' :: ·)

/-- The text is a way to write the number. -/
inductive IsNumeral : Text → Numeral → Prop
  | mk {isNegative : Bool} {whole exponentText : Text} {fraction : Option Text}
      {exponent : Option Int} (hwhole : IsWhole whole)
      (hfraction : ∀ digits ∈ fraction, IsDigits digits)
      (hexponent : IsExponent exponentText exponent) :
    IsNumeral
      ((if isNegative then ['-'] else []) ++ (whole ++ (fractionText fraction ++ exponentText)))
      ⟨isNegative, whole, fraction, exponent⟩

/-- The text does not continue a number before it. -/
def EndsNumeral (rest : Text) : Prop :=
  ∀ c ∈ rest.head?, ¬ (c.isDigit = true ∨ c = '.' ∨ c = 'e' ∨ c = 'E')

/-- Digits are told from what follows them. -/
theorem span_isDigit
    {digits : Text} (hdigits : ∀ c ∈ digits, c.isDigit = true) {rest : Text}
    (hrest : ∀ c ∈ rest.head?, ¬ c.isDigit = true) :
  (digits ++ rest).span Char.isDigit = (digits, rest)
  := by
  have hnone : rest.takeWhile Char.isDigit = [] ∧ rest.dropWhile Char.isDigit = rest := by
    cases rest with
    | nil => exact ⟨rfl, rfl⟩
    | cons c rest =>
      have hc := hrest c rfl
      exact ⟨List.takeWhile_cons_of_neg hc, List.dropWhile_cons_of_neg hc⟩
  rw [List.span_eq_takeWhile_dropWhile, List.takeWhile_append_of_pos hdigits,
    List.dropWhile_append_of_pos hdigits, hnone.1, hnone.2, List.append_nil]

section

variable {digits rest : Text} (atEnd : Fault)

theorem readDigits_append
    (h : IsDigits digits) (hrest : ∀ c ∈ rest.head?, ¬ c.isDigit = true) :
  readDigits atEnd (digits ++ rest) = .ok (digits, rest)
  := by
  rw [readDigits, span_isDigit h.2 hrest]
  cases digits with
  | nil => exact absurd rfl h.1
  | cons c digits => rfl

theorem readWhole_append
    (h : IsWhole digits) (hrest : ∀ c ∈ rest.head?, ¬ c.isDigit = true) :
  readWhole atEnd (digits ++ rest) = .ok (digits, rest)
  := by
  rw [readWhole, readDigits_append atEnd h.1 hrest]
  split
  · next heq =>
    cases heq
    cases h.2 _ rfl
  · rfl

variable {fraction : Option Text} {exponent : Option Int}

theorem readExponent_append
    (h : IsExponent digits exponent) (hrest : EndsNumeral rest) :
  readExponent atEnd (digits ++ rest) = .ok (exponent, rest)
  := by
  have hdigit : ∀ c ∈ rest.head?, ¬ c.isDigit = true := fun c hc h => hrest c hc (Or.inl h)
  cases h with
  | none =>
    cases rest with
    | nil => rfl
    | cons c rest =>
      have hc : ¬ (c = 'e' ∨ c = 'E') := fun h => hrest c rfl (Or.inr (Or.inr h))
      unfold readExponent
      exact if_neg hc
  | @unsigned e digits he h =>
    have hsign : ∀ sign tail, digits ++ rest = sign :: tail → sign.isDigit = true := by
      intro sign tail heq
      obtain ⟨c, digits, rfl⟩ := List.exists_cons_of_ne_nil h.1
      obtain ⟨rfl, -⟩ := List.cons.inj heq
      exact h.2 c List.mem_cons_self
    have hplus : ∀ tail, digits ++ rest = '+' :: tail → False := by
      intro tail heq
      cases hsign _ _ heq
    have hminus : ∀ tail, digits ++ rest = '-' :: tail → False := by
      intro tail heq
      cases hsign _ _ heq
    rw [List.cons_append, readExponent.eq_3 _ _ _ hplus hminus, if_pos he, readExponentDigits,
      readDigits_append atEnd h hdigit]
    rfl
  | positive he h =>
    rw [List.cons_append, List.cons_append, readExponent, if_pos he, readExponentDigits,
      readDigits_append atEnd h hdigit]
    rfl
  | negative he h =>
    rw [List.cons_append, List.cons_append, readExponent, if_pos he, readExponentDigits,
      readDigits_append atEnd h hdigit]
    rfl

theorem EndsNumeral.of_isExponent
    (h : IsExponent digits exponent) (hrest : EndsNumeral rest) :
  ∀ c ∈ (digits ++ rest).head?, ¬ (c.isDigit = true ∨ c = '.')
  := by
  have he : ∀ e : Char, e = 'e' ∨ e = 'E' → ¬ (e.isDigit = true ∨ e = '.') := by
    rintro e (rfl | rfl)
    · decide
    · decide
  cases h with
  | none =>
    intro c hc hdigit
    exact hrest c hc (hdigit.imp_right Or.inl)
  | unsigned h | positive h | negative h =>
    rintro c ⟨rfl⟩
    exact he _ h

theorem readFraction_append
    (h : ∀ digits ∈ fraction, IsDigits digits)
    (hrest : ∀ c ∈ rest.head?, ¬ (c.isDigit = true ∨ c = '.')) :
  readFraction atEnd (fractionText fraction ++ rest) = .ok (fraction, rest)
  := by
  cases fraction with
  | none =>
    rw [fractionText, Option.elim_none, List.nil_append, readFraction.eq_2]
    rintro tail rfl
    exact hrest '.' rfl (Or.inr rfl)
  | some digits =>
    rw [fractionText, Option.elim_some, List.cons_append, readFraction,
      readDigits_append atEnd (h digits rfl) fun c hc hdigit => hrest c hc (Or.inl hdigit)]
    rfl

theorem not_isDigit_of_mem_head?_fractionText
    (hrest : ∀ c ∈ rest.head?, ¬ (c.isDigit = true ∨ c = '.')) :
  ∀ c ∈ (fractionText fraction ++ rest).head?, ¬ c.isDigit = true
  := by
  cases fraction with
  | none =>
    intro c hc hdigit
    exact hrest c hc (Or.inl hdigit)
  | some digits =>
    rintro c ⟨rfl⟩
    decide

/-- A number starts with its sign, or with a digit. -/
theorem head?_isNegative
    {isNegative : Bool} {whole : Text} (h : IsWhole whole) (rest : Text) :
  (((if isNegative then ['-'] else []) ++ (whole ++ rest)).head? == some '-') = isNegative
  := by
  cases isNegative with
  | true => rfl
  | false =>
    obtain ⟨c, digits, rfl⟩ := List.exists_cons_of_ne_nil h.1.1
    apply beq_false_of_ne
    intro heq
    obtain rfl : c = '-' := Option.some.inj heq
    cases h.1.2 _ List.mem_cons_self

/-- A number is read to its parts. -/
theorem IsNumeral.readNumeral_append
    {written : Text} {numeral : Numeral} (h : IsNumeral written numeral)
    (hrest : EndsNumeral rest) :
  readNumeral atEnd (written ++ rest) = .ok (numeral, rest)
  := by
  obtain @⟨isNegative, whole, exponentText, fraction, exponent, hwhole, hfraction, hexponent⟩ := h
  have hpoint := hrest.of_isExponent hexponent
  have hdigit : ∀ c ∈ (fractionText fraction ++ (exponentText ++ rest)).head?, ¬ c.isDigit = true :=
    not_isDigit_of_mem_head?_fractionText hpoint
  have hunsigned (text : Text) :
      (if isNegative then ((if isNegative then ['-'] else []) ++ text).drop 1
        else (if isNegative then ['-'] else []) ++ text) = text := by
    cases isNegative with
    | true => rfl
    | false => rfl
  simp only [List.append_assoc, readNumeral, head?_isNegative hwhole, hunsigned,
    readWhole_append atEnd hwhole hdigit, readFraction_append atEnd hfraction hpoint,
    readExponent_append atEnd hexponent hrest, bind, Except.bind, pure, Except.pure]

end

end Json

end JavadocCoverage
