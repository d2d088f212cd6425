import Mathlib.Tactic.Use
import JavadocCoverage.Proofs.Text.Decoding
import JavadocCoverage.Proofs.Text.Lines
import JavadocCoverage.Text.LineCursor

/-!
# The octets of a text

An ASCII character is encoded as one octet, its own.  Any other is encoded as a lead octet
from 0xC0 on and octets that do not start a character (`isEncoded_utf8EncodeChar`).  So an
ASCII octet among those of a text is the whole of a character
(`exists_of_encode_eq_append_cons`), and the lines of the octets of a text are the octets
of its lines (`splitByteLines_encode`).

Offsets between two characters of a text are told by the octets that stand there
(`isBoundary_encode_iff`).
-/

namespace JavadocCoverage

/-! ### Where lists are taken apart -/

theorem drop_eq_cons
    {α : Type} {xs : List α} {i : Nat} {x : α} (h : xs[i]? = some x) :
  xs.drop i = x :: xs.drop (i + 1)
  := by
  obtain ⟨hlt, rfl⟩ := List.getElem?_eq_some_iff.mp h
  apply List.drop_eq_getElem_cons hlt

/-- What stands before a member of a list and is not in a word at its start goes on after the
word. -/
theorem exists_of_append_eq_append_cons
    {α : Type} {a : α} {word zs xs ys : List α} (ha : a ∉ word)
    (h : word ++ zs = xs ++ a :: ys) :
  ∃ us, xs = word ++ us ∧ zs = us ++ a :: ys
  := by
  rcases List.append_eq_append_iff.mp h with ⟨us, hxs, hzs⟩ | ⟨us, hword, htail⟩
  · use us, hxs, hzs
  · cases us with
    | nil =>
      use []
      rw [List.append_nil, hword, List.append_nil]
      use rfl, htail.symm
    | cons u us =>
      obtain ⟨rfl, -⟩ := List.cons.inj htail
      rw [hword] at ha
      simp at ha

/-! ### Offsets of a text -/

/-- The offset lies between two characters of the text, or at one of its ends: so many
octets encode what stands before. -/
def Text.IsBoundary (text : Text) (offset : Nat) : Prop :=
  ∃ before after, text = before ++ after ∧ (Utf8.encode before).length = offset

namespace Utf8

/-! ### The octets of one character -/

/-- What the octets of a character are: the octet of an ASCII character alone, or a lead
octet from 0xC0 on and octets that do not start a character. -/
inductive IsEncoded : Char → Bytes → Prop
  | ascii {b : UInt8} (hb : IsAsciiOctet b) : IsEncoded (Char.ofNat b.toNat) [b]
  | beyond {c : Char} {lead : UInt8} {rest : Bytes} (hlead : 0xC0 ≤ lead)
    (hrest : ∀ b ∈ rest, isLead b = false) : IsEncoded c (lead :: rest)

theorem isAsciiOctet_ofNat
    {n : Nat} (h : n ≤ 127) :
  IsAsciiOctet (UInt8.ofNat n)
  := by
  rw [IsAsciiOctet, UInt8.lt_iff_toNat_lt, UInt8.toNat_ofNat']
  simp
  omega

theorem le_ofNat_add
    {n : Nat} (h : n < 0x40) :
  0xC0 ≤ UInt8.ofNat (n + 0xC0)
  := by
  rw [UInt8.le_iff_toNat_le, UInt8.toNat_ofNat']
  simp
  omega

theorem isLead_eq_false_iff
    {b : UInt8} :
  isLead b = false ↔ 0x80 ≤ b.toNat ∧ b.toNat < 0xC0
  := by
  simp [isLead, UInt8.lt_iff_toNat_lt, UInt8.le_iff_toNat_le]

theorem isLead_ofNat_mod_add
    (n : Nat) :
  isLead (UInt8.ofNat (n % 64 + 0x80)) = false
  := by
  rw [isLead_eq_false_iff, UInt8.toNat_ofNat']
  omega

theorem isEncoded_utf8EncodeChar
    (c : Char) :
  IsEncoded c (String.utf8EncodeChar c)
  := by
  -- The cases are those of one, two, three and four octets.
  fun_cases String.utf8EncodeChar c with
  | case1 value hone =>
    have hlt : value < UInt8.size := Nat.lt_of_le_of_lt hone (by decide)
    have hc : c = Char.ofNat (UInt8.ofNat value).toNat := by
      rw [UInt8.toNat_ofNat_of_lt' hlt]
      apply (Char.ofNat_toNat c).symm
    rw [hc]
    apply IsEncoded.ascii (isAsciiOctet_ofNat hone)
  | case2 value =>
    apply IsEncoded.beyond (le_ofNat_add (by omega))
    simp only [List.forall_mem_cons, isLead_ofNat_mod_add, true_and]
    apply List.forall_mem_nil
  | case3 value =>
    have hlead := le_ofNat_add (n := value / 4096 % 16 + 0x20) (by omega)
    apply IsEncoded.beyond hlead
    simp only [List.forall_mem_cons, isLead_ofNat_mod_add, true_and]
    apply List.forall_mem_nil
  | case4 value =>
    have hlead := le_ofNat_add (n := value / 262144 % 8 + 0x30) (by omega)
    apply IsEncoded.beyond hlead
    simp only [List.forall_mem_cons, isLead_ofNat_mod_add, true_and]
    apply List.forall_mem_nil

theorem not_isAsciiOctet_of_le
    {b : UInt8} (h : 0xC0 ≤ b) :
  ¬ IsAsciiOctet b
  := by
  rw [IsAsciiOctet, UInt8.lt_iff_toNat_lt]
  rw [UInt8.le_iff_toNat_le] at h
  simp at h ⊢
  omega

theorem not_isAsciiOctet_of_isLead_eq_false
    {b : UInt8} (h : isLead b = false) :
  ¬ IsAsciiOctet b
  := by
  rw [IsAsciiOctet, UInt8.lt_iff_toNat_lt]
  apply Nat.not_lt.mpr (isLead_eq_false_iff.mp h).1

namespace IsEncoded

variable {c : Char} {octets : Bytes}

/-- A character starts with a lead octet, and goes on with others. -/
theorem exists_lead
    (h : IsEncoded c octets) :
  ∃ lead rest, octets = lead :: rest ∧ isLead lead = true ∧ ∀ b ∈ rest, isLead b = false
  := by
  cases h with
  | @ascii b hb =>
    use b, [], rfl
    constructor
    · by_contra hlead
      apply not_isAsciiOctet_of_isLead_eq_false (Bool.eq_false_iff.mpr hlead) hb
    · apply List.forall_mem_nil
  | @beyond _ lead rest hlead hrest =>
    use lead, rest, rfl
    constructor
    · rw [isLead, Bool.or_eq_true, decide_eq_true_eq, decide_eq_true_eq]
      apply Or.inr hlead
    · apply hrest

/-- A character with an ASCII octet is that octet's character. -/
theorem eq_of_mem
    (h : IsEncoded c octets) {a : UInt8} (ha : IsAsciiOctet a) (hmem : a ∈ octets) :
  c = Char.ofNat a.toNat ∧ octets = [a]
  := by
  cases h with
  | ascii hb =>
    obtain rfl := List.mem_singleton.mp hmem
    use rfl
  | beyond hlead hrest =>
    rcases List.mem_cons.mp hmem with rfl | hmem
    · apply absurd ha (not_isAsciiOctet_of_le hlead)
    · apply absurd ha (not_isAsciiOctet_of_isLead_eq_false (hrest a hmem))

end IsEncoded

/-! ### ASCII octets of a text -/

theorem encode_cons
    (c : Char) (text : Text) :
  encode (c :: text) = String.utf8EncodeChar c ++ encode text
  := List.flatMap_cons

theorem encode_append
    (s t : Text) :
  encode (s ++ t) = encode s ++ encode t
  := List.flatMap_append

theorem utf8EncodeChar_of_isAsciiOctet
    {a : UInt8} (ha : IsAsciiOctet a) :
  String.utf8EncodeChar (Char.ofNat a.toNat) = [a]
  := by
  have hvalue : (Char.ofNat a.toNat).val.toNat = a.toNat := toNat_ofNat_of_isAsciiOctet ha
  have hle : a.toNat ≤ 127 := Nat.le_of_lt_succ (UInt8.lt_iff_toNat_lt.mp ha)
  rw [String.utf8EncodeChar, hvalue, if_pos hle, UInt8.ofNat_toNat]

/-- Encoding takes an ASCII character to its octet. -/
theorem encode_append_cons
    {a : UInt8} (ha : IsAsciiOctet a) (s t : Text) :
  encode (s ++ Char.ofNat a.toNat :: t) = encode s ++ a :: encode t
  := by
  rw [encode_append, encode_cons, utf8EncodeChar_of_isAsciiOctet ha]
  rfl

theorem encode_ne_nil
    {text : Text} (h : text ≠ []) :
  encode text ≠ []
  := by
  obtain ⟨c, text, rfl⟩ := List.exists_cons_of_ne_nil h
  rw [encode_cons]
  apply List.append_ne_nil_of_left_ne_nil String.utf8EncodeChar_ne_nil

/-- An ASCII octet among the octets of a text is that of a character, and what stands
before and after it encodes what stands before and after the character. -/
theorem exists_of_encode_eq_append_cons
    {a : UInt8} (ha : IsAsciiOctet a) {text : Text} {xs ys : Bytes}
    (h : encode text = xs ++ a :: ys) :
  ∃ s t, text = s ++ Char.ofNat a.toNat :: t ∧ encode s = xs ∧ encode t = ys
  := by
  induction text generalizing xs with
  | nil => simp [encode] at h
  | cons c text ih =>
    rw [encode_cons] at h
    by_cases hmem : a ∈ String.utf8EncodeChar c
    · obtain ⟨hc, hsingle⟩ := (isEncoded_utf8EncodeChar c).eq_of_mem ha hmem
      rw [hsingle] at h
      cases xs with
      | nil =>
        obtain ⟨-, htail⟩ := List.cons.inj h
        use [], text
        rw [hc]
        use rfl, rfl, htail
      | cons x xs =>
        obtain ⟨rfl, hrest⟩ := List.cons.inj h
        obtain ⟨s, t, rfl, rfl, rfl⟩ := ih hrest
        use c :: s, t, rfl
        rw [encode_cons, hsingle]
        use rfl
    · obtain ⟨us, rfl, hrest⟩ := exists_of_append_eq_append_cons hmem h
      obtain ⟨s, t, rfl, rfl, rfl⟩ := ih hrest
      use c :: s, t, rfl, encode_cons c s

/-! ### Offsets between characters -/

theorem isBoundary_iff
    {octets : Bytes} {offset : Nat} :
  isBoundary octets offset = true ↔
    offset = 0 ∨ offset = octets.length ∨ ∃ b ∈ octets[offset]?, isLead b = true
  := by
  simp [isBoundary, Option.any_eq_true, or_assoc]

/-- Offsets past a word are offsets into what comes after it. -/
theorem isBoundary_of_append
    {word octets : Bytes} {offset : Nat}
    (h : isBoundary (word ++ octets) (word.length + offset) = true) :
  isBoundary octets offset = true
  := by
  apply isBoundary_iff.mpr
  rcases isBoundary_iff.mp h with hzero | hlength | ⟨b, hb, hlead⟩
  · left
    omega
  · right
    left
    rw [List.length_append] at hlength
    omega
  · right
    right
    rw [List.getElem?_append_right (Nat.le_add_right _ _), Nat.add_sub_cancel_left] at hb
    use b, hb

/-- An offset within the octets of a character is not one between characters. -/
theorem not_isBoundary_within
    {c : Char} {octets : Bytes} {offset : Nat} (hzero : offset ≠ 0)
    (hlt : offset < (String.utf8EncodeChar c).length) :
  ¬ isBoundary (String.utf8EncodeChar c ++ octets) offset = true
  := by
  intro h
  obtain ⟨offset, rfl⟩ := Nat.exists_eq_succ_of_ne_zero hzero
  rcases isBoundary_iff.mp h with hzero | hlength | ⟨b, hb, hlead⟩
  · cases hzero
  · rw [List.length_append] at hlength
    omega
  · obtain ⟨first, rest, hoctets, -, hrest⟩ := (isEncoded_utf8EncodeChar c).exists_lead
    rw [List.getElem?_append_left hlt, hoctets, List.getElem?_cons_succ] at hb
    have hmem : b ∈ rest := List.mem_of_getElem? hb
    rw [hrest b hmem] at hlead
    cases hlead

/-- Whether an offset lies between two characters is told by the octet that stands there. -/
theorem isBoundary_encode_iff
    {text : Text} {offset : Nat} :
  isBoundary (encode text) offset = true ↔ text.IsBoundary offset
  := by
  constructor
  · intro h
    induction text generalizing offset with
    | nil =>
      use [], [], rfl
      rcases isBoundary_iff.mp h with hzero | hlength | ⟨b, hb, -⟩
      · apply hzero.symm
      · apply hlength.symm
      · cases hb
    | cons c text ih =>
      by_cases hzero : offset = 0
      · use [], c :: text, rfl, hzero.symm
      · rw [encode_cons] at h
        have hle : (String.utf8EncodeChar c).length ≤ offset := by
          by_contra hlt
          apply not_isBoundary_within hzero (Nat.not_le.mp hlt) h
        obtain ⟨below, rfl⟩ := Nat.exists_eq_add_of_le hle
        obtain ⟨before, after, rfl, hlength⟩ := ih (isBoundary_of_append h)
        use c :: before, after, rfl
        rw [encode_cons, List.length_append, hlength]
  · rintro ⟨before, after, rfl, rfl⟩
    apply isBoundary_iff.mpr
    right
    cases after with
    | nil =>
      left
      rw [List.append_nil]
    | cons c after =>
      right
      obtain ⟨lead, rest, hoctets, hlead, -⟩ := (isEncoded_utf8EncodeChar c).exists_lead
      use lead
      rw [encode_append, encode_cons, hoctets, List.getElem?_append_right (Nat.le_refl _),
        Nat.sub_self]
      use rfl

/-- The offsets before and after an ASCII octet lie between characters. -/
theorem isBoundary_of_isAsciiOctet
    {a : UInt8} (ha : IsAsciiOctet a) {text : Text} {offset : Nat}
    (h : (encode text)[offset]? = some a) :
  text.IsBoundary offset ∧ text.IsBoundary (offset + 1)
  := by
  have hcut : encode text = (encode text).take offset ++ a :: (encode text).drop (offset + 1) := by
    rw [← drop_eq_cons h, List.take_append_drop]
  obtain ⟨s, t, rfl, hs, ht⟩ := exists_of_encode_eq_append_cons ha hcut
  have hbefore : (encode s).length = offset := by
    obtain ⟨hlt, -⟩ := List.getElem?_eq_some_iff.mp h
    rw [hs, List.length_take_of_le (Nat.le_of_lt hlt)]
  constructor
  · use s, Char.ofNat a.toNat :: t
  · use s ++ [Char.ofNat a.toNat], t
    rw [encode_append_cons ha, List.length_append, hbefore, List.append_assoc]
    use rfl
    rfl

/-! ### The lines of the octets -/

/-- Encoding carries ASCII characters over to their octets. -/
theorem carriesMark_encode
    {a : UInt8} (ha : IsAsciiOctet a) :
  CarriesMark (Char.ofNat a.toNat) a encode
  where
    append_cons := encode_append_cons ha
    exists_of_eq _ _ _ := exists_of_encode_eq_append_cons ha

theorem carriesLines_encode :
  CarriesLines '\n' '\r' 0x0A 0x0D encode
  where
    lineFeed := carriesMark_encode isAsciiOctet_lineFeed
    carriageReturn := carriesMark_encode isAsciiOctet_carriageReturn
    eq_nil_iff _ := ⟨not_imp_not.mp encode_ne_nil, fun h => h ▸ rfl⟩

end Utf8

theorem splitByteLines_encode
    (text : Text) :
  splitByteLines (Utf8.encode text) = (splitLines text).map Utf8.encode
  := by
  apply splitByteLines_eq_iff.mpr
  apply Utf8.carriesLines_encode.isCutInto
  apply splitLines_eq_iff.mp rfl

end JavadocCoverage
