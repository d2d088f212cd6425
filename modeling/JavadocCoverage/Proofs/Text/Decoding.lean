import Mathlib.Tactic.Ring
import JavadocCoverage.Text.Utf8

/-!
# Decoding around ASCII

An octet below 0x80 stands for its ASCII character wherever it stands: it ends what is
open, which then counts as ill-formed, and leaves nothing open (`decode_append_cons`).
The other octets never yield an ASCII character (`not_isAscii_of_mem_decode`), and no
octets are lost altogether (`decode_ne_nil`).  So the ASCII characters of a decoded text
are just the ASCII octets it is decoded from.

What carries these laws is that all that may become of an open character lies beyond
ASCII and is a character (`Pending.IsSound`).
-/

namespace JavadocCoverage

/-- The character is an ASCII character. -/
def IsAscii (c : Char) : Prop :=
  c.toNat < 0x80

/-- The octet is that of an ASCII character. -/
def IsAsciiOctet (b : UInt8) : Prop :=
  b < 0x80

namespace Utf8

/-! ### Reading from an open character on -/

/-- What the octets yield when they are read with `pending` open. -/
def unitsFrom : Pending → Bytes → List (Option Char)
  | pending, [] => finish pending
  | pending, b :: bytes => (step pending b).1 ++ unitsFrom (step pending b).2 bytes

theorem foldl_next
    (run : Run) (bytes : Bytes) :
  (bytes.foldl Run.next run).units.reverse ++ finish (bytes.foldl Run.next run).pending
    = run.units.reverse ++ unitsFrom run.pending bytes
  := by
  induction bytes generalizing run with
  | nil => rfl
  | cons b bytes ih =>
    rw [List.foldl_cons, ih, unitsFrom, ← List.append_assoc]
    congr 1
    rw [Run.next, List.reverse_append, List.reverse_reverse]

theorem units_eq_unitsFrom
    (bytes : Bytes) :
  units bytes = unitsFrom .nothing bytes
  := foldl_next {} bytes

/-! ### What an open character may become -/

/-- The number of characters that may still come of `more` further octets. -/
def span : Nat → Nat
  | 0 => 1
  | more + 1 => 64 * span more

/-- The code points from `least` up to `past`, which is not one of them, lie beyond ASCII
and are characters. -/
def AreBeyondAscii (least past : Nat) : Prop :=
  0x80 ≤ least ∧ (past ≤ 0xD800 ∨ 0xE000 ≤ least ∧ past ≤ 0x110000)

theorem AreBeyondAscii.mono
    {least least' past past' : Nat} (h : AreBeyondAscii least past) (hleast : least ≤ least')
    (hpast : past' ≤ past) :
  AreBeyondAscii least' past'
  := by
  unfold AreBeyondAscii at h ⊢
  omega

theorem toNat_ofNat_of_isValidChar {n : Nat} (h : n.isValidChar) :
  (Char.ofNat n).toNat = n
  := by
  rw [Char.ofNat, dif_pos h]
  apply UInt32.toNat_ofNatLT

theorem AreBeyondAscii.not_isAscii
    {least past n : Nat} (h : AreBeyondAscii least past) (hleast : least ≤ n) (hpast : n < past) :
  ¬ IsAscii (Char.ofNat n)
  := by
  unfold AreBeyondAscii at h
  have hvalid : n.isValidChar := by
    unfold Nat.isValidChar
    omega
  rw [IsAscii, toNat_ofNat_of_isValidChar hvalid]
  omega

/-- Whatever the next octets are, the open character lies beyond ASCII. -/
def Pending.IsSound : Pending → Prop
  | nothing => True
  | character more low high value =>
    1 ≤ more ∧ 0x80 ≤ low.toNat ∧ high.toNat ≤ 0xBF ∧
      AreBeyondAscii ((64 * value + (low.toNat - 0x80)) * span (more - 1))
        ((64 * value + (high.toNat - 0x80) + 1) * span (more - 1))

theorem isSound_start
    (b : UInt8) :
  (start b).2.IsSound
  := by
  unfold start
  simp only [UInt8.lt_iff_toNat_lt, ← UInt8.toNat_inj]
  split_ifs <;> simp [Pending.IsSound, AreBeyondAscii, span] at * <;> omega

/-- A further octet of an open character leaves fewer characters that it may become. -/
theorem isSound_continue
    {more value : Nat} {low high b : UInt8}
    (h : (Pending.character (more + 2) low high value).IsSound) (hb : low ≤ b ∧ b ≤ high) :
  (Pending.character (more + 1) 0x80 0xBF (64 * value + (b.toNat - 0x80))).IsSound
  := by
  obtain ⟨-, hlow, hhigh, hbeyond⟩ := h
  rw [UInt8.le_iff_toNat_le, UInt8.le_iff_toNat_le] at hb
  use by omega, Nat.le_refl _, Nat.le_refl _
  apply hbeyond.mono
  · calc (64 * value + (low.toNat - 0x80)) * span (more + 1)
        ≤ (64 * value + (b.toNat - 0x80)) * span (more + 1) := Nat.mul_le_mul_right _ (by omega)
      _ = (64 * (64 * value + (b.toNat - 0x80)) + (0x80 - 0x80)) * span more := by
          rw [span]
          ring
  · calc (64 * (64 * value + (b.toNat - 0x80)) + (0xBF - 0x80) + 1) * span more
        = (64 * value + (b.toNat - 0x80) + 1) * span (more + 1) := by
          rw [span]
          ring
      _ ≤ (64 * value + (high.toNat - 0x80) + 1) * span (more + 1) :=
        Nat.mul_le_mul_right _ (by omega)

theorem isSound_step
    {pending : Pending} (h : pending.IsSound) (b : UInt8) :
  (step pending b).2.IsSound
  := by
  cases pending with
  | nothing => apply isSound_start
  | character more low high value =>
    rw [step]
    split
    next hb =>
      split
      next => trivial
      next hmore =>
        obtain ⟨more, rfl⟩ : ∃ n, more = n + 2 := ⟨more - 2, by omega⟩
        apply isSound_continue h hb
    next => apply isSound_start

/-! ### ASCII octets -/

theorem isAsciiOctet_lineFeed :
  IsAsciiOctet 0x0A
  := by
  unfold IsAsciiOctet
  decide

theorem isAsciiOctet_carriageReturn :
  IsAsciiOctet 0x0D
  := by
  unfold IsAsciiOctet
  decide

theorem start_of_isAsciiOctet
    {b : UInt8} (hb : IsAsciiOctet b) :
  start b = ([some (Char.ofNat b.toNat)], .nothing)
  := if_pos hb

/-- An ASCII octet ends what is open and yields its own character. -/
theorem step_of_isAsciiOctet
    {pending : Pending} (h : pending.IsSound) {b : UInt8} (hb : IsAsciiOctet b) :
  step pending b = (finish pending ++ [some (Char.ofNat b.toNat)], .nothing)
  := by
  cases pending with
  | nothing => apply start_of_isAsciiOctet hb
  | character more low high value =>
    have hlow : ¬ (low ≤ b ∧ b ≤ high) := by
      rintro ⟨hle, -⟩
      apply UInt8.not_lt.mpr hle
      rw [UInt8.lt_iff_toNat_lt]
      have hb' := UInt8.lt_iff_toNat_lt.mp hb
      have := h.2.1
      simp at hb'
      omega
    rw [step, if_neg hlow, start_of_isAsciiOctet hb]
    rfl

theorem unitsFrom_append_cons
    {pending : Pending} (h : pending.IsSound) {b : UInt8} (hb : IsAsciiOctet b) (xs ys : Bytes) :
  unitsFrom pending (xs ++ b :: ys)
    = unitsFrom pending xs ++ some (Char.ofNat b.toNat) :: unitsFrom .nothing ys
  := by
  induction xs generalizing pending with
  | nil =>
    change (step pending b).1 ++ unitsFrom (step pending b).2 ys = finish pending ++ _
    rw [step_of_isAsciiOctet h hb, List.append_assoc]
    rfl
  | cons x xs ih =>
    rw [List.cons_append, unitsFrom, unitsFrom, ih (isSound_step h x), List.append_assoc]

/-- Decoding passes over ASCII octets. -/
theorem decode_append_cons
    {b : UInt8} (hb : IsAsciiOctet b) (xs ys : Bytes) :
  decode (xs ++ b :: ys) = decode xs ++ Char.ofNat b.toNat :: decode ys
  := by
  have hstart : Pending.nothing.IsSound := trivial
  rw [decode, units_eq_unitsFrom, unitsFrom_append_cons hstart hb, List.map_append, List.map_cons,
    ← units_eq_unitsFrom, ← units_eq_unitsFrom]
  rfl

/-! ### Other octets -/

theorem not_isAscii_of_mem_start
    {b : UInt8} (hb : ¬ IsAsciiOctet b) {c : Char} (hc : some c ∈ (start b).1) :
  ¬ IsAscii c
  := by
  unfold start at hc
  change ¬ b < 0x80 at hb
  rw [if_neg hb] at hc
  split_ifs at hc <;> simp at hc

theorem not_isAscii_of_mem_step
    {pending : Pending} (h : pending.IsSound) {b : UInt8} (hb : ¬ IsAsciiOctet b) {c : Char}
    (hc : some c ∈ (step pending b).1) :
  ¬ IsAscii c
  := by
  cases pending with
  | nothing => apply not_isAscii_of_mem_start hb hc
  | character more low high value =>
    rw [step] at hc
    split at hc
    next hbounds =>
      split at hc
      next hmore =>
        simp only [List.mem_singleton, Option.some.injEq] at hc
        obtain ⟨hone, hlow, hhigh, hbeyond⟩ := h
        obtain rfl : more = 1 := by omega
        rw [UInt8.le_iff_toNat_le, UInt8.le_iff_toNat_le] at hbounds
        simp only [Nat.sub_self, span, Nat.mul_one] at hbeyond
        rw [hc]
        apply hbeyond.not_isAscii
        · omega
        · omega
      next => cases hc
    next =>
      rcases List.mem_cons.mp hc with hnone | hc
      · cases hnone
      · apply not_isAscii_of_mem_start hb hc

theorem not_isAscii_of_mem_unitsFrom
    {pending : Pending} (h : pending.IsSound) {bytes : Bytes}
    (hbytes : ∀ b ∈ bytes, ¬ IsAsciiOctet b) {c : Char} (hc : some c ∈ unitsFrom pending bytes) :
  ¬ IsAscii c
  := by
  induction bytes generalizing pending with
  | nil => cases pending <;> simp [unitsFrom, finish] at hc
  | cons b bytes ih =>
    obtain ⟨hb, hbytes⟩ := List.forall_mem_cons.mp hbytes
    rcases List.mem_append.mp hc with hstep | hrest
    · apply not_isAscii_of_mem_step h hb hstep
    · apply ih (isSound_step h b) hbytes hrest

/-- Octets beyond ASCII yield characters beyond ASCII. -/
theorem not_isAscii_of_mem_decode
    {bytes : Bytes} (hbytes : ∀ b ∈ bytes, ¬ IsAsciiOctet b) {c : Char} (hc : c ∈ decode bytes) :
  ¬ IsAscii c
  := by
  obtain ⟨unit, hunit, rfl⟩ := List.mem_map.mp hc
  rw [units_eq_unitsFrom] at hunit
  cases unit with
  | none =>
    unfold IsAscii
    decide
  | some c =>
    have hstart : Pending.nothing.IsSound := trivial
    apply not_isAscii_of_mem_unitsFrom hstart hbytes hunit

/-! ### No octets are lost -/

/-- An octet yields something or opens a character. -/
theorem start_ne
    (b : UInt8) :
  start b ≠ ([], .nothing)
  := by
  unfold start
  split_ifs <;> simp

theorem step_ne
    (pending : Pending) (b : UInt8) :
  step pending b ≠ ([], .nothing)
  := by
  cases pending with
  | nothing => apply start_ne
  | character more low high value =>
    rw [step]
    split_ifs <;> simp

theorem unitsFrom_ne_nil
    {pending : Pending} {bytes : Bytes} (h : pending ≠ .nothing ∨ bytes ≠ []) :
  unitsFrom pending bytes ≠ []
  := by
  induction bytes generalizing pending with
  | nil =>
    cases pending with
    | nothing => simp at h
    | character => simp [unitsFrom, finish]
  | cons b bytes ih =>
    intro hnil
    obtain ⟨hunits, hrest⟩ := List.append_eq_nil_iff.mp hnil
    apply step_ne pending b
    apply Prod.ext hunits
    by_contra hopen
    apply ih (Or.inl hopen) hrest

theorem decode_ne_nil
    {bytes : Bytes} (h : bytes ≠ []) :
  decode bytes ≠ []
  := by
  rw [decode, units_eq_unitsFrom, ne_eq, List.map_eq_nil_iff]
  apply unitsFrom_ne_nil (Or.inr h)

/-! ### Finding an ASCII octet again -/

theorem toNat_ofNat_of_isAsciiOctet
    {b : UInt8} (hb : IsAsciiOctet b) :
  (Char.ofNat b.toNat).toNat = b.toNat
  := by
  have hlt : b.toNat < 0x80 := UInt8.lt_iff_toNat_lt.mp hb
  apply toNat_ofNat_of_isValidChar
  left
  omega

theorem isAscii_of_isAsciiOctet
    {b : UInt8} (hb : IsAsciiOctet b) :
  IsAscii (Char.ofNat b.toNat)
  := by
  rw [IsAscii, toNat_ofNat_of_isAsciiOctet hb]
  apply UInt8.lt_iff_toNat_lt.mp hb

theorem ofNat_toNat_inj
    {a b : UInt8} (ha : IsAsciiOctet a) (hb : IsAsciiOctet b)
    (h : Char.ofNat a.toNat = Char.ofNat b.toNat) :
  a = b
  := by
  apply UInt8.toNat_inj.mp
  rw [← toNat_ofNat_of_isAsciiOctet ha, h, toNat_ofNat_of_isAsciiOctet hb]

/-- Octets are all beyond ASCII, or they are so up to a first one that is not. -/
theorem beyondAscii_or_first
    (bytes : Bytes) :
  (∀ b ∈ bytes, ¬ IsAsciiOctet b) ∨
    ∃ xs b ys, bytes = xs ++ b :: ys ∧ (∀ x ∈ xs, ¬ IsAsciiOctet x) ∧ IsAsciiOctet b
  := by
  induction bytes with
  | nil =>
    left
    simp
  | cons c bytes ih =>
    by_cases hc : IsAsciiOctet c
    · right
      use [], c, bytes, rfl, by simp
    · rcases ih with hall | ⟨xs, b, ys, rfl, hxs, hb⟩
      · left
        rw [List.forall_mem_cons]
        use hc
      · right
        use c :: xs, b, ys, rfl
        rw [List.forall_mem_cons]
        use ⟨hc, hxs⟩

/-- An ASCII character in a decoded text comes of its octet, and what stands before and
after it comes of what stands before and after the octet. -/
theorem exists_of_decode_eq_append_cons
    {a : UInt8} (ha : IsAsciiOctet a) {bytes : Bytes} {s t : Text}
    (h : decode bytes = s ++ Char.ofNat a.toNat :: t) :
  ∃ xs ys, bytes = xs ++ a :: ys ∧ decode xs = s ∧ decode ys = t
  := by
  have hascii := isAscii_of_isAsciiOctet ha
  induction hlength : bytes.length using Nat.strong_induction_on generalizing bytes s with
  | _ length ih =>
    subst hlength
    rcases beyondAscii_or_first bytes with hall | ⟨xs, b, ys, rfl, hxs, hb⟩
    · have hmem : Char.ofNat a.toNat ∈ decode bytes := by
        rw [h]
        simp
      apply absurd hascii (not_isAscii_of_mem_decode hall hmem)
    · rw [decode_append_cons hb] at h
      rcases List.append_eq_append_iff.mp h with ⟨s', hs, htail⟩ | ⟨t', hxs_eq, htail⟩
      · cases s' with
        | nil =>
          obtain ⟨hchar, rfl⟩ := List.cons.inj htail
          obtain rfl := ofNat_toNat_inj hb ha hchar
          use xs, ys, rfl
          rw [hs, List.append_nil]
          use rfl
        | cons c s' =>
          obtain ⟨rfl, hrest⟩ := List.cons.inj htail
          obtain ⟨zs, ws, rfl, hzs, hws⟩ := ih ys.length (by simp; omega) hrest rfl
          use xs ++ b :: zs, ws
          rw [List.append_assoc, List.cons_append, decode_append_cons hb, hzs, hs]
          use rfl, rfl
      · cases t' with
        | nil =>
          obtain ⟨hchar, rfl⟩ := List.cons.inj htail
          obtain rfl := ofNat_toNat_inj ha hb hchar
          use xs, ys, rfl
          rw [hxs_eq, List.append_nil]
          use rfl
        | cons c t' =>
          -- The character would stand before the first ASCII octet.
          obtain ⟨rfl, -⟩ := List.cons.inj htail
          have hmem : Char.ofNat a.toNat ∈ decode xs := by
            rw [hxs_eq]
            simp
          apply absurd hascii (not_isAscii_of_mem_decode hxs hmem)

/-! ### Words of ASCII octets -/

/-- The characters of ASCII octets. -/
def asciiText (word : Bytes) : Text :=
  word.map fun b => Char.ofNat b.toNat

theorem decode_append_asciiText
    {word : Bytes} (hword : ∀ b ∈ word, IsAsciiOctet b) (bytes : Bytes) :
  decode (bytes ++ word) = decode bytes ++ asciiText word
  := by
  induction word generalizing bytes with
  | nil => rw [asciiText, List.map_nil, List.append_nil, List.append_nil]
  | cons b word ih =>
    obtain ⟨hb, hword⟩ := List.forall_mem_cons.mp hword
    have hrest := ih hword []
    rw [List.nil_append] at hrest
    rw [decode_append_cons hb, hrest]
    rfl

theorem exists_of_decode_eq_append_asciiText
    {word : Bytes} (hword : ∀ b ∈ word, IsAsciiOctet b) {bytes : Bytes} {s : Text}
    (h : decode bytes = s ++ asciiText word) :
  ∃ xs, bytes = xs ++ word ∧ decode xs = s
  := by
  induction word generalizing bytes s with
  | nil =>
    use bytes, (List.append_nil bytes).symm
    rw [h, asciiText, List.map_nil, List.append_nil]
  | cons b word ih =>
    obtain ⟨hb, hword⟩ := List.forall_mem_cons.mp hword
    obtain ⟨xs, ys, rfl, hxs, hys⟩ := exists_of_decode_eq_append_cons hb h
    obtain ⟨zs, rfl, hzs⟩ := ih (s := []) hword hys
    have hnil : zs = [] := by
      by_contra hne
      apply decode_ne_nil hne hzs
    use xs, by rw [hnil, List.nil_append], hxs

/-- A decoded text ends in a word of ASCII characters when its octets end in the octets of
the word. -/
theorem asciiText_isSuffix_decode_iff
    {word : Bytes} (hword : ∀ b ∈ word, IsAsciiOctet b) {bytes : Bytes} :
  asciiText word <:+ decode bytes ↔ word <:+ bytes
  := by
  constructor
  · rintro ⟨s, hs⟩
    obtain ⟨xs, rfl, -⟩ := exists_of_decode_eq_append_asciiText hword hs.symm
    apply List.suffix_append
  · rintro ⟨xs, rfl⟩
    rw [decode_append_asciiText hword]
    apply List.suffix_append

end Utf8

end JavadocCoverage
