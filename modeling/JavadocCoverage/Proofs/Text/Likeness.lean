import Mathlib.Data.List.Forall2
import JavadocCoverage.Proofs.Text.Decoding
import JavadocCoverage.Proofs.Text.Lines
import JavadocCoverage.Text.WhiteSpace

/-!
# Texts that are alike

Two texts are alike when they have the same ASCII characters and the same white space,
with something else or nothing at the same places between them (`Text.Alike`).  How much
else there is, and which characters, is left open.

A plain character of one text is found again in the other, with like texts before and
after it (`Alike.exists_of_append_cons`).  From this law the rest is derived: like texts
start with, hold and end in the same plain words, their lines are alike, and so are they
when they are trimmed.
-/

namespace JavadocCoverage

namespace Text

/-- The character is ASCII or white space. -/
def IsPlain (c : Char) : Prop :=
  IsAscii c ∨ isWhiteSpace c = true

instance : DecidablePred IsPlain :=
  fun c => inferInstanceAs (Decidable (c.toNat < 0x80 ∨ isWhiteSpace c = true))

/-- What holds of the characters in a text is decided by going through the text. -/
instance (p : Char → Prop) [DecidablePred p] (text : Text) : Decidable (∀ c ∈ text, p c) :=
  List.decidableBAll p text

/-- The texts can be cut into the same sequence of pieces, where two pieces are the same
plain character, or two runs of characters none of which is plain. -/
inductive Alike : Text → Text → Prop
  | nil : Alike [] []
  | plain {c : Char} {s t : Text} (hc : IsPlain c) (h : Alike s t) : Alike (c :: s) (c :: t)
  | runs {run run' s t : Text} (hne : run ≠ []) (hne' : run' ≠ [])
    (hrun : ∀ c ∈ run, ¬ IsPlain c) (hrun' : ∀ c ∈ run', ¬ IsPlain c) (h : Alike s t) :
    Alike (run ++ s) (run' ++ t)

namespace Alike

theorem symm
    {s t : Text} (h : Alike s t) :
  Alike t s
  := by
  induction h with
  | nil => apply nil
  | plain hc _ ih => apply plain hc ih
  | runs hne hne' hrun hrun' _ ih => apply runs hne' hne hrun' hrun ih

theorem append
    {s s' t t' : Text} (h : Alike s t) (h' : Alike s' t') :
  Alike (s ++ s') (t ++ t')
  := by
  induction h with
  | nil => apply h'
  | plain hc _ ih => apply plain hc ih
  | runs hne hne' hrun hrun' _ ih =>
    rw [List.append_assoc, List.append_assoc]
    apply runs hne hne' hrun hrun' ih

theorem reverse
    {s t : Text} (h : Alike s t) :
  Alike s.reverse t.reverse
  := by
  induction h with
  | nil => apply nil
  | plain hc _ ih =>
    rw [List.reverse_cons, List.reverse_cons]
    apply append ih (plain hc nil)
  | @runs run run' _ _ hne hne' hrun hrun' _ ih =>
    have hruns : Alike (run.reverse ++ []) (run'.reverse ++ []) := by
      apply runs _ _ _ _ nil
      · simpa using hne
      · simpa using hne'
      · simpa using hrun
      · simpa using hrun'
    rw [List.append_nil, List.append_nil] at hruns
    rw [List.reverse_append, List.reverse_append]
    apply append ih hruns

/-- Texts that are alike stay so behind a plain word. -/
theorem word
    {word s t : Text} (hword : ∀ c ∈ word, IsPlain c) (h : Alike s t) :
  Alike (word ++ s) (word ++ t)
  := by
  induction word with
  | nil => apply h
  | cons c word ih =>
    obtain ⟨hc, hword⟩ := List.forall_mem_cons.mp hword
    apply plain hc (ih hword)

theorem eq_nil
    {t : Text} (h : Alike [] t) :
  t = []
  := by
  generalize hs : ([] : Text) = s at h
  cases h with
  | nil => rfl
  | plain => cases hs
  | runs hne =>
    obtain ⟨hrun, -⟩ := List.append_eq_nil_iff.mp hs.symm
    apply absurd hrun hne

theorem ne_nil
    {s t : Text} (h : Alike s t) (hs : s ≠ []) :
  t ≠ []
  := by
  rintro rfl
  apply hs h.symm.eq_nil

/-! ### Plain characters -/

/-- A plain character of a text stands in every text like it. -/
theorem exists_of_append_cons
    {a b t : Text} {c : Char} (hc : IsPlain c) (h : Alike (a ++ c :: b) t) :
  ∃ a' b', t = a' ++ c :: b' ∧ Alike a a' ∧ Alike b b'
  := by
  generalize hs : a ++ c :: b = s at h
  induction h generalizing a with
  | nil => simp at hs
  | @plain d s t hd h ih =>
    cases a with
    | nil =>
      obtain ⟨rfl, rfl⟩ := List.cons.inj hs
      use [], t, rfl, nil, h
    | cons d' a =>
      obtain ⟨rfl, hrest⟩ := List.cons.inj hs
      obtain ⟨a', b', rfl, ha, hb⟩ := ih hrest
      use d' :: a', b', rfl, plain hd ha, hb
  | @runs run run' s t hne hne' hrun hrun' h ih =>
    rcases List.append_eq_append_iff.mp hs with ⟨rest, hrun_eq, htail⟩ | ⟨a, rfl, htail⟩
    · cases rest with
      | nil =>
        obtain ⟨a', b', rfl, ha, hb⟩ := ih (a := []) htail
        rw [List.append_nil] at hrun_eq
        use run' ++ a', b', by rw [List.append_assoc]
        rw [← hrun_eq, ← List.append_nil run]
        use runs hne hne' hrun hrun' ha
      | cons d rest =>
        -- The plain character would belong to the run.
        obtain ⟨rfl, -⟩ := List.cons.inj htail
        apply absurd hc
        apply hrun
        rw [hrun_eq]
        simp
    · obtain ⟨a', b', rfl, ha, hb⟩ := ih htail.symm
      use run' ++ a', b', by rw [List.append_assoc], runs hne hne' hrun hrun' ha, hb

theorem exists_of_cons
    {c : Char} {s t : Text} (hc : IsPlain c) (h : Alike (c :: s) t) :
  ∃ t', t = c :: t' ∧ Alike s t'
  := by
  obtain ⟨a, t', rfl, ha, hs⟩ := exists_of_append_cons (a := []) hc h
  use t'
  rw [ha.eq_nil]
  use rfl

theorem mem
    {c : Char} {s t : Text} (hc : IsPlain c) (h : Alike s t) (hmem : c ∈ s) :
  c ∈ t
  := by
  obtain ⟨a, b, rfl⟩ := List.append_of_mem hmem
  obtain ⟨a', b', rfl, -⟩ := exists_of_append_cons hc h
  simp

/-! ### Plain words -/

theorem isPrefix
    {word s t : Text} (hword : ∀ c ∈ word, IsPlain c) (h : Alike s t) (hs : word <+: s) :
  word <+: t
  := by
  induction word generalizing s t with
  | nil => apply List.nil_prefix
  | cons c word ih =>
    obtain ⟨hc, hword⟩ := List.forall_mem_cons.mp hword
    obtain ⟨rest, rfl⟩ := hs
    obtain ⟨t, rfl, hrest⟩ := exists_of_cons hc h
    apply List.cons_prefix_cons.mpr
    use rfl
    apply ih hword hrest (List.prefix_append word rest)

theorem isSuffix
    {word s t : Text} (hword : ∀ c ∈ word, IsPlain c) (h : Alike s t) (hs : word <:+ s) :
  word <:+ t
  := by
  rw [← List.reverse_prefix] at hs ⊢
  apply isPrefix _ h.reverse hs
  intro c hc
  apply hword c (List.mem_reverse.mp hc)

theorem isInfix
    {word s t : Text} (hword : ∀ c ∈ word, IsPlain c) (h : Alike s t) (hs : word <:+: s) :
  word <:+: t
  := by
  cases word with
  | nil => apply List.nil_infix
  | cons c word =>
    obtain ⟨a, b, rfl⟩ := hs
    obtain ⟨hc, hrest⟩ := List.forall_mem_cons.mp hword
    rw [List.append_assoc] at h
    obtain ⟨a', t', rfl, -, ht'⟩ := exists_of_append_cons hc h
    have hprefix := isPrefix hrest ht' (List.prefix_append word b)
    obtain ⟨b', rfl⟩ := hprefix
    use a', b'
    rw [List.append_assoc]
    rfl

theorem startsWith_eq
    {word s t : Text} (hword : ∀ c ∈ word, IsPlain c) (h : Alike s t) :
  startsWith word s = startsWith word t
  := by
  rw [Bool.eq_iff_iff, startsWith_iff, startsWith_iff]
  use isPrefix hword h, isPrefix hword h.symm

theorem endsIn_eq
    {word s t : Text} (hword : ∀ c ∈ word, IsPlain c) (h : Alike s t) :
  endsIn word s = endsIn word t
  := by
  rw [Bool.eq_iff_iff, endsIn_iff, endsIn_iff]
  use isSuffix hword h, isSuffix hword h.symm

theorem occursIn_eq
    {word s t : Text} (hword : ∀ c ∈ word, IsPlain c) (h : Alike s t) :
  occursIn word s = occursIn word t
  := by
  rw [Bool.eq_iff_iff, occursIn_iff, occursIn_iff]
  use isInfix hword h, isInfix hword h.symm

theorem elem_eq
    {c : Char} {s t : Text} (hc : IsPlain c) (h : Alike s t) :
  s.elem c = t.elem c
  := by
  rw [Bool.eq_iff_iff, List.elem_iff, List.elem_iff]
  use mem hc h, mem hc h.symm

theorem isEmpty_eq
    {s t : Text} (h : Alike s t) :
  s.isEmpty = t.isEmpty
  := by
  rw [Bool.eq_iff_iff, List.isEmpty_iff, List.isEmpty_iff]
  constructor
  · rintro rfl
    apply h.eq_nil
  · rintro rfl
    apply h.symm.eq_nil

/-! ### White space at the ends -/

theorem trimStart
    {s t : Text} (h : Alike s t) :
  Alike (trimStart s) (trimStart t)
  := by
  induction h with
  | nil => apply nil
  | @plain c s t hc h ih =>
    unfold Text.trimStart at ih ⊢
    rw [List.dropWhile_cons, List.dropWhile_cons]
    split
    · apply ih
    · apply plain hc h
  | @runs run run' s t hne hne' hrun hrun' h ih =>
    have hkept {run s : Text} (hne : run ≠ []) (hrun : ∀ c ∈ run, ¬ IsPlain c) :
        Text.trimStart (run ++ s) = run ++ s := by
      obtain ⟨c, run, rfl⟩ := List.exists_cons_of_ne_nil hne
      have hspace : isWhiteSpace c ≠ true := fun hspace => hrun c (by simp) (Or.inr hspace)
      apply List.dropWhile_cons_of_neg hspace
    rw [hkept hne hrun, hkept hne' hrun']
    apply runs hne hne' hrun hrun' h

theorem trim
    {s t : Text} (h : Alike s t) :
  Alike (trim s) (trim t)
  := h.trimStart.reverse.trimStart.reverse

/-! ### Lines -/

theorem isPlain_lineFeed :
  IsPlain '\n'
  := by decide

theorem isPlain_carriageReturn :
  IsPlain '\r'
  := by decide

theorem isUnbroken
    {s t : Text} (h : Alike s t) (hs : IsUnbroken '\n' '\r' s) :
  IsUnbroken '\n' '\r' t
  := ⟨fun hmem => hs.1 (mem isPlain_lineFeed h.symm hmem),
    fun hmem => hs.2 (mem isPlain_carriageReturn h.symm hmem)⟩

theorem head?_ne
    {c : Char} (hc : IsPlain c) {s t : Text} (h : Alike s t) (hs : s.head? ≠ some c) :
  t.head? ≠ some c
  := by
  intro hhead
  obtain ⟨t, rfl⟩ := List.head?_eq_some_iff.mp hhead
  obtain ⟨s, rfl, -⟩ := exists_of_cons hc h.symm
  apply hs rfl

/-- A text like one that is cut into lines is cut into lines like these. -/
theorem exists_of_isCutInto
    {s t : Text} {lines : List Text} (h : Alike s t) (hlines : IsCutInto '\n' '\r' s lines) :
  ∃ lines', IsCutInto '\n' '\r' t lines' ∧ List.Forall₂ Alike lines lines'
  := by
  induction hlines generalizing t with
  | nil =>
    rw [h.eq_nil]
    use [], IsCutInto.nil, List.Forall₂.nil
  | unended hline hne =>
    use [t], IsCutInto.unended (h.isUnbroken hline) (h.ne_nil hne)
    apply List.Forall₂.cons h List.Forall₂.nil
  | lineFeed hline _ ih =>
    obtain ⟨line, below, rfl, hlike, hbelow⟩ := exists_of_append_cons isPlain_lineFeed h
    obtain ⟨lines', hcut, hall⟩ := ih hbelow
    use line :: lines', IsCutInto.lineFeed (hlike.isUnbroken hline) hcut
    apply List.Forall₂.cons hlike hall
  | both hline _ ih =>
    obtain ⟨line, rest, rfl, hlike, hrest⟩ := exists_of_append_cons isPlain_carriageReturn h
    obtain ⟨below, rfl, hbelow⟩ := exists_of_cons isPlain_lineFeed hrest
    obtain ⟨lines', hcut, hall⟩ := ih hbelow
    use line :: lines', IsCutInto.both (hlike.isUnbroken hline) hcut
    apply List.Forall₂.cons hlike hall
  | carriageReturn hline hfirst _ ih =>
    obtain ⟨line, below, rfl, hlike, hbelow⟩ := exists_of_append_cons isPlain_carriageReturn h
    obtain ⟨lines', hcut, hall⟩ := ih hbelow
    have hfirst' := head?_ne isPlain_lineFeed hbelow hfirst
    use line :: lines', IsCutInto.carriageReturn (hlike.isUnbroken hline) hfirst' hcut
    apply List.Forall₂.cons hlike hall

theorem splitLines
    {s t : Text} (h : Alike s t) :
  List.Forall₂ Alike (splitLines s) (splitLines t)
  := by
  obtain ⟨lines, hcut, hall⟩ := exists_of_isCutInto h (splitLines_eq_iff.mp rfl)
  rw [splitLines_eq_iff.mpr hcut]
  apply hall

end Alike

end Text

end JavadocCoverage
