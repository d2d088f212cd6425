import JavadocCoverage.Text.Line

/-!
# What the lines of a sequence are

`IsCutInto` says by cases which lines a sequence has: every line is followed by one of
the three terminators, which are a line feed, a carriage return and a line feed, or a
carriage return with no line feed after it; only the last line may go without.
`linesFrom_eq_iff` shows that the lines read from a sequence are the only ones into
which it is cut, for characters as for octets.

A map of sequences that carries the two marks over takes the lines of a sequence to the
lines of what it is mapped to (`CarriesLines.isCutInto`).  Encoding and decoding are such
maps.
-/

namespace JavadocCoverage

section

variable {α : Type} {lineFeed carriageReturn : α}

/-- The line holds neither of the two marks. -/
def IsUnbroken (lineFeed carriageReturn : α) (line : List α) : Prop :=
  lineFeed ∉ line ∧ carriageReturn ∉ line

theorem isUnbroken_nil :
  IsUnbroken lineFeed carriageReturn []
  := ⟨List.not_mem_nil, List.not_mem_nil⟩

theorem isUnbroken_cons
    {c : α} {line : List α} :
  IsUnbroken lineFeed carriageReturn (c :: line) ↔
    c ≠ lineFeed ∧ c ≠ carriageReturn ∧ IsUnbroken lineFeed carriageReturn line
  := by
  simp only [IsUnbroken, List.mem_cons, not_or, ne_eq, eq_comm (b := c)]
  constructor
  · rintro ⟨⟨hfeed, hline⟩, hreturn, hline'⟩
    exact ⟨hfeed, hreturn, hline, hline'⟩
  · rintro ⟨hfeed, hreturn, hline, hline'⟩
    exact ⟨⟨hfeed, hline⟩, hreturn, hline'⟩

theorem isUnbroken_reverse
    {line : List α} :
  IsUnbroken lineFeed carriageReturn line.reverse ↔ IsUnbroken lineFeed carriageReturn line
  := by
  simp only [IsUnbroken, List.mem_reverse]

/-- The sequence is cut into the lines. -/
inductive IsCutInto (lineFeed carriageReturn : α) : List α → List (List α) → Prop
  /-- Nothing has no lines. -/
  | nil : IsCutInto lineFeed carriageReturn [] []
  /-- What has no terminator is one line, unless it is empty. -/
  | unended {line : List α} (hline : IsUnbroken lineFeed carriageReturn line) (hne : line ≠ []) :
    IsCutInto lineFeed carriageReturn line [line]
  /-- A line feed ends a line. -/
  | lineFeed {line below : List α} {lines : List (List α)}
    (hline : IsUnbroken lineFeed carriageReturn line)
    (hbelow : IsCutInto lineFeed carriageReturn below lines) :
    IsCutInto lineFeed carriageReturn (line ++ lineFeed :: below) (line :: lines)
  /-- A carriage return and a line feed end a line together. -/
  | both {line below : List α} {lines : List (List α)}
    (hline : IsUnbroken lineFeed carriageReturn line)
    (hbelow : IsCutInto lineFeed carriageReturn below lines) :
    IsCutInto lineFeed carriageReturn (line ++ carriageReturn :: lineFeed :: below) (line :: lines)
  /-- A carriage return ends a line when no line feed comes after it. -/
  | carriageReturn {line below : List α} {lines : List (List α)}
    (hline : IsUnbroken lineFeed carriageReturn line) (hfirst : below.head? ≠ some lineFeed)
    (hbelow : IsCutInto lineFeed carriageReturn below lines) :
    IsCutInto lineFeed carriageReturn (line ++ carriageReturn :: below) (line :: lines)

/-- No line holds a mark. -/
theorem IsCutInto.isUnbroken
    {sequence : List α} {lines : List (List α)}
    (h : IsCutInto lineFeed carriageReturn sequence lines) :
  ∀ line ∈ lines, IsUnbroken lineFeed carriageReturn line
  := by
  induction h with
  | nil => exact List.forall_mem_nil _
  | unended hline => exact List.forall_mem_singleton.mpr hline
  | lineFeed hline _ ih => exact List.forall_mem_cons.mpr ⟨hline, ih⟩
  | both hline _ ih => exact List.forall_mem_cons.mpr ⟨hline, ih⟩
  | carriageReturn hline _ _ ih => exact List.forall_mem_cons.mpr ⟨hline, ih⟩

variable [DecidableEq α]

/-! ### Reading a line -/

/-- What holds neither mark is read into the current line. -/
theorem linesFrom_append
    {word : List α} (hword : IsUnbroken lineFeed carriageReturn word) (line rest : List α) :
  linesFrom lineFeed carriageReturn false line (word ++ rest)
    = linesFrom lineFeed carriageReturn false (word.reverse ++ line) rest
  := by
  induction word generalizing line with
  | nil => rfl
  | cons c word ih =>
    obtain ⟨hfeed, hreturn, hword⟩ := isUnbroken_cons.mp hword
    rw [List.cons_append, linesFrom, if_neg hfeed, if_neg hreturn, ih hword, List.reverse_cons,
      List.append_assoc]
    rfl

/-- After a carriage return only a line feed is read otherwise. -/
theorem linesFrom_true_eq
    {rest : List α} (hfirst : rest.head? ≠ some lineFeed) :
  linesFrom lineFeed carriageReturn true [] rest = linesFrom lineFeed carriageReturn false [] rest
  := by
  cases rest with
  | nil => rfl
  | cons c rest =>
    have hc : c ≠ lineFeed := fun h => hfirst (congrArg some h)
    rw [linesFrom, linesFrom, if_neg hc, if_neg hc]

/-- The lines into which a sequence is cut are read from it. -/
theorem linesFrom_eq_of_isCutInto
    (hne : lineFeed ≠ carriageReturn) {sequence : List α} {lines : List (List α)}
    (h : IsCutInto lineFeed carriageReturn sequence lines) :
  linesFrom lineFeed carriageReturn false [] sequence = lines
  := by
  induction h with
  | nil => rfl
  | @unended line hline hline_ne =>
    have hread := linesFrom_append hline [] []
    rw [List.append_nil, List.append_nil] at hread
    rw [hread, linesFrom, if_neg (by simpa using hline_ne), List.reverse_reverse]
  | lineFeed hline _ ih =>
    rw [linesFrom_append hline, linesFrom, if_pos rfl, ih, List.append_nil, List.reverse_reverse]
    rfl
  | both hline _ ih =>
    rw [linesFrom_append hline, linesFrom, if_neg hne.symm, if_pos rfl, linesFrom, if_pos rfl,
      if_pos rfl, ih, List.append_nil, List.reverse_reverse]
  | carriageReturn hline hfirst _ ih =>
    rw [linesFrom_append hline, linesFrom, if_neg hne.symm, if_pos rfl, linesFrom_true_eq hfirst,
      ih, List.append_nil, List.reverse_reverse]

/-- What is read from a sequence are lines into which it is cut.  The second part is about
the place just after a carriage return, whose line is `line`: there a line feed is still to
come, or not. -/
theorem isCutInto_linesFrom
    (sequence : List α) :
  (∀ line, IsUnbroken lineFeed carriageReturn line →
    IsCutInto lineFeed carriageReturn (line.reverse ++ sequence)
      (linesFrom lineFeed carriageReturn false line sequence)) ∧
  ∀ line, IsUnbroken lineFeed carriageReturn line →
    IsCutInto lineFeed carriageReturn (line ++ carriageReturn :: sequence)
      (line :: linesFrom lineFeed carriageReturn true [] sequence)
  := by
  induction sequence with
  | nil =>
    constructor
    · intro line hline
      rw [List.append_nil, linesFrom]
      split
      next hempty =>
        rw [List.isEmpty_iff.mp hempty]
        apply IsCutInto.nil
      next hempty =>
        apply IsCutInto.unended (isUnbroken_reverse.mpr hline)
        simpa using hempty
    · intro line hline
      apply IsCutInto.carriageReturn hline (by simp) IsCutInto.nil
  | cons c rest ih =>
    obtain ⟨ihfalse, ihtrue⟩ := ih
    constructor
    · intro line hline
      rw [linesFrom]
      split
      next hfeed =>
        rw [hfeed]
        apply IsCutInto.lineFeed (isUnbroken_reverse.mpr hline) (ihfalse [] isUnbroken_nil)
      next hfeed =>
        split
        next hreturn =>
          rw [hreturn]
          apply ihtrue _ (isUnbroken_reverse.mpr hline)
        next hreturn =>
          have hword := ihfalse (c :: line) (isUnbroken_cons.mpr ⟨hfeed, hreturn, hline⟩)
          rw [List.reverse_cons, List.append_assoc] at hword
          apply hword
    · intro line hline
      rw [linesFrom]
      split
      next hfeed =>
        rw [hfeed]
        apply IsCutInto.both hline (ihfalse [] isUnbroken_nil)
      next hfeed =>
        have hfirst : (c :: rest).head? ≠ some lineFeed := fun h => hfeed (Option.some.inj h)
        apply IsCutInto.carriageReturn hline hfirst
        split
        next hreturn =>
          rw [hreturn]
          apply ihtrue [] isUnbroken_nil
        next hreturn =>
          apply ihfalse [c] (isUnbroken_cons.mpr ⟨hfeed, hreturn, isUnbroken_nil⟩)

/-- The lines read from a sequence are those into which it is cut. -/
theorem linesFrom_eq_iff
    (hne : lineFeed ≠ carriageReturn) {sequence : List α} {lines : List (List α)} :
  linesFrom lineFeed carriageReturn false [] sequence = lines ↔
    IsCutInto lineFeed carriageReturn sequence lines
  := by
  constructor
  · rintro rfl
    apply (isCutInto_linesFrom sequence).1 [] isUnbroken_nil
  · apply linesFrom_eq_of_isCutInto hne

end

/-! ### Maps that carry marks over -/

section

variable {α β : Type} {a lineFeed carriageReturn : α} {a' lineFeed' carriageReturn' : β}
  {f : List α → List β}

/-- The map carries the mark `a` over to `a'`: what stands before and after `a` is mapped by
itself, and `a'` comes of nothing else. -/
structure CarriesMark (a : α) (a' : β) (f : List α → List β) : Prop where
  append_cons : ∀ xs ys, f (xs ++ a :: ys) = f xs ++ a' :: f ys
  exists_of_eq : ∀ s xs ys, f s = xs ++ a' :: ys →
    ∃ us vs, s = us ++ a :: vs ∧ f us = xs ∧ f vs = ys

/-- The map carries the two marks of lines over, and takes only an empty sequence to an empty
one. -/
structure CarriesLines (lineFeed carriageReturn : α) (lineFeed' carriageReturn' : β)
    (f : List α → List β) : Prop where
  lineFeed : CarriesMark lineFeed lineFeed' f
  carriageReturn : CarriesMark carriageReturn carriageReturn' f
  eq_nil_iff : ∀ xs, f xs = [] ↔ xs = []

theorem CarriesMark.not_mem
    (h : CarriesMark a a' f) {xs : List α} (ha : a ∉ xs) :
  a' ∉ f xs
  := by
  intro hmem
  obtain ⟨s, t, hst⟩ := List.append_of_mem hmem
  obtain ⟨us, vs, rfl, -⟩ := h.exists_of_eq xs s t hst
  simp at ha

namespace CarriesLines

theorem isUnbroken
    (h : CarriesLines lineFeed carriageReturn lineFeed' carriageReturn' f) {line : List α}
    (hline : IsUnbroken lineFeed carriageReturn line) :
  IsUnbroken lineFeed' carriageReturn' (f line)
  := ⟨h.lineFeed.not_mem hline.1, h.carriageReturn.not_mem hline.2⟩

theorem head?_ne
    (h : CarriesLines lineFeed carriageReturn lineFeed' carriageReturn' f) {xs : List α}
    (hfirst : xs.head? ≠ some lineFeed) :
  (f xs).head? ≠ some lineFeed'
  := by
  intro hhead
  obtain ⟨t, ht⟩ := List.head?_eq_some_iff.mp hhead
  obtain ⟨us, vs, rfl, hus, -⟩ := h.lineFeed.exists_of_eq xs [] t ht
  obtain rfl := (h.eq_nil_iff us).mp hus
  apply hfirst rfl

/-- What is cut into lines is mapped to what is cut into the lines mapped. -/
theorem isCutInto
    (h : CarriesLines lineFeed carriageReturn lineFeed' carriageReturn' f) {sequence : List α}
    {lines : List (List α)} (hcut : IsCutInto lineFeed carriageReturn sequence lines) :
  IsCutInto lineFeed' carriageReturn' (f sequence) (lines.map f)
  := by
  have hnil : f [] = [] := (h.eq_nil_iff []).mpr rfl
  induction hcut with
  | nil =>
    rw [hnil]
    apply IsCutInto.nil
  | unended hline hne =>
    apply IsCutInto.unended (h.isUnbroken hline) (mt (h.eq_nil_iff _).mp hne)
  | lineFeed hline _ ih =>
    rw [h.lineFeed.append_cons]
    apply IsCutInto.lineFeed (h.isUnbroken hline) ih
  | @both line below _ hline _ ih =>
    have hbelow := h.lineFeed.append_cons [] below
    rw [hnil, List.nil_append, List.nil_append] at hbelow
    rw [h.carriageReturn.append_cons, hbelow]
    apply IsCutInto.both (h.isUnbroken hline) ih
  | carriageReturn hline hfirst _ ih =>
    rw [h.carriageReturn.append_cons]
    apply IsCutInto.carriageReturn (h.isUnbroken hline) (h.head?_ne hfirst) ih

end CarriesLines

end

/-! ### Texts and octets -/

theorem splitLines_eq_iff
    {text : Text} {lines : List Text} :
  splitLines text = lines ↔ IsCutInto '\n' '\r' text lines
  := linesFrom_eq_iff (by decide)

theorem splitByteLines_eq_iff
    {bytes : Bytes} {lines : List Bytes} :
  splitByteLines bytes = lines ↔ IsCutInto 0x0A 0x0D bytes lines
  := linesFrom_eq_iff (by decide)

end JavadocCoverage
