import JavadocCoverage.Files.Path
import JavadocCoverage.Proofs.Text.Decoding

/-!
# Places below a path

The path that names lead to from a path, one by one (`Path.below`), can be read back: its
names are those of the path with the given ones after them (`Path.names_below`), so that
different places have different paths.  Whether such a path names a source is decided by
the octets of its last name (`Path.isSource_join`).
-/

namespace JavadocCoverage

namespace Path

/-- An octet sequence that can name an entry of a directory. -/
structure IsName (name : Name) : Prop where
  ne_nil : name ≠ []
  slash_notMem : slash ∉ name
  ne_here : name ≠ here
  ne_up : name ≠ up

theorem isName_iff {name : Name} :
  IsName name ↔ name ≠ [] ∧ slash ∉ name ∧ name ≠ here ∧ name ≠ up
  := by
  constructor
  · rintro ⟨hnil, hslash, hhere, hup⟩
    exact ⟨hnil, hslash, hhere, hup⟩
  · rintro ⟨hnil, hslash, hhere, hup⟩
    exact ⟨hnil, hslash, hhere, hup⟩

instance : DecidablePred IsName :=
  fun _ => decidable_of_iff _ isName_iff.symm

theorem IsName.not_isIdle {name : Name} (h : IsName name) :
  isIdle name = false
  := by
  simp [isIdle, h.ne_nil, h.ne_here]

/-- The segments of a path that are not idle. -/
def names (path : Path) : List Name :=
  path.segments.filter (!isIdle ·)

/-- The path to which names lead from a path, one by one. -/
def below (root : Path) (place : List Name) : Path :=
  place.foldl join root

@[simp]
theorem below_nil (root : Path) :
  root.below [] = root
  := rfl

@[simp]
theorem below_cons (root : Path) (name : Name) (place : List Name) :
  root.below (name :: place) = (root.join name).below place
  := rfl

theorem below_concat (root : Path) (place : List Name) (name : Name) :
  root.below (place ++ [name]) = (root.below place).join name
  := by
  rw [below, List.foldl_append]
  rfl

/-! ## Segments -/

theorem segments_name {name : Name} (h : slash ∉ name) :
  segments name = [name]
  := List.splitOn_eq_singleton h

theorem segments_append_slash (above : Path) {name : Name} (h : slash ∉ name) :
  segments (above ++ slash :: name) = segments above ++ [name]
  := by
  rw [segments, List.splitOn_append_cons_self]
  congr 1
  apply segments_name h

/-- The last segment of the path of an entry is the name of the entry, and the segments
before it are those of the directory, empty ones apart. -/
theorem exists_segments_join (path : Path) {name : Name} (h : slash ∉ name) :
  ∃ above, (path.join name).segments = above ++ [name]
    ∧ ∀ p : Name → Bool, p [] = false → above.filter p = path.segments.filter p
  := by
  cases hslash : path.endsInSlash with
  | true =>
    obtain ⟨above, rfl⟩ := List.getLast?_eq_some_iff.mp (eq_of_beq hslash)
    use segments above
    constructor
    · rw [join, hslash, Bool.or_true, if_pos rfl, List.append_assoc]
      apply segments_append_slash above h
    · intro p hp
      rw [segments_append_slash above (List.not_mem_nil), List.filter_append,
        List.filter_cons_of_neg (by simp [hp]), List.filter_nil, List.append_nil]
  | false =>
    cases path with
    | nil =>
      use []
      constructor
      · apply segments_name h
      · intro p hp
        rw [segments_name List.not_mem_nil, List.filter_cons_of_neg (by simp [hp])]
    | cons b path =>
      use segments (b :: path)
      constructor
      · rw [join, hslash]
        apply segments_append_slash _ h
      · intro p _
        rfl

section

variable {p : Name → Bool} (hempty : p [] = false) (hnames : ∀ name, IsName name → p name = true)
include hempty hnames

/-- Of the segments of the path of an entry, those that are kept by a selection of all names
are those of the directory, and the name of the entry. -/
theorem filter_segments_join (path : Path) {name : Name} (h : IsName name) :
  (path.join name).segments.filter p = path.segments.filter p ++ [name]
  := by
  obtain ⟨above, hsegments, habove⟩ := path.exists_segments_join h.slash_notMem
  rw [hsegments, List.filter_append, habove _ hempty,
    List.filter_cons_of_pos (hnames name h), List.filter_nil]

theorem filter_segments_below (root : Path) {place : List Name} (h : ∀ name ∈ place, IsName name) :
  (root.below place).segments.filter p = root.segments.filter p ++ place
  := by
  induction place generalizing root with
  | nil => rw [below_nil, List.append_nil]
  | cons name place ih =>
    obtain ⟨hname, hplace⟩ := List.forall_mem_cons.mp h
    rw [below_cons, ih _ hplace, filter_segments_join hempty hnames _ hname, List.append_assoc]
    rfl

end

theorem names_join (path : Path) {name : Name} (h : IsName name) :
  (path.join name).names = path.names ++ [name]
  := by
  apply filter_segments_join rfl _ path h
  intro name hname
  rw [hname.not_isIdle]
  rfl

/-- The names of a path below another are those of the other with the place after
them. -/
theorem names_below (root : Path) {place : List Name} (h : ∀ name ∈ place, IsName name) :
  (root.below place).names = root.names ++ place
  := by
  apply filter_segments_below rfl _ root h
  intro name hname
  rw [hname.not_isIdle]
  rfl

/-- The place of a path below another. -/
def placeBelow (root path : Path) : List Name :=
  path.names.drop root.names.length

theorem placeBelow_below (root : Path) {place : List Name} (h : ∀ name ∈ place, IsName name) :
  root.placeBelow (root.below place) = place
  := by
  rw [placeBelow, names_below root h, List.drop_left]

/-! ## Sources -/

theorem fileName?_join (path : Path) {name : Name} (h : IsName name) :
  (path.join name).fileName? = some name
  := by
  obtain ⟨above, hsegments, -⟩ := path.exists_segments_join h.slash_notMem
  rw [fileName?, hsegments, List.reverse_append, List.reverse_singleton, List.singleton_append,
    List.dropWhile_cons_of_neg (by simp [h.not_isIdle])]
  exact if_neg h.ne_up

/-- The octets of the ending of the names of sources. -/
def sourceOctets : Bytes := [0x2E, 0x6A, 0x61, 0x76, 0x61]

/-- A name has the ending of sources as a text when it has it in its octets. -/
theorem endsIn_sourceEnding_decode_iff {name : Name} :
  Text.endsIn sourceEnding (Utf8.decode name) = true ↔ sourceOctets <:+ name
  := by
  have hword : ∀ b ∈ sourceOctets, IsAsciiOctet b := by
    simp [sourceOctets, IsAsciiOctet]
  have hending : Utf8.asciiText sourceOctets = sourceEnding := by decide
  rw [Text.endsIn_iff, ← hending]
  apply Utf8.asciiText_isSuffix_decode_iff hword

/-- The path of an entry names a source when the octets of the entry's name have the
ending. -/
theorem isSource_join (path : Path) {name : Name} (h : IsName name) :
  (path.join name).isSource = true ↔ sourceOctets <:+ name
  := by
  rw [isSource, fileName?_join path h, Option.any_some, endsIn_sourceEnding_decode_iff]

end Path

end JavadocCoverage
