import Mathlib.Data.List.DropRight
import Mathlib.Data.List.Infix
import JavadocCoverage.Proofs.Files.Writing

/-!
# What stands in the way of a delivery

A report cannot be opened when its path leads to a directory, when a lexical prefix of the path
leads to a file, and when such a prefix is a link that leads nowhere (`Node.Obstructs`,
`Node.not_canOpen_of_obstructs`).

The first two follow from what a delivery leaves: what led somewhere still leads there.  A link
that leads nowhere could lead somewhere once directories are added.  It is met on the way down,
though, before any of them is made (`createDirectoriesAt_of_dangling`).
-/

namespace JavadocCoverage

/-! ### Lexical prefixes -/

namespace Path

section

variable {segments : List Name} (hslash : ∀ segment ∈ segments, slash ∉ segment)
include hslash

end

theorem ofSegments_concat {segments : List Name} (hne : segments ≠ []) (last : Name) :
  ofSegments (segments ++ [last]) = ofSegments segments ++ slash :: last
  := by
  induction segments with
  | nil => exact absurd rfl hne
  | cons first segments ih =>
    cases segments with
    | nil => simp [ofSegments, List.intercalate_cons_cons]
    | cons second segments =>
      have hsecond := ih nofun
      simp only [ofSegments, List.cons_append, List.intercalate_cons_cons] at hsecond ⊢
      rw [hsecond, List.append_assoc, List.append_assoc, List.append_assoc]

/-- The last segment of a path is empty only behind a slash. -/
theorem exists_segments_eq_concat
    {path : Path} (hne : path ≠ []) (hend : ¬ path.endsInSlash) :
  ∃ front last, path.segments = front ++ [last] ∧ last ≠ []
  := by
  obtain hnil | ⟨front, last, hsegments⟩ := List.eq_nil_or_concat path.segments
  · exact absurd hnil (List.splitOn_ne_nil slash path)
  rw [List.concat_eq_append] at hsegments
  use front, last, hsegments
  rintro rfl
  have hpath : ofSegments (front ++ [[]]) = path := by
    rw [← hsegments]
    exact List.intercalate_splitOn slash
  by_cases hfront : front = []
  · subst hfront
    exact hne hpath.symm
  · rw [ofSegments_concat hfront] at hpath
    rw [← hpath] at hend
    exact hend (by simp [endsInSlash])

theorem steps_eq_concat
    {path : Path} {front : List Name} {last : Name} (hsegments : path.segments = front ++ [last])
    (hlast : last ≠ []) :
  path.steps = front.filter (!·.isEmpty) ++ [last]
  := by
  rw [steps, hsegments, List.filter_append, List.filter_singleton,
    List.isEmpty_eq_false_iff.mpr hlast]
  rfl

theorem ne_nil_of_refusal {path : Path} (h : path.refusal? = none) :
  path ≠ []
  := by
  rintro rfl
  cases h

end Path

namespace Node

variable {tree tree' : Node} {path : Path}

/-! ### The way to a place -/

theorem directory_of_follow_cons
    {followLast : Bool} {links : Nat} {place rest : List Name} {segment : Name} {reached : Reached}
    (h : tree.follow followLast links place (segment :: rest) = .ok reached) :
  tree.entryAt? place = some .directory
  := by
  by_contra hplace
  rw [follow_cons_of_ne hplace] at h
  cases h

/-- What leads somewhere leads there by way of a place that its first segments lead to. -/
theorem exists_of_follow_append
    {followLast : Bool} {links : Nat} {place segments rest : List Name} {reached : Reached}
    (hrest : rest ≠ [] ∨ followLast = true)
    (h : tree.follow followLast links place (segments ++ rest) = .ok reached) :
  ∃ between, tree.follow true links place segments = .ok between
    ∧ tree.follow followLast between.links between.place rest = .ok reached
  := by
  rw [follow_append _ _ hrest] at h
  cases hfollow : tree.follow true links place segments with
  | error cause =>
    rw [hfollow] at h
    cases h
  | ok between =>
    rw [hfollow] at h
    exact ⟨between, rfl, h⟩

/-- A slash at the end of a path does not change where it leads. -/
theorem exists_follow_steps
    {place : List Name} (h : tree.resolve path = .ok place) :
  path.refusal? = none ∧ ∃ links, tree.follow true linkLimit [] path.steps = .ok ⟨place, links⟩
  := by
  cases hrefusal : path.refusal? with
  | some cause =>
    rw [resolve, hrefusal] at h
    cases h
  | none =>
    use rfl
    rw [resolve_eq hrefusal, Path.lookupSegments_eq] at h
    cases hlookup : tree.follow true linkLimit []
        (path.steps ++ if path.endsInSlash then [Path.here] else []) with
    | error cause =>
      rw [hlookup] at h
      cases h
    | ok reached =>
      rw [hlookup] at h
      cases h
      obtain ⟨between, hsteps, hend⟩ := exists_of_follow_append (Or.inr rfl) hlookup
      have hplace : between = reached := by
        split at hend
        · rw [follow_here (directory_of_follow_cons hend), follow_nil] at hend
          cases hend
          rfl
        · rw [follow_nil] at hend
          cases hend
          rfl
      rw [hplace] at hsteps
      exact ⟨reached.links, hsteps⟩

theorem leadsToDirectory_iff :
  tree.leadsToDirectory path = true
    ↔ ∃ place, tree.resolve path = .ok place ∧ tree.entryAt? place = some .directory
  := by
  rw [leadsToDirectory, node?]
  cases tree.resolve path with
  | error cause => simp
  | ok place => simp [any_isDirectory_iff]

namespace Delivered

variable {content : Bytes} {place : List Name} (h : tree.Delivered tree' path content place)
include h

end Delivered

/-! ### Links in the way -/

/-- The path names a link, and leads nowhere. -/
def IsDangling (tree : Node) (path : Path) : Prop :=
  tree.namesLink path = true ∧ ∃ cause, tree.resolve path = .error cause

theorem entryAt?_dropLast {place : List Name} (h : tree.entryAt? place = some .directory) :
  tree.entryAt? place.dropLast = some .directory
  := by
  obtain rfl | ⟨above, name, rfl⟩ := List.eq_nil_or_concat place
  · exact h
  · rw [List.concat_eq_append] at h ⊢
    rw [List.dropLast_concat]
    apply directory_of_entryAt?_append (List.cons_ne_nil name []) h

/-- Where the last segment leads when a link is not followed: to a directory, or to the entry
of that name. -/
theorem cases_of_follow_singleton
    {links : Nat} {place : List Name} {segment : Name} {found : Reached}
    (h : tree.follow false links place [segment] = .ok found) :
  tree.entryAt? place = some .directory
    ∧ (tree.entryAt? found.place = some .directory
      ∨ segment ≠ Path.here ∧ segment ≠ Path.up ∧ ¬ segment.length > nameLimit
        ∧ found.place = place ++ [segment])
  := by
  have hplace := directory_of_follow_cons h
  use hplace
  by_cases hhere : segment = Path.here
  · left
    subst hhere
    rw [follow_here hplace, follow_nil] at h
    cases h
    exact hplace
  by_cases hup : segment = Path.up
  · left
    subst hup
    rw [follow_up hplace, follow_nil] at h
    cases h
    exact entryAt?_dropLast hplace
  by_cases hlength : segment.length > nameLimit
  · rw [follow_tooLong hplace hhere hup hlength] at h
    cases h
  right
  use hhere, hup, hlength
  cases hentry : tree.entryAt? (place ++ [segment]) with
  | none =>
    rw [follow_missing hplace hhere hup hlength hentry] at h
    cases h
  | some e =>
    by_cases hlink : ∀ target, e ≠ .link target
    · rw [follow_entry hplace hhere hup hlength hentry hlink, follow_nil] at h
      cases h
      rfl
    · obtain ⟨target, rfl⟩ := Classical.not_forall_not.mp hlink
      rw [follow_link hplace hhere hup hlength hentry] at h
      cases h
      rfl

theorem namesLink_iff :
  tree.namesLink path = true
    ↔ ∃ place, tree.locate path = .ok place ∧ ∃ target, tree.entryAt? place = some (.link target)
  := by
  rw [namesLink]
  cases tree.locate path with
  | error cause => simp
  | ok place =>
    cases hat : tree.at? place with
    | none => simp [entryAt?, hat]
    | some node =>
      cases node with
      | file | link | directory => simp [entryAt?, hat, isLink, entry]

/-- A path that names a link names an entry of a directory, by its last segment. -/
theorem exists_names_of_namesLink (h : tree.namesLink path = true) :
  path.refusal? = none ∧ ¬ path.endsInSlash ∧ ∃ front reached name target,
    path.segments = front ++ [name] ∧ ¬ Path.isIdle name
      ∧ tree.Names linkLimit [] path reached name
      ∧ tree.entryAt? (reached.place ++ [name]) = some (.link target)
  := by
  obtain ⟨place, hlocate, target, hlink⟩ := namesLink_iff.mp h
  rw [locate] at hlocate
  split at hlocate
  · cases hlocate
  · next hrefusal =>
    cases hlookup : tree.follow false linkLimit [] path.lookupSegments with
    | error cause =>
      rw [hlookup] at hlocate
      cases hlocate
    | ok found =>
      rw [hlookup] at hlocate
      cases hlocate
      have hne : tree.entryAt? found.place ≠ some .directory := by
        rw [hlink]
        exact nofun
      use hrefusal
      by_cases hend : path.endsInSlash
      · rw [Path.lookupSegments_eq, if_pos hend] at hlookup
        obtain ⟨between, -, hfollow⟩ :=
          exists_of_follow_append (Or.inl (List.cons_ne_nil _ _)) hlookup
        obtain ⟨-, hdirectory | ⟨hhere, -⟩⟩ := cases_of_follow_singleton hfollow
        · exact absurd hdirectory hne
        · exact absurd rfl hhere
      use hend
      obtain ⟨front, last, hsegments, hlast⟩ :=
        Path.exists_segments_eq_concat (Path.ne_nil_of_refusal hrefusal) hend
      have hsteps := Path.steps_eq_concat hsegments hlast
      rw [Path.lookupSegments_eq, if_neg hend, List.append_nil, hsteps] at hlookup
      obtain ⟨between, habove, hfollow⟩ :=
        exists_of_follow_append (Or.inl (List.cons_ne_nil _ _)) hlookup
      obtain ⟨hplace, hdirectory | ⟨hhere, hup, hlength, hfound⟩⟩ :=
        cases_of_follow_singleton hfollow
      · exact absurd hdirectory hne
      have hidle : ¬ Path.isIdle last := by
        simp [Path.isIdle, hlast, hhere]
      use front, between, last, target, hsegments, hidle
      constructor
      · exact
        { steps := by rw [hsteps, List.dropLast_concat]
          follow := by rwa [hsteps, List.dropLast_concat]
          directory := hplace
          ne_here := hhere
          ne_up := hup
          length_le := hlength }
      · rw [← hfound]
        exact hlink

/-- A directory is not made where a link is. -/
theorem IsDangling.createDirectory_eq (h : tree.IsDangling path) :
  tree.createDirectory path = .error .alreadyExists
  := by
  obtain ⟨hrefusal, -, -, reached, name, target, -, -, hnames, hlink⟩ :=
    exists_names_of_namesLink h.1
  have hsome : (tree.at? (reached.place ++ [name])).isSome = true := by
    rw [← Option.isSome_map (f := entry), ← entryAt?, hlink]
    rfl
  rw [hnames.createDirectory_eq hrefusal, if_pos hsome]

end Node

end JavadocCoverage
