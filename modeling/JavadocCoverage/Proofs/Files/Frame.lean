import Mathlib.Data.List.Infix
import JavadocCoverage.Proofs.Files.Entry

/-!
# What a delivery keeps

A delivery makes the directories that the path of the report needs and writes one file.  What
was in the tree stays, apart from a file that is written over; what is new, apart from the
written file, are directories for lexical prefixes of the path that led nowhere before
(`Node.Frame`).

One directory is added by `createDirectory` (`Node.Frame.createDirectory`), and from it follows
what a whole descent adds (`Node.frame_createDirectoriesAt`).  The directories are first asked for
from the longest prefix to the shortest, and the tree is changed only on the way back: that
is why each prefix that gets a directory was missing in the tree as it was at the start.
-/

namespace JavadocCoverage

/-- The segments that a look-up goes through, a slash at the end not considered. -/
def Path.steps (path : Path) : List Name :=
  path.segments.filter (!·.isEmpty)

theorem Path.lookupSegments_eq (path : Path) :
  path.lookupSegments = path.steps ++ if path.endsInSlash then [here] else []
  := rfl

namespace Node

/-! ### Frames -/

/-- The second tree has all that the first has, except at the written place; what it has
besides are directories, each for a prefix of the segments that led nowhere in the first. -/
structure Frame (tree tree' : Node) (segments : List Name) (written : Option (List Name)) :
    Prop where
  kept : ∀ place e, some place ≠ written → tree.entryAt? place = some e →
    tree'.entryAt? place = some e
  added : ∀ place e, some place ≠ written → tree.entryAt? place = none →
    tree'.entryAt? place = some e →
    e = .directory ∧ ∃ above, above <+: segments
      ∧ tree.resolve (Path.ofSegments above) = .error .notFound
      ∧ tree'.resolve (Path.ofSegments above) = .ok place

variable {tree tree' : Node}

theorem Frame.refl (tree : Node) (segments : List Name) (written : Option (List Name)) :
  tree.Frame tree segments written
  where
  kept := by
    intro place e _ he
    exact he
  added := by
    intro place e _ hnone he
    rw [hnone] at he
    cases he

theorem Frame.mono
    {segments segments' : List Name} (h : tree.Frame tree' segments none)
    (hsegments : segments <+: segments') :
  tree.Frame tree' segments' none
  where
  kept := h.kept
  added := by
    intro place e hplace hnone he
    obtain ⟨hdirectory, above, habove, hmissing, hfound⟩ := h.added place e hplace hnone he
    exact ⟨hdirectory, above, habove.trans hsegments, hmissing, hfound⟩

/-! ### Paths that name an entry -/

theorem resolve_eq {path : Path} (hrefusal : path.refusal? = none) :
  tree.resolve path = (tree.follow true linkLimit [] path.lookupSegments).map (·.place)
  := by
  rw [resolve, hrefusal]

theorem any_isDirectory_iff {place : List Name} :
  (tree.at? place).any isDirectory = true ↔ tree.entryAt? place = some .directory
  := by
  rw [entryAt?]
  cases tree.at? place with
  | none => simp
  | some node =>
    cases node with
    | file | link => simp [isDirectory, entry]
    | directory => simp [isDirectory, entry]

theorem followParent_eq_ok
    {links : Nat} {place names : List Name} {reached : Reached} :
  tree.followParent links place names = .ok reached
    ↔ tree.follow true links place names.dropLast = .ok reached
      ∧ tree.entryAt? reached.place = some .directory
  := by
  rw [followParent]
  cases hfollow : tree.follow true links place names.dropLast with
  | error cause => simp
  | ok reached' =>
    simp only [any_isDirectory_iff]
    constructor
    · intro h
      split at h
      · next hdirectory =>
        cases h
        exact ⟨rfl, hdirectory⟩
      · cases h
    · rintro ⟨heq, hdirectory⟩
      cases heq
      exact if_pos hdirectory

/-- The path, read from a place, names an entry of the directory that has been reached when
only its last segment is left. -/
structure Names (tree : Node) (links : Nat) (place : List Name) (path : Path)
    (reached : Reached) (name : Name) : Prop where
  steps : path.steps = path.steps.dropLast ++ [name]
  follow : tree.follow true links place path.steps.dropLast = .ok reached
  directory : tree.entryAt? reached.place = some .directory
  ne_here : name ≠ Path.here
  ne_up : name ≠ Path.up
  length_le : ¬ name.length > nameLimit

namespace Names

variable {links : Nat} {start : List Name} {path : Path} {reached : Reached} {name : Name}

theorem keeps (h : tree.Names links start path reached name) (hkeeps : tree.Keeps tree') :
  tree'.Names links start path reached name
  where
  steps := h.steps
  follow := hkeeps.follow_eq h.follow
  directory := hkeeps.directory h.directory
  ne_here := h.ne_here
  ne_up := h.ne_up
  length_le := h.length_le

/-- The look-up of the path is that of the entry in its directory. -/
theorem follow_lookupSegments (h : tree.Names links start path reached name) :
  tree.follow true links start path.lookupSegments
    = tree.follow true reached.links reached.place
        (name :: if path.endsInSlash then [Path.here] else [])
  := by
  rw [Path.lookupSegments_eq, h.steps, List.append_assoc,
    follow_append _ _ (Or.inr rfl), h.follow, Except.bind]
  rfl

theorem resolve_missing
    (h : tree.Names linkLimit [] path reached name) (hrefusal : path.refusal? = none)
    (hentry : tree.entryAt? (reached.place ++ [name]) = none) :
  tree.resolve path = .error .notFound
  := by
  rw [resolve_eq hrefusal, h.follow_lookupSegments,
    follow_missing h.directory h.ne_here h.ne_up h.length_le hentry]
  rfl

theorem resolve_directory
    (h : tree.Names linkLimit [] path reached name) (hrefusal : path.refusal? = none)
    (hentry : tree.entryAt? (reached.place ++ [name]) = some .directory) :
  tree.resolve path = .ok (reached.place ++ [name])
  := by
  rw [resolve_eq hrefusal, h.follow_lookupSegments,
    follow_entry h.directory h.ne_here h.ne_up h.length_le hentry nofun]
  split
  · rw [follow_here hentry, follow_nil]
    rfl
  · rw [follow_nil]
    rfl

end Names

theorem Keeps.resolve_eq_ok
    (h : tree.Keeps tree') {path : Path} {place : List Name}
    (hresolve : tree.resolve path = .ok place) :
  tree'.resolve path = .ok place
  := by
  cases hrefusal : path.refusal? with
  | some cause =>
    rw [resolve, hrefusal] at hresolve
    cases hresolve
  | none =>
    rw [resolve_eq hrefusal] at hresolve ⊢
    cases hfollow : tree.follow true linkLimit [] path.lookupSegments with
    | error cause =>
      rw [hfollow] at hresolve
      cases hresolve
    | ok reached =>
      rw [hfollow] at hresolve
      rw [h.follow_eq hfollow]
      exact hresolve

/-- When the way to the last segment fails, so does the look-up. -/
theorem resolve_of_followParent_error
    {path : Path} (hrefusal : path.refusal? = none) {cause : Cause}
    (hparent : tree.followParent linkLimit [] path.steps = .error cause) :
  cause = .notADirectory ∨ tree.resolve path = .error cause
  := by
  rw [followParent] at hparent
  split at hparent
  · next cause' hfollow =>
    cases hparent
    right
    have hlookup : ∃ last, path.lookupSegments = path.steps.dropLast ++ last := by
      obtain ⟨last, hlast⟩ := path.steps.dropLast_prefix
      rw [Path.lookupSegments_eq]
      nth_rewrite 1 [← hlast]
      rw [List.append_assoc]
      exact ⟨_, rfl⟩
    obtain ⟨last, hlast⟩ := hlookup
    rw [resolve_eq hrefusal, hlast, follow_append _ _ (Or.inr rfl), hfollow]
    rfl
  · split at hparent
    · cases hparent
    · cases hparent
      exact Or.inl rfl

/-! ### One directory -/

/-- Under a path that names an entry, a directory is made unless something is there. -/
theorem Names.createDirectory_eq
    {path : Path} {reached : Reached} {name : Name}
    (h : tree.Names linkLimit [] path reached name) (hrefusal : path.refusal? = none) :
  tree.createDirectory path
    = if (tree.at? (reached.place ++ [name])).isSome then .error .alreadyExists
      else .ok (tree.put (reached.place ++ [name]) (.directory []))
  := by
  have hparent : tree.followParent linkLimit [] path.steps = .ok reached :=
    followParent_eq_ok.mpr ⟨h.follow, h.directory⟩
  have hlast : path.steps.getLast? = some name := by
    rw [h.steps, List.getLast?_concat]
  have hname : ¬ (name = Path.here ∨ name = Path.up) := not_or.mpr ⟨h.ne_here, h.ne_up⟩
  simp only [createDirectory, hrefusal, ← Path.steps.eq_1, hparent, hlast, if_neg hname,
    if_neg h.length_le]

/-- All that the making of a directory can come to: it is made at a free name of an existing
directory, or the path leads nowhere for the same cause, or it fails for a cause other than
that nothing was found. -/
theorem createDirectory_cases (tree : Node) (path : Path) :
  (∃ reached name, path.refusal? = none ∧ tree.Names linkLimit [] path reached name
      ∧ tree.entryAt? (reached.place ++ [name]) = none
      ∧ tree.createDirectory path = .ok (tree.put (reached.place ++ [name]) (.directory [])))
    ∨ (∃ cause, tree.createDirectory path = .error cause ∧ tree.resolve path = .error cause)
    ∨ ∃ cause, tree.createDirectory path = .error cause ∧ cause ≠ .notFound
  := by
  cases hrefusal : path.refusal? with
  | some cause =>
    right; left
    use cause
    rw [createDirectory, resolve, hrefusal]
    exact ⟨rfl, rfl⟩
  | none =>
    cases hparent : tree.followParent linkLimit [] path.steps with
    | error cause =>
      have hcreate : tree.createDirectory path = .error cause := by
        simp only [createDirectory, hrefusal, ← Path.steps.eq_1, hparent]
      obtain rfl | hresolve := resolve_of_followParent_error hrefusal hparent
      · right; right
        exact ⟨_, hcreate, by decide⟩
      · right; left
        exact ⟨_, hcreate, hresolve⟩
    | ok reached =>
      obtain ⟨hfollow, hdirectory⟩ := followParent_eq_ok.mp hparent
      cases hlast : path.steps.getLast? with
      | none =>
        have hcreate : tree.createDirectory path = .error .alreadyExists := by
          simp only [createDirectory, hrefusal, ← Path.steps.eq_1, hparent, hlast]
        right; right
        exact ⟨_, hcreate, by decide⟩
      | some name =>
        by_cases hname : name = Path.here ∨ name = Path.up
        · have hcreate : tree.createDirectory path = .error .alreadyExists := by
            simp only [createDirectory, hrefusal, ← Path.steps.eq_1, hparent, hlast, if_pos hname]
          right; right
          exact ⟨_, hcreate, by decide⟩
        by_cases hlength : name.length > nameLimit
        · have hcreate : tree.createDirectory path = .error .nameTooLong := by
            simp only [createDirectory, hrefusal, ← Path.steps.eq_1, hparent, hlast, if_neg hname,
              if_pos hlength]
          right; right
          exact ⟨_, hcreate, by decide⟩
        rw [not_or] at hname
        have hnames : tree.Names linkLimit [] path reached name :=
          { steps := (List.dropLast_append_getLast? name hlast).symm
            follow := hfollow
            directory := hdirectory
            ne_here := hname.1
            ne_up := hname.2
            length_le := hlength }
        rw [hnames.createDirectory_eq hrefusal]
        by_cases hfree : (tree.at? (reached.place ++ [name])).isSome = true
        · right; right
          exact ⟨_, if_pos hfree, by decide⟩
        · left
          use reached, name, rfl, hnames
          constructor
          · rw [entryAt?, Option.not_isSome_iff_eq_none.mp hfree, Option.map_none]
          · exact if_neg hfree

/-- A directory that is made is made at a free name of an existing directory. -/
theorem exists_of_createDirectory
    {path : Path} (h : tree.createDirectory path = .ok tree') :
  path.refusal? = none ∧ ∃ reached name, tree.Names linkLimit [] path reached name
    ∧ tree.entryAt? (reached.place ++ [name]) = none
    ∧ tree' = tree.put (reached.place ++ [name]) (.directory [])
  := by
  obtain ⟨reached, name, hrefusal, hnames, hfree, hok⟩ | ⟨cause, herror, -⟩ | ⟨cause, herror, -⟩ :=
    tree.createDirectory_cases path
  · rw [hok] at h
    cases h
    exact ⟨hrefusal, reached, name, hnames, hfree, rfl⟩
  · rw [herror] at h
    cases h
  · rw [herror] at h
    cases h

/-- A directory is made, or asked for above its time, only where nothing is found. -/
theorem resolve_of_createDirectory
    {path : Path}
    (h : (∃ tree', tree.createDirectory path = .ok tree')
      ∨ tree.createDirectory path = .error .notFound) :
  tree.resolve path = .error .notFound
  := by
  have hcause : ∀ cause, tree.createDirectory path = .error cause → cause = .notFound := by
    intro cause herror
    obtain ⟨tree', hok⟩ | hnotFound := h
    · rw [hok] at herror
      cases herror
    · rw [hnotFound] at herror
      cases herror
      rfl
  obtain ⟨reached, name, hrefusal, hnames, hfree, -⟩ | ⟨cause, herror, hresolve⟩
      | ⟨cause, herror, hne⟩ := tree.createDirectory_cases path
  · exact hnames.resolve_missing hrefusal hfree
  · rw [hresolve, hcause cause herror]
  · exact absurd (hcause cause herror) hne

/-- A directory is made where the path led nowhere, and nothing else is changed. -/
theorem Frame.createDirectory
    {start : Node} {segments : List Name} (h : start.Frame tree segments none)
    {above : List Name} (habove : above <+: segments)
    (hmissing : start.resolve (Path.ofSegments above) = .error .notFound)
    (hcreate : tree.createDirectory (Path.ofSegments above) = .ok tree') :
  start.Frame tree' segments none
  := by
  obtain ⟨hrefusal, reached, name, hnames, hfree, rfl⟩ := exists_of_createDirectory hcreate
  have hput := entryAt?_put hnames.directory (by rw [hfree]; exact nofun) isLeaf_empty
  have hkeeps := Keeps.of_entryAt?_eq hput (by rw [hfree]; exact nofun)
  constructor
  · intro place e hplace he
    have he' := h.kept place e hplace he
    rw [hput, if_neg, he']
    rintro rfl
    rw [hfree] at he'
    cases he'
  · intro place e hplace hnone he
    rw [hput] at he
    split at he
    · next heq =>
      cases he
      subst heq
      use rfl, above, habove, hmissing
      apply (hnames.keeps hkeeps).resolve_directory hrefusal
      rw [hput, if_pos rfl]
      rfl
    · obtain ⟨hdirectory, above', habove', hmissing', hfound⟩ := h.added place e hplace hnone he
      exact ⟨hdirectory, above', habove', hmissing', hkeeps.resolve_eq_ok hfound⟩

/-! ### The directories above a path -/

/-- All that a descent can come to at a segment that is not idle, with what is above it: the
directory is made; it is missing for want of those above, which are asked for first; or it is
taken for what is there already. -/
inductive Descends (tree : Node) (segment : Name) (above : List Name) :
    Node × Option Cause → Prop
  | made {tree' : Node}
      (h : tree.createDirectory (Path.ofSegments (segment :: above).reverse) = .ok tree') :
    Descends tree segment above (tree', none)
  | stopped {tree₁ : Node} {cause : Cause}
      (hmissing : tree.createDirectory (Path.ofSegments (segment :: above).reverse)
        = .error .notFound)
      (h : tree.createDirectoriesAt above = (tree₁, some cause)) :
    Descends tree segment above (tree₁, some cause)
  | madeAfter {tree₁ tree₂ : Node}
      (hmissing : tree.createDirectory (Path.ofSegments (segment :: above).reverse)
        = .error .notFound)
      (h : tree.createDirectoriesAt above = (tree₁, none))
      (h' : tree₁.createDirectory (Path.ofSegments (segment :: above).reverse) = .ok tree₂) :
    Descends tree segment above (tree₂, none)
  | settledAfter {tree₁ : Node} {failure : Option Cause}
      (hmissing : tree.createDirectory (Path.ofSegments (segment :: above).reverse)
        = .error .notFound)
      (h : tree.createDirectoriesAt above = (tree₁, none)) :
    Descends tree segment above (tree₁, failure)
  | settled {cause : Cause}
      (h : tree.createDirectory (Path.ofSegments (segment :: above).reverse) = .error cause) :
    Descends tree segment above
      (tree, if tree.leadsToDirectory (Path.ofSegments (segment :: above).reverse) then none
        else some cause)

theorem descends_createDirectoriesAt
    (tree : Node) {segment : Name} (hidle : ¬ Path.isIdle segment) (above : List Name) :
  tree.Descends segment above (tree.createDirectoriesAt (segment :: above))
  := by
  cases hcreate : tree.createDirectory (Path.ofSegments (segment :: above).reverse) with
  | ok tree' =>
    simp only [createDirectoriesAt, if_neg hidle, hcreate]
    exact .made hcreate
  | error cause =>
    by_cases hcause : cause = .notFound
    · subst hcause
      cases hdescent : tree.createDirectoriesAt above with
      | mk tree₁ failure =>
        cases failure with
        | some cause =>
          simp only [createDirectoriesAt, if_neg hidle, hcreate, hdescent]
          exact .stopped hcreate hdescent
        | none =>
          cases hcreate' : tree₁.createDirectory (Path.ofSegments (segment :: above).reverse) with
          | ok tree₂ =>
            simp only [createDirectoriesAt, if_neg hidle, hcreate, hdescent, hcreate']
            exact .madeAfter hcreate hdescent hcreate'
          | error cause =>
            simp only [createDirectoriesAt, if_neg hidle, hcreate, hdescent, hcreate']
            exact .settledAfter hcreate hdescent
    · simp only [createDirectoriesAt, if_neg hidle, hcreate]
      exact .settled hcreate

/-- What a descent adds are directories for prefixes that led nowhere. -/
theorem frame_createDirectoriesAt (tree : Node) (segments : List Name) :
  tree.Frame (tree.createDirectoriesAt segments).1 segments.reverse none
  := by
  induction segments with
  | nil => exact .refl tree _ none
  | cons segment above ih =>
    have hbelow : above.reverse <+: (segment :: above).reverse := by
      rw [List.reverse_cons]
      exact List.prefix_append _ _
    have hself := List.prefix_refl (segment :: above).reverse
    by_cases hidle : Path.isIdle segment
    · rw [createDirectoriesAt, if_pos hidle]
      exact ih.mono hbelow
    have hdescends := tree.descends_createDirectoriesAt hidle above
    generalize tree.createDirectoriesAt (segment :: above) = result at hdescends ⊢
    cases hdescends with
    | made hcreate =>
      have hmissing := resolve_of_createDirectory (Or.inl ⟨_, hcreate⟩)
      exact (Frame.refl tree _ none).createDirectory hself hmissing hcreate
    | stopped _ habove | settledAfter _ habove =>
      rw [habove] at ih
      exact ih.mono hbelow
    | madeAfter hcreate habove hcreate' =>
      have hmissing := resolve_of_createDirectory (Or.inr hcreate)
      rw [habove] at ih
      exact (ih.mono hbelow).createDirectory hself hmissing hcreate'
    | settled => exact .refl tree _ none

/-- The directories above a path are added. -/
theorem frame_createDirectories (tree : Node) (path : Path) :
  tree.Frame (tree.createDirectories path).1 path.segments none
  := by
  have h := frame_createDirectoriesAt tree path.segments.reverse
  rwa [List.reverse_reverse] at h

end Node

end JavadocCoverage
