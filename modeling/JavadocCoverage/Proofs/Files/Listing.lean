import JavadocCoverage.Proofs.Files.Discovery
import JavadocCoverage.Proofs.Files.Obstruction

/-!
# What listed paths lead to

A path that a walk lists names a file or a link, and the way to that entry from the directory
of the root goes by directories only (`Node.namesLink_or_goesTo`).  So a path that
names a file leads to that file, and a listed path leads to a directory only when it names a
link (`Node.namesLink_of_leadsToDirectory`).

What keeps a listed path from being read is that it is not admissible, or that the link it
names leads nowhere or to a directory (`Node.isUnreadable_of_read_eq_error`).
-/

namespace JavadocCoverage

/-! ### Paths -/

namespace Path

/-- The system takes the path: it is not empty and has no zero octet, and neither the path
nor a segment of it is too long. -/
structure IsAdmissible (path : Path) : Prop where
  ne_nil : path ≠ []
  zero_notMem : 0 ∉ path
  length_lt : path.length < pathLimit
  segment_length_le : ∀ segment ∈ path.lookupSegments, segment.length ≤ nameLimit

theorem refusal?_eq_none_iff {path : Path} :
  path.refusal? = none ↔ path ≠ [] ∧ 0 ∉ path ∧ path.length < pathLimit
  := by
  rw [refusal?]
  split
  · next hzero => simp [List.elem_iff.mp hzero]
  · split
    · next hempty => simp [List.isEmpty_iff.mp hempty]
    · split
      · next hlength => simp [Nat.not_lt.mpr hlength]
      · next hzero hempty hlength => simp_all

theorem isAdmissible_iff {path : Path} :
  path.IsAdmissible
    ↔ path.refusal? = none ∧ ∀ segment ∈ path.lookupSegments, segment.length ≤ nameLimit
  := by
  rw [refusal?_eq_none_iff]
  constructor
  · rintro ⟨hne, hzero, hlength, hsegments⟩
    exact ⟨⟨hne, hzero, hlength⟩, hsegments⟩
  · rintro ⟨⟨hne, hzero, hlength⟩, hsegments⟩
    exact ⟨hne, hzero, hlength, hsegments⟩

instance : DecidablePred IsAdmissible :=
  fun _ => decidable_of_iff _ isAdmissible_iff.symm

theorem steps_below (root : Path) {place : List Name} (h : ∀ name ∈ place, IsName name) :
  (root.below place).steps = root.steps ++ place
  := by
  apply filter_segments_below rfl _ root h
  intro name hname
  simp [hname.ne_nil]

theorem not_endsInSlash_join (path : Path) {name : Name} (h : IsName name) :
  ¬ (path.join name).endsInSlash
  := by
  have hlast : (path.join name).getLast? = name.getLast? := by
    rw [join]
    split
    · apply List.getLast?_append_of_ne_nil _ h.ne_nil
    · rw [List.append_cons]
      apply List.getLast?_append_of_ne_nil _ h.ne_nil
  intro hslash
  apply h.slash_notMem
  rw [endsInSlash, hlast] at hslash
  apply List.mem_of_getLast? (eq_of_beq hslash)

/-- The look-up of a path below another goes through the steps of the other first. -/
theorem lookupSegments_below
    (root : Path) {place : List Name} (h : ∀ name ∈ place, IsName name) (hne : place ≠ []) :
  (root.below place).lookupSegments = root.steps ++ place
  := by
  have hend : ¬ (root.below place).endsInSlash := by
    obtain ⟨above, name, rfl⟩ := (List.eq_nil_or_concat place).resolve_left hne
    rw [List.concat_eq_append, below_concat]
    apply not_endsInSlash_join _ (h name (by simp))
  rw [lookupSegments_eq, steps_below root h, if_neg hend, List.append_nil]

end Path

namespace Node

variable {tree : Node}

/-! ### Places -/

/-- A look-up comes to a place below another name by name.  Only the last name can be that of
a link. -/
theorem follow_place
    {followLast : Bool} {links : Nat} {start place : List Name} {e : Entry}
    (hentry : tree.entryAt? (start ++ place) = some e)
    (hlink : followLast = false ∨ ∀ target, e ≠ .link target)
    (hnames : ∀ name ∈ place, Path.IsName name)
    (hlength : ∀ name ∈ place, name.length ≤ nameLimit) :
  tree.follow followLast links start place = .ok ⟨start ++ place, links⟩
  := by
  induction place generalizing start with
  | nil => rw [follow_nil, List.append_nil]
  | cons name place ih =>
    obtain ⟨hname, hnames⟩ := List.forall_mem_cons.mp hnames
    obtain ⟨hshort, hlength⟩ := List.forall_mem_cons.mp hlength
    have hstart := directory_of_entryAt?_append (List.cons_ne_nil name place) hentry
    rw [List.append_cons] at hentry ⊢
    by_cases hplace : place = []
    · subst hplace
      rw [List.append_nil] at hentry ⊢
      by_cases hlink' : ∀ target, e ≠ .link target
      · rw [follow_entry hstart hname.ne_here hname.ne_up (Nat.not_lt.mpr hshort) hentry hlink',
          follow_nil]
      · obtain rfl := hlink.resolve_right hlink'
        obtain ⟨target, rfl⟩ := Classical.not_forall_not.mp hlink'
        rw [follow_link hstart hname.ne_here hname.ne_up (Nat.not_lt.mpr hshort) hentry]
        exact if_pos rfl
    · have hbelow := directory_of_entryAt?_append hplace hentry
      rw [follow_entry hstart hname.ne_here hname.ne_up (Nat.not_lt.mpr hshort) hbelow nofun]
      exact ih hentry hnames hlength

/-- A look-up that comes somewhere has gone through no segment that is too long. -/
theorem length_le_of_follow
    {followLast : Bool} {links : Nat} {place segments : List Name} {reached : Reached}
    (h : tree.follow followLast links place segments = .ok reached) :
  ∀ segment ∈ segments, segment.length ≤ nameLimit
  := by
  induction links, place, segments using follow_induction tree with
  | nil links place => exact nofun
  | notDirectory links place segment segments hplace =>
    rw [follow_cons_of_ne hplace] at h
    cases h
  | here links place segments hplace ih =>
    rw [follow_here hplace] at h
    exact List.forall_mem_cons.mpr ⟨by decide, ih h⟩
  | up links place segments hplace ih =>
    rw [follow_up hplace] at h
    exact List.forall_mem_cons.mpr ⟨by decide, ih h⟩
  | tooLong links place segment segments hplace hhere hup hlength =>
    rw [follow_tooLong hplace hhere hup hlength] at h
    cases h
  | missing links place segment segments hplace hhere hup hlength hentry =>
    rw [follow_missing hplace hhere hup hlength hentry] at h
    cases h
  | entry links place segment segments e hplace hhere hup hlength hentry hlink ih =>
    rw [follow_entry hplace hhere hup hlength hentry hlink] at h
    exact List.forall_mem_cons.mpr ⟨Nat.not_lt.mp hlength, ih h⟩
  | link links place segment segments target hplace hhere hup hlength hentry ih =>
    refine List.forall_mem_cons.mpr ⟨Nat.not_lt.mp hlength, ?_⟩
    by_cases hsegments : segments = []
    · rw [hsegments]
      exact nofun
    · rw [follow_link hplace hhere hup hlength hentry, if_neg (by simp [hsegments])] at h
      split at h
      · cases h
      · cases links with
        | zero => cases h
        | succ links =>
          have htarget := ih links rfl _ _ h
          exact (List.forall_mem_append.mp htarget).2

/-- A look-up that follows all links comes to a file or to a directory. -/
theorem exists_entryAt?_of_follow
    {links : Nat} {place segments : List Name} {e : Entry} (hplace : tree.entryAt? place = some e)
    (hlink : ∀ target, e ≠ .link target) {reached : Reached}
    (h : tree.follow true links place segments = .ok reached) :
  ∃ e', tree.entryAt? reached.place = some e' ∧ ∀ target, e' ≠ .link target
  := by
  induction links, place, segments using follow_induction tree generalizing e with
  | nil links place =>
    rw [follow_nil] at h
    cases h
    exact ⟨e, hplace, hlink⟩
  | notDirectory links place segment segments hdirectory =>
    rw [follow_cons_of_ne hdirectory] at h
    cases h
  | here links place segments hdirectory ih =>
    rw [follow_here hdirectory] at h
    exact ih hplace hlink h
  | up links place segments hdirectory ih =>
    rw [follow_up hdirectory] at h
    exact ih (entryAt?_dropLast hdirectory) nofun h
  | tooLong links place segment segments hdirectory hhere hup hlength =>
    rw [follow_tooLong hdirectory hhere hup hlength] at h
    cases h
  | missing links place segment segments hdirectory hhere hup hlength hentry =>
    rw [follow_missing hdirectory hhere hup hlength hentry] at h
    cases h
  | entry links place segment segments e' hdirectory hhere hup hlength hentry hlink' ih =>
    rw [follow_entry hdirectory hhere hup hlength hentry hlink'] at h
    exact ih hentry hlink' h
  | link links place segment segments target hdirectory hhere hup hlength hentry ih =>
    rw [follow_link hdirectory hhere hup hlength hentry, if_neg (by simp)] at h
    -- A link leads on from the directory that it is in, or from the top directory.
    have hstart : tree.entryAt? (if target.isAbsolute then [] else place) = some .directory := by
      have htop : tree.entryAt? ([] ++ (place ++ [segment])) = some (.link target) := hentry
      split
      · exact directory_of_entryAt?_append (by simp) htop
      · exact hdirectory
    split at h
    · cases h
    · cases links with
      | zero => cases h
      | succ links => exact ih links rfl _ _ hstart nofun h

/-! ### Ways to an entry -/

variable {path : Path}

theorem isAdmissible_of_resolve {place : List Name} (h : tree.resolve path = .ok place) :
  path.IsAdmissible
  := by
  obtain ⟨hrefusal, -⟩ := exists_follow_steps h
  rw [resolve_eq hrefusal] at h
  cases hfollow : tree.follow true linkLimit [] path.lookupSegments with
  | error cause =>
    rw [hfollow] at h
    cases h
  | ok reached => exact Path.isAdmissible_iff.mpr ⟨hrefusal, length_le_of_follow hfollow⟩

/-- The path goes through some segments to a directory, and from there name by name to an
entry that is not a directory. -/
structure GoesTo (tree : Node) (path : Path) (found : Reached) (place : List Name) (e : Entry) :
    Prop where
  follow : ∃ above, path.lookupSegments = above ++ place
    ∧ tree.follow true linkLimit [] above = .ok found
  ne_nil : place ≠ []
  names : ∀ name ∈ place, Path.IsName name
  entry : tree.entryAt? (found.place ++ place) = some e
  ne_directory : e ≠ .directory

namespace GoesTo

variable {found : Reached} {place : List Name} {e : Entry} (h : tree.GoesTo path found place e)
  (hadmissible : path.IsAdmissible)
include h

include hadmissible in
theorem follow_lookupSegments
    {followLast : Bool} (hlink : followLast = false ∨ ∀ target, e ≠ .link target) :
  tree.follow followLast linkLimit [] path.lookupSegments
    = .ok ⟨found.place ++ place, found.links⟩
  := by
  obtain ⟨above, hsegments, hfollow⟩ := h.follow
  have hlength : ∀ name ∈ place, name.length ≤ nameLimit := by
    intro name hmem
    apply hadmissible.segment_length_le
    rw [hsegments]
    exact List.mem_append_right _ hmem
  rw [hsegments, follow_append _ _ (Or.inl h.ne_nil), hfollow]
  exact follow_place h.entry hlink h.names hlength

include hadmissible in
/-- The path leads to the entry, unless that is a link. -/
theorem resolve_eq_ok (hlink : ∀ target, e ≠ .link target) :
  tree.resolve path = .ok (found.place ++ place)
  := by
  rw [resolve_eq (Path.isAdmissible_iff.mp hadmissible).1,
    h.follow_lookupSegments hadmissible (Or.inr hlink)]
  rfl

include hadmissible in
/-- The path names a link when the entry is one. -/
theorem namesLink {target : Path} (hlink : e = .link target) :
  tree.namesLink path = true
  := by
  apply namesLink_iff.mpr
  use found.place ++ place
  constructor
  · rw [locate, (Path.isAdmissible_iff.mp hadmissible).1,
      h.follow_lookupSegments hadmissible (Or.inl rfl)]
    rfl
  · use target
    rw [h.entry, hlink]

/-- Where the path leads there is a file or a directory. -/
theorem exists_entryAt?_of_resolve {place' : List Name} (hresolve : tree.resolve path = .ok place') :
  ∃ e', tree.entryAt? place' = some e' ∧ ∀ target, e' ≠ .link target
  := by
  obtain ⟨hrefusal, -⟩ := exists_follow_steps hresolve
  obtain ⟨above, hsegments, hfollow⟩ := h.follow
  rw [resolve_eq hrefusal, hsegments, follow_append _ _ (Or.inl h.ne_nil), hfollow, Except.bind]
    at hresolve
  cases hplace : tree.follow true found.links found.place place with
  | error cause =>
    rw [hplace] at hresolve
    cases hresolve
  | ok reached =>
    rw [hplace] at hresolve
    cases hresolve
    exact exists_entryAt?_of_follow (directory_of_entryAt?_append h.ne_nil h.entry) nofun hplace

end GoesTo

/-! ### Listed paths -/

/-- Why a path cannot be read: the system does not take it, it names a link that leads
nowhere, or it names a link that leads to a directory. -/
inductive IsUnreadable (tree : Node) (path : Path) : Prop
  | inadmissible (h : ¬ path.IsAdmissible)
  | dangling (h : tree.IsDangling path)
  | directory (hlink : tree.namesLink path = true) (h : tree.leadsToDirectory path = true)

theorem IsUnreadable.exists_read_eq_error (h : tree.IsUnreadable path) :
  ∃ cause, tree.read path = .error cause
  := by
  rw [read]
  cases h with
  | inadmissible h =>
    cases hresolve : tree.resolve path with
    | error cause => exact ⟨cause, rfl⟩
    | ok place => exact absurd (isAdmissible_of_resolve hresolve) h
  | dangling h =>
    obtain ⟨-, cause, hresolve⟩ := h
    rw [hresolve]
    exact ⟨cause, rfl⟩
  | directory hlink h =>
    obtain ⟨place, hresolve, hentry⟩ := leadsToDirectory_iff.mp h
    obtain ⟨entries, hat⟩ := entryAt?_eq_directory.mp hentry
    simp only [hresolve, hat]
    exact ⟨.isADirectory, rfl⟩

/-- Only a root that leads to a directory and is not the standard input has sources. -/
theorem exists_node?_of_mem_findSources {root : Path} (h : path ∈ tree.findSources root) :
  isStandardInput root = false
    ∧ ∃ node, tree.node? root = some node ∧ node.isDirectory = true
  := by
  rw [findSources, walk] at h
  split at h
  · next entries hnode =>
    constructor
    · by_contra hinput
      rw [walkFrom, if_pos (eq_true_of_ne_false hinput)] at h
      cases h
    · exact ⟨directory entries, hnode, rfl⟩
  · cases h

variable (htree : tree.WellFormed) {root : Path} (hmem : path ∈ tree.findSources root)
include htree hmem

/-- A listed path is that of the root, which is a link then, or goes to a file or a link that
the directory of the root holds. -/
theorem namesLink_or_goesTo :
  (tree.namesLink path = true ∧ tree.leadsToDirectory path = true)
    ∨ ∃ found place e, tree.GoesTo path found place e
  := by
  obtain ⟨hinput, node, hnode, hdirectory⟩ := exists_node?_of_mem_findSources hmem
  rw [findSources_eq hnode hdirectory hinput] at hmem
  rcases List.mem_append.mp hmem with hroot | hbelow
  · left
    obtain ⟨hlink, hpath⟩ := List.mem_ite_nil_right.mp hroot
    obtain rfl := List.mem_singleton.mp hpath
    rw [leadsToDirectory, hnode]
    exact ⟨(Bool.and_eq_true_iff.mp hlink).1, hdirectory⟩
  · right
    rw [node?] at hnode
    split at hnode
    · next start hresolve =>
      have hwell := (htree.of_at? hnode).1
      obtain ⟨place, hplace, rfl⟩ := (mem_sources hwell).mp hbelow
      obtain ⟨-, links, hfollow⟩ := exists_follow_steps hresolve
      have hnames := isName_of_isSourceAt hwell hplace
      obtain ⟨⟨entry, hentry, hfile⟩, -⟩ := hplace
      have hne : place ≠ [] := by
        rintro rfl
        cases hentry
        cases hdirectory.symm.trans hfile
      use ⟨start, links⟩, place, entry.entry
      constructor
      · use root.steps
        exact ⟨Path.lookupSegments_below root hnames hne, hfollow⟩
      · exact hne
      · exact hnames
      · rw [entryAt?, at?_append, hnode, Option.bind_some, hentry]
        rfl
      · intro heq
        obtain ⟨entries, rfl⟩ := entry_eq_directory.mp heq
        cases hfile
    · cases hnode

/-- A listed path leads to a directory only by a link. -/
theorem namesLink_of_leadsToDirectory (h : tree.leadsToDirectory path = true) :
  tree.namesLink path = true
  := by
  obtain ⟨hlink, -⟩ | ⟨found, place, e, hgoes⟩ := namesLink_or_goesTo htree hmem
  · exact hlink
  · obtain ⟨place', hresolve, hentry⟩ := leadsToDirectory_iff.mp h
    have hadmissible := isAdmissible_of_resolve hresolve
    cases e with
    | file content =>
      cases hresolve.symm.trans (hgoes.resolve_eq_ok hadmissible nofun)
      cases hentry.symm.trans hgoes.entry
    | link target => exact hgoes.namesLink hadmissible rfl
    | directory => exact absurd rfl hgoes.ne_directory

/-- A listed path that is not read is unreadable. -/
theorem isUnreadable_of_read_eq_error {cause : Cause} (h : tree.read path = .error cause) :
  tree.IsUnreadable path
  := by
  have hread : ∀ place content, tree.resolve path = .ok place →
      tree.entryAt? place ≠ some (.file content) := by
    intro place content hresolve hentry
    cases h.symm.trans (read_eq_ok hresolve hentry)
  obtain ⟨hlink, hleads⟩ | ⟨found, place, e, hgoes⟩ := namesLink_or_goesTo htree hmem
  · exact .directory hlink hleads
  · by_cases hadmissible : path.IsAdmissible
    · cases e with
      | file content =>
        exact absurd hgoes.entry (hread _ content (hgoes.resolve_eq_ok hadmissible nofun))
      | directory => exact absurd rfl hgoes.ne_directory
      | link target =>
        have hlink := hgoes.namesLink hadmissible rfl
        cases hresolve : tree.resolve path with
        | error cause => exact .dangling ⟨hlink, cause, hresolve⟩
        | ok place' =>
          obtain ⟨e', hentry, hlink'⟩ := hgoes.exists_entryAt?_of_resolve hresolve
          cases e' with
          | file content => exact absurd hentry (hread place' content hresolve)
          | link target' => exact absurd rfl (hlink' target')
          | directory =>
            exact .directory hlink (leadsToDirectory_iff.mpr ⟨place', hresolve, hentry⟩)
    · exact .inadmissible hadmissible

end Node

end JavadocCoverage
