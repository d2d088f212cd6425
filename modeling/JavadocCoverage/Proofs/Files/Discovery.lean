import Mathlib.Data.List.Infix
import Mathlib.Tactic.Use
import JavadocCoverage.Files.Walk
import JavadocCoverage.Proofs.Files.Place

/-!
# Discovery of sources

The sources that a walk lists are those that the tree holds (`Node.HoldsSource`), each
once, in the order of their places: names are compared octet by octet and places name by
name (`findSources_exact`).

A walk is followed from directory to directory.  The paths listed under an entry are below
the path of the entry, and the entries are taken in the strict order of their names, so
that the order of the listed paths is that of their names (`pairwise_sources`).
-/

namespace JavadocCoverage

namespace Node

/-! ## Well-formed trees -/

/-- A tree is well-formed when the entries of each directory have different names, and all
of them can name entries. -/
inductive WellFormed : Node → Prop
  | file (content : Bytes) : WellFormed (file content)
  | link (target : Path) : WellFormed (link target)
  | directory {entries : List (Name × Node)}
      (hdistinct : (entries.map Prod.fst).Nodup)
      (hnames : ∀ entry ∈ entries, Path.IsName entry.1)
      (hnodes : ∀ entry ∈ entries, WellFormed entry.2) :
    WellFormed (directory entries)

theorem wellFormed_directory_iff {entries : List (Name × Node)} :
  (directory entries).WellFormed
    ↔ ((entries.map Prod.fst).Nodup ∧ ∀ entry ∈ entries, Path.IsName entry.1)
      ∧ ∀ entry ∈ entries, entry.2.WellFormed
  := by
  constructor
  · rintro (_ | _ | ⟨hdistinct, hnames, hnodes⟩)
    exact ⟨⟨hdistinct, hnames⟩, hnodes⟩
  · rintro ⟨⟨hdistinct, hnames⟩, hnodes⟩
    exact .directory hdistinct hnames hnodes

mutual

/-- Whether a tree is well-formed can be decided. -/
def decideWellFormed : (node : Node) → Decidable node.WellFormed
  | file content => isTrue (.file content)
  | link target => isTrue (.link target)
  | directory entries =>
    haveI := decideEntries entries
    decidable_of_iff _ wellFormed_directory_iff.symm

/-- Whether the trees in the entries are well-formed can be decided. -/
def decideEntries :
    (entries : List (Name × Node)) → Decidable (∀ entry ∈ entries, entry.2.WellFormed)
  | [] => isTrue fun _ h => nomatch h
  | (_, node) :: entries =>
    haveI := decideWellFormed node
    haveI := decideEntries entries
    decidable_of_iff _ List.forall_mem_cons.symm

end

instance : DecidablePred WellFormed :=
  decideWellFormed

/-- Under different names, to look a name up is to find an entry with it. -/
theorem lookup_eq_some_iff_mem
    {entries : List (Name × Node)} (hdistinct : (entries.map Prod.fst).Nodup) {name : Name}
    {node : Node} :
  entries.lookup name = some node ↔ (name, node) ∈ entries
  := by
  constructor
  · intro h
    obtain ⟨before, after, rfl, -⟩ := List.lookup_eq_some_iff.mp h
    simp
  · intro h
    obtain ⟨before, after, rfl⟩ := List.append_of_mem h
    apply List.lookup_eq_some_iff.mpr
    use before, after, rfl
    intro entry hmem
    rw [List.map_append, List.nodup_append] at hdistinct
    apply bne_iff_ne.mpr
    symm
    apply hdistinct.2.2 entry.1 (List.mem_map_of_mem hmem) name
    exact List.mem_cons_self

@[simp]
theorem at?_nil (node : Node) :
  node.at? [] = some node
  := rfl

@[simp]
theorem at?_cons (node : Node) (name : Name) (place : List Name) :
  node.at? (name :: place) = (node.entry? name).bind (·.at? place)
  := rfl

/-- In a well-formed tree, what a place leads to is well-formed, and its names can name
entries. -/
theorem WellFormed.of_at?
    {node : Node} (hnode : node.WellFormed) {place : List Name} {entry : Node}
    (h : node.at? place = some entry) :
  entry.WellFormed ∧ ∀ name ∈ place, Path.IsName name
  := by
  induction place generalizing node with
  | nil =>
    cases h
    use hnode
    simp
  | cons name place ih =>
    obtain ⟨below, hbelow, hplace⟩ := Option.bind_eq_some_iff.mp h
    cases hnode with
    | file | link => cases hbelow
    | directory hdistinct hnames hnodes =>
      have hmem := (lookup_eq_some_iff_mem hdistinct).mp hbelow
      obtain ⟨hentry, hrest⟩ := ih (hnodes _ hmem) hplace
      use hentry
      rintro name' (_ | ⟨_, hname'⟩)
      · exact hnames _ hmem
      · exact hrest name' hname'

/-! ## Walks -/

/-- The sources that a walk lists at a node under a path and below it. -/
def sources (path : Path) (node : Node) : List Path :=
  (node.visits path).filterMap Visit.source?

theorem entryVisits_eq_map (path : Path) (entries : List (Name × Node)) :
  entryVisits path entries
    = entries.map fun entry => (entry.1, entry.2.visits (path.join entry.1))
  := by
  induction entries with
  | nil => rfl
  | cons entry entries ih => rw [entryVisits, ih, List.map_cons]

/-- A file or a link is listed by its own path when that names a source. -/
theorem sources_of_not_isDirectory
    {node : Node} (hnode : node.isDirectory = false) (path : Path) :
  sources path node = if path.isSource then [path] else []
  := by
  cases node with
  | directory entries => cases hnode
  | file | link =>
    rw [sources, visits]
    split
    · rfl
    · rfl

/-- Nothing is listed below a path that is too long to be opened. -/
theorem sources_directory_of_le
    {path : Path} (hpath : pathLimit ≤ path.length) (entries : List (Name × Node)) :
  sources path (directory entries) = []
  := by
  rw [sources, visits, if_pos hpath]
  rfl

/-- Entries with different names are sorted strictly by their names. -/
theorem pairwise_mergeSort_entries
    {entries : List (Name × Node)} (hdistinct : (entries.map Prod.fst).Nodup) :
  (entries.mergeSort (·.1 ≤ ·.1)).Pairwise (·.1 < ·.1)
  := by
  have hsorted : (entries.mergeSort (·.1 ≤ ·.1)).Pairwise (·.1 ≤ ·.1) := by
    apply (List.pairwise_mergeSort _ _ entries).imp
    · exact of_decide_eq_true
    · intro first second third hfirst hsecond
      apply decide_eq_true
      apply List.le_trans (of_decide_eq_true hfirst) (of_decide_eq_true hsecond)
    · intro first second
      rw [← Bool.decide_or]
      exact decide_eq_true (List.le_total first.1 second.1)
  have hne : (entries.mergeSort (·.1 ≤ ·.1)).Pairwise (·.1 ≠ ·.1) := by
    apply List.pairwise_map.mp
    apply ((List.mergeSort_perm entries _).map Prod.fst).nodup_iff.mpr hdistinct
  apply (hsorted.and hne).imp
  rintro first second ⟨hle, hne⟩
  exact (List.le_iff_lt_or_eq.mp hle).resolve_right hne

/-- The entries of a directory are walked in the strict order of their names. -/
theorem exists_sources_directory
    {entries : List (Name × Node)} (hdistinct : (entries.map Prod.fst).Nodup) {path : Path}
    (hpath : path.length < pathLimit) :
  ∃ order : List (Name × Node), order.Perm entries
    ∧ order.Pairwise (fun first second => first.1 < second.1)
    ∧ sources path (directory entries)
      = order.flatMap fun entry => sources (path.join entry.1) entry.2
  := by
  use entries.mergeSort (·.1 ≤ ·.1), List.mergeSort_perm .., pairwise_mergeSort_entries hdistinct
  rw [sources, visits, if_neg (Nat.not_le_of_lt hpath), entryVisits_eq_map,
    ← List.map_mergeSort (r := fun a b => a.1 ≤ b.1), List.filterMap_flatMap, List.flatMap_map]
  · rfl
  · intros
    rfl

/-- The node at a place is not a directory, and a walk from a path lists it there. -/
def IsSourceAt (node : Node) (path : Path) (place : List Name) : Prop :=
  (∃ entry, node.at? place = some entry ∧ entry.isDirectory = false)
    ∧ (path.below place).isSource = true
    ∧ ∀ above, above <+: place → above ≠ place → (path.below above).length < pathLimit

theorem isSourceAt_nil {node : Node} {path : Path} :
  node.IsSourceAt path [] ↔ node.isDirectory = false ∧ path.isSource = true
  := by
  simp [IsSourceAt]

theorem isSourceAt_cons
    {node : Node} {path : Path} {name : Name} {place : List Name} :
  node.IsSourceAt path (name :: place)
    ↔ path.length < pathLimit
      ∧ ∃ below, node.entry? name = some below ∧ below.IsSourceAt (path.join name) place
  := by
  constructor
  · rintro ⟨⟨entry, hentry, hfile⟩, hsource, hshort⟩
    constructor
    · exact hshort [] List.nil_prefix (List.cons_ne_nil _ _).symm
    · obtain ⟨below, hbelow, hplace⟩ := Option.bind_eq_some_iff.mp hentry
      use below, hbelow, ⟨entry, hplace, hfile⟩, hsource
      intro above hprefix hne
      apply hshort (name :: above) ((List.prefix_cons_inj name).mpr hprefix)
      intro heq
      exact hne (List.tail_eq_of_cons_eq heq)
  · rintro ⟨hpath, below, hbelow, ⟨entry, hplace, hfile⟩, hsource, hshort⟩
    refine ⟨⟨entry, ?_, hfile⟩, hsource, ?_⟩
    · rw [at?_cons, hbelow]
      exact hplace
    · rintro (_ | ⟨name', above⟩) hprefix hne
      · exact hpath
      · obtain ⟨rfl, habove⟩ := List.cons_prefix_cons.mp hprefix
        apply hshort above habove
        rintro rfl
        exact hne rfl

theorem isName_of_isSourceAt
    {node : Node} (hnode : node.WellFormed) {path : Path} {place : List Name}
    (h : node.IsSourceAt path place) :
  ∀ name ∈ place, Path.IsName name
  := by
  obtain ⟨⟨entry, hentry, -⟩, -⟩ := h
  exact (hnode.of_at? hentry).2

theorem mem_sources_of_not_isDirectory
    {node : Node} (hnode : node.isDirectory = false) {path source : Path} :
  source ∈ sources path node ↔ ∃ place, node.IsSourceAt path place ∧ path.below place = source
  := by
  have hentry : ∀ name, node.entry? name = none := by
    intro name
    cases node with
    | directory entries => cases hnode
    | file | link => rfl
  rw [sources_of_not_isDirectory hnode]
  constructor
  · intro hmem
    obtain ⟨hpath, hmem⟩ := List.mem_ite_nil_right.mp hmem
    use [], isSourceAt_nil.mpr ⟨hnode, hpath⟩
    exact (List.mem_singleton.mp hmem).symm
  · rintro ⟨_ | ⟨name, place⟩, hplace, rfl⟩
    · rw [if_pos (isSourceAt_nil.mp hplace).2]
      exact List.mem_singleton_self _
    · obtain ⟨-, below, hbelow, -⟩ := isSourceAt_cons.mp hplace
      rw [hentry] at hbelow
      cases hbelow

/-- In a well-formed tree, a walk lists just the sources, by the paths of their places. -/
theorem mem_sources
    {node : Node} (hnode : node.WellFormed) {path source : Path} :
  source ∈ sources path node ↔ ∃ place, node.IsSourceAt path place ∧ path.below place = source
  := by
  induction hnode generalizing path with
  | file | link => apply mem_sources_of_not_isDirectory rfl
  | @directory entries hdistinct hnames hnodes ih =>
    by_cases hpath : path.length < pathLimit
    · -- A place in the directory is the name of an entry with a place in the entry after it.
      obtain ⟨order, hperm, -, hsources⟩ := exists_sources_directory hdistinct hpath
      rw [hsources, List.mem_flatMap]
      constructor
      · rintro ⟨⟨name, below⟩, hmem, hsource⟩
        have hentry := hperm.mem_iff.mp hmem
        obtain ⟨place, hplace, rfl⟩ := (ih _ hentry).mp hsource
        use name :: place
        constructor
        · apply isSourceAt_cons.mpr
          exact ⟨hpath, below, (lookup_eq_some_iff_mem hdistinct).mpr hentry, hplace⟩
        · rfl
      · rintro ⟨_ | ⟨name, place⟩, hplace, rfl⟩
        · cases (isSourceAt_nil.mp hplace).1
        · obtain ⟨-, below, hbelow, hrest⟩ := isSourceAt_cons.mp hplace
          have hentry := (lookup_eq_some_iff_mem hdistinct).mp hbelow
          use (name, below), hperm.mem_iff.mpr hentry
          exact (ih _ hentry).mpr ⟨place, hrest, rfl⟩
    · rw [sources_directory_of_le (Nat.le_of_not_lt hpath)]
      constructor
      · intro hmem
        cases hmem
      · rintro ⟨_ | ⟨name, place⟩, hplace, rfl⟩
        · cases (isSourceAt_nil.mp hplace).1
        · exact absurd (isSourceAt_cons.mp hplace).1 hpath

/-- The names of a path that is listed are those of the path of the walk and more. -/
theorem exists_names_of_mem_sources
    {node : Node} (hnode : node.WellFormed) {path source : Path}
    (h : source ∈ sources path node) :
  ∃ place, source.names = path.names ++ place
  := by
  obtain ⟨place, hplace, rfl⟩ := (mem_sources hnode).mp h
  use place
  apply Path.names_below _ (isName_of_isSourceAt hnode hplace)

/-- In a well-formed tree, the paths are listed in the strict order of their names. -/
theorem pairwise_sources
    {node : Node} (hnode : node.WellFormed) (path : Path) :
  (sources path node).Pairwise fun first second => first.names < second.names
  := by
  induction hnode generalizing path with
  | file | link =>
    rw [sources_of_not_isDirectory rfl]
    split
    · exact List.pairwise_singleton _ _
    · exact List.Pairwise.nil
  | @directory entries hdistinct hnames hnodes ih =>
    by_cases hpath : path.length < pathLimit
    · obtain ⟨order, hperm, horder, hsources⟩ := exists_sources_directory hdistinct hpath
      rw [hsources]
      apply List.pairwise_flatMap.mpr
      constructor
      · intro entry hmem
        apply ih entry (hperm.mem_iff.mp hmem)
      · -- What is listed for two entries differs first in the names of the entries.
        apply horder.imp_of_mem
        intro entry entry' hmem hmem' hlt first hfirst second hsecond
        replace hmem := hperm.mem_iff.mp hmem
        replace hmem' := hperm.mem_iff.mp hmem'
        obtain ⟨place, hplace⟩ := exists_names_of_mem_sources (hnodes _ hmem) hfirst
        obtain ⟨place', hplace'⟩ := exists_names_of_mem_sources (hnodes _ hmem') hsecond
        rw [hplace, hplace', Path.names_join _ (hnames _ hmem), Path.names_join _ (hnames _ hmem'),
          List.append_assoc, List.append_assoc]
        apply List.append_left_lt
        apply List.cons_lt_cons_iff.mpr (Or.inl hlt)
    · rw [sources_directory_of_le (Nat.le_of_not_lt hpath)]
      exact List.Pairwise.nil

/-! ## Discovery -/

/-- The node at a place below a directory is a source: it is not a directory, its name has
the ending of sources, and the paths of the directories above it are not too long. -/
structure HoldsSource (node : Node) (root : Path) (place : List Name) : Prop where
  entry : ∃ entry, node.at? place = some entry ∧ entry.isDirectory = false
  ending : ∃ name ∈ place.getLast?, Path.sourceOctets <:+ name
  openable : ∀ above, above <+: place → above ≠ place → (root.below above).length < pathLimit

instance (node : Node) (root : Path) (place : List Name) :
    Decidable (node.HoldsSource root place) :=
  decidable_of_iff
    ((node.at? place).any (!·.isDirectory) = true
      ∧ (∃ name ∈ place.getLast?, Path.sourceOctets <:+ name)
      ∧ ∀ above ∈ place.inits, above ≠ place → (root.below above).length < pathLimit) <| by
    simp only [List.mem_inits, Option.any_eq_true, Bool.not_eq_true']
    constructor
    · rintro ⟨hentry, hending, hopenable⟩
      exact ⟨hentry, hending, hopenable⟩
    · rintro ⟨hentry, hending, hopenable⟩
      exact ⟨hentry, hending, hopenable⟩

theorem isSourceAt_iff_holdsSource
    {node : Node} (hnode : node.WellFormed) (hdirectory : node.isDirectory = true) {root : Path}
    {place : List Name} :
  node.IsSourceAt root place ↔ node.HoldsSource root place
  := by
  have hending : ∀ entry, node.at? place = some entry → entry.isDirectory = false →
      ((root.below place).isSource = true
        ↔ ∃ name ∈ place.getLast?, Path.sourceOctets <:+ name) := by
    intro entry hentry hfile
    rcases List.eq_nil_or_concat place with rfl | ⟨above, name, rfl⟩
    · cases hentry
      rw [hdirectory] at hfile
      cases hfile
    · have hname := (hnode.of_at? hentry).2 name (by simp)
      rw [List.concat_eq_append, Path.below_concat, Path.isSource_join _ hname]
      simp
  constructor
  · rintro ⟨⟨entry, hentry, hfile⟩, hsource, hshort⟩
    exact ⟨⟨entry, hentry, hfile⟩, (hending entry hentry hfile).mp hsource, hshort⟩
  · rintro ⟨⟨entry, hentry, hfile⟩, hsource, hshort⟩
    exact ⟨⟨entry, hentry, hfile⟩, (hending entry hentry hfile).mpr hsource, hshort⟩

theorem findSources_eq
    {tree node : Node} {root : Path} (hnode : tree.node? root = some node)
    (hdirectory : node.isDirectory = true) (hinput : isStandardInput root = false) :
  tree.findSources root
    = (if tree.namesLink root && root.isSource then [root] else []) ++ sources root node
  := by
  cases node with
  | file | link => cases hdirectory
  | directory entries =>
    rw [findSources, walk, hnode]
    simp only [walkFrom, hinput, Bool.false_eq_true, if_false, Walk.sources, List.filterMap_append]
    congr 1
    split
    · rfl
    · rfl

/-- Names after the same names are in order when all of them are. -/
theorem lt_of_append_lt
    {above first second : List Name} (h : above ++ first < above ++ second) :
  first < second
  := by
  by_contra hlt
  exact List.not_lt.mpr (List.append_left_le (List.not_lt.mp hlt)) h

section

variable {node : Node} (hnode : node.WellFormed)
include hnode

/-- The places of the paths that a walk lists are in strict order. -/
theorem pairwise_placeBelow_sources (root : Path) :
  ((sources root node).map root.placeBelow).Pairwise (· < ·)
  := by
  apply List.pairwise_map.mpr
  apply (pairwise_sources hnode root).imp_of_mem
  intro first second hfirst hsecond hlt
  obtain ⟨place, hplace, rfl⟩ := (mem_sources hnode).mp hfirst
  obtain ⟨place', hplace', rfl⟩ := (mem_sources hnode).mp hsecond
  have hnames := isName_of_isSourceAt hnode hplace
  have hnames' := isName_of_isSourceAt hnode hplace'
  rw [Path.names_below _ hnames, Path.names_below _ hnames'] at hlt
  rw [Path.placeBelow_below _ hnames, Path.placeBelow_below _ hnames']
  exact lt_of_append_lt hlt

variable (hdirectory : node.isDirectory = true)
include hdirectory

/-- What a walk lists below a directory are the paths of what the directory holds, in the
strict order of the places. -/
theorem exists_places (root : Path) :
  ∃ places : List (List Name), sources root node = places.map root.below
    ∧ places.Pairwise (· < ·)
    ∧ ∀ place, place ∈ places ↔ node.HoldsSource root place
  := by
  use (sources root node).map root.placeBelow
  refine ⟨?_, pairwise_placeBelow_sources hnode root, ?_⟩
  · calc sources root node
      _ = (sources root node).map id := (List.map_id _).symm
      _ = ((sources root node).map root.placeBelow).map root.below := by
        rw [List.map_map]
        apply List.map_congr_left
        intro source hmem
        obtain ⟨place, hplace, rfl⟩ := (mem_sources hnode).mp hmem
        rw [Function.comp_apply, Path.placeBelow_below _ (isName_of_isSourceAt hnode hplace)]
        rfl
  · intro place
    rw [← isSourceAt_iff_holdsSource hnode hdirectory, List.mem_map]
    constructor
    · rintro ⟨source, hmem, rfl⟩
      obtain ⟨place, hplace, rfl⟩ := (mem_sources hnode).mp hmem
      rw [Path.placeBelow_below _ (isName_of_isSourceAt hnode hplace)]
      exact hplace
    · intro hplace
      use root.below place, (mem_sources hnode).mpr ⟨place, hplace, rfl⟩
      apply Path.placeBelow_below _ (isName_of_isSourceAt hnode hplace)

/-- A walk lists nothing twice below a directory, and not the directory. -/
theorem nodup_cons_sources (root : Path) :
  (root :: sources root node).Nodup
  := by
  apply List.nodup_cons.mpr
  constructor
  · intro hmem
    obtain ⟨place, hplace, hroot⟩ := (mem_sources hnode).mp hmem
    have hnil : place = [] := by
      rw [← Path.placeBelow_below root (isName_of_isSourceAt hnode hplace), hroot]
      apply List.drop_length
    rw [hnil, isSourceAt_nil, hdirectory] at hplace
    cases hplace.1
  · apply (pairwise_sources hnode root).imp
    rintro first _ hlt rfl
    exact List.lt_irrefl _ hlt

end

/-- In a well-formed tree, discovery below a directory is exact: what is listed after the
root is what the directory holds, in the strict order of the places, and nothing is listed
twice.  The root is listed when it is a link that is named like a source.  A root that
leads to no directory has no sources. -/
theorem findSources_exact
    {tree : Node} (htree : tree.WellFormed) (root : Path) :
  (tree.leadsToDirectory root = false → tree.findSources root = [])
    ∧ ∀ node, tree.node? root = some node → node.isDirectory = true →
      isStandardInput root = false →
      ∃ places : List (List Name),
        tree.findSources root
          = (if tree.namesLink root && root.isSource then [root] else [])
            ++ places.map root.below
        ∧ places.Pairwise (· < ·)
        ∧ (∀ place, place ∈ places ↔ node.HoldsSource root place)
        ∧ (tree.findSources root).Nodup
  := by
  constructor
  · intro hroot
    rw [findSources, walk]
    split
    · rename_i entries hnode
      rw [leadsToDirectory, hnode] at hroot
      cases hroot
    · rfl
  · intro node hnode hdirectory hinput
    have hwell : node.WellFormed := by
      rw [node?] at hnode
      split at hnode
      · exact (htree.of_at? hnode).1
      · cases hnode
    have hsources := findSources_eq hnode hdirectory hinput
    obtain ⟨places, hplaces, hsorted, hholds⟩ := exists_places hwell hdirectory root
    use places
    refine ⟨?_, hsorted, hholds, ?_⟩
    · rw [hsources, hplaces]
    · rw [hsources]
      have hnodup := nodup_cons_sources hwell hdirectory root
      split
      · exact hnodup
      · exact (List.nodup_cons.mp hnodup).2

/-- A tree with a link `r.java` to a directory that holds a hidden directory with a source,
a directory with a link to itself, a source, and a directory that is named like a source. -/
def linkedTree : Node :=
  directory [
    (Path.ofText "r.java".toList, link (Path.ofText "d".toList)),
    (Path.ofText "d".toList, directory [
      (Path.ofText "a.java".toList, file []),
      (Path.ofText "c.java".toList, directory []),
      (Path.ofText "a".toList, directory [
        (Path.ofText "b.java".toList, link (Path.ofText "../a".toList))]),
      (Path.ofText ".h".toList, directory [(Path.ofText "B.java".toList, file [])])])]

/-- In `linkedTree`, the link, the hidden source and the link below are sources, and the
directory is not. -/
theorem findSources_exact_linkedTree :
  let root := Path.ofText "r.java".toList
  ∃ places : List (List Name),
    linkedTree.findSources root = root :: places.map root.below
      ∧ places.Pairwise (· < ·)
      ∧ [Path.ofText ".h".toList, Path.ofText "B.java".toList] ∈ places
      ∧ [Path.ofText "a".toList, Path.ofText "b.java".toList] ∈ places
      ∧ [Path.ofText "a.java".toList] ∈ places
      ∧ [Path.ofText "c.java".toList] ∉ places
  := by
  have hwell : linkedTree.WellFormed := by decide +kernel
  obtain ⟨places, hsources, hsorted, hholds, -⟩ :=
    (findSources_exact hwell (Path.ofText "r.java".toList)).2 _ rfl rfl (by decide +kernel)
  use places
  rw [if_pos (by decide +kernel)] at hsources
  use hsources, hsorted
  simp only [hholds]
  decide +kernel

/-- The tree with one source, `x/A.java` in the directory of the given name. -/
def nestedTree (name : Name) : Node :=
  directory [(name, directory [
    (Path.ofText "x".toList, directory [(Path.ofText "A.java".toList, file [])])])]

/-- A path to the directory `d` that is as long as a path can be. -/
def longRoot : Path :=
  Path.ofText "d".toList ++ List.replicate 4094 Path.slash

/-- All that stands below the root, is not a directory and is named like a source is
listed. -/
def ListsAllBelow (tree : Node) (root : Path) : Prop :=
  ∀ node, tree.node? root = some node → node.isDirectory = true →
    ∀ place entry, node.at? place = some entry → entry.isDirectory = false →
      (∃ name ∈ place.getLast?, Path.sourceOctets <:+ name) →
      root.below place ∈ tree.findSources root

theorem not_listsAllBelow
    {tree : Node} {root : Path} (hsources : tree.findSources root = []) {place : List Name}
    (hending : ∃ name ∈ place.getLast?, Path.sourceOctets <:+ name)
    (hheld : (tree.node? root).any
      (fun node => node.isDirectory && (node.at? place).any (!·.isDirectory)) = true) :
  ¬ tree.ListsAllBelow root
  := by
  intro hall
  simp only [Option.any_eq_true, Bool.and_eq_true, Bool.not_eq_true'] at hheld
  obtain ⟨node, hnode, hdirectory, entry, hentry, hfile⟩ := hheld
  have hmem := hall node hnode hdirectory place entry hentry hfile hending
  rw [hsources] at hmem
  cases hmem

/-- Not everything is listed: the directory `x` is not entered by a path that is too long,
and a root that stands for the standard input is not entered. -/
theorem not_listsAllBelow_nestedTree :
  ¬ (nestedTree (Path.ofText "d".toList)).ListsAllBelow longRoot
    ∧ ¬ (nestedTree (Path.ofText "-".toList)).ListsAllBelow (Path.ofText "-".toList)
  := by
  have hending : ∃ name ∈ [Path.ofText "x".toList, Path.ofText "A.java".toList].getLast?,
      Path.sourceOctets <:+ name := by
    decide
  constructor
  · exact not_listsAllBelow (by decide +kernel) hending (by decide +kernel)
  · exact not_listsAllBelow (by decide +kernel) hending (by decide +kernel)

end Node

end JavadocCoverage
