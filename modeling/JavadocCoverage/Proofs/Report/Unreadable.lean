import JavadocCoverage.Proofs.Files.Listing
import JavadocCoverage.Proofs.Report.Accounting

/-!
# Sources that are not read

The sources that the report of a check counts as unreadable are those that the walk lists and
that lead to no file (`Node.findSources_readable`): by the assumptions on trees and on
`Node.read`, nothing else keeps a file from being read.

A walk goes by what an entry is, a reader by what it leads to.  So a link to a directory is
listed and not read.  And where every link leads somewhere, sources may be unreadable still:
the walk has no limit to the length of the paths that it lists, and a path is read with the
links of the root and its own together (`Node.not_readsAll`).
-/

namespace JavadocCoverage

theorem FileReading.isUnreadable_report {reading : FileReading} :
  reading.report.isUnreadable = true ↔ ∃ cause, reading.content = .error cause
  := by
  rw [report, source]
  cases reading.content with
  | ok content => simp [FileReport.isUnreadable]
  | error cause => simp [FileReport.isUnreadable]

namespace Node

theorem unreadableFiles_audit_eq_zero_iff (tree : Node) (root : Path) (durationMs : Nat) :
  (tree.audit root durationMs).unreadableFiles = 0
    ↔ ∀ path ∈ tree.findSources root, ∀ cause, tree.read path ≠ .error cause
  := by
  rw [(tree.audit_accountsFor root durationMs).unreadableFiles, List.countP_eq_zero]
  simp only [FileReading.isUnreadable_report, reading, not_exists, ne_eq]

/-- A listed path leads to a directory only when it names a link.  When it cannot be read,
the system does not take it, or it names a link that leads nowhere or to a directory; and the
report counts no unreadable files just when none of the listed paths is such. -/
theorem findSources_readable
    {tree : Node} (htree : tree.WellFormed) (root : Path) (durationMs : Nat) :
  (∀ path ∈ tree.findSources root,
      tree.leadsToDirectory path = true → tree.namesLink path = true)
    ∧ (∀ path ∈ tree.findSources root, ∀ cause,
      tree.read path = .error cause → tree.IsUnreadable path)
    ∧ ((tree.audit root durationMs).unreadableFiles = 0
      ↔ ∀ path ∈ tree.findSources root, ¬ tree.IsUnreadable path)
  := by
  refine ⟨?_, ?_, ?_⟩
  · intro path hmem
    exact namesLink_of_leadsToDirectory htree hmem
  · intro path hmem cause
    exact isUnreadable_of_read_eq_error htree hmem
  · rw [unreadableFiles_audit_eq_zero_iff]
    constructor
    · intro hread path hmem hunreadable
      obtain ⟨cause, hcause⟩ := hunreadable.exists_read_eq_error
      exact hread path hmem cause hcause
    · intro hreadable path hmem cause hcause
      exact hreadable path hmem (isUnreadable_of_read_eq_error htree hmem hcause)

/-- A tree with one source, which is a link to a file. -/
def linkedSource : Node :=
  directory [
    (Path.ofText "f".toList, file (Utf8.encode "class A".toList)),
    (Path.ofText "d".toList, directory [
      (Path.ofText "A.java".toList, link (Path.ofText "../f".toList))])]

/-- The link to a file is read. -/
theorem findSources_readable_linkedSource :
  (linkedSource.audit (Path.ofText "d".toList) 3).unreadableFiles = 0
  := by
  have hwell : linkedSource.WellFormed := by decide +kernel
  have hsources : linkedSource.findSources (Path.ofText "d".toList)
      = [Path.ofText "d/A.java".toList] := by
    decide +kernel
  apply (findSources_readable hwell (Path.ofText "d".toList) 3).2.2.mpr
  intro path hmem
  rw [hsources, List.mem_singleton] at hmem
  subst hmem
  rintro (hinadmissible | ⟨-, cause, hresolve⟩ | ⟨-, hdirectory⟩)
  · revert hinadmissible
    decide +kernel
  · have hfile : linkedSource.resolve (Path.ofText "d/A.java".toList)
        = .ok [Path.ofText "f".toList] := by
      decide +kernel
    cases hfile.symm.trans hresolve
  · revert hdirectory
    decide +kernel

/-! ### Links -/

mutual

/-- The places of the links in a tree. -/
def linkPlaces : Node → List (List Name)
  | file _ => []
  | link _ => [[]]
  | directory entries => entryLinkPlaces entries

/-- The places of the links in the entries of a directory. -/
def entryLinkPlaces : List (Name × Node) → List (List Name)
  | [] => []
  | (name, node) :: entries => node.linkPlaces.map (name :: ·) ++ entryLinkPlaces entries

end

theorem mem_entryLinkPlaces
    {entries : List (Name × Node)} {name : Name} {node : Node} {place : List Name}
    (hentry : (name, node) ∈ entries) (hplace : place ∈ node.linkPlaces) :
  name :: place ∈ entryLinkPlaces entries
  := by
  induction entries with
  | nil => cases hentry
  | cons entry entries ih =>
    rw [entryLinkPlaces, List.mem_append]
    rcases List.mem_cons.mp hentry with rfl | hentry
    · left
      exact List.mem_map_of_mem hplace
    · right
      exact ih hentry

theorem mem_linkPlaces
    {tree : Node} {place : List Name} {target : Path} (h : tree.at? place = some (link target)) :
  place ∈ tree.linkPlaces
  := by
  induction place generalizing tree with
  | nil =>
    cases h
    rw [linkPlaces]
    exact List.mem_singleton_self _
  | cons name place ih =>
    obtain ⟨below, hbelow, hplace⟩ := Option.bind_eq_some_iff.mp h
    cases tree with
    | file | link => cases hbelow
    | directory entries =>
      rw [linkPlaces]
      obtain ⟨before, after, rfl, -⟩ := List.lookup_eq_some_iff.mp hbelow
      apply mem_entryLinkPlaces _ (ih hplace)
      simp

/-- Every link in the tree leads somewhere. -/
def LinksLead (tree : Node) : Prop :=
  ∀ place target, tree.at? place = some (link target) →
    ∃ reached, tree.follow true linkLimit [] place = .ok reached

theorem linksLead_of_linkPlaces
    {tree : Node}
    (h : ∀ place ∈ tree.linkPlaces, (tree.follow true linkLimit [] place).isOk = true) :
  tree.LinksLead
  := by
  intro place target hplace
  have hok := h place (mem_linkPlaces hplace)
  cases hfollow : tree.follow true linkLimit [] place with
  | error cause =>
    rw [hfollow] at hok
    cases hok
  | ok reached => exact ⟨reached, rfl⟩

/-- When every link leads somewhere, all listed paths are read. -/
def ReadsAll (tree : Node) (root : Path) : Prop :=
  tree.LinksLead → (tree.audit root 0).unreadableFiles = 0

theorem not_readsAll
    {tree : Node} {root : Path}
    (hlinks : ∀ place ∈ tree.linkPlaces, (tree.follow true linkLimit [] place).isOk = true)
    (hunreadable : (tree.audit root 0).unreadableFiles ≠ 0) :
  ¬ tree.ReadsAll root
  := by
  intro hall
  exact hunreadable (hall (linksLead_of_linkPlaces hlinks))

/-- No listed path leads to a directory. -/
def ListsNoDirectory (tree : Node) (root : Path) : Prop :=
  ∀ path ∈ tree.findSources root, tree.leadsToDirectory path = false

/-- A tree with one source, which is a link to a directory. -/
def linkedDirectory : Node :=
  directory [
    (Path.ofText "e".toList, directory []),
    (Path.ofText "d".toList, directory [
      (Path.ofText "A.java".toList, link (Path.ofText "../e".toList))])]

/-- A tree with one source, and without links. -/
def singleSource : Node :=
  directory [(Path.ofText "d".toList, directory [(Path.ofText "A.java".toList, file [])])]

/-- Links with names of one octet, each to the next one and the last to the target. -/
def chain (target : Path) : Nat → UInt8 → List (Name × Node)
  | 0, _ => []
  | 1, first => [([first], link target)]
  | count + 2, first => ([first], link [first + 1]) :: chain target (count + 1) (first + 1)

/-- A tree with one source, which is a link to a chain of twenty links to a file.  The links
from `A` to `T` are a chain to the directory of the source. -/
def chainedSource : Node :=
  directory (chain (Path.ofText "src".toList) 20 0x41 ++ chain (Path.ofText "file".toList) 20 0x61
    ++ [
      (Path.ofText "src".toList, directory [
        (Path.ofText "A.java".toList, link (Path.ofText "../a".toList))]),
      (Path.ofText "file".toList, file [])])

/-- A link to a directory is listed and not read.  Nor is a file whose path is too long, or a
link when too many links are followed for its path, though all of them lead somewhere. -/
theorem not_listsNoDirectory_linkedDirectory :
  ¬ linkedDirectory.ListsNoDirectory (Path.ofText "d".toList)
    ∧ ¬ linkedDirectory.ReadsAll (Path.ofText "d".toList)
    ∧ ¬ singleSource.ReadsAll longRoot
    ∧ ¬ chainedSource.ReadsAll (Path.ofText "A".toList)
  := by
  refine ⟨?_, ?_, ?_, ?_⟩
  · intro hnone
    have hleads : linkedDirectory.leadsToDirectory (Path.ofText "d/A.java".toList) = true := by
      decide +kernel
    have hmem : Path.ofText "d/A.java".toList
        ∈ linkedDirectory.findSources (Path.ofText "d".toList) := by
      decide +kernel
    cases hleads.symm.trans (hnone _ hmem)
  · exact not_readsAll (by decide +kernel) (by decide +kernel)
  · exact not_readsAll (by decide +kernel) (by decide +kernel)
  · exact not_readsAll (by decide +kernel) (by decide +kernel)

end Node

end JavadocCoverage
