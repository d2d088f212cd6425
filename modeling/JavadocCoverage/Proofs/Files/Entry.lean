import Mathlib.Data.List.Basic
import Mathlib.Tactic.Use
import JavadocCoverage.Files.Change

/-!
# Entries and look-ups

A tree is told by what stands at its places (`Node.entryAt?`): putting a file or an empty
directory where neither was changes one entry and no other (`Node.entryAt?_put`).

A look-up depends on the entries only, and on a file only by its being one.  So it comes to
the same place in every tree that keeps the entries it met (`Node.Keeps`,
`Node.Keeps.follow_eq`).  Looking up segments after others is looking up the latter first
(`Node.follow_append`).
-/

namespace JavadocCoverage

namespace Node

/-! ### Entries -/

/-- What stands at a place: a file with its content, a link with its target, or a directory. -/
inductive Entry
  | file (content : Bytes)
  | link (target : Path)
  | directory
deriving DecidableEq

/-- The node apart from what is below it. -/
def entry : Node → Entry
  | file content => .file content
  | link target => .link target
  | directory _ => .directory

/-- What stands at the place to which names lead. -/
def entryAt? (tree : Node) (place : List Name) : Option Entry :=
  (tree.at? place).map entry

@[simp]
theorem entryAt?_nil (tree : Node) :
  tree.entryAt? [] = some tree.entry
  := rfl

@[simp]
theorem entryAt?_directory_cons (entries : List (Name × Node)) (name : Name) (place : List Name) :
  (directory entries).entryAt? (name :: place)
    = (entries.lookup name).bind fun node => node.entryAt? place
  := by
  rw [entryAt?, at?, entry?, Option.map_bind]
  rfl

theorem entry_eq_directory {node : Node} :
  node.entry = .directory ↔ ∃ entries, node = directory entries
  := by
  cases node with
  | file | link => simp [entry]
  | directory entries => simp [entry]

theorem entryAt?_eq_directory {tree : Node} {place : List Name} :
  tree.entryAt? place = some .directory ↔ ∃ entries, tree.at? place = some (directory entries)
  := by
  rw [entryAt?, Option.map_eq_some_iff]
  constructor
  · rintro ⟨node, hat, hentry⟩
    obtain ⟨entries, rfl⟩ := entry_eq_directory.mp hentry
    exact ⟨entries, hat⟩
  · rintro ⟨entries, hat⟩
    exact ⟨_, hat, rfl⟩

theorem at?_append (tree : Node) (place below : List Name) :
  tree.at? (place ++ below) = (tree.at? place).bind (·.at? below)
  := by
  induction place generalizing tree with
  | nil => rfl
  | cons name place ih =>
    rw [List.cons_append, at?, at?, Option.bind_assoc]
    congr 1
    funext node
    exact ih node

theorem exists_of_entryAt?_cons
    {tree : Node} {name : Name} {place : List Name} {e : Entry}
    (h : tree.entryAt? (name :: place) = some e) :
  ∃ entries below, tree = directory entries ∧ entries.lookup name = some below
    ∧ below.entryAt? place = some e
  := by
  cases tree with
  | file | link => cases h
  | directory entries =>
    rw [entryAt?_directory_cons] at h
    obtain ⟨below, hlookup, hbelow⟩ := Option.bind_eq_some_iff.mp h
    exact ⟨entries, below, rfl, hlookup, hbelow⟩

/-- Only a directory has something below it. -/
theorem directory_of_entryAt?_append
    {tree : Node} {above rest : List Name} (hrest : rest ≠ []) {e : Entry}
    (h : tree.entryAt? (above ++ rest) = some e) :
  tree.entryAt? above = some .directory
  := by
  obtain ⟨name, rest, rfl⟩ := List.exists_cons_of_ne_nil hrest
  rw [entryAt?, at?_append, Option.map_bind] at h
  obtain ⟨node, hnode, hbelow⟩ := Option.bind_eq_some_iff.mp h
  obtain ⟨entries, below, rfl, -, -⟩ := exists_of_entryAt?_cons hbelow
  exact entryAt?_eq_directory.mpr ⟨entries, hnode⟩

/-- The entries of a directory are what stands below its place. -/
theorem entryAt?_concat
    {tree : Node} {place : List Name} {entries : List (Name × Node)}
    (h : tree.at? place = some (directory entries)) (name : Name) :
  tree.entryAt? (place ++ [name]) = (entries.lookup name).map entry
  := by
  rw [entryAt?, at?_append, h, Option.bind_some, at?, entry?]
  cases entries.lookup name with
  | none => rfl
  | some node => rfl

/-! ### Putting a node -/

theorem lookup_putEntry (name name' : Name) (node : Node) (entries : List (Name × Node)) :
  (putEntry name node entries).lookup name'
    = if name' = name then some node else entries.lookup name'
  := by
  induction entries with
  | nil =>
    by_cases h : name' = name
    · simp [putEntry, h]
    · simp [putEntry, List.lookup_cons, beq_eq_false_iff_ne.mpr h, h]
  | cons head entries ih =>
    obtain ⟨other, node'⟩ := head
    rw [putEntry]
    by_cases h : other = name
    · subst h
      by_cases h' : name' = other
      · simp [h']
      · simp [h', List.lookup_cons, beq_eq_false_iff_ne.mpr h']
    · rw [if_neg h]
      by_cases h' : name' = other
      · subst h'
        simp [h]
      · simp [List.lookup_cons, beq_eq_false_iff_ne.mpr h', ih]

theorem putEntry_putEntry (name : Name) (node node' : Node) (entries : List (Name × Node)) :
  putEntry name node' (putEntry name node entries) = putEntry name node' entries
  := by
  induction entries with
  | nil => simp [putEntry]
  | cons head entries ih =>
    obtain ⟨other, below⟩ := head
    by_cases h : other = name
    · simp [putEntry, h]
    · simp [putEntry, h, ih]

/-- A node that was put is gone when another is put in its place. -/
theorem put_put (tree : Node) (place : List Name) (node node' : Node) :
  (tree.put place node).put place node' = tree.put place node'
  := by
  induction place generalizing tree with
  | nil => rfl
  | cons name place ih =>
    cases tree with
    | file | link => rfl
    | directory entries =>
      rw [put, put, put, lookup_putEntry, if_pos rfl, Option.getD_some, ih, putEntry_putEntry]

/-- Nothing is below the node. -/
def IsLeaf (node : Node) : Prop :=
  ∀ name place, node.entryAt? (name :: place) = none

theorem isLeaf_file (content : Bytes) :
  IsLeaf (file content)
  := fun _ _ => rfl

theorem isLeaf_empty :
  IsLeaf (directory [])
  := fun _ _ => rfl

theorem isLeaf_of_entry_ne {node : Node} (h : node.entry ≠ .directory) :
  node.IsLeaf
  := by
  cases node with
  | file | link => exact fun _ _ => rfl
  | directory => exact absurd rfl h

/-- Where no directory is, a leaf is put without a change to any other place. -/
theorem entryAt?_put
    {tree : Node} {above : List Name} {name : Name} (habove : tree.entryAt? above = some .directory)
    (hfree : tree.entryAt? (above ++ [name]) ≠ some .directory) {node : Node} (hleaf : node.IsLeaf)
    (place : List Name) :
  (tree.put (above ++ [name]) node).entryAt? place
    = if place = above ++ [name] then some node.entry else tree.entryAt? place
  := by
  induction above generalizing tree place with
  | nil =>
    obtain ⟨entries, rfl⟩ := entry_eq_directory.mp (Option.some.inj habove)
    cases place with
    | nil => rfl
    | cons name' place =>
      rw [List.nil_append, put, put, entryAt?_directory_cons, lookup_putEntry]
      by_cases hname : name' = name
      · subst hname
        rw [if_pos rfl, Option.bind_some]
        cases place with
        | nil => rw [if_pos rfl, entryAt?_nil]
        | cons name place =>
          -- Neither the leaf nor what it takes the place of has anything below.
          have hbelow : (directory entries).entryAt? (name' :: name :: place) = none := by
            cases hlookup : entries.lookup name' with
            | none => rw [entryAt?_directory_cons, hlookup, Option.bind_none]
            | some below =>
              rw [List.nil_append, entryAt?_directory_cons, hlookup, Option.bind_some,
                entryAt?_nil, ne_eq, Option.some_inj] at hfree
              rw [entryAt?_directory_cons, hlookup, Option.bind_some]
              exact isLeaf_of_entry_ne hfree name place
          rw [hleaf, hbelow, if_neg (by simp)]
      · rw [if_neg hname, if_neg (by simp [hname]), entryAt?_directory_cons]
  | cons first above ih =>
    obtain ⟨entries, below, rfl, hlookup, hbelow⟩ := exists_of_entryAt?_cons habove
    have hfree' : below.entryAt? (above ++ [name]) ≠ some .directory := by
      rw [List.cons_append, entryAt?_directory_cons, hlookup, Option.bind_some] at hfree
      exact hfree
    cases place with
    | nil => rfl
    | cons name' place =>
      rw [List.cons_append, put, hlookup, Option.getD_some, entryAt?_directory_cons,
        lookup_putEntry, entryAt?_directory_cons]
      by_cases hname : name' = first
      · subst hname
        rw [if_pos rfl, Option.bind_some, hlookup, Option.bind_some, ih hbelow hfree']
        simp only [List.cons.injEq, true_and]
      · rw [if_neg hname, if_neg (by simp [hname])]

/-! ### Look-ups -/

theorem follow_nil (tree : Node) (followLast : Bool) (links : Nat) (place : List Name) :
  tree.follow followLast links place [] = .ok ⟨place, links⟩
  := by
  cases links with
  | zero => rfl
  | succ links => rfl

/-- Where segments lead after a link, when `links` links may be followed, that one included. -/
def followLink (tree : Node) (followLast : Bool) :
    Nat → List Name → List Name → Except Cause Reached
  | 0 => fun _ _ => .error .tooManyLinks
  | links + 1 => tree.follow followLast links

theorem follow_eq_along (tree : Node) (followLast : Bool) (links : Nat) :
  tree.follow followLast links
    = tree.along followLast links (tree.followLink followLast links)
  := by
  cases links with
  | zero => rfl
  | succ links => rfl

section

variable {tree : Node} {followLast : Bool} {links : Nat} {place : List Name} {segment : Name}

/-- A look-up goes on from a directory only. -/
theorem follow_cons_of_ne (h : tree.entryAt? place ≠ some .directory) (rest : List Name) :
  tree.follow followLast links place (segment :: rest) = .error .notADirectory
  := by
  rw [follow_eq_along, along]
  split
  · next hat => exact absurd (entryAt?_eq_directory.mpr ⟨_, hat⟩) h
  · rfl

variable (hplace : tree.entryAt? place = some .directory)
include hplace

theorem follow_here (rest : List Name) :
  tree.follow followLast links place (Path.here :: rest) = tree.follow followLast links place rest
  := by
  obtain ⟨entries, hat⟩ := entryAt?_eq_directory.mp hplace
  rw [follow_eq_along, along, hat]
  exact if_pos rfl

theorem follow_up (rest : List Name) :
  tree.follow followLast links place (Path.up :: rest)
    = tree.follow followLast links place.dropLast rest
  := by
  obtain ⟨entries, hat⟩ := entryAt?_eq_directory.mp hplace
  rw [follow_eq_along, along, hat]
  exact (if_neg (by decide)).trans (if_pos rfl)

variable (hhere : segment ≠ Path.here) (hup : segment ≠ Path.up)
include hhere hup

theorem follow_tooLong (hlength : segment.length > nameLimit) (rest : List Name) :
  tree.follow followLast links place (segment :: rest) = .error .nameTooLong
  := by
  obtain ⟨entries, hat⟩ := entryAt?_eq_directory.mp hplace
  simp only [follow_eq_along, along, hat, if_neg hhere, if_neg hup, if_pos hlength]

variable (hlength : ¬ segment.length > nameLimit)
include hlength

theorem follow_missing (h : tree.entryAt? (place ++ [segment]) = none) (rest : List Name) :
  tree.follow followLast links place (segment :: rest) = .error .notFound
  := by
  obtain ⟨entries, hat⟩ := entryAt?_eq_directory.mp hplace
  rw [entryAt?_concat hat, Option.map_eq_none_iff] at h
  simp only [follow_eq_along, along, hat, if_neg hhere, if_neg hup, if_neg hlength, h]

theorem follow_entry
    {e : Entry} (h : tree.entryAt? (place ++ [segment]) = some e)
    (hlink : ∀ target, e ≠ .link target) (rest : List Name) :
  tree.follow followLast links place (segment :: rest)
    = tree.follow followLast links (place ++ [segment]) rest
  := by
  obtain ⟨entries, hat⟩ := entryAt?_eq_directory.mp hplace
  rw [entryAt?_concat hat, Option.map_eq_some_iff] at h
  obtain ⟨node, hlookup, rfl⟩ := h
  simp only [follow_eq_along, along, hat, if_neg hhere, if_neg hup, if_neg hlength, hlookup]
  cases node with
  | link target => exact absurd rfl (hlink target)
  | file | directory => rfl

theorem follow_link
    {target : Path} (h : tree.entryAt? (place ++ [segment]) = some (.link target))
    (rest : List Name) :
  tree.follow followLast links place (segment :: rest)
    = if rest.isEmpty && !followLast then .ok ⟨place ++ [segment], links⟩
      else if target.isEmpty then .error .notFound
      else tree.followLink followLast links (if target.isAbsolute then [] else place)
        (target.lookupSegments ++ rest)
  := by
  obtain ⟨entries, hat⟩ := entryAt?_eq_directory.mp hplace
  rw [entryAt?_concat hat, Option.map_eq_some_iff] at h
  obtain ⟨node, hlookup, hentry⟩ := h
  cases node with
  | file | directory => cases hentry
  | link target' =>
    cases hentry
    simp only [follow_eq_along, along, hat, if_neg hhere, if_neg hup, if_neg hlength, hlookup]

end

/-- What is kept by each step of a look-up holds of the whole look-up: the cases are those
of `along`, with `place` a directory in all but the first two. -/
@[elab_as_elim]
theorem follow_induction
    (tree : Node) {P : Nat → List Name → List Name → Prop}
    (nil : ∀ links place, P links place [])
    (notDirectory : ∀ links place segment rest, tree.entryAt? place ≠ some .directory →
      P links place (segment :: rest))
    (here : ∀ links place rest, tree.entryAt? place = some .directory →
      P links place rest → P links place (Path.here :: rest))
    (up : ∀ links place rest, tree.entryAt? place = some .directory →
      P links place.dropLast rest → P links place (Path.up :: rest))
    (tooLong : ∀ links place segment rest, tree.entryAt? place = some .directory →
      segment ≠ Path.here → segment ≠ Path.up → segment.length > nameLimit →
      P links place (segment :: rest))
    (missing : ∀ links place segment rest, tree.entryAt? place = some .directory →
      segment ≠ Path.here → segment ≠ Path.up → ¬ segment.length > nameLimit →
      tree.entryAt? (place ++ [segment]) = none → P links place (segment :: rest))
    (entry : ∀ links place segment rest e, tree.entryAt? place = some .directory →
      segment ≠ Path.here → segment ≠ Path.up → ¬ segment.length > nameLimit →
      tree.entryAt? (place ++ [segment]) = some e → (∀ target, e ≠ .link target) →
      P links (place ++ [segment]) rest → P links place (segment :: rest))
    (link : ∀ links place segment rest target, tree.entryAt? place = some .directory →
      segment ≠ Path.here → segment ≠ Path.up → ¬ segment.length > nameLimit →
      tree.entryAt? (place ++ [segment]) = some (.link target) →
      (∀ links', links = links' + 1 → ∀ place segments, P links' place segments) →
      P links place (segment :: rest))
    (links : Nat) (place segments : List Name) :
  P links place segments
  := by
  induction links using Nat.strongRecOn generalizing place segments with
  | ind links ihlinks =>
    have hlinks : ∀ links', links = links' + 1 → ∀ place segments, P links' place segments := by
      rintro links' rfl
      exact ihlinks links' (Nat.lt_succ_self links')
    induction segments generalizing place with
    | nil => exact nil links place
    | cons segment rest ih =>
      by_cases hplace : tree.entryAt? place = some .directory
      · by_cases hhere : segment = Path.here
        · subst hhere
          exact here _ _ _ hplace (ih _)
        by_cases hup : segment = Path.up
        · subst hup
          exact up _ _ _ hplace (ih _)
        by_cases hlength : segment.length > nameLimit
        · exact tooLong _ _ _ _ hplace hhere hup hlength
        cases hentry : tree.entryAt? (place ++ [segment]) with
        | none => exact missing _ _ _ _ hplace hhere hup hlength hentry
        | some e =>
          by_cases hlink : ∀ target, e ≠ .link target
          · exact entry _ _ _ _ _ hplace hhere hup hlength hentry hlink (ih _)
          · obtain ⟨target, rfl⟩ := Classical.not_forall_not.mp hlink
            exact link _ _ _ _ _ hplace hhere hup hlength hentry hlinks
      · exact notDirectory _ _ _ _ hplace

/-- Segments are looked up from where those before them lead.  A link that is not the last
segment is always followed. -/
theorem follow_append
    (tree : Node) (followLast : Bool) {rest : List Name} (hrest : rest ≠ [] ∨ followLast = true)
    (links : Nat) (place segments : List Name) :
  tree.follow followLast links place (segments ++ rest)
    = (tree.follow true links place segments).bind fun reached =>
        tree.follow followLast reached.links reached.place rest
  := by
  induction links, place, segments using follow_induction tree with
  | nil links place => rw [follow_nil, List.nil_append, Except.bind]
  | notDirectory links place segment segments hplace =>
    rw [List.cons_append, follow_cons_of_ne hplace, follow_cons_of_ne hplace, Except.bind]
  | here links place segments hplace ih =>
    rw [List.cons_append, follow_here hplace, follow_here hplace, ih]
  | up links place segments hplace ih =>
    rw [List.cons_append, follow_up hplace, follow_up hplace, ih]
  | tooLong links place segment segments hplace hhere hup hlength =>
    rw [List.cons_append, follow_tooLong hplace hhere hup hlength,
      follow_tooLong hplace hhere hup hlength, Except.bind]
  | missing links place segment segments hplace hhere hup hlength hentry =>
    rw [List.cons_append, follow_missing hplace hhere hup hlength hentry,
      follow_missing hplace hhere hup hlength hentry, Except.bind]
  | entry links place segment segments e hplace hhere hup hlength hentry hlink ih =>
    rw [List.cons_append, follow_entry hplace hhere hup hlength hentry hlink,
      follow_entry hplace hhere hup hlength hentry hlink, ih]
  | link links place segment segments target hplace hhere hup hlength hentry ih =>
    have hlast : ((segments ++ rest).isEmpty && !followLast) = false := by
      rcases hrest with hrest | rfl
      · simp [hrest]
      · simp
    rw [List.cons_append, follow_link hplace hhere hup hlength hentry,
      follow_link hplace hhere hup hlength hentry, hlast, Bool.not_true, Bool.and_false]
    by_cases htarget : target.isEmpty
    · simp only [htarget, if_true, Bool.false_eq_true, if_false, Except.bind]
    · simp only [htarget, Bool.false_eq_true, if_false]
      cases links with
      | zero => rfl
      | succ links =>
        rw [← List.append_assoc]
        exact ih links rfl _ _

/-! ### Trees that keep what a look-up meets -/

/-- The entry, with the content of a file left out. -/
def Entry.outline : Entry → Entry
  | .file _ => .file []
  | e => e

/-- What stands in the first tree stands in the second, contents of files apart. -/
def Keeps (tree tree' : Node) : Prop :=
  ∀ place e, tree.entryAt? place = some e →
    (tree'.entryAt? place).map Entry.outline = some e.outline

namespace Keeps

variable {tree tree' : Node}

/-- A tree that has a new entry at one place keeps the rest, and what is replaced there when
only the content of a file differs. -/
theorem of_entryAt?_eq
    {place : List Name} {e : Entry}
    (hentry : ∀ other, tree'.entryAt? other = if other = place then some e else tree.entryAt? other)
    (hold : ∀ e', tree.entryAt? place = some e' → e'.outline = e.outline) :
  tree.Keeps tree'
  := by
  intro other e' he
  rw [hentry]
  split
  · next heq =>
    subst heq
    rw [hold e' he, Option.map_some]
  · rw [he, Option.map_some]

variable (h : tree.Keeps tree')
include h

theorem directory {place : List Name} (hplace : tree.entryAt? place = some .directory) :
  tree'.entryAt? place = some .directory
  := by
  obtain ⟨e, he, houtline⟩ := Option.map_eq_some_iff.mp (h _ _ hplace)
  cases e with
  | file | link => cases houtline
  | directory => exact he

theorem link
    {place : List Name} {target : Path} (hplace : tree.entryAt? place = some (.link target)) :
  tree'.entryAt? place = some (.link target)
  := by
  obtain ⟨e, he, houtline⟩ := Option.map_eq_some_iff.mp (h _ _ hplace)
  cases e with
  | file | directory => cases houtline
  | link target' =>
    cases houtline
    exact he

/-- What leads somewhere leads to the same place. -/
theorem follow_eq
    {followLast : Bool} {links : Nat} {place segments : List Name} {reached : Reached}
    (hfollow : tree.follow followLast links place segments = .ok reached) :
  tree'.follow followLast links place segments = .ok reached
  := by
  induction links, place, segments using follow_induction tree with
  | nil links place =>
    rw [follow_nil] at hfollow ⊢
    exact hfollow
  | notDirectory links place segment segments hplace =>
    rw [follow_cons_of_ne hplace] at hfollow
    cases hfollow
  | here links place segments hplace ih =>
    rw [follow_here hplace] at hfollow
    rw [follow_here (h.directory hplace)]
    exact ih hfollow
  | up links place segments hplace ih =>
    rw [follow_up hplace] at hfollow
    rw [follow_up (h.directory hplace)]
    exact ih hfollow
  | tooLong links place segment segments hplace hhere hup hlength =>
    rw [follow_tooLong hplace hhere hup hlength] at hfollow
    cases hfollow
  | missing links place segment segments hplace hhere hup hlength hentry =>
    rw [follow_missing hplace hhere hup hlength hentry] at hfollow
    cases hfollow
  | entry links place segment segments e hplace hhere hup hlength hentry hlink ih =>
    rw [follow_entry hplace hhere hup hlength hentry hlink] at hfollow
    obtain ⟨e', hentry', houtline⟩ := Option.map_eq_some_iff.mp (h _ _ hentry)
    have hlink' : ∀ target, e' ≠ .link target := by
      rintro target rfl
      cases e with
      | file | directory => cases houtline
      | link target' => exact hlink target' rfl
    rw [follow_entry (h.directory hplace) hhere hup hlength hentry' hlink']
    exact ih hfollow
  | link links place segment segments target hplace hhere hup hlength hentry ih =>
    rw [follow_link hplace hhere hup hlength hentry] at hfollow
    rw [follow_link (h.directory hplace) hhere hup hlength (h.link hentry)]
    split at hfollow
    · rwa [if_pos ‹_›]
    · rw [if_neg ‹_›]
      split at hfollow
      · cases hfollow
      · rw [if_neg ‹_›]
        cases links with
        | zero => cases hfollow
        | succ links => exact ih links rfl _ _ hfollow

end Keeps

end Node

end JavadocCoverage
