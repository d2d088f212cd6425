import JavadocCoverage.Proofs.Files.Frame

/-!
# What a delivery writes

A file is opened at the place that its path gives, a free name or a file (`writePlace`), and
then written as far as the system answers to have written it (`writeAll`).  The write may stop
after any proper prefix (`exists_writeAll_eq_iff`).  Wherever it does, one entry has been
changed, and the path leads to it (`Node.written_of_openFile`).

So there are three ways in which a delivery ends.  When the file cannot be opened, directories
have been added and nothing else (`Node.frame_of_not_canOpen`).  When it has been opened, the
path leads to a file that holds what was written (`Node.exists_delivered`), and that is the
whole of the report or, when the delivery fails, a proper prefix of it
(`Node.deliver_eq_none_iff`, `writeAll_eq_none_iff`).
-/

namespace JavadocCoverage

/-! ### How far a write comes -/

/-- What is written comes first among the octets. -/
theorem writeAll_prefix (answers : List WriteAnswer) (octets : Bytes) :
  (writeAll answers octets).1 <+: octets
  := by
  fun_induction writeAll answers octets with
  | case1 => exact List.prefix_rfl
  | case2 => exact List.prefix_rfl
  | case3 => exact List.nil_prefix
  | case4 => exact List.nil_prefix
  | case5 count answers octets hne written cause? hwritten ih =>
    rw [hwritten] at ih
    obtain ⟨rest, hrest⟩ := ih
    use rest
    rw [List.append_assoc, hrest, List.take_append_drop]

/-- A write gives no cause just when all is written. -/
theorem writeAll_eq_none_iff {answers : List WriteAnswer} {octets : Bytes} :
  (writeAll answers octets).2 = none ↔ (writeAll answers octets).1 = octets
  := by
  fun_induction writeAll answers octets with
  | case1 => simp
  | case2 => simp
  | case3 cause answers octets hne => simpa using Ne.symm hne
  | case4 answers octets hne => simpa using Ne.symm hne
  | case5 count answers octets hne written cause? hwritten ih =>
    rw [hwritten] at ih
    rw [ih]
    constructor
    · rintro rfl
      apply List.take_append_drop
    · intro hall
      apply List.append_cancel_left (hall.trans (List.take_append_drop (count + 1) octets).symm)

/-- A write can stop after any proper prefix, and for any cause. -/
theorem exists_writeAll_eq_iff {octets written : Bytes} {cause : Cause} :
  (∃ answers, writeAll answers octets = (written, some cause))
    ↔ written <+: octets ∧ written ≠ octets
  := by
  constructor
  · rintro ⟨answers, hstop⟩
    have hfirst := writeAll_prefix answers octets
    have hproper : (writeAll answers octets).1 ≠ octets := by
      apply mt writeAll_eq_none_iff.mpr
      rw [hstop]
      exact nofun
    rw [hstop] at hfirst hproper
    exact ⟨hfirst, hproper⟩
  · rintro ⟨⟨rest, rfl⟩, hproper⟩
    have hrest : rest ≠ [] := by
      rintro rfl
      exact hproper (List.append_nil written).symm
    obtain ⟨next, rest, rfl⟩ := List.exists_cons_of_ne_nil hrest
    cases written with
    | nil => exact ⟨[.refused cause], rfl⟩
    | cons first written =>
      use [.wrote (written.length + 1), .refused cause]
      simp [writeAll]

namespace Node

variable {tree tree' : Node}

/-! ### The written file -/

/-- A place for a file is found in the directory that the path names, or behind the link that
it names. -/
theorem writePlace_cases
    {links : Nat} {start : List Name} {path : Path} {place : List Name}
    (h : tree.writePlace links start path = .ok place) :
  ∃ reached name, tree.Names links (if path.isAbsolute then [] else start) path reached name
    ∧ ¬ path.endsInSlash
    ∧ ((place = reached.place ++ [name]
        ∧ ∀ e, tree.entryAt? place = some e → ∃ content, e = .file content)
      ∨ ∃ target links', tree.entryAt? (reached.place ++ [name]) = some (.link target)
        ∧ ¬ target.isEmpty ∧ reached.links = links' + 1
        ∧ tree.writePlace links' reached.place target = .ok place)
  := by
  rw [writePlace] at h
  split at h
  · cases h
  · cases h
  · next reached name hparent hlast =>
    obtain ⟨hfollow, hdirectory⟩ := followParent_eq_ok.mp hparent
    split at h
    · cases h
    · next hname =>
      simp only [not_or] at hname
      obtain ⟨hhere, hup, hslash⟩ := hname
      split at h
      · cases h
      · next hlength =>
        use reached, name
        constructor
        · exact
          { steps := (List.dropLast_append_getLast? name hlast).symm
            follow := hfollow
            directory := hdirectory
            ne_here := hhere
            ne_up := hup
            length_le := hlength }
        use hslash
        split at h
        · next hat =>
          left
          cases h
          use rfl
          intro e he
          rw [entryAt?, hat] at he
          cases he
        · next content hat =>
          left
          cases h
          use rfl
          intro e he
          rw [entryAt?, hat] at he
          cases he
          exact ⟨content, rfl⟩
        · cases h
        · next target hat =>
          right
          split at h
          · cases h
          · next htarget =>
            split at h
            · cases h
            · next hlinks =>
              use target, reached.links - 1
              constructor
              · rw [entryAt?, hat]
                rfl
              use htarget
              constructor
              · omega
              · exact h

/-- The place is where a file is written under a path, read from `start`: a free name or a
file in an existing directory, to which the path leads once a file is there. -/
structure IsWritePlace (tree : Node) (links : Nat) (start : List Name) (path : Path)
    (place : List Name) : Prop where
  above : ∃ above name, place = above ++ [name] ∧ tree.entryAt? above = some .directory
  entry : ∀ e, tree.entryAt? place = some e → ∃ content, e = .file content
  follow : ∀ tree', tree.Keeps tree' → ∀ content, tree'.entryAt? place = some (.file content) →
    ∃ links', tree'.follow true links (if path.isAbsolute then [] else start) path.lookupSegments
      = .ok ⟨place, links'⟩

/-- The place that is found for a file is such a place. -/
theorem isWritePlace_of_writePlace
    {links : Nat} {start : List Name} {path : Path} {place : List Name}
    (h : tree.writePlace links start path = .ok place) :
  tree.IsWritePlace links start path place
  := by
  induction links using Nat.strongRecOn generalizing start path with
  | ind links ih =>
    obtain ⟨reached, name, hnames, hslash, hplace⟩ := writePlace_cases h
    obtain ⟨rfl, hentry⟩ | ⟨target, links', hlink, htarget, hlinks, hwrite⟩ := hplace
    · constructor
      · exact ⟨_, _, rfl, hnames.directory⟩
      · exact hentry
      · intro tree' hkeeps content hcontent
        have hnames' := hnames.keeps hkeeps
        use reached.links
        rw [hnames'.follow_lookupSegments, if_neg hslash,
          follow_entry hnames'.directory hnames.ne_here hnames.ne_up hnames.length_le hcontent
            nofun,
          follow_nil]
    · have hlt : links' < links := by
        have := links_le_of_follow hnames.follow
        omega
      have hwritten := ih links' hlt hwrite
      constructor
      · exact hwritten.above
      · exact hwritten.entry
      · intro tree' hkeeps content hcontent
        obtain ⟨links'', hfollow⟩ := hwritten.follow tree' hkeeps content hcontent
        have hnames' := hnames.keeps hkeeps
        use links''
        rw [hnames'.follow_lookupSegments, if_neg hslash,
          follow_link hnames'.directory hnames.ne_here hnames.ne_up hnames.length_le
            (hkeeps.link hlink), Bool.not_true, Bool.and_false, if_neg Bool.false_ne_true,
          if_neg htarget, hlinks, followLink, List.append_nil]
        exact hfollow

/-- A file that is new, or takes the place of a file, keeps all that was there. -/
theorem keeps_of_entryAt?_eq_file
    {place : List Name} {content : Bytes}
    (hold : ∀ e, tree.entryAt? place = some e → ∃ content', e = .file content')
    (hentry : ∀ other, tree'.entryAt? other
      = if other = place then some (.file content) else tree.entryAt? other) :
  tree.Keeps tree'
  := by
  apply Keeps.of_entryAt?_eq hentry
  intro e he
  obtain ⟨content', rfl⟩ := hold e he
  rfl

/-- The frame of what adds directories first and writes one file then. -/
theorem Frame.written
    {start : Node} {segments place : List Name} {content : Bytes}
    (h : start.Frame tree segments none) (hkeeps : tree.Keeps tree')
    (hentry : ∀ other, tree'.entryAt? other
      = if other = place then some (.file content) else tree.entryAt? other) :
  start.Frame tree' segments (some place)
  where
  kept := by
    intro other e hother he
    rw [hentry, if_neg fun heq => hother (congrArg some heq)]
    exact h.kept other e nofun he
  added := by
    intro other e hother hnone he
    rw [hentry, if_neg fun heq => hother (congrArg some heq)] at he
    obtain ⟨hdirectory, above, habove, hmissing, hfound⟩ := h.added other e nofun hnone he
    exact ⟨hdirectory, above, habove, hmissing, hkeeps.resolve_eq_ok hfound⟩

/-! ### The opened file -/

/-- A file is opened where the path gives a place for it, and is empty then. -/
theorem writePlace_of_openFile
    {path : Path} {place : List Name} (h : tree.openFile path = (tree', .ok place)) :
  path.refusal? = none ∧ tree.writePlace linkLimit [] path = .ok place
    ∧ tree' = tree.put place (file [])
  := by
  rw [openFile] at h
  split at h
  · cases h
  · next hrefusal =>
    split at h
    · cases h
    · next hplace =>
      cases h
      exact ⟨hrefusal, hplace, rfl⟩

/-- Writing to a file that has been opened changes one entry, where a file or nothing was, and
the path leads to it. -/
theorem written_of_openFile
    {path : Path} {place : List Name} (h : tree.openFile path = (tree', .ok place))
    (content : Bytes) :
  (∀ e, tree.entryAt? place = some e → ∃ content', e = .file content')
    ∧ (∀ other, (tree'.put place (file content)).entryAt? other
        = if other = place then some (.file content) else tree.entryAt? other)
    ∧ (tree'.put place (file content)).resolve path = .ok place
  := by
  obtain ⟨hrefusal, hplace, rfl⟩ := writePlace_of_openFile h
  rw [put_put]
  have hwritten := isWritePlace_of_writePlace hplace
  obtain ⟨above, name, rfl, hdirectory⟩ := hwritten.above
  have hfree : tree.entryAt? (above ++ [name]) ≠ some .directory := by
    intro hentry
    obtain ⟨content', hfile⟩ := hwritten.entry _ hentry
    cases hfile
  have hput := entryAt?_put hdirectory hfree (isLeaf_file content)
  use hwritten.entry
  constructor
  · exact hput
  · have hkeeps := keeps_of_entryAt?_eq_file hwritten.entry hput
    have hself : (tree.put (above ++ [name]) (.file content)).entryAt? (above ++ [name])
        = some (.file content) := by
      rw [hput, if_pos rfl]
      rfl
    obtain ⟨links, hfollow⟩ := hwritten.follow _ hkeeps content hself
    rw [ite_self] at hfollow
    rw [resolve_eq hrefusal, hfollow]
    rfl

/-! ### The opened report -/

section

variable {path : Path}

/-- A report is opened in the tree that the making of directories leaves. -/
theorem exists_of_openReport {place : List Name} (h : tree.openReport path = (tree', .ok place)) :
  ∃ tree₁, tree.createDirectories path.parent = (tree₁, none)
    ∧ tree₁.openFile path = (tree', .ok place)
  := by
  rw [openReport] at h
  split at h
  · cases h
  · next tree₁ hcreate =>
    split at h
    · cases h
    · next hopen =>
      cases h
      exact ⟨tree₁, hcreate, hopen⟩

/-- The directory that a path needs can be made, and then a file can be opened under it. -/
def CanOpen (tree : Node) (path : Path) : Prop :=
  (tree.openReport path).2.isOk = true

instance (tree : Node) (path : Path) : Decidable (tree.CanOpen path) :=
  inferInstanceAs (Decidable (_ = true))

theorem canOpen_iff :
  tree.CanOpen path ↔ ∃ tree' place, tree.openReport path = (tree', .ok place)
  := by
  rw [CanOpen]
  cases tree.openReport path with
  | mk tree' result =>
    cases result with
    | error failure => simp [Except.isOk, Except.toBool]
    | ok place => simp [Except.isOk, Except.toBool]

end

/-! ### Deliveries -/

/-- What a delivery to a path leaves when the file could be opened: the path leads to a file
with the content, at a place where there was a file or nothing. -/
structure Delivered (tree tree' : Node) (path : Path) (content : Bytes) (place : List Name) :
    Prop where
  resolve : tree'.resolve path = .ok place
  read : tree'.read path = .ok content
  replaced : ∀ e, tree.entryAt? place = some e → ∃ content', e = .file content'
  written : tree'.entryAt? place = some (.file content)
  frame : tree.Frame tree' path.parent.segments (some place)

theorem Delivered.keeps
    {path : Path} {content : Bytes} {place : List Name}
    (h : tree.Delivered tree' path content place) :
  tree.Keeps tree'
  := by
  intro other e he
  by_cases hother : other = place
  · subst hother
    obtain ⟨content', rfl⟩ := h.replaced e he
    rw [h.written]
    rfl
  · have hne : some other ≠ some place := mt Option.some.inj hother
    rw [h.frame.kept other e hne he, Option.map_some]

theorem read_eq_ok
    {path : Path} {place : List Name} {content : Bytes} (hresolve : tree.resolve path = .ok place)
    (hentry : tree.entryAt? place = some (.file content)) :
  tree.read path = .ok content
  := by
  rw [entryAt?, Option.map_eq_some_iff] at hentry
  obtain ⟨node, hat, hnode⟩ := hentry
  cases node with
  | link | directory => cases hnode
  | file content' =>
    cases hnode
    rw [read, hresolve]
    simp only [hat]

variable {path : Path}

/-- Where a report can be opened, the path leads to what is written of it. -/
theorem exists_delivered
    (h : tree.CanOpen path) (content : Bytes) (answers : List WriteAnswer) :
  ∃ place, tree.Delivered (tree.deliver path content answers).1 path
    (writeAll answers content).1 place
  := by
  obtain ⟨tree', place, hreport⟩ := canOpen_iff.mp h
  obtain ⟨tree₁, hcreate, hopen⟩ := exists_of_openReport hreport
  obtain ⟨hentry, hput, hresolve⟩ := written_of_openFile hopen (writeAll answers content).1
  have hframe := frame_createDirectories tree path.parent
  rw [hcreate] at hframe
  rw [deliver, hreport]
  have hwritten := hput place
  rw [if_pos rfl] at hwritten
  use place
  constructor
  · exact hresolve
  · exact read_eq_ok hresolve hwritten
  · intro e he
    exact hentry e (hframe.kept place e nofun he)
  · exact hwritten
  · exact hframe.written (keeps_of_entryAt?_eq_file hentry hput) hput

/-- A delivery fails unless the report can be opened and is written to its end. -/
theorem deliver_eq_none_iff {content : Bytes} {answers : List WriteAnswer} :
  (tree.deliver path content answers).2 = none
    ↔ tree.CanOpen path ∧ (writeAll answers content).2 = none
  := by
  rw [deliver, canOpen_iff]
  cases tree.openReport path with
  | mk tree' result =>
    cases result with
    | error failure => simp
    | ok place => simp

end Node

end JavadocCoverage
