import JavadocCoverage.Files.Resolve
import JavadocCoverage.Files.Write

/-!
# Reading and changing files

What a tree answers to the operations on files, and the tree that they leave: the
content of a file is read or set, directories are made, links are made, nodes are
removed.

An operation is assumed to fail only for what is in the tree and in the path: reading,
opening and making directories meet no fault of the disk and no lack of memory or
space.  It is not so for what is written to an open file (`writeAll`).

An operation that fails may have changed the tree before.  `createDirectories` keeps
the directories that it has made, and a file that has been opened to be written has
lost what it held (`openFile`).
-/

namespace JavadocCoverage

namespace Node

/-- The content of the file to which a path leads.  What leads to a file can be read:
nothing in the tree forbids it. -/
def read (tree : Node) (path : Path) : Except Cause Bytes :=
  match tree.resolve path with
  | .error cause => .error cause
  | .ok place =>
    match tree.at? place with
    | some (file content) => .ok content
    | some (directory _) => .error .isADirectory
    | _ => .error .notFound

/-- The directory, and the links that may still be followed, to which all segments
but the last lead. -/
def followParent (tree : Node) (links : Nat) (place : List Name) (names : List Name) :
    Except Cause Reached :=
  match tree.follow true links place names.dropLast with
  | .error cause => .error cause
  | .ok reached =>
    if (tree.at? reached.place).any isDirectory then .ok reached else .error .notADirectory

theorem links_le_of_followParent
    {tree : Node} {links : Nat} {place names : List Name} {reached : Reached}
    (h : tree.followParent links place names = .ok reached) :
  reached.links ≤ links
  := by
  rw [followParent] at h
  split at h
  · cases h
  · next found =>
    split at h
    · cases h
      exact links_le_of_follow found
    · cases h

/-- The tree with a new, empty directory at a path. -/
def createDirectory (tree : Node) (path : Path) : Except Cause Node :=
  match path.refusal? with
  | some cause => .error cause
  | none =>
    let names := path.segments.filter (!·.isEmpty)
    match tree.followParent linkLimit [] names, names.getLast? with
    | .error cause, _ => .error cause
    | .ok _, none => .error .alreadyExists
    | .ok reached, some name =>
      if name = Path.here ∨ name = Path.up then .error .alreadyExists
      else if name.length > nameLimit then .error .nameTooLong
      else if (tree.at? (reached.place ++ [name])).isSome then .error .alreadyExists
      else .ok (tree.put (reached.place ++ [name]) (directory []))

/-- The tree with the directory at the path of the given segments, last first, and
the directories above it.  What exists already is kept; a path of idle segments
needs nothing. -/
def createDirectoriesAt (tree : Node) : List Name → Node × Option Cause
  | [] => (tree, none)
  | segment :: above =>
    if Path.isIdle segment then
      tree.createDirectoriesAt above
    else
      let path := Path.ofSegments (segment :: above).reverse
      let settle (tree : Node) (cause : Cause) :=
        (tree, if tree.leadsToDirectory path then none else some cause)
      match tree.createDirectory path with
      | .ok tree => (tree, none)
      | .error .notFound =>
        match tree.createDirectoriesAt above with
        | (tree, some cause) => (tree, some cause)
        | (tree, none) =>
          match tree.createDirectory path with
          | .ok tree => (tree, none)
          | .error cause => settle tree cause
      | .error cause => settle tree cause

/-- The tree with the directory at a path and the directories above it, and the
cause for which not all of them could be made. -/
def createDirectories (tree : Node) (path : Path) : Node × Option Cause :=
  tree.createDirectoriesAt path.segments.reverse

/-- The place at which a file is written when it is opened under a path, read from
`place`: an existing file, or a free name in an existing directory.  A link is
written through. -/
def writePlace (tree : Node) (links : Nat) (place : List Name) (path : Path) :
    Except Cause (List Name) :=
  let names := path.segments.filter (!·.isEmpty)
  match _ : tree.followParent links (if path.isAbsolute then [] else place) names,
      names.getLast? with
  | .error cause, _ => .error cause
  | .ok _, none => .error .isADirectory
  | .ok reached, some name =>
    if name = Path.here ∨ name = Path.up ∨ path.endsInSlash then .error .isADirectory
    else if name.length > nameLimit then .error .nameTooLong
    else
      match tree.at? (reached.place ++ [name]) with
      | none => .ok (reached.place ++ [name])
      | some (file _) => .ok (reached.place ++ [name])
      | some (directory _) => .error .isADirectory
      | some (link target) =>
        if target.isEmpty then .error .notFound
        else if _ : reached.links = 0 then .error .tooManyLinks
        else tree.writePlace (reached.links - 1) reached.place target
termination_by links
decreasing_by
  have := links_le_of_followParent ‹_›
  omega

/-- The tree in which a file has been opened under a path to be written, and the place
of the file.  It is made where there was none, and what it held is gone. -/
def openFile (tree : Node) (path : Path) : Node × Except Cause (List Name) :=
  match path.refusal? with
  | some cause => (tree, .error cause)
  | none =>
    match tree.writePlace linkLimit [] path with
    | .error cause => (tree, .error cause)
    | .ok place => (tree.put place (file []), .ok place)

/-- The tree with a file of the given content at a path, all of it being written. -/
def writeFile (tree : Node) (path : Path) (content : Bytes) : Except Cause Node :=
  match tree.openFile path with
  | (_, .error cause) => .error cause
  | (tree, .ok place) => .ok (tree.put place (file content))

/-- The tree with a link of the given target at a path, where nothing was. -/
def createLink (tree : Node) (target path : Path) : Except Cause Node :=
  match tree.locate path with
  | .ok _ => .error .alreadyExists
  | .error .notFound => (tree.writePlace linkLimit [] path).map (tree.put · (link target))
  | .error cause => .error cause

/-- The tree without the node that a path names. -/
def remove (tree : Node) (path : Path) : Except Cause Node :=
  (tree.locate path).map tree.erase

end Node

/-- The tree in which a file has been opened under a path for a report, and its place.
The directory that the path needs is made first. -/
def Node.openReport (tree : Node) (path : Path) : Node × Except Failure (List Name) :=
  match tree.createDirectories path.parent with
  | (tree, some cause) => (tree, .error ⟨.createDirectory path.parent, cause⟩)
  | (tree, none) =>
    match tree.openFile path with
    | (tree, .error cause) => (tree, .error ⟨.writeReport path, cause⟩)
    | (tree, .ok place) => (tree, .ok place)

/-- The tree with a report written to a path, as far as the system answers to have
written it, and the failure of what could not be done. -/
def Node.deliver (tree : Node) (path : Path) (content : Bytes)
    (answers : List WriteAnswer := []) : Node × Option Failure :=
  match tree.openReport path with
  | (tree, .error failure) => (tree, some failure)
  | (tree, .ok place) =>
    let (written, cause?) := writeAll answers content
    (tree.put place (file written), cause?.map (⟨.writeReport path, ·⟩))

end JavadocCoverage
