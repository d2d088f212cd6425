import JavadocCoverage.Files.Cause
import JavadocCoverage.Files.Tree

/-!
# Resolving paths

Where a path leads in a tree.  A path is read from the top directory, segment by
segment; a symbolic link is replaced by the path it holds, at most forty times; the
directory above the top directory is the top directory.  A place in the tree is
the list of names that leads to it.

The current directory is left out: the top directory stands for it, and a relative
path is read as an absolute one is.  Only behind a link does it matter which of the
two a path is.
-/

namespace JavadocCoverage

/-- The length from which on a path is too long. -/
def pathLimit : Nat := 4096

/-- The greatest length of a name. -/
def nameLimit : Nat := 255

/-- The number of links that may be followed for one path. -/
def linkLimit : Nat := 40

namespace Path

/-- The segments that a look-up goes through.  A slash at the end asks for a
directory, as the segment `.` does. -/
def lookupSegments (path : Path) : List Name :=
  path.segments.filter (!·.isEmpty) ++ if path.endsInSlash then [here] else []

/-- The cause for which a path is refused before any look-up. -/
def refusal? (path : Path) : Option Cause :=
  if path.elem 0 then some .zeroOctet
  else if path.isEmpty then some .notFound
  else if path.length ≥ pathLimit then some .nameTooLong
  else none

end Path

namespace Node

/-- A place that a look-up has come to, and the number of links that it may still
follow. -/
structure Reached where
  place : List Name
  links : Nat

/-- Where segments lead from a place, when `links` links may be followed and `enter`
tells where the segments lead after the first of them.  A link that the last segment
names is only followed when `followLast` is set. -/
def along (tree : Node) (followLast : Bool) (links : Nat)
    (enter : List Name → List Name → Except Cause Reached) (place : List Name) :
    List Name → Except Cause Reached
  | [] => .ok ⟨place, links⟩
  | segment :: rest =>
    match tree.at? place with
    | some (directory entries) =>
      if segment = Path.here then
        tree.along followLast links enter place rest
      else if segment = Path.up then
        tree.along followLast links enter place.dropLast rest
      else if segment.length > nameLimit then
        .error .nameTooLong
      else
        match entries.lookup segment with
        | none => .error .notFound
        | some (link target) =>
          if rest.isEmpty && !followLast then
            .ok ⟨place ++ [segment], links⟩
          else if target.isEmpty then
            .error .notFound
          else
            enter (if target.isAbsolute then [] else place) (target.lookupSegments ++ rest)
        | some _ => tree.along followLast links enter (place ++ [segment]) rest
    | _ => .error .notADirectory

/-- Where segments lead from a place, when `links` links may be followed. -/
def follow (tree : Node) (followLast : Bool) (links : Nat) :
    List Name → List Name → Except Cause Reached :=
  match links with
  | 0 => tree.along followLast 0 fun _ _ => .error .tooManyLinks
  | links + 1 => tree.along followLast (links + 1) (tree.follow followLast links)

theorem links_le_of_along
    {tree : Node} {followLast : Bool} {links : Nat}
    {enter : List Name → List Name → Except Cause Reached}
    (henter : ∀ place segments reached, enter place segments = .ok reached →
      reached.links ≤ links)
    {place segments : List Name} {reached : Reached}
    (h : tree.along followLast links enter place segments = .ok reached) :
  reached.links ≤ links
  := by
  fun_induction along tree followLast links enter place segments
  case case1 => cases h; exact Nat.le_refl _
  case case2 ih => exact ih h
  case case3 ih => exact ih h
  case case6 => cases h; exact Nat.le_refl _
  case case8 => exact henter _ _ _ h
  case case9 ih => exact ih h
  all_goals cases h

/-- A look-up gains no links. -/
theorem links_le_of_follow
    {tree : Node} {followLast : Bool} {links : Nat} {place segments : List Name}
    {reached : Reached}
    (h : tree.follow followLast links place segments = .ok reached) :
  reached.links ≤ links
  := by
  induction links generalizing place segments reached with
  | zero =>
    apply links_le_of_along _ h
    intro _ _ _ hnone
    cases hnone
  | succ links ih =>
    apply links_le_of_along _ h
    intro _ _ _ hsome
    exact Nat.le_succ_of_le (ih hsome)

/-- The place to which a path leads.  A link at its end is followed. -/
def resolve (tree : Node) (path : Path) : Except Cause (List Name) :=
  match path.refusal? with
  | some cause => .error cause
  | none => (tree.follow true linkLimit [] path.lookupSegments).map (·.place)

/-- The node to which a path leads. -/
def node? (tree : Node) (path : Path) : Option Node :=
  match tree.resolve path with
  | .ok place => tree.at? place
  | .error _ => none

/-- The path leads to a directory. -/
def leadsToDirectory (tree : Node) (path : Path) : Bool :=
  (tree.node? path).any isDirectory

/-- The place that a path names.  A link at its end is not followed. -/
def locate (tree : Node) (path : Path) : Except Cause (List Name) :=
  match path.refusal? with
  | some cause => .error cause
  | none => (tree.follow false linkLimit [] path.lookupSegments).map (·.place)

/-- The path names a link. -/
def namesLink (tree : Node) (path : Path) : Bool :=
  match tree.locate path with
  | .ok place => (tree.at? place).any isLink
  | .error _ => false

end Node

end JavadocCoverage
