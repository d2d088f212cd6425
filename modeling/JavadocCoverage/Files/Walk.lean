import JavadocCoverage.Files.Resolve

/-!
# Walking a tree

The sources below a root.  Every directory is walked in the order of its entries'
names, a directory being walked at its place among the files; links are not
followed, except by the root itself; a source is any node that is not a directory
and whose name is a source's.
-/

namespace JavadocCoverage

/-- What a walk comes upon: a source, or a directory that cannot be opened. -/
inductive Visit
  | source (path : Path)
  | unopenable (path : Path) (cause : Cause)
deriving DecidableEq, Repr

/-- The path of a source. -/
def Visit.source? : Visit → Option Path
  | source path => some path
  | unopenable .. => none

/-- A walk from a root: whether the root leads to a directory, and what was come
upon, in order. -/
structure Walk where
  rootIsDirectory : Bool
  visits : List Visit

/-- The sources that a walk came upon. -/
def Walk.sources (walk : Walk) : List Path :=
  walk.visits.filterMap Visit.source?

namespace Node

mutual

/-- What a walk comes upon at a node under a path and below it. -/
def visits (path : Path) : Node → List Visit
  | directory entries =>
    if path.length ≥ pathLimit then [.unopenable path .nameTooLong]
    else ((entryVisits path entries).mergeSort (·.1 ≤ ·.1)).flatMap (·.2)
  | file _ => if path.isSource then [.source path] else []
  | link _ => if path.isSource then [.source path] else []

/-- What a walk comes upon at each of the entries of a directory under a path. -/
def entryVisits (path : Path) : List (Name × Node) → List (Name × List Visit)
  | [] => []
  | (name, node) :: entries => (name, visits (path.join name) node) :: entryVisits path entries

end

/-- The one root that is not walked: a single dash stands for the standard input,
which holds no files. -/
def isStandardInput (root : Path) : Bool :=
  !root.isAbsolute && root.segments.head? != some Path.here
    && root.segments.filter (!Path.isIdle ·) == [[0x2D]]

/-- The walk from a root that leads to the directory `node`.  A root that is a link is
a source when its name is a source's. -/
def walkFrom (root : Path) (isLink : Bool) (node : Node) : Walk :=
  if isStandardInput root then ⟨true, []⟩
  else
    let atRoot := if isLink && root.isSource then [Visit.source root] else []
    ⟨true, atRoot ++ visits root node⟩

/-- The walk from a root. -/
def walk (tree : Node) (root : Path) : Walk :=
  match tree.node? root with
  | some (directory entries) => walkFrom root (tree.namesLink root) (directory entries)
  | _ => ⟨false, []⟩

/-- The sources below a root. -/
def findSources (tree : Node) (root : Path) : List Path :=
  (tree.walk root).sources

end Node

end JavadocCoverage
