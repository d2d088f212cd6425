import JavadocCoverage.Files.Path

/-!
# File trees

Trees of directories, files and symbolic links; the node that a list of names
leads to; and trees with one node put in or taken out.

Trees are idealised: a node has no owner, no permissions and no times, a file has one
name, and there are no pipes, sockets and devices.
-/

namespace JavadocCoverage

/-- A file with its content, a symbolic link with the path it holds, or a directory
with its entries. -/
inductive Node
  | file (content : Bytes)
  | link (target : Path)
  | directory (entries : List (Name × Node))

namespace Node

/-- The node is a directory. -/
def isDirectory : Node → Bool
  | directory _ => true
  | _ => false

/-- The node is a symbolic link. -/
def isLink : Node → Bool
  | link _ => true
  | _ => false

/-- The entry of a directory with the given name. -/
def entry? (node : Node) (name : Name) : Option Node :=
  match node with
  | directory entries => entries.lookup name
  | _ => none

/-- The node that names lead to, entry by entry. -/
def at? (node : Node) : List Name → Option Node
  | [] => some node
  | name :: names => (node.entry? name).bind (·.at? names)

/-- The entries with `node` under `name`. -/
def putEntry (name : Name) (node : Node) : List (Name × Node) → List (Name × Node)
  | [] => [(name, node)]
  | (name', node') :: entries =>
    if name' = name then (name, node) :: entries else (name', node') :: putEntry name node entries

/-- The tree with a node where the names lead.  Directories missing on the way are
made; the tree is unchanged when a file or a link stands in the way. -/
def put : Node → List Name → Node → Node
  | _, [], node => node
  | directory entries, name :: names, node =>
    let below := (entries.lookup name).getD (directory [])
    directory (putEntry name (below.put names node) entries)
  | tree, _ :: _, _ => tree

/-- The tree without the node to which the names lead. -/
def erase : Node → List Name → Node
  | directory entries, [name] => directory (entries.filter (·.1 ≠ name))
  | directory entries, name :: names =>
    match entries.lookup name with
    | some below => directory (putEntry name (below.erase names) entries)
    | none => directory entries
  | tree, _ => tree

end Node

end JavadocCoverage
