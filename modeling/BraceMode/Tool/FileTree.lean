import BraceMode.Tool.World

/-! Files below one working directory. A path is walked part by part, and every part but the last has to be
a directory. Above the working directory there are only directories. -/

namespace BraceMode.Tool

/-- Nodes under their path below the working directory; the first one under a path counts, and the
directories above a node are there without being listed. -/
structure FileTree where
  nodes : List (List String × FileNode) := []

/-- Where a walk stands: below the working directory, or above it. -/
inductive Place where
  | below (parts : List String)
  | above

namespace FileTree

/-- Puts a node under a path, in place of what was there. -/
def insert (tree : FileTree) (path : String) (node : FileNode) : FileTree where
  nodes := (path.splitOn "/", node) :: tree.nodes

/-- The node at a place. -/
def node? (tree : FileTree) : Place → Option FileNode
  | .above => some .directory
  | .below parts =>
    match tree.nodes.lookup parts with
    | some node => some node
    | none =>
      if parts.isEmpty || tree.nodes.any fun n => parts.isPrefixOf n.1 then some .directory else none

/-- The place one part of a path further on; none when it does not exist. -/
def step? (tree : FileTree) (here : Place) (part : String) : Option Place :=
  if tree.node? here != some .directory then none
  else if part = "" ∨ part = "." then some here
  else
    let next : Option Place := match here with
      | .above => if part = ".." then some .above else none
      | .below parts =>
        if part = ".." then (if parts.isEmpty then some .above else some (.below parts.dropLast))
        else some (.below (parts ++ [part]))
    next.filter fun place => (tree.node? place).isSome

/-- The node that a path leads to. The empty path leads nowhere. -/
def find? (tree : FileTree) (path : String) : Option FileNode := do
  if path.isEmpty then none
  let start : Place := if path.startsWith "/" then .above else .below []
  let place ← (path.splitOn "/").foldlM tree.step? start
  tree.node? place

end FileTree

end BraceMode.Tool
