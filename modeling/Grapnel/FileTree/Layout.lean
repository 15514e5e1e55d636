import Grapnel.FileTree.Basic

namespace Grapnel

namespace Node

mutual

/-- Everything below a node with its names from there, a directory before what is in it. -/
def descendants : Node → List (List String × Node)
  | .directory entries => descendantsOf entries
  | _ => []

def descendantsOf : List (String × Node) → List (List String × Node)
  | [] => []
  | (name, n) :: rest =>
    ([name], n) :: ((descendants n).map fun e => (name :: e.1, e.2)) ++ descendantsOf rest

end

/-- Everything below a node by its path, in byte order of the paths. -/
def listing (n : Node) : List (String × Node) :=
  ((descendants n).map fun e => ("/".intercalate e.1, e.2)).mergeSort fun a b => a.1 ≤ b.1

end Node

namespace FileTree

/-- Puts a node at a path, with the directories above it. A directory that exists stays. -/
def plant (root : Node) (names : List String) (n : Node) : Node :=
  let (_, root) := makeDirectories root names.dropLast
  match n with
  | .directory _ => (makeDirectories root names).2
  | .file content => (write .sound root names content).2
  | n =>
    match walkShort root names with
    | .ok ⟨names, none⟩ => root.set names (some n)
    | _ => root

end FileTree

end Grapnel
