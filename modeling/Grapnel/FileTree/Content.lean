import Grapnel.FileTree.Basic
import Grapnel.Text.Utf8

namespace Grapnel

namespace FileTree

/-- The content of a file, which has to be UTF-8. -/
def readText (root : Node) (names : List String) : Except IoFault String := do
  match Utf8.decode (← read root names) with
  | .ok s => return s
  | .error _ => throw .notText

end FileTree

end Grapnel
