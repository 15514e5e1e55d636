import Grapnel.FileTree.Fault

namespace Grapnel

inductive WorkspaceFault where
  | escape (path : String)
  | notFound (path : String)
  /-- The operating system refused; the path is the resolved one. -/
  | io (path : String) (fault : IoFault)
deriving DecidableEq, Inhabited

namespace WorkspaceFault

def message : WorkspaceFault → String
  | .escape path => "Path escapes the workspace: " ++ path
  | .notFound path => "No such file or folder: " ++ path
  | .io path fault => "Workspace I/O error on " ++ path ++ ": " ++ fault.message

end WorkspaceFault

end Grapnel
