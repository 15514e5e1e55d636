import Grapnel.Script.Failure

namespace Grapnel

structure EngineConfig where
  name : String
  version : String
  primary : Bool
  /-- The count of steps between two looks at the stop flag. -/
  instructionInterval : Nat
  workspace : String
  environmentBootstrap : Option String
deriving DecidableEq, Inhabited

namespace EngineConfig

def standard : EngineConfig := ⟨"Tether", "0.1.0", true, 1000, "workspace", none⟩

end EngineConfig

/-- What an observer of an engine is told. -/
inductive Report where
  | output (text : String)
  | error (e : ScriptError)
deriving DecidableEq, Inhabited

end Grapnel
