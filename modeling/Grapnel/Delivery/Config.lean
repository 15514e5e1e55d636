import Grapnel.Injector.State
import Grapnel.Process.Locator
import Grapnel.Script.Config

namespace Grapnel

/-- Times are in nanoseconds; a timeout of zero is without a limit. -/
structure ChannelConfig where
  path : String
  tickInterval : Nat
  readTimeout : Nat
deriving DecidableEq, Inhabited

namespace ChannelConfig

def standard : ChannelConfig := ⟨"/tmp/tether.sock", 16 * millisecond, 5 * second⟩

end ChannelConfig

/-- Times are in nanoseconds. -/
structure OrchestratorConfig where
  locator : LocatorConfig
  injector : InjectorConfig
  engine : EngineConfig
  socketPath : String
  idleTick : Nat
  backgroundScan : Bool
deriving DecidableEq, Inhabited

namespace OrchestratorConfig

def standard : OrchestratorConfig where
  locator := .standard
  injector := .standard
  engine := .standard
  socketPath := ChannelConfig.standard.path
  idleTick := 16 * millisecond
  backgroundScan := true

end OrchestratorConfig

end Grapnel
