import Grapnel.Delivery.Config
import Grapnel.Document.Memory
import Grapnel.Document.Process

namespace Grapnel

namespace Document

/-- A time in nanoseconds, from whole seconds and nanoseconds. The seconds that are among the
nanoseconds have to fit too. -/
def duration? (d : Document) : Option Nat :=
  if known d then
    (FieldReader.run? parts d).bind fun (seconds, nanoseconds) =>
      if seconds + nanoseconds / second < 2 ^ 64 then some (seconds * second + nanoseconds) else none
  else none
where
  /-- Other fields are refused. -/
  known : Document → Bool
    | .record fields => fields.all fun f => f.1 == "secs" || f.1 == "nanos"
    | _ => true
  parts : FieldReader (Nat × Nat) := do
    return (← .required "secs" (word? 64), ← .required "nanos" (word? 32))

def ofDuration (nanoseconds : Nat) : Document :=
  .record [("secs", .ofNat (nanoseconds / second)), ("nanos", .ofNat (nanoseconds % second))]

end Document

namespace InjectionState

def ofDocument? : Document → Option InjectionState :=
  Document.variant? name
    [.idle, .scanning, .found, .attaching, .injected, .detached, .failed, .executing]

def toDocument (s : InjectionState) : Document := .text s.name

instance : Documented InjectionState := ⟨ofDocument?, toDocument⟩

end InjectionState

namespace InjectionMode

def ofDocument? : Document → Option InjectionMode := Document.variant? name [.localOnly, .full]

def toDocument (m : InjectionMode) : Document := .text m.name

instance : Documented InjectionMode := ⟨ofDocument?, toDocument⟩

end InjectionMode

namespace FailureReason

def ofDocument? : Document → Option FailureReason :=
  Document.variant? name [.notFound, .inaccessible, .vmNotLocated]

def toDocument (r : FailureReason) : Document := .text r.name

instance : Documented FailureReason := ⟨ofDocument?, toDocument⟩

end FailureReason

namespace VmLocation

def ofDocument? : Document → Option VmLocation := FieldReader.run? do
  return {
    address := ← .required "address" Address.ofDocument?
    regionStart := ← .required "region_start" Address.ofDocument?
    regionPath := ← .optional "region_path" Document.text?
    regionsScanned := ← .required "regions_scanned" (Document.word? 64)
    bytesScanned := ← .required "bytes_scanned" (Document.word? 64)
    validated := ← .required "validated" Document.truth? }

def toDocument (v : VmLocation) : Document :=
  .record [("address", v.address.toDocument), ("region_start", v.regionStart.toDocument),
    ("region_path", .ofOption .text v.regionPath), ("regions_scanned", .ofNat v.regionsScanned),
    ("bytes_scanned", .ofNat v.bytesScanned), ("validated", .truth v.validated)]

instance : Documented VmLocation := ⟨ofDocument?, toDocument⟩

end VmLocation

namespace InjectorConfig

def ofDocument? : Document → Option InjectorConfig := FieldReader.run? do
  return {
    scanInterval := ← .defaulted "scan_interval" Document.duration? standard.scanInterval
    vmSignature := ← .defaulted "vm_signature" Document.text? standard.vmSignature
    maxRegionSize := ← .defaulted "max_region_size" (Document.word? 64) standard.maxRegionSize
    autoAttach := ← .defaulted "auto_attach" Document.truth? standard.autoAttach }

def toDocument (c : InjectorConfig) : Document :=
  .record [("scan_interval", .ofDuration c.scanInterval), ("vm_signature", .text c.vmSignature),
    ("max_region_size", .ofNat c.maxRegionSize), ("auto_attach", .truth c.autoAttach)]

instance : Documented InjectorConfig := ⟨ofDocument?, toDocument⟩

end InjectorConfig

namespace EngineConfig

def ofDocument? : Document → Option EngineConfig := FieldReader.run? do
  return {
    name := ← .defaulted "name" Document.text? standard.name
    version := ← .defaulted "version" Document.text? standard.version
    primary := ← .defaulted "primary" Document.truth? standard.primary
    instructionInterval :=
      ← .defaulted "instruction_interval" (Document.word? 32) standard.instructionInterval
    workspace := ← .defaulted "workspace" Document.text? standard.workspace
    environmentBootstrap :=
      ← .defaulted "environment_bootstrap" (Document.optional? Document.text?)
        standard.environmentBootstrap }

def toDocument (c : EngineConfig) : Document :=
  .record [("name", .text c.name), ("version", .text c.version), ("primary", .truth c.primary),
    ("instruction_interval", .ofNat c.instructionInterval), ("workspace", .text c.workspace),
    ("environment_bootstrap", .ofOption .text c.environmentBootstrap)]

instance : Documented EngineConfig := ⟨ofDocument?, toDocument⟩

end EngineConfig

namespace ChannelConfig

def ofDocument? : Document → Option ChannelConfig := FieldReader.run? do
  return {
    path := ← .defaulted "path" Document.text? standard.path
    tickInterval := ← .defaulted "tick_interval" Document.duration? standard.tickInterval
    readTimeout := ← .defaulted "read_timeout" Document.duration? standard.readTimeout }

def toDocument (c : ChannelConfig) : Document :=
  .record [("path", .text c.path), ("tick_interval", .ofDuration c.tickInterval),
    ("read_timeout", .ofDuration c.readTimeout)]

instance : Documented ChannelConfig := ⟨ofDocument?, toDocument⟩

end ChannelConfig

namespace OrchestratorConfig

def ofDocument? : Document → Option OrchestratorConfig := FieldReader.run? do
  return {
    locator := ← .defaulted "locator" LocatorConfig.ofDocument? standard.locator
    injector := ← .defaulted "injector" InjectorConfig.ofDocument? standard.injector
    engine := ← .defaulted "engine" EngineConfig.ofDocument? standard.engine
    socketPath := ← .defaulted "socket_path" Document.text? standard.socketPath
    idleTick := ← .defaulted "idle_tick" Document.duration? standard.idleTick
    backgroundScan := ← .defaulted "background_scan" Document.truth? standard.backgroundScan }

def toDocument (c : OrchestratorConfig) : Document :=
  .record [("locator", c.locator.toDocument), ("injector", c.injector.toDocument),
    ("engine", c.engine.toDocument), ("socket_path", .text c.socketPath),
    ("idle_tick", .ofDuration c.idleTick), ("background_scan", .truth c.backgroundScan)]

instance : Documented OrchestratorConfig := ⟨ofDocument?, toDocument⟩

end OrchestratorConfig

end Grapnel
