import Grapnel.Machine.HostAction

namespace Grapnel

open Guest HostAction

namespace ChunkLibrary

/-- Compiles a text under a name that a script may have chosen. -/
def compileNamed (name : String) (source : Text) : Except Failure Proto :=
  let bytes := text name
  match bytes.toList.findIdx? (· == 0) with
  | some i =>
    .error (.raised ("invalid name: nul byte found in provided data at position: " ++ toString i))
  | none =>
    match Chunk.compile bytes source with
    | .ok proto => .ok proto
    | .error message => .error (.rejected (hostText message))

/-- The main function of a chunk in the globals. -/
def chunkFunction (name : String) (source : Text) : HostAction FunctionRef := do
  let proto ← compileNamed name source
  let globals := (← get).globals
  let cell ← guest (Action.onHeap (·.newCell (.table globals)))
  guest (Action.onHeap (·.newFunction (.guest proto #[cell])))

/-- A function, or nil and the text of a failure. -/
def orText (a : HostAction FunctionRef) : HostAction (List Value) :=
  tryCatch (do return [.function (← a), .nil]) fun failure =>
    return [.nil, .ofString failure.message]

/-- Compiles a text that a script has; the name is for messages. -/
def loadText (c : NativeCall) : HostAction (List Value) := do
  let source ← bytes c 1
  let name := (← optionalString c 2).getD "loadstring"
  orText (chunkFunction (SourceTag.load.namedChunk name) source)

end ChunkLibrary

end Grapnel
