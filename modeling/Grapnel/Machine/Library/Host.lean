import Grapnel.Machine.Library.Chunks

namespace Grapnel

open Guest HostAction

namespace HostLibrary

def failureText (c : NativeCall) : HostAction (List Value) := do
  match c.arg 1 with
  | .userdata u =>
    match (← Action.heap).userdatum u with
    | .failure f => return [.ofString f.message]
    | _ => return [.nil]
  | _ => return [.nil]

/-- The host's text of a value: numbers without an exponent, texts only in UTF-8. -/
def shown (v : Value) : HostAction String := do
  match v with
  | .nil => return "nil"
  | .boolean b => return if b then "true" else "false"
  | .integer n => return toString n.toInt
  | .float x => return x.plainText
  | .string s =>
    match Utf8.decode s.toList with
    | .ok s => return s
    | .error fault => throw (.conversion "string" "&str" (some fault.message))
  | v =>
    match ← guest (isolated (Action.toText v)) with
    | .ok s =>
      match Utf8.decode s.toList with
      | .ok s => return s
      | .error fault => throw (.conversion "string" "&str" (some fault.message))
    | .error error => throw (← guest (failureOf 10 error))

def output (text : String) : HostAction (List Value) := do
  modify fun m => { m with host := m.host.output text }
  return []

def print (c : NativeCall) : HostAction (List Value) := do
  output ("\t".intercalate (← c.args.mapM shown))

def warn (c : NativeCall) : HostAction (List Value) := do
  output ("warning: " ++ String.join (← c.args.mapM shown))

def body (f : HostFunction) (c : NativeCall) : HostAction (List Value) := do
  match f with
  | .print => print c
  | .warn => warn c
  | .loadText => ChunkLibrary.loadText c
  | .setClipboard =>
    -- There is no clipboard to set.
    discard (bytes c 1)
    return [.boolean false]
  | .identify =>
    let config := (← get).host.config
    return [.ofString config.name, .ofString config.version]
  | .globals => return [.table (← get).globals]
  | .failureText => failureText c

end HostLibrary

end Grapnel
