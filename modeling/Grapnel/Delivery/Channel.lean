import Grapnel.Delivery.Post
import Grapnel.Script.Thread
import Grapnel.Text.Blank

namespace Grapnel

inductive ChannelFault where
  | socket (path : String) (fault : IoFault)
  | engine (fault : EngineFault)
deriving DecidableEq, Inhabited

namespace ChannelFault

def message : ChannelFault → String
  | .socket path fault => "Socket error on " ++ path ++ ": " ++ fault.message
  | .engine fault => fault.message

end ChannelFault

/-- It listens at a socket and gives each body that comes in to an engine of its own. -/
structure Channel where
  path : String
  thread : EngineThread
  isRunning : Bool
  delivered : Nat
deriving Inhabited

namespace Channel

/-- Starts an engine, removes what an earlier channel left, and listens. -/
def start (path : String) (engine : Engine) (p : Post) : Except ChannelFault Channel × Post :=
  let (started, t, files) := (EngineThread.ofEngine engine).onFiles p.files fun t =>
    let (r, e) := t.engine.init
    (r, .ofEngine e)
  let p := { p with files }
  match started with
  | .error fault => (.error (.engine fault), p)
  | .ok _ =>
    match p.removeStale path with
    | .error fault => (.error (.socket path fault), p)
    | .ok p =>
      match p.bind path with
      | .error fault => (.error (.socket path fault), p)
      | .ok p => (.ok ⟨path, t, true, 0⟩, p)

/-- Gives a body to the engine; a blank one is no script. -/
def receive (c : Channel) (body : List UInt8) (files : Node) : Channel × Node :=
  let source := Utf8.lossy body
  if (Text.trim source.toList).isEmpty then (c, files)
  else
    let (_, thread, files) := c.thread.onFiles files fun t =>
      t.execute (Guest.text source) ("delivered-" ++ toString c.delivered)
    ({ c with thread, delivered := c.delivered + 1 }, files)

/-- Takes the oldest body that waits, unless a script is still running. -/
def accept (c : Channel) (p : Post) : Channel × Post :=
  if c.isRunning && !c.thread.isBusy then
    match p.take? with
    | some (body, p) =>
      let (c, files) := c.receive body p.files
      (c, { p with files })
    | none => (c, p)
  else (c, p)

def tick (c : Channel) (p : Post) : Channel × Post :=
  if c.isRunning && !c.thread.isBusy then
    let (_, thread, files) := c.thread.onFiles p.files fun t => ((), t.tick)
    ({ c with thread }, { p with files })
  else (c, p)

/-- Stops what runs, removes the socket and drops the machine; once is enough. -/
def shutdown (c : Channel) (p : Post) : Channel × Post :=
  if c.isRunning then
    ({ c with thread := c.thread.interrupt.shutdown, isRunning := false }, p.close c.path)
  else (c, p)

end Channel

end Grapnel
