import Grapnel.Orchestrator.Basic

namespace Grapnel

/-- An orchestrator and the channel of its target, taking turns. Time passes only while reports are
waited for, and then from one due task to the next. -/
structure Ensemble (D W : Type) where
  orchestrator : Orchestrator D W
  channel : Option Channel

namespace Ensemble

variable {D W : Type} (tools : InjectorTools D W)

/-- Makes the first round of the background, if it is on. -/
def ofOrchestrator (o : Orchestrator D W) : Ensemble D W :=
  ⟨if o.injector.inBackground then (o.inject tools .round).2 else o, none⟩

def mapPost (e : Ensemble D W) (f : Post → Post) : Ensemble D W :=
  { e with orchestrator := { e.orchestrator with post := f e.orchestrator.post } }

/-- Starts a channel; one that was there before is shut down after that. -/
def startChannel (e : Ensemble D W) (path : String) (engine : Engine) :
    Except ChannelFault Channel × Ensemble D W :=
  match Channel.start path engine e.orchestrator.post with
  | (.error fault, post) => (.error fault, e.mapPost fun _ => post)
  | (.ok c, post) =>
    let post := match e.channel with
      | some old => (old.shutdown post).2
      | none => post
    (.ok c, { e with channel := some c }.mapPost fun _ => post)

def stopChannel (e : Ensemble D W) : Ensemble D W :=
  match e.channel with
  | some c =>
    let (c, post) := c.shutdown e.orchestrator.post
    { e with channel := some c }.mapPost fun _ => post
  | none => e

/-- The channel takes the bodies that wait, at most so many. -/
def acceptAll : Nat → Channel → Post → Channel × Post
  | 0, c, p => (c, p)
  | n + 1, c, p =>
    let (c, p) := c.accept p
    acceptAll n c p

/-- The worker handles the scripts that wait, at most so many. -/
def workAll : Nat → Orchestrator D W → Orchestrator D W
  | 0, o => o.work tools
  | n + 1, o => if o.jobs.isEmpty then o.work tools else workAll n (o.work tools)

/-- Everybody does what there is to do now. -/
def turn (e : Ensemble D W) : Ensemble D W :=
  let o := workAll tools e.orchestrator.jobs.length e.orchestrator
  match e.channel with
  | none => { e with orchestrator := o }
  | some c =>
    let (c, post) := acceptAll o.post.waiting.length c o.post
    let (c, post) := c.tick post
    ⟨{ o with post }, some c⟩

/-- How many reports there are of the orchestrator's engine and of the channel's. -/
def counts (e : Ensemble D W) : Nat × Nat :=
  (e.orchestrator.thread.engine.host.reports.length,
    match e.channel with
      | some c => c.thread.engine.host.reports.length
      | none => 0)

/-- How long it is until a task of an engine is due. -/
def wait? (t : EngineThread) : Option Nat :=
  if t.isBusy then none else t.engine.nextDue?.map (· - t.engine.host.clock)

def sooner : Option Nat → Option Nat → Option Nat
  | some a, some b => some (min a b)
  | some a, none => some a
  | none, b => b

def pass (nanoseconds : Nat) (t : EngineThread) : EngineThread :=
  { t with engine := t.engine.advance nanoseconds }

/-- Takes turns until there are so many reports; answers whether they came. -/
def await (near remote : Nat) : (turns : Nat) → Ensemble D W → Bool × Ensemble D W
  | 0, e => (false, e)
  | turns + 1, e =>
    let e := e.turn tools
    let (a, b) := e.counts
    if near ≤ a ∧ remote ≤ b then (true, e)
    else
      match sooner (wait? e.orchestrator.thread) (e.channel.bind fun c => wait? c.thread) with
      | none => (false, e)
      | some time =>
        await near remote turns
          ⟨{ e.orchestrator with thread := pass time e.orchestrator.thread },
            e.channel.map fun c => { c with thread := pass time c.thread }⟩

/-- More turns than any report is worth waiting for. -/
def manyTurns : Nat := 10000

/-- Hands over the reports of both engines. -/
def takeReports (e : Ensemble D W) : List Report × List Report × Ensemble D W :=
  let o := e.orchestrator
  let (near, engine) := o.thread.engine.takeReports
  let o := { o with thread := { o.thread with engine } }
  match e.channel with
  | none => (near, [], { e with orchestrator := o })
  | some c =>
    let (remote, engine) := c.thread.engine.takeReports
    (near, remote, ⟨o, some { c with thread := { c.thread with engine } }⟩)

end Ensemble

end Grapnel
