import Grapnel.Script.Engine

namespace Grapnel

/-- A script that does not end keeps the thread busy until it is asked to stop. What it reports after
that is computed at once, but held back until then. -/
structure EngineThread where
  engine : Engine
  /-- What an endless script will report when it is stopped, the latest first. -/
  held : Option (List Report)
deriving Inhabited

namespace EngineThread

/-- After so many looks at the stop flag a script counts as endless. -/
def patience : Nat := 2000

def ofEngine (engine : Engine) : EngineThread := ⟨engine, none⟩

def isBusy (t : EngineThread) : Bool := t.held.isSome

def setStop (e : Engine) (stop : StopFlag) : Engine := e.mapHost fun h => { h with stop }

/-- Holds back what was reported after the patience was over. -/
def settle (e : Engine) : EngineThread :=
  match e.host.stop with
  | .impatient reports =>
    let late := e.host.reports.length - reports
    ⟨e.mapHost fun h => { h with reports := h.reports.drop late },
      some (e.host.reports.take late)⟩
  | .patient _ => ⟨setStop e .lowered, none⟩
  | _ => ⟨e, none⟩

def execute (t : EngineThread) (source : Guest.Text) (name : String) :
    Except EngineFault Unit × EngineThread :=
  let (r, e) := (setStop t.engine (.patient patience)).execute source name
  (r, settle e)

/-- Runs the tasks that are due. A stop that was asked for concerns them too. -/
def tick (t : EngineThread) : EngineThread :=
  let e := if t.engine.host.stop = .raised then t.engine
    else setStop t.engine (.patient patience)
  settle e.tick.2

def interrupt (t : EngineThread) : EngineThread :=
  let e := t.engine.mapHost fun h => { h with reports := t.held.getD [] ++ h.reports }
  ⟨e.requestStop, none⟩

def shutdown (t : EngineThread) : EngineThread := { t with engine := t.engine.shutdown }

/-- Lets the engine work on some files; answers what became of them. -/
def onFiles {α : Type} (t : EngineThread) (files : Node)
    (work : EngineThread → α × EngineThread) : α × EngineThread × Node :=
  let (a, t) := work { t with engine := t.engine.mapHost fun h => { h with files } }
  (a, t, t.engine.host.files)

end EngineThread

end Grapnel
