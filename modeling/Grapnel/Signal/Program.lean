import Grapnel.Signal.Bus

namespace Grapnel

namespace Signal

inductive Request where
  | create (name : String)
  | connect (id : SignalId) (callback : String)
  | disconnect (h : ConnectionHandle)
  | isConnected (h : ConnectionHandle)
  | connectionCount (id : SignalId)
  | name (id : SignalId)
  | contains (id : SignalId)
  | length
  | destroy (id : SignalId)
  | clear
  | fire (id : SignalId)
deriving Inhabited

inductive Answer where
  | created (id : SignalId)
  | connected (h : Option ConnectionHandle)
  | truth (b : Bool)
  | count (n : Nat)
  | name (found : Option String)
  | length (count : Nat)
  | cleared
  /-- How many callbacks were invoked, and what each one's requests were answered. -/
  | fired (invoked : Nat) (seen : List (String × List Answer))
deriving Inhabited

/-- Callbacks by name with what they do, the bus, and what was seen of the firing under way. -/
structure Stage where
  callbacks : List (String × List Request)
  bus : SignalBus String
  seen : List (String × List Answer)
deriving Inhabited

namespace Stage

def ofCallbacks (callbacks : List (String × List Request)) : Stage := ⟨callbacks, .empty, []⟩

/-- Carries out requests one after the other. -/
def askAll (ask : Stage → Request → Answer × Stage) (s : Stage) :
    List Request → List Answer × Stage
  | [] => ([], s)
  | r :: rs =>
    let (a, s) := ask s r
    let (as, s) := askAll ask s rs
    (a :: as, s)

/-- The stage as a world in which callbacks run; `ask` answers what they ask. -/
def delivery (ask : Stage → Request → Answer × Stage) : Delivery Stage String where
  bus s := s.bus
  invoke callback s :=
    let (answers, after) := askAll ask s ((s.callbacks.lookup callback).getD [])
    { after with seen := s.seen ++ [(callback, answers)] }

/-- Answers a request; firings may be nested as deeply as `fuel` says. -/
def ask : (fuel : Nat) → Stage → Request → Answer × Stage
  | 0, s, .fire _ => (.fired 0 [], s)
  | fuel + 1, s, .fire id =>
    let (invoked, after) := (delivery (ask fuel)).fire id { s with seen := [] }
    (.fired invoked after.seen, { after with seen := s.seen })
  | _, s, .create name =>
    let (id, bus) := s.bus.create name
    (.created id, { s with bus })
  | _, s, .connect id callback =>
    let (h, bus) := s.bus.connect id callback
    (.connected h, { s with bus })
  | _, s, .disconnect h =>
    let (found, bus) := s.bus.disconnect h
    (.truth found, { s with bus })
  | _, s, .isConnected h => (.truth (s.bus.isConnected h), s)
  | _, s, .connectionCount id => (.count (s.bus.connectionCount id), s)
  | _, s, .name id => (.name (s.bus.name? id), s)
  | _, s, .contains id => (.truth (s.bus.contains id), s)
  | _, s, .length => (.length s.bus.length, s)
  | _, s, .destroy id =>
    let (found, bus) := s.bus.destroy id
    (.truth found, { s with bus })
  | _, s, .clear => (.cleared, { s with bus := s.bus.clear })

/-- No program nests firings more deeply. -/
def maxNesting : Nat := 10000

def request (s : Stage) (r : Request) : Answer × Stage := ask maxNesting s r

end Stage

end Signal

end Grapnel
