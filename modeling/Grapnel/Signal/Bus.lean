namespace Grapnel

/-- Signals are numbered from one in the order in which they are created. -/
structure SignalId where
  number : Nat
deriving DecidableEq, Inhabited

/-- One connection of a signal, by its position. -/
structure ConnectionHandle where
  signal : SignalId
  index : Nat
deriving DecidableEq, Inhabited

structure Connection (Callback : Type) where
  callback : Callback
  connected : Bool
deriving Inhabited

structure Signal (Callback : Type) where
  id : SignalId
  name : String
  connections : List (Connection Callback)
deriving Inhabited

/-- Signals in the order of their creation. -/
structure SignalBus (Callback : Type) where
  signals : List (Signal Callback)
  nextId : Nat

namespace SignalBus

variable {Callback : Type}

def empty : SignalBus Callback := ⟨[], 1⟩

instance : Inhabited (SignalBus Callback) := ⟨empty⟩

def get? (b : SignalBus Callback) (id : SignalId) : Option (Signal Callback) :=
  b.signals.find? fun s => s.id = id

def update (b : SignalBus Callback) (id : SignalId) (f : Signal Callback → Signal Callback) :
    SignalBus Callback :=
  { b with signals := b.signals.map fun s => if s.id = id then f s else s }

def create (b : SignalBus Callback) (name : String) : SignalId × SignalBus Callback :=
  let id : SignalId := ⟨b.nextId⟩
  (id, ⟨b.signals ++ [⟨id, name, []⟩], b.nextId + 1⟩)

def name? (b : SignalBus Callback) (id : SignalId) : Option String := (b.get? id).map (·.name)

def contains (b : SignalBus Callback) (id : SignalId) : Bool := (b.get? id).isSome

def length (b : SignalBus Callback) : Nat := b.signals.length

/-- Adds a connection, unless the signal was destroyed. -/
def connect (b : SignalBus Callback) (id : SignalId) (callback : Callback) :
    Option ConnectionHandle × SignalBus Callback :=
  match b.get? id with
  | some s =>
    (some ⟨id, s.connections.length⟩,
      b.update id fun s => { s with connections := s.connections ++ [⟨callback, true⟩] })
  | none => (none, b)

def connection? (b : SignalBus Callback) (h : ConnectionHandle) : Option (Connection Callback) :=
  (b.get? h.signal).bind fun s => s.connections[h.index]?

def isConnected (b : SignalBus Callback) (h : ConnectionHandle) : Bool :=
  (b.connection? h).any (·.connected)

/-- Disconnects; answers whether the connection was connected. -/
def disconnect (b : SignalBus Callback) (h : ConnectionHandle) : Bool × SignalBus Callback :=
  if b.isConnected h then
    (true, b.update h.signal fun s =>
      { s with connections := s.connections.modify h.index fun c => { c with connected := false } })
  else (false, b)

/-- The count of connections ever made to a signal. -/
def connectionCount (b : SignalBus Callback) (id : SignalId) : Nat :=
  ((b.get? id).map (·.connections.length)).getD 0

/-- Removes a signal with its callbacks; answers whether it existed. -/
def destroy (b : SignalBus Callback) (id : SignalId) : Bool × SignalBus Callback :=
  (b.contains id, { b with signals := b.signals.filter fun s => s.id ≠ id })

def clear (b : SignalBus Callback) : SignalBus Callback := { b with signals := [] }

/-- The callback of a connection that is connected. -/
def liveCallback? (b : SignalBus Callback) (h : ConnectionHandle) : Option Callback :=
  (b.connection? h).bind fun c => if c.connected then some c.callback else none

end SignalBus

/-- A world `W` that holds a bus and in which callbacks run. -/
structure Delivery (W Callback : Type) where
  bus : W → SignalBus Callback
  invoke : Callback → W → W

namespace Delivery

variable {W Callback : Type}

/-- Visits `count` connections from `index` on; each is invoked if it is connected when its turn
comes. -/
def fireFrom (d : Delivery W Callback) (id : SignalId) :
    (count index : Nat) → (invoked : Nat) → W → Nat × W
  | 0, _, invoked, w => (invoked, w)
  | count + 1, index, invoked, w =>
    match (d.bus w).liveCallback? ⟨id, index⟩ with
    | some callback => d.fireFrom id count (index + 1) (invoked + 1) (d.invoke callback w)
    | none => d.fireFrom id count (index + 1) invoked w

/-- Invokes the connected callbacks of a signal in the order of their connections; those that exist
when it begins are visited, each once. Answers the count of callbacks invoked. -/
def fire (d : Delivery W Callback) (id : SignalId) (w : W) : Nat × W :=
  d.fireFrom id ((d.bus w).connectionCount id) 0 0 w

end Delivery

end Grapnel
