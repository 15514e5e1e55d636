import Grapnel.Script.Engine
import Grapnel.Proofs.Machine.Surroundings
import Grapnel.Proofs.Script.HardenedLoad

namespace Grapnel

open Guest

namespace Machine

section

variable (m : Machine) (host : Host) (workspace : Workspace)

theorem globals_within : (m.within host workspace).globals = m.globals := rfl

theorem depth_within : (m.within host workspace).depth = m.depth := rfl

theorem library_within (name : String) : (m.within host workspace).library name = m.library name := rfl

theorem newTable_within : (m.within host workspace).newTable =
    (m.newTable.1, m.newTable.2.within host workspace) := rfl

theorem setField_within (t : TableRef) (name : String) (v : Value) :
    (m.within host workspace).setField t name v = (m.setField t name v).within host workspace := rfl

theorem register_within (b : Builtin) : (m.within host workspace).register b =
    ((m.register b).1, (m.register b).2.within host workspace) := by
  have hnatives : (m.within host workspace).natives = m.natives := rfl
  rw [register, register, hnatives]
  cases m.natives.lookup b <;> rfl

theorem foldl_within {β : Type} {f : Machine → β → Machine}
    (hf : ∀ m b, f (m.within host workspace) b = (f m b).within host workspace) (l : List β) :
    l.foldl f (m.within host workspace) = (l.foldl f m).within host workspace := by
  induction l generalizing m with
  | nil => rfl
  | cons b l ih => rw [List.foldl_cons, List.foldl_cons, hf, ih]

theorem install_within (t : TableRef) (library : Builtin.Library) :
    (m.within host workspace).install t library = (m.install t library).within host workspace := by
  rw [install, install]
  apply foldl_within
  intro m entry
  rw [installOne, register_within]
  rfl

theorem installOwn_within (t : TableRef) (library : Builtin.Library) :
    (m.within host workspace).installOwn t library =
      (m.installOwn t library).within host workspace := by
  rw [installOwn, installOwn]
  apply foldl_within
  intro m entry
  rw [register_within]
  rfl

theorem host_installOwn (t : TableRef) (library : Builtin.Library) :
    (m.installOwn t library).host = m.host := by
  have hinstall : m.installOwn t library = (m.installOwn t library).within m.host m.workspace :=
    installOwn_within m m.host m.workspace t library
  rw [hinstall]
  rfl

theorem addLibrary_within (entry : String × Builtin.Library) :
    (m.within host workspace).addLibrary entry = (m.addLibrary entry).within host workspace := by
  simp only [addLibrary, newTable_within, install_within]
  rfl

theorem addMetatables_within :
    (m.within host workspace).addMetatables = m.addMetatables.within host workspace := by
  simp only [addMetatables, newTable_within, install_within, setField_within, library_within]
  rfl

theorem furnish_within :
    (m.within host workspace).furnish = m.furnish.within host workspace := by
  have hconstants (m : Machine) : (m.within host workspace).addConstants =
      m.addConstants.within host workspace := rfl
  have hlibraries (m : Machine) : Builtin.libraries.foldl addLibrary (m.within host workspace) =
      (Builtin.libraries.foldl addLibrary m).within host workspace :=
    foldl_within m host workspace (fun m entry => addLibrary_within m host workspace entry) _
  have hregister (m : Machine) (l : List Builtin) :
      l.foldl (fun m b => (m.register b).2) (m.within host workspace) =
        (l.foldl (fun m b => (m.register b).2) m).within host workspace :=
    foldl_within m host workspace (fun m b => by rw [register_within]) l
  simp only [furnish, globals_within, install_within, setField_within, hlibraries, hconstants,
    addMetatables_within, hregister]

theorem bare_eq : bare host workspace = (bare default default).within host workspace :=
  furnish_within (blank default default) host workspace

theorem prepare_within : (m.within host workspace).prepare =
    (m.prepare.1, m.prepare.2.within host workspace) := by
  simp only [prepare, newTable_within, installOwn_within, globals_within]

theorem heap_equip_within : (m.within host workspace).equip.heap = m.equip.heap := by
  simp only [equip, installOwn_within, globals_within, within_heap]

theorem host_equip : m.equip.host = m.host := by
  simp only [equip, host_installOwn]

theorem globals_equip_within : (m.within host workspace).equip.globals = m.equip.globals := by
  simp only [equip, installOwn_within, globals_within]

end

/-- The machine after a call from outside of any call. -/
def returned (m : Machine) : Machine := { m with frames := m.frames.tail, control := .run }

theorem returned_within (m : Machine) (host : Host) (workspace : Workspace) :
    (m.within host workspace).returned = m.returned.within host workspace := rfl

/-- The machine as it calls a function from outside of any call. -/
def calling (m : Machine) (f : Value) (args : List Value) : Machine :=
  { m with
    frames := ⟨.native true, m.depth + 1, m.used⟩ :: m.frames
    control := .call f args none }

/-- The main function of a chunk, and the machine that has it. -/
def load (m : Machine) (p : Proto) : FunctionRef × Machine :=
  let (cell, heap) := m.heap.newCell (.table m.globals)
  let (f, heap) := heap.newFunction (.guest p #[cell])
  (f, { m with heap })

/-- The machine as it calls the main function of the prelude. -/
def called (m : Machine) (p : Proto) : Machine :=
  (m.prepare.2.load p).2.calling (.function (m.prepare.2.load p).1) [.table m.prepare.1]

theorem called_within (m : Machine) (p : Proto) (host : Host) (workspace : Workspace) :
    (m.within host workspace).called p = (m.called p).within host workspace := by
  have hload (m : Machine) : (m.within host workspace).load p =
      ((m.load p).1, (m.load p).2.within host workspace) := rfl
  have hcalling (m : Machine) (f : Value) (args : List Value) :
      (m.within host workspace).calling f args = (m.calling f args).within host workspace := rfl
  simp only [called, prepare_within, hload, hcalling]

end Machine

section

variable {run : Machine → Machine} {m m' : Machine} {results : List Value} {p : Proto}

theorem Action.run_nestedAt {depth : Nat} {f : Value} {args : List Value}
    (hrun : run { m with
      frames := ⟨.native true, depth, m.used⟩ :: m.frames
      control := .call f args none } = m')
    (hhalt : m'.control = .halt (.finished results)) :
    (nestedAt depth true f args).run run m = (.ok (.ok results), m'.returned) := by
  have hread : (read : Action (Machine → Machine)).run run m = (.ok run, m) := rfl
  have hset (before : Machine) : (set m' : Action PUnit).run run before = (.ok ⟨⟩, m') := rfl
  rw [nestedAt, run_bind_ok hread, run_bind_ok (run_get m)]
  dsimp only
  rw [hrun, run_bind_ok (hset m), run_bind_ok (run_get m'), hhalt]
  rfl

namespace HostAction

variable {α β : Type} {a : HostAction α} {x : α}

theorem run_bind_ok {f : α → HostAction β} (h : a.run.run run m = (.ok (.ok x), m')) :
    (a >>= f).run.run run m = (f x).run.run run m' := by
  have hbind : (a >>= f).run.run run m = (a.run >>= ExceptT.bindCont f).run run m := rfl
  rw [hbind, Action.run_bind_ok h]
  rfl

theorem run_guest {a : Action α} (h : a.run run m = (.ok x, m')) :
    (guest a).run.run run m = (.ok (.ok x), m') := by
  have hlift : (guest a).run.run run m = (a >>= fun x => pure (Except.ok x)).run run m := rfl
  rw [hlift, Action.run_bind_ok h]
  rfl

theorem run_discard (h : a.run.run run m = (.ok (.ok x), m')) :
    (discard a : HostAction Unit).run.run run m = (.ok (.ok ()), m') := by
  have hbind : (discard a : HostAction Unit).run.run run m =
      (a >>= fun _ => pure ()).run.run run m := rfl
  rw [hbind, run_bind_ok h]
  rfl

theorem run_call {f : Value} {args : List Value} (hdepth : m.depth = 0)
    (hrun : run (m.calling f args) = m') (hhalt : m'.control = .halt (.finished results)) :
    (call f args).run.run run m = (.ok (.ok results), m'.returned) := by
  have hsealed : (Action.callSealed f args).run run m = (.ok (.ok results), m'.returned) := by
    rw [Action.callSealed, Action.run_bind_ok (Action.run_get m)]
    dsimp only
    rw [hdepth, if_neg (by decide), if_neg (by decide)]
    rw [Machine.calling, hdepth] at hrun
    exact Action.run_nestedAt hrun hhalt
  rw [call, run_bind_ok (run_guest hsealed)]
  rfl

end HostAction

namespace ChunkLibrary

variable {name : String} {source : Text}

theorem compileNamed_eq (hname : (text name).toList.findIdx? (· == 0) = none)
    (hp : Chunk.compile (text name) source = .ok p) : compileNamed name source = .ok p := by
  simp only [compileNamed, hname, hp]

theorem run_chunkFunction (h : compileNamed name source = .ok p) :
    (chunkFunction name source).run.run run m = (.ok (.ok (m.load p).1), (m.load p).2) := by
  rw [chunkFunction, h]
  rfl

end ChunkLibrary

namespace Machine

theorem run_runChunk {tag : SourceTag} {source : Text} {args : List Value}
    (hp : ChunkLibrary.compileNamed tag.chunkName source = .ok p) (hdepth : m.depth = 0)
    (hrun : run ((m.load p).2.calling (.function (m.load p).1) args) = m')
    (hhalt : m'.control = .halt (.finished results)) :
    (runChunk tag source args).run.run run m = (.ok (.ok ()), m'.returned) := by
  have hcall := HostAction.run_call (m := (m.load p).2) hdepth hrun hhalt
  rw [runChunk, HostAction.run_bind_ok (ChunkLibrary.run_chunkFunction hp),
    HostAction.run_discard hcall]

theorem run_harden (hp : ChunkLibrary.compileNamed SourceTag.sandbox.chunkName Prelude.source = .ok p)
    (hdepth : m.prepare.2.depth = 0) (hrun : run (m.called p) = m')
    (hhalt : m'.control = .halt (.finished results)) :
    harden.run.run run m = (.ok (.ok ()), m'.returned.equip) := by
  have hprepare : (modifyGet prepare : HostAction TableRef).run.run run m =
      (.ok (.ok m.prepare.1), m.prepare.2) := rfl
  rw [harden, HostAction.run_bind_ok hprepare,
    HostAction.run_bind_ok (run_runChunk hp hdepth hrun hhalt)]
  rfl

end Machine

end

namespace Guest.Heap

/-- Whether a value is the function of a builtin. -/
def isBuiltin (h : Heap) (v : Value) (b : Builtin) : Bool :=
  match v with
  | .function f =>
    match h.function f with
    | .builtin b' => b' == b
    | _ => false
  | _ => false

theorem exists_of_isBuiltin {h : Heap} {v : Value} {b : Builtin} (hb : h.isBuiltin v b = true) :
    ∃ f, v = .function f ∧ h.function f = .builtin b := by
  unfold isBuiltin at hb
  split at hb
  · next f =>
    split at hb
    · next b' hf =>
      cases eq_of_beq hb
      exact ⟨f, rfl, hf⟩
    · cases hb
  · cases hb

end Guest.Heap

namespace Guest.Proto

/-- Whether two functions without inner functions are the same. -/
def isSameLeaf (p q : Proto) : Bool :=
  p.source = q.source && p.signature = q.signature && p.code = q.code && p.lines = q.lines &&
    p.nested.isEmpty && q.nested.isEmpty

theorem eq_of_isSameLeaf {p q : Proto} (h : p.isSameLeaf q = true) : p = q := by
  obtain ⟨source, signature, code, lines, nested⟩ := p
  obtain ⟨source', signature', code', lines', nested'⟩ := q
  simp only [isSameLeaf, Bool.and_eq_true, decide_eq_true_eq, Array.isEmpty_iff] at h
  obtain ⟨⟨⟨⟨⟨rfl, rfl⟩, rfl⟩, rfl⟩, rfl⟩, rfl⟩ := h
  rfl

end Guest.Proto

open HardenedLoad

/-- A function that took the place of `load`. -/
def IsHardened (h : Heap) (f : FunctionRef) : Prop :=
  ∃ k : Kept, h.function f = .guest Prelude.hardenedLoad k.captured ∧ k.In h

/-- Whether a value is a function with this code that keeps the natives that `load` needs. -/
def holdsLoad (h : Heap) (p : Proto) (v : Value) : Bool :=
  match v with
  | .function f =>
    match h.function f with
    | .guest q captured =>
      q.isSameLeaf p && h.isBuiltin (h.cell (captured.getD 0 default)) (.base .type) &&
        h.isBuiltin (h.cell (captured.getD 1 default)) (.string .sub) &&
        h.isBuiltin (h.cell (captured.getD 2 default)) (.base .load)
    | _ => false
  | _ => false

theorem exists_of_holdsLoad {h : Heap} {v : Value}
    (hv : holdsLoad h (Prelude.main.nested.getD 0 default) v = true) :
    ∃ f, v = .function f ∧ IsHardened h f := by
  rw [← Prelude.hardenedLoad_eq] at hv
  unfold holdsLoad at hv
  split at hv
  · next f =>
    split at hv
    · next q captured hf =>
      simp only [Bool.and_eq_true] at hv
      obtain ⟨⟨⟨hsame, htype⟩, hsub⟩, hload⟩ := hv
      obtain ⟨type, htype, htype'⟩ := Heap.exists_of_isBuiltin htype
      obtain ⟨sub, hsub, hsub'⟩ := Heap.exists_of_isBuiltin hsub
      obtain ⟨load, hload, hload'⟩ := Heap.exists_of_isBuiltin hload
      cases Proto.eq_of_isSameLeaf hsame
      exact ⟨f, rfl, ⟨captured, type, sub, load⟩, hf, htype, hsub, hload, htype', hsub', hload'⟩
    · cases hv
  · cases hv

namespace Machine

/-- Whether the prelude has come to its end and left its own function in the place of `load`. -/
def isHardened (m : Machine) : Bool :=
  match m.control with
  | .halt (.finished _) =>
    holdsLoad m.returned.equip.heap (Prelude.main.nested.getD 0 default)
      ((m.returned.equip.heap.table m.returned.equip.globals).getString "load")
  | _ => false

/-- The prelude calls nothing, so that the kernel can run it. -/
theorem any_isHardened :
    (quietly 114 ((bare default default).called Prelude.main)).any isHardened = true := by
  decide +kernel

theorem depth_prepare_bare : (bare default default).prepare.2.depth = 0 := by decide +kernel

theorem run_halted {m : Machine} {outcome : Outcome} (h : m.control = .halt outcome) (fuel : Nat) :
    Machine.run fuel m = m := by
  cases fuel with
  | zero => rfl
  | succ fuel => rw [Machine.run, h]

theorem exists_of_isHardened {m : Machine} (h : m.isHardened = true) :
    (∃ results, m.control = .halt (.finished results)) ∧
      ∃ f, (m.returned.equip.heap.table m.returned.equip.globals).getString "load" = .function f ∧
        IsHardened m.returned.equip.heap f := by
  unfold isHardened at h
  split at h
  · next results hcontrol => exact ⟨⟨results, hcontrol⟩, exists_of_holdsLoad h⟩
  · cases h

theorem run_runEnvironment {m : Machine} (hnone : m.host.config.environmentBootstrap = none)
    (run : Machine → Machine) : runEnvironment.run run m = (.ok (), m) := by
  rw [runEnvironment, Action.run_bind_ok (Action.run_get m), hnone]
  rfl

theorem start_of_harden {host : Host} {workspace : Workspace} {m : Machine}
    (h : (bare host workspace).perform harden.run = (.ok (.ok ()), m))
    (hnone : m.host.config.environmentBootstrap = none) :
    Engine.start host workspace = (.ok (), m) := by
  have hprepare : (bare host workspace).perform Engine.prepare.run = (.ok (.ok ()), m) := by
    rw [perform] at h ⊢
    rw [Engine.prepare, HostAction.run_bind_ok h]
    exact HostAction.run_guest (run_runEnvironment hnone _)
  rw [Engine.start, hprepare]
  rfl

/-- Whatever surrounds a machine, hardening it leaves a function of the prelude in the place of `load`,
and an engine without a script of its embedder starts as that machine. -/
theorem exists_hardened (host : Host) (workspace : Workspace) :
    ∃ m f, (bare host workspace).perform harden.run = (.ok (.ok ()), m) ∧
      (host.config.environmentBootstrap = none → Engine.start host workspace = (.ok (), m)) ∧
      (m.heap.table m.globals).getString "load" = .function f ∧ IsHardened m.heap f := by
  obtain ⟨m, hquietly, hm⟩ := (Option.any_eq_true _ _).1 any_isHardened
  obtain ⟨⟨results, hhalt⟩, f, hf, hhardened⟩ := exists_of_isHardened hm
  have hname : (text SourceTag.sandbox.chunkName).toList.findIdx? (· == 0) = none := by decide +kernel
  have hplenty : plenty = 114 + (plenty - 114) := by decide
  have hdepth := depth_prepare_bare
  have hbare := bare_eq host workspace
  generalize bare default default = b at hquietly hdepth hbare
  have hrun : Machine.run plenty ((b.within host workspace).called Prelude.main) =
      m.within host workspace := by
    rw [called_within, hplenty, run_quietly hquietly]
    exact run_halted (m := m.within host workspace) hhalt _
  have hdepth' : (b.within host workspace).prepare.2.depth = 0 := by
    rw [prepare_within, depth_within]
    exact hdepth
  have hdone : (bare host workspace).perform harden.run =
      (.ok (.ok ()), (m.within host workspace).returned.equip) := by
    rw [hbare]
    exact run_harden (ChunkLibrary.compileNamed_eq hname Prelude.compile_source) hdepth' hrun hhalt
  refine ⟨_, f, hdone, fun hnone => start_of_harden hdone ?_, ?_, ?_⟩
  · rw [host_equip]
    exact hnone
  · rw [returned_within, heap_equip_within, globals_equip_within]
    exact hf
  · rw [returned_within, heap_equip_within]
    exact hhardened

end Machine

end Grapnel
