import Grapnel.Proofs.Script.ChunkTag
import Grapnel.Proofs.Script.PreludeCode

namespace Grapnel

open Guest SourceTag

namespace Guest.Heap

theorem equal_string (h : Heap) (v : Value) (s : Text) :
    h.equal v (.string s) = .done (v == .string s) := by
  have hraw : v.rawEq (.string s) = (v == .string s) := by cases v <;> rfl
  have hown : haveEquality v (.string s) = false := by cases v <;> rfl
  rw [equal, hraw, hown]
  cases v == .string s <;> rfl

theorem equal_nil (h : Heap) (v : Value) : h.equal v .nil = .done (v == .nil) := by
  have hraw : v.rawEq .nil = (v == .nil) := by cases v <;> rfl
  have hown : haveEquality v .nil = false := by cases v <;> rfl
  rw [equal, hraw, hown]
  cases v == .nil <;> rfl

end Guest.Heap

namespace HardenedLoad

/-- What the function that takes the place of `load` captured, and the natives that are in it. -/
structure Kept where
  captured : Array CellRef
  type : FunctionRef
  sub : FunctionRef
  load : FunctionRef

/-- The captured variables hold the natives. -/
structure Kept.In (k : Kept) (h : Heap) : Prop where
  captured_type : h.cell (k.captured.getD 0 default) = .function k.type
  captured_sub : h.cell (k.captured.getD 1 default) = .function k.sub
  captured_load : h.cell (k.captured.getD 2 default) = .function k.load
  type : h.function k.type = .builtin (.base .type)
  sub : h.function k.sub = .builtin (.string .sub)
  load : h.function k.load = .builtin (.base .load)

/-- The variables of a call. -/
def slots (args : List Value) : Array Slot :=
  #[.value (args.getD 0 .nil), .value (args.getD 1 .nil), .value (args.getD 2 .nil),
    .value (args.getD 3 .nil)]

/-- What the native is called with: the same chunk under the same name, which is not reserved, for a
text, and the environment if there is one. -/
structure PassedOn (args : List Value) (c : NativeCall) : Prop where
  passed : c.args = [args.getD 0 .nil, args.getD 1 .nil, .ofString "t"] ++
    if args.getD 3 .nil = .nil then [] else [args.getD 3 .nil]
  free : ∀ name, args.getD 1 .nil = .string name → ¬ Reserved name

/-- How a call of `load` ends. -/
inductive Ends (args : List Value) (below : List Frame) : Machine → Prop
  /-- The stop flag was up. -/
  | stopped {run : Machine → Machine} {m m' : Machine} {error : Value} :
      Step.watch.run run m = (.error error, m') → Ends args below (m'.unwind error)
  /-- The name is reserved, and nothing was compiled. -/
  | refused {m : Machine} {name : Text} : m.frames = below → args.getD 1 .nil = .string name →
      Reserved name →
      Ends args below (m.deliver [.nil, .string (text "chunk name is reserved: " ++ name)])
  /-- The native raised an error. -/
  | failed {run : Machine → Machine} {m m' : Machine} {c : NativeCall} {error : Value} :
      PassedOn args c → (BaseLibrary.load c).run run m = (.error error, m') →
      Ends args below (m'.unwind error)
  /-- The native answered, and what it answered is what the call answers. -/
  | answered {run : Machine → Machine} {m m' : Machine} {c : NativeCall} {results : List Value} :
      PassedOn args c → (BaseLibrary.load c).run run m = (.ok results, m') →
      BaseLibrary.Answers m'.heap results → Ends args below (m'.deliver results)

theorem PassedOn.ends {run : Machine → Machine} {args : List Value} {c : NativeCall}
    (h : PassedOn args c) (below : List Frame) (m : Machine) :
    Ends args below (Machine.settled ((BaseLibrary.load c >>= Step.deliver).run run m)) := by
  rw [Action.run_bind]
  split
  · next results m' hload =>
    refine .answered h hload (BaseLibrary.answers_of_load (fun s hs => h.free s ?_) hload)
    rw [← hs, NativeCall.arg, NativeCall.arg?, h.passed]
    rfl
  · next e m' hload => exact .failed h hload

variable {k : Kept} {args : List Value} {below : List Frame}

/-- The activation of a call that has come to an instruction with a stack. -/
structure Top (k : Kept) (args : List Value) (pc : Nat) (stack : List Value) (a : Activation) :
    Prop where
  code : a.proto.code = Prelude.loadCode
  captured : a.captured = k.captured
  slots : a.slots = HardenedLoad.slots args
  pc : a.pc = pc
  stack : a.stack = stack

/-- A machine whose top frame is an activation. -/
structure On (k : Kept) (below : List Frame) (a : Activation) (m : Machine) : Prop where
  control : m.control = .run
  kept : k.In m.heap
  frames : ∃ depth used, m.frames = ⟨.guest a, depth, used⟩ :: below

/-- A machine in a call that has come to an instruction with a stack. -/
def At (k : Kept) (args : List Value) (below : List Frame) (pc : Nat) (stack : List Value)
    (m : Machine) : Prop :=
  ∃ a, Top k args pc stack a ∧ On k below a m

/-- From this instruction with this stack the call ends within so many steps. -/
def EndsFrom (k : Kept) (args : List Value) (below : List Frame) (pc : Nat) (stack : List Value)
    (n : Nat) : Prop :=
  ∀ m, At k args below pc stack m → m.Leads (Ends args below) n

variable {run : Machine → Machine} {m : Machine} {pc n target : Nat} {stack : List Value}
  {a a' : Activation} {v : Value}

theorem On.setTop (h : On k below a m) (run : Machine → Machine) (a' : Activation) :
    ∃ m', (Step.setTop a').run run m = (.ok (), m') ∧ On k below a' m' := by
  obtain ⟨depth, used, hframes⟩ := h.frames
  exact ⟨_, Step.run_setTop a' hframes, h.control, h.kept, depth, used, rfl⟩

theorem EndsFrom.setTop (h : EndsFrom k args below pc stack n) (hon : On k below a m)
    (htop : Top k args pc stack a') :
    (Machine.settled ((Step.setTop a').run run m)).Leads (Ends args below) n := by
  obtain ⟨m', hrun, hon'⟩ := hon.setTop run a'
  rw [hrun]
  exact h m' ⟨a', htop, hon'⟩

/-- A call goes where its next instruction goes, unless it is stopped before. -/
theorem EndsFrom.of_instruction {i : Instr} (hi : Prelude.loadCode[pc]? = some i)
    (hnext : ∀ run a m, Top k args (pc + 1) stack a → On k below a m →
      (Machine.settled ((Step.instruction a i).run run m)).Leads (Ends args below) n) :
    EndsFrom k args below pc stack (n + 1) := by
  rintro m ⟨a, htop, hon⟩
  obtain ⟨depth, used, hframes⟩ := hon.frames
  have hcode : a.proto.code[a.pc]? = some i := by rw [htop.code, htop.pc, hi]
  refine .step hon.control fun run => ?_
  rcases Machine.advance_guest hon.control hframes hcode with
    ⟨e, m', hwatch, hm⟩ | ⟨m₁, hheap, hcontrol, hframes, hm⟩
  · rw [hm]
    exact .done (.stopped hwatch)
  · rw [hm]
    exact hnext run _ m₁ { htop with pc := congrArg (· + 1) htop.pc }
      ⟨hcontrol, hheap ▸ hon.kept, depth, used, hframes⟩

theorem endsFrom_push (hi : Prelude.loadCode[pc]? = some (.push v))
    (hnext : EndsFrom k args below (pc + 1) (v :: stack) n) :
    EndsFrom k args below pc stack (n + 1) :=
  .of_instruction hi fun _ _ _ htop hon =>
    hnext.setTop hon { htop with stack := congrArg (v :: ·) htop.stack }

theorem endsFrom_loadSlot {i : Nat} (hi : Prelude.loadCode[pc]? = some (.loadSlot i))
    (hv : (slots args).getD i (.value .nil) = .value v)
    (hnext : EndsFrom k args below (pc + 1) (v :: stack) n) :
    EndsFrom k args below pc stack (n + 1) :=
  .of_instruction hi fun run a m htop hon => by
    have hread : Step.readSlot m.heap a i = v := by rw [Step.readSlot, htop.slots, hv]
    rw [Step.instruction_loadSlot, Action.run_bind_heap, hread]
    exact hnext.setTop hon { htop with stack := congrArg (v :: ·) htop.stack }

theorem endsFrom_loadCaptured {i : Nat} (hi : Prelude.loadCode[pc]? = some (.loadCaptured i))
    (hv : ∀ h : Heap, k.In h → h.cell (k.captured.getD i default) = v)
    (hnext : EndsFrom k args below (pc + 1) (v :: stack) n) :
    EndsFrom k args below pc stack (n + 1) :=
  .of_instruction hi fun run a m htop hon => by
    have hread : Step.readCaptured m.heap a i = v := by
      rw [Step.readCaptured, htop.captured, hv m.heap hon.kept]
    rw [Step.instruction_loadCaptured, Action.run_bind_heap, hread]
    exact hnext.setTop hon { htop with stack := congrArg (v :: ·) htop.stack }

theorem endsFrom_jumpUnless {b : Bool} (hi : Prelude.loadCode[pc]? = some (.jumpUnless target))
    (htrue : b = true → EndsFrom k args below (pc + 1) stack n)
    (hfalse : b = false → EndsFrom k args below target stack n) :
    EndsFrom k args below pc (.boolean b :: stack) (n + 1) :=
  .of_instruction hi fun run a m htop hon => by
    rw [Step.instruction_jumpUnless, htop.stack, List.headD_cons, List.tail_cons]
    cases b with
    | true => exact (htrue rfl).setTop hon { htop with stack := rfl, pc := htop.pc }
    | false => exact (hfalse rfl).setTop hon { htop with stack := rfl, pc := rfl }

theorem endsFrom_jumpKeepUnless {b : Bool}
    (hi : Prelude.loadCode[pc]? = some (.jumpKeepUnless target))
    (htrue : b = true → EndsFrom k args below (pc + 1) stack n)
    (hfalse : b = false → EndsFrom k args below target (.boolean false :: stack) n) :
    EndsFrom k args below pc (.boolean b :: stack) (n + 1) :=
  .of_instruction hi fun run a m htop hon => by
    rw [Step.instruction_jumpKeepUnless, htop.stack, List.headD_cons]
    cases b with
    | true => exact (htrue rfl).setTop hon { htop with stack := rfl }
    | false => exact (hfalse rfl).setTop hon { htop with stack := rfl, pc := rfl }

theorem endsFrom_equals {x w : Value} {b : Bool} {o₁ o₂ : Option Origin}
    (hi : Prelude.loadCode[pc]? = some (.binary .eq .stack (.fixed w) o₁ o₂))
    (hequal : ∀ h : Heap, h.equal x w = .done b)
    (hnext : EndsFrom k args below (pc + 1) (.boolean b :: stack) n) :
    EndsFrom k args below pc (x :: stack) (n + 1) :=
  .of_instruction hi fun run a m htop hon => by
    obtain ⟨origin, hbinary⟩ := Step.instruction_binary a .eq .stack (.fixed w) o₁ o₂
    rw [hbinary, Action.run_bind_heap]
    simp only [Step.operand, htop.stack, List.headD_cons, List.tail_cons,
      Step.run_binary_eq (hequal _)]
    exact hnext.setTop hon { htop with stack := rfl }

theorem endsFrom_differs {i : Nat} {x w : Value} {b : Bool} {o₁ o₂ : Option Origin}
    (hi : Prelude.loadCode[pc]? = some (.binary .ne (.slot i) (.fixed w) o₁ o₂))
    (hx : (slots args).getD i (.value .nil) = .value x)
    (hequal : ∀ h : Heap, h.equal x w = .done b)
    (hnext : EndsFrom k args below (pc + 1) (.boolean (!b) :: stack) n) :
    EndsFrom k args below pc stack (n + 1) :=
  .of_instruction hi fun run a m htop hon => by
    have hread : Step.readSlot m.heap a i = x := by rw [Step.readSlot, htop.slots, hx]
    obtain ⟨origin, hbinary⟩ := Step.instruction_binary a .ne (.slot i) (.fixed w) o₁ o₂
    rw [hbinary, Action.run_bind_heap]
    simp only [Step.operand, htop.stack, hread, Step.run_binary_ne (hequal _)]
    exact hnext.setTop hon { htop with stack := rfl }

theorem endsFrom_concat {s t : Text} {o₁ o₂ : Option Origin}
    (hi : Prelude.loadCode[pc]? = some (.binary .concat .stack .stack o₁ o₂))
    (hnext : EndsFrom k args below (pc + 1) (.string (s ++ t) :: stack) n) :
    EndsFrom k args below pc (.string t :: .string s :: stack) (n + 1) :=
  .of_instruction hi fun run a m htop hon => by
    obtain ⟨origin, hbinary⟩ := Step.instruction_binary a .concat .stack .stack o₁ o₂
    rw [hbinary, Action.run_bind_heap]
    simp only [Step.operand, htop.stack, List.headD_cons, List.tail_cons, Step.run_binary_concat]
    exact hnext.setTop hon { htop with stack := rfl }

theorem On.deliver (h : On k below a m) (hawait : a.await = .results (some 1))
    (results : List Value) :
    On k below { a with stack := results.headD .nil :: a.stack, spread := 0 }
      (m.deliver results) := by
  obtain ⟨depth, used, hframes⟩ := h.frames
  have hdeliver : Machine.deliverTo results m.frames =
      (⟨.guest { a with stack := results.headD .nil :: a.stack, spread := 0 }, depth, used⟩ :: below,
        .run) := by
    obtain ⟨f, p, captured, pc, slots, varargs, stack, spread, await⟩ := a
    cases hawait
    rw [hframes, Machine.deliverTo]
    cases results with
    | nil => rfl
    | cons v results =>
      simp only [List.length_cons, Nat.sub_eq_zero_of_le (Nat.le_add_left 1 _)]
      rfl
  refine ⟨?_, ?_, depth, used, ?_⟩
  · rw [Machine.deliver, hdeliver]
  · exact h.kept
  · rw [Machine.deliver, hdeliver]

theorem Top.callee {g : FunctionRef} {values : List Value}
    (h : Top k args pc (values.reverse ++ .function g :: stack) a) :
    (a.stack.take values.length).reverse = values ∧
      a.stack.drop values.length = .function g :: stack := by
  rw [h.stack, ← List.length_reverse, List.take_left, List.drop_left, List.reverse_reverse]
  exact ⟨rfl, rfl⟩

theorem endsFrom_call {b : Builtin} {g : FunctionRef} {results : List Value} {name : String}
    (values : List Value)
    (hi : Prelude.loadCode[pc]? =
      some (.call values.length false (some 1) (Prelude.origin "upvalue" name)))
    (hg : ∀ h : Heap, k.In h → h.function g = .builtin b)
    (hb : ∀ c, Step.callBuiltin b c = b.perform c >>= Step.deliver)
    (hperform : ∀ run m origin, (b.perform ⟨values, g, origin⟩).run run m = (.ok results, m))
    (hnext : EndsFrom k args below (pc + 1) (results.headD .nil :: stack) n) :
    EndsFrom k args below pc (values.reverse ++ .function g :: stack) (n + 1) :=
  .of_instruction hi fun run a m htop hon => by
    obtain ⟨hvalues, hrest⟩ := htop.callee
    obtain ⟨m₁, hset, hon₁⟩ := hon.setTop run
      { a with stack := stack, spread := 0, await := .results (some 1) }
    rw [Step.instruction_call, hvalues, hrest, List.tail_cons, List.headD_cons, Step.callThen,
      Action.run_bind_ok hset, Prelude.origin, Step.run_call_builtin (hg _ hon₁.kept) (by decide) hb,
      Action.run_bind_ok (hperform ..)]
    exact hnext _ ⟨{ a with
      stack := results.headD .nil :: stack
      spread := 0
      await := .results (some 1) }, { htop with stack := rfl }, hon₁.deliver rfl results⟩

theorem endsFrom_ret (values : List Value)
    (hi : Prelude.loadCode[pc]? = some (.ret values.length false))
    (hends : ∀ m : Machine, m.frames = below → Ends args below (m.deliver values)) :
    EndsFrom k args below pc (values.reverse ++ stack) (n + 1) :=
  .of_instruction hi fun run a m htop hon => by
    have hvalues : (a.stack.take values.length).reverse = values := by
      rw [htop.stack, ← List.length_reverse, List.take_left, List.reverse_reverse]
    obtain ⟨depth, used, hframes⟩ := hon.frames
    rw [Step.instruction_ret, hvalues]
    refine .done (hends { m with frames := m.frames.tail } ?_)
    rw [hframes, List.tail_cons]

theorem endsFrom_tailCall {name : String} (values : List Value)
    (hi : Prelude.loadCode[pc]? =
      some (.tailCall values.length false (Prelude.origin "upvalue" name)))
    (hpassed : ∀ g origin, PassedOn args ⟨values, g, origin⟩) :
    EndsFrom k args below pc (values.reverse ++ .function k.load :: stack) (n + 1) :=
  .of_instruction hi fun run a m htop hon => by
    obtain ⟨hvalues, hrest⟩ := htop.callee
    obtain ⟨m₁, hset, hon₁⟩ := hon.setTop run
      { a with stack := stack, spread := 0, await := .results none }
    have hcallee : Step.callee? m.heap Step.maxCallees (.function k.load) values =
        some (k.load, values) := rfl
    rw [Step.instruction_tailCall, hvalues, hrest, List.tail_cons, List.headD_cons, Step.tailCall,
      Action.run_bind_heap]
    simp only [hcallee, hon.kept.load, Bool.false_eq_true, if_false]
    rw [Step.callThen, Action.run_bind_ok hset, Prelude.origin,
      Step.run_call_builtin hon₁.kept.load (by decide) fun _ => rfl]
    exact .done ((hpassed _ _).ends below m₁)

theorem perform_type (run : Machine → Machine) (m : Machine) (g : FunctionRef)
    (origin : Option Origin) :
    ((Builtin.base .type).perform ⟨[v], g, origin⟩).run run m = (.ok [.ofString v.typeName], m) :=
  rfl

theorem ofString_beq (s t : String) : (Value.ofString s == .ofString t) = true ↔ s = t := by
  refine ⟨fun h => ?_, fun h => by rw [h, beq_self_eq_true]⟩
  have htext : text s = text t := Value.string.inj (eq_of_beq h)
  have hbytes := congrArg ByteArray.toList htext
  rw [toList_text, toList_text] at hbytes
  exact String.toList_inj.1 (Utf8.encode_injective hbytes)

theorem type_eq_string : (Value.ofString v.typeName == .ofString "string") = true ↔
    ∃ s, v = .string s := by
  rw [ofString_beq]
  cases v with
  | string s => exact ⟨fun _ => ⟨s, rfl⟩, fun _ => rfl⟩
  | _ => exact ⟨fun h => absurd h (by simp [Value.typeName]), fun ⟨_, h⟩ => nomatch h⟩

/-- The first nine bytes of a text. -/
def front (s : Text) : Text :=
  if 1 ≤ TextLibrary.endPosition 9 s.size then s.extract 0 (TextLibrary.endPosition 9 s.size)
  else .empty

theorem perform_sub (run : Machine → Machine) (m : Machine) (g : FunctionRef)
    (origin : Option Origin) (s : Text) :
    ((Builtin.string .sub).perform ⟨[.string s, .integer 1, .integer 9], g, origin⟩).run run m =
      (.ok [.string (front s)], m) := by
  rfl

theorem toList_front (s : Text) : (front s).toList = s.toList.take 9 := by
  have hend : TextLibrary.endPosition 9 s.size = min s.size 9 := by
    unfold TextLibrary.endPosition
    split
    · omega
    · rw [if_pos (by decide)]
      omega
  have hsize : s.size = s.data.toList.length := rfl
  rw [front, hend, Utf8.toList_eq, Utf8.toList_eq]
  split
  · rw [ByteArray.data_extract, Array.toList_extract, List.extract_eq_take_drop, List.drop_zero,
      Nat.sub_zero, hsize, List.take_eq_take_min, List.take_eq_take_min (i := 9), Nat.min_assoc,
      Nat.min_left_comm, Nat.min_self, Nat.min_comm]
  · rw [List.eq_nil_of_length_eq_zero (l := s.data.toList) (by omega), List.take_nil]
    rfl

theorem front_eq_opening (s : Text) :
    (Value.string (front s) == .ofString "=[tether:") = true ↔ Reserved s := by
  have hlength : (text opening).toList.length = 9 := by
    rw [toList_text]
    rfl
  have hfront : front s = text opening ↔ (front s).toList = (text opening).toList := by
    refine ⟨congrArg _, fun h => ?_⟩
    rw [Utf8.toList_eq, Utf8.toList_eq] at h
    exact ByteArray.ext (Array.toList_inj.1 h)
  rw [beq_iff_eq, Value.ofString, Value.string.injEq]
  change front s = text opening ↔ _
  rw [hfront, toList_front, Reserved, List.prefix_iff_eq_take, hlength, eq_comm]

theorem slots_name {name : Text} (h : args.getD 1 .nil = .string name) :
    (slots args).getD 1 (.value .nil) = .value (.string name) := by
  rw [← h]
  rfl

theorem endsFrom_free (hfree : ∀ name, args.getD 1 .nil = .string name → ¬ Reserved name) :
    EndsFrom k args below 18 [] (n + 8) := by
  refine endsFrom_differs rfl rfl (fun h => h.equal_nil _) <|
    endsFrom_jumpUnless rfl (fun hb => ?environment) fun hb => ?plain
  case environment =>
    have henv : args.getD 3 .nil ≠ .nil := bne_iff_ne.1 hb
    refine endsFrom_loadCaptured rfl (fun _ h => h.captured_load) <| endsFrom_loadSlot rfl rfl <|
      endsFrom_loadSlot rfl rfl <| endsFrom_push rfl <| endsFrom_loadSlot rfl rfl <|
      endsFrom_tailCall [args.getD 0 .nil, args.getD 1 .nil, .ofString "t", args.getD 3 .nil] rfl
        fun _ _ => ⟨?_, hfree⟩
    rw [if_neg henv]
    rfl
  case plain =>
    have henv : args.getD 3 .nil = .nil := bne_eq_false_iff_eq.1 hb
    refine endsFrom_loadCaptured rfl (fun _ h => h.captured_load) <| endsFrom_loadSlot rfl rfl <|
      endsFrom_loadSlot rfl rfl <| endsFrom_push rfl <|
      endsFrom_tailCall [args.getD 0 .nil, args.getD 1 .nil, .ofString "t"] rfl
        fun _ _ => ⟨?_, hfree⟩
    rw [if_pos henv, List.append_nil]

theorem endsFrom_reserved {name : Text} (hname : args.getD 1 .nil = .string name)
    (hreserved : Reserved name) : EndsFrom k args below 12 [] (n + 5) :=
  endsFrom_push rfl <| endsFrom_push rfl <| endsFrom_loadSlot rfl (slots_name hname) <|
    endsFrom_concat rfl <|
    endsFrom_ret [.nil, .string (text "chunk name is reserved: " ++ name)] rfl
      fun _ hframes => .refused hframes hname hreserved

/-- What the two checks answer decides. -/
theorem endsFrom_checked {b : Bool}
    (hb : b = true ↔ ∃ name, args.getD 1 .nil = .string name ∧ Reserved name) :
    EndsFrom k args below 11 [.boolean b] (n + 9) := by
  refine endsFrom_jumpUnless rfl (fun htrue => ?_) fun hfalse => ?_
  · obtain ⟨name, hname, hreserved⟩ := hb.1 htrue
    exact endsFrom_reserved hname hreserved
  · exact endsFrom_free fun name hname hreserved =>
      Bool.false_ne_true (hfalse.symm.trans (hb.2 ⟨name, hname, hreserved⟩))

theorem endsFrom_text {name : Text} (hname : args.getD 1 .nil = .string name) :
    EndsFrom k args below 5 [] (n + 15) := by
  refine endsFrom_loadCaptured rfl (fun _ h => h.captured_sub) <|
    endsFrom_loadSlot rfl (slots_name hname) <| endsFrom_push rfl <| endsFrom_push rfl <|
    endsFrom_call [.string name, .integer 1, .integer 9] rfl (fun _ h => h.sub) (fun _ => rfl)
      (fun run m origin => perform_sub run m k.sub origin name) <|
    endsFrom_equals (w := .ofString "=[tether:") rfl (fun h => h.equal_string _ _) <|
    endsFrom_checked ((front_eq_opening name).trans
      ⟨fun hreserved => ⟨name, hname, hreserved⟩, ?_⟩)
  rintro ⟨name', hname', hreserved⟩
  cases hname.symm.trans hname'
  exact hreserved

/-- However it is called, `load` refuses the reserved names and no others. -/
theorem endsFrom_start : EndsFrom k args below 0 [] (n + 20) := by
  refine endsFrom_loadCaptured rfl (fun _ h => h.captured_type) <| endsFrom_loadSlot rfl rfl <|
    endsFrom_call [args.getD 1 .nil] rfl (fun _ h => h.type) (fun _ => rfl)
      (fun run m origin => perform_type run m k.type origin) <|
    endsFrom_equals (w := .ofString "string") rfl (fun h => h.equal_string _ _) <|
    endsFrom_jumpKeepUnless rfl (fun htype => ?_) fun htype => ?_
  · obtain ⟨name, hname⟩ := type_eq_string.1 htype
    exact endsFrom_text hname
  · exact endsFrom_checked ⟨nofun, fun ⟨name, hname, _⟩ =>
      absurd (type_eq_string.2 ⟨name, hname⟩) (ne_true_of_eq_false htype)⟩

theorem slots_eq (args : List Value) :
    ((args.take 4).map Slot.value).toArray ++
      Array.replicate (4 - (args.take 4).length) (Slot.value .nil) = slots args :=
  match args with
  | [] => rfl
  | [_] => rfl
  | [_, _] => rfl
  | [_, _, _] => rfl
  | _ :: _ :: _ :: _ :: _ => rfl

theorem At.of_call {m₀ : Machine} {f : FunctionRef} {origin : Option Origin}
    (hf : m₀.heap.function f = .guest Prelude.hardenedLoad k.captured) (hk : k.In m₀.heap)
    (h : (Step.callFunction f args origin).run run m₀ = (.ok (), m)) :
    At k args m₀.frames 0 [] m := by
  have hload := Prelude.isLoad_hardenedLoad
  generalize Prelude.hardenedLoad = p at hf hload
  obtain ⟨depth, m₁, hdepth, h⟩ := Action.of_run_bind h
  cases Step.calleeDepth_ok hdepth
  rw [Action.run_bind_heap, hf] at h
  cases Step.enterGuest_ok h
  refine ⟨_, ⟨hload.code, rfl, ?_, rfl, rfl⟩, rfl, hk, _, _, rfl⟩
  simp only [Step.entered, hload.params, hload.slots, slots_eq]

theorem exists_callFunction {m₀ : Machine} {f : FunctionRef}
    (hf : m₀.heap.function f = .guest Prelude.hardenedLoad k.captured)
    (hroom : m₀.used + 12 ≤ Machine.maxUsed) :
    ∃ m, (Step.callFunction f args none).run run m₀ = (.ok (), m) := by
  have hload := Prelude.isLoad_hardenedLoad
  generalize Prelude.hardenedLoad = p at hf hload
  refine ⟨_, Step.run_callFunction hf ?_⟩
  rw [hload.slots]
  exact hroom

end HardenedLoad

end Grapnel
