import Grapnel.Memory.Segments
import Grapnel.Proofs.Memory.Completion
import Grapnel.Proofs.Memory.Overlay

namespace Grapnel

variable {D W : Type}

/-- What a driver does through a handle in some worlds: it moves bytes from and to a memory, and what
it grants depends on the address and the length alone. -/
structure MemoryDriver.View (drv : MemoryDriver D W) (d : D) where
  Sound : W → Prop
  byte : W → Nat → UInt8
  readable : Address → Nat → Except MemoryFault Unit
  writable : Address → Nat → Except MemoryFault Unit
  /-- How many bytes a write moves; one that is refused may move some. -/
  reach : Address → Nat → Nat
  reach_granted : ∀ {a size}, writable a size = .ok () → size ≤ reach a size
  read : ∀ {w} (a : Address) (size : Nat), Sound w →
    (drv.read d a size w).1 = (readable a size).map (fun _ => bytesFrom (byte w) a.toNat size) ∧
      Sound (drv.read d a size w).2 ∧ byte (drv.read d a size w).2 = byte w
  write : ∀ {w} (a : Address) (bytes : List UInt8), Sound w →
    (drv.write d a bytes w).1 = writable a bytes.length ∧
      Sound (drv.write d a bytes w).2 ∧
      byte (drv.write d a bytes w).2 =
        overlay (byte w) a.toNat (bytes.take (reach a bytes.length))

namespace MemoryDriver.View

variable {drv : MemoryDriver D W} {d : D}

/-- Several ranges are read one after the other, up to the first that is refused. -/
def ReadsEach (v : drv.View d) : Prop :=
  ∀ requests w, v.Sound w → drv.readVectored d requests w =
    (.ok (readEach (drv.read d) requests w).1, (readEach (drv.read d) requests w).2)

/-- Several ranges are written one after the other, up to the first that is refused. -/
def WritesEach (v : drv.View d) : Prop :=
  ∀ requests w, v.Sound w → drv.writeVectored d requests w =
    (.ok (writeEach (drv.write d) requests w).1, (writeEach (drv.write d) requests w).2)

/-- Reading several ranges changes nothing, and tells the full total only when each range with a
byte in it was filled with what a read of it alone would answer. -/
structure Fills (v : drv.View d) : Prop where
  keeps : ∀ requests w, v.Sound w → v.Sound (drv.readVectored d requests w).2 ∧
    v.byte (drv.readVectored d requests w).2 = v.byte w
  filled : ∀ requests w moved (buffers : List (List UInt8)) w', v.Sound w →
    drv.readVectored d requests w = (.ok (moved, buffers), w') →
    moved = (requests.map (·.2)).sum →
    ∀ (i : Nat) a size, requests[i]? = some (a, size) → size ≠ 0 →
      ∃ buffer, buffers[i]? = some buffer ∧ (drv.read d a size w).1 = .ok buffer

end MemoryDriver.View

namespace MemoryWork

variable {α β : Type} {drv : MemoryDriver D W} {d : D} {m : Memory D W} {w : W}

/-- Transfers one after the other, whatever they answer. -/
def each (f : α → W → β × W) : List α → W → List β × W
  | [], w => ([], w)
  | x :: xs, w =>
    let (b, w) := f x w
    let (bs, w) := each f xs w
    (b :: bs, w)

theorem outcome_mapM_one (f : α → W → Except MemoryFault β × W) (xs : List α) (m : Memory D W) :
    outcome (xs.mapM fun x => one (f x)) m =
      (.ok (each f xs m.world).1, { m with world := (each f xs m.world).2 }) := by
  induction xs generalizing m with
  | nil => rfl
  | cons x xs ih =>
    rw [List.mapM_cons, outcome_bind, one, outcome_onWorld]
    dsimp only
    rw [outcome_bind, ih]
    rfl

theorem outcome_perform (f : W → Except MemoryFault α × W) (m : Memory D W) :
    outcome (perform f) m =
      ((f m.world).1.mapError .refused, { m with world := (f m.world).2 }) := by
  rw [perform, outcome_bind, outcome_onWorld]
  dsimp only
  cases (f m.world).1 <;> rfl

theorem outcome_read (hd : m.handle = some d) (a : Address) (size : Nat) :
    outcome (read drv a size) m = ((drv.read d a size m.world).1.mapError .refused,
      { m with world := (drv.read d a size m.world).2 }) := by
  rw [read, outcome_bind, outcome_handle hd]
  exact outcome_perform _ m

theorem outcome_readBytes {size : Nat} (hfit : size < bufferLimit) (a : Address) :
    outcome (readBytes drv a size) m = outcome (read drv a size) m := by
  rw [readBytes, outcome_bind, outcome_checked, allocate, if_pos hfit]
  rfl

theorem outcome_write (hd : m.handle = some d) (a : Address) (bytes : List UInt8) :
    outcome (write drv a bytes) m = ((drv.write d a bytes m.world).1.mapError .refused,
      { m with world := (drv.write d a bytes m.world).2 }) := by
  rw [write, outcome_bind, outcome_handle hd]
  exact outcome_perform _ m

theorem foldlM_addChecked (requests : List (Address × Nat)) {n : Nat} (hn : n < wordLimit) :
    requests.foldlM (fun n request => addChecked n request.2) n =
      if n + (requests.map (·.2)).sum < wordLimit then .ok (n + (requests.map (·.2)).sum)
      else .error .addOverflow := by
  induction requests generalizing n with
  | nil => exact (if_pos hn).symm
  | cons request requests ih =>
    rw [List.foldlM_cons, List.map_cons, List.sum_cons, ← Nat.add_assoc]
    unfold addChecked
    split
    · next hfit => exact ih hfit
    · next hfit => rw [if_neg (by omega)]; rfl

theorem total_eq (requests : List (Address × Nat)) : total requests =
    if (requests.map (·.2)).sum < wordLimit then .ok (requests.map (·.2)).sum
    else .error .addOverflow := by
  rw [total, foldlM_addChecked requests (by decide), Nat.zero_add]

theorem total_lengths (requests : List (Address × List UInt8)) :
    total (requests.map fun (a, content) => (a, content.length)) =
      if (requests.map (·.2.length)).sum < wordLimit then .ok (requests.map (·.2.length)).sum
      else .error .addOverflow := by
  rw [total_eq, List.map_map]
  rfl

theorem allocateAll_eq (requests : List (Address × Nat)) : allocateAll requests =
    if ∀ request ∈ requests, request.2 < bufferLimit then .ok () else .error .capacityOverflow := by
  induction requests with
  | nil => exact (if_pos (List.forall_mem_nil _)).symm
  | cons request requests ih =>
    have hstep : allocateAll (request :: requests) =
        allocate request.2 >>= fun _ => allocateAll requests := List.forM_cons ..
    rw [hstep, ih, allocate]
    by_cases hfit : request.2 < bufferLimit
    · simp only [List.forall_mem_cons, hfit, true_and, if_true]
      rfl
    · have hsome : ¬ ∀ r ∈ request :: requests, r.2 < bufferLimit :=
        fun hall => hfit (hall request List.mem_cons_self)
      rw [if_neg hfit, if_neg hsome]
      rfl

end MemoryWork

namespace MemoryDriver.View

open MemoryWork

variable {drv : MemoryDriver D W} {d : D} {w : W}

/-- What a read answers. -/
def reads (v : drv.View d) (f : Nat → UInt8) (request : Address × Nat) :
    Except MemoryFault (List UInt8) :=
  (v.readable request.1 request.2).map fun _ => bytesFrom f request.1.toNat request.2

/-- What a write puts where. -/
def puts (v : drv.View d) (request : Address × List UInt8) : Nat × List UInt8 :=
  (request.1.toNat, request.2.take (v.reach request.1 request.2.length))

theorem each_read (v : drv.View d) (requests : List (Address × Nat)) (hs : v.Sound w) :
    (each (fun (a, size) => drv.read d a size) requests w).1 = requests.map (v.reads (v.byte w)) ∧
      v.byte (each (fun (a, size) => drv.read d a size) requests w).2 = v.byte w := by
  induction requests generalizing w with
  | nil => exact ⟨rfl, rfl⟩
  | cons request requests ih =>
    obtain ⟨hanswer, hsound, hbyte⟩ := v.read request.1 request.2 hs
    obtain ⟨hanswers, hrest⟩ := ih hsound
    rw [hbyte] at hanswers hrest
    exact ⟨List.cons_eq_cons.2 ⟨hanswer, hanswers⟩, hrest⟩

theorem each_write (v : drv.View d) (requests : List (Address × List UInt8)) (hs : v.Sound w) :
    (each (fun (a, bytes) => drv.write d a bytes) requests w).1 =
        requests.map (fun request => v.writable request.1 request.2.length) ∧
      v.byte (each (fun (a, bytes) => drv.write d a bytes) requests w).2 =
        overlays (v.byte w) (requests.map v.puts) := by
  induction requests generalizing w with
  | nil => exact ⟨rfl, rfl⟩
  | cons request requests ih =>
    obtain ⟨hanswer, hsound, hbyte⟩ := v.write request.1 request.2 hs
    obtain ⟨hanswers, hrest⟩ := ih hsound
    rw [hbyte] at hrest
    exact ⟨List.cons_eq_cons.2 ⟨hanswer, hanswers⟩, hrest⟩

/-- What reading one range after the other tells: the full total only when each range with a byte in
it was read. -/
theorem readEach_goes (v : drv.View d) (requests : List (Address × Nat)) (hs : v.Sound w) :
    ∃ count buffers w', readEach (drv.read d) requests w = ((count, buffers), w') ∧
      v.Sound w' ∧ v.byte w' = v.byte w ∧ count ≤ (requests.map (·.2)).sum ∧
      (count = (requests.map (·.2)).sum → ∀ (i : Nat) a size, requests[i]? = some (a, size) → size ≠ 0 →
        ∃ buffer, buffers[i]? = some buffer ∧ v.reads (v.byte w) (a, size) = .ok buffer) := by
  induction requests generalizing w with
  | nil => exact ⟨0, [], w, rfl, hs, rfl, Nat.le_refl _, fun _ i _ _ hi => nomatch hi⟩
  | cons request requests ih =>
    obtain ⟨a, size⟩ := request
    obtain ⟨hanswer, hsound, hbyte⟩ := v.read a size hs
    rw [readEach, List.map_cons, List.sum_cons]
    cases hr : drv.read d a size w with
    | mk result w₁ =>
      rw [hr] at hanswer hsound hbyte
      dsimp only at hanswer hsound hbyte
      cases result with
      | error fault =>
        refine ⟨0, _, w₁, rfl, hsound, hbyte, Nat.zero_le _, ?_⟩
        -- nothing was moved, so that no range has a byte in it
        intro hzero i a' size' hi hne
        have hnone : ∀ n ∈ ((a, size) :: requests).map (·.2), n = 0 := by
          rw [← List.sum_eq_zero_iff_forall_eq_nat, List.map_cons, List.sum_cons]
          exact hzero.symm
        exact absurd (hnone size' (List.mem_map.2 ⟨_, List.mem_of_getElem? hi, rfl⟩)) hne
      | ok bytes =>
        obtain ⟨count, buffers, w', hrest, hsound', hbyte', hle, hfull⟩ := ih hsound
        rw [hbyte] at hbyte' hfull
        refine ⟨size + count, bytes :: buffers, w', ?_, hsound', hbyte', by omega, ?_⟩
        · dsimp only
          rw [hrest]
        · intro hcount i a' size' hi hne
          cases i with
          | zero =>
            cases hi
            exact ⟨bytes, rfl, hanswer.symm⟩
          | succ i => exact hfull (by omega) i a' size' hi hne

theorem ReadsEach.fills {v : drv.View d} (h : v.ReadsEach) : v.Fills where
  keeps requests w hs := by
    obtain ⟨count, buffers, w', hread, hsound, hbyte, _⟩ := v.readEach_goes requests hs
    rw [h requests w hs, hread]
    exact ⟨hsound, hbyte⟩
  filled requests w moved buffers w' hs hv hmoved := by
    obtain ⟨count, buffers', w'', hread, _, _, _, hfull⟩ := v.readEach_goes requests hs
    rw [h requests w hs, hread] at hv
    cases hv
    intro i a size hi hne
    obtain ⟨buffer, hbuffer, hanswer⟩ := hfull hmoved i a size hi hne
    exact ⟨buffer, hbuffer, (v.read a size hs).1.trans hanswer⟩

/-- What writing one range after the other does: a part of the writes, and it tells the full total
only when those left out have no byte, and each with a byte was granted. -/
theorem writeEach_goes (v : drv.View d) (requests : List (Address × List UInt8)) (hs : v.Sound w) :
    ∃ count w' before after, writeEach (drv.write d) requests w = (count, w') ∧ v.Sound w' ∧
      requests = before ++ after ∧ v.byte w' = overlays (v.byte w) (before.map v.puts) ∧
      count ≤ (requests.map (·.2.length)).sum ∧
      (count = (requests.map (·.2.length)).sum → (∀ request ∈ after, request.2 = []) ∧
        ∀ request ∈ requests, request.2 ≠ [] →
          v.writable request.1 request.2.length = .ok ()) := by
  induction requests generalizing w with
  | nil =>
    exact ⟨0, w, [], [], rfl, hs, rfl, rfl, Nat.le_refl _,
      fun _ => ⟨List.forall_mem_nil _, fun _ hmem => nomatch hmem⟩⟩
  | cons request requests ih =>
    obtain ⟨a, bytes⟩ := request
    obtain ⟨hanswer, hsound, hbyte⟩ := v.write a bytes hs
    rw [writeEach, List.map_cons, List.sum_cons]
    dsimp only
    cases hr : drv.write d a bytes w with
    | mk result w₁ =>
      rw [hr] at hanswer hsound hbyte
      dsimp only at hanswer hsound hbyte
      cases result with
      | error fault =>
        refine ⟨0, w₁, [(a, bytes)], requests, rfl, hsound, rfl, hbyte, Nat.zero_le _, ?_⟩
        -- nothing was moved, so that no write has a byte
        intro hzero
        have hnone : ∀ request ∈ (a, bytes) :: requests, request.2 = [] := by
          intro request hmem
          apply List.eq_nil_of_length_eq_zero
          have hsum : (((a, bytes) :: requests).map (·.2.length)).sum = 0 := hzero.symm
          exact List.sum_eq_zero_iff_forall_eq_nat.1 hsum _ (List.mem_map.2 ⟨request, hmem, rfl⟩)
        exact ⟨fun request hmem => hnone request (List.mem_cons_of_mem _ hmem),
          fun request hmem hne => absurd (hnone request hmem) hne⟩
      | ok granted =>
        obtain ⟨count, w', before, after, hrest, hsound', rfl, hbyte', hle, hfull⟩ := ih hsound
        refine ⟨bytes.length + count, w', (a, bytes) :: before, after, ?_, hsound', rfl, ?_, by omega,
          ?_⟩
        · dsimp only
          rw [hrest]
        · rw [hbyte', hbyte]
          rfl
        · intro hcount
          obtain ⟨hafter, hgranted⟩ := hfull (by omega)
          exact ⟨hafter, List.forall_mem_cons.2 ⟨fun _ => hanswer.symm, hgranted⟩⟩

end MemoryDriver.View

namespace Segments

open MemoryDriver

variable {start a : Address} {n size : Nat} {f : Nat → UInt8} {content bytes : List UInt8}

/-- One segment with so many bytes from a place on, which are moved one range after the other. -/
structure Single (start : Address) (size : Nat) (s : Segments) : Prop where
  alone : ∃ seg, s.segments = [seg] ∧ seg.region.start = start ∧ seg.content.length = size
  unlimited : s.maxRead = none
  writable : s.writable = true
  each : s.vectored = .each

/-- The bytes of the segments; where they overlap the first one counts. -/
def byte (s : Segments) : Nat → UInt8 :=
  s.segments.foldr (fun seg f => overlay f seg.region.start.toNat seg.content) fun _ => 0

/-- A transfer is granted where one segment from a place on holds all of it. -/
def within (start : Address) (size : Nat) (a : Address) (n : Nat) : Except MemoryFault Unit :=
  if start ≤ a ∧ a.toNat - start.toNat + n ≤ size then .ok () else .error (.transfer a n 0)

theorem overlay_overwrite {start a : Nat} (ha : start ≤ a)
    (hfit : a - start + bytes.length ≤ content.length) :
    overlay f start (overwrite content (a - start) bytes) =
      overlay (overlay f start content) a bytes := by
  funext place
  rw [overlay, overwrite, getElem?_splice hfit]
  by_cases hcovers : a ≤ place ∧ place < a + bytes.length
  · have hoffset : place - start - (a - start) = place - a := by omega
    rw [if_pos (by omega), if_pos (by omega), hoffset,
      getElem?_overlay (f := overlay f start content) hcovers.1 hcovers.2, Option.getD_some]
  · rw [overlay_of_outside hcovers, overlay]
    split
    · rw [if_neg (by omega)]
    · rfl

theorem Single.log {s : Segments} (hs : Single start size s) (c : SegmentCall) :
    Single start size (s.log c) := ⟨hs.alone, hs.unlimited, hs.writable, hs.each⟩

theorem byte_singleton {s : Segments} {seg : Segment} (hseg : s.segments = [seg]) :
    s.byte = overlay (fun _ => 0) seg.region.start.toNat seg.content := by
  rw [byte, hseg]
  rfl

theorem Single.read {s : Segments} (hs : Single start size s) :
    (read a n s).1 = (within start size a n).map (fun _ => bytesFrom s.byte a.toNat n) ∧
      Single start size (read a n s).2 ∧ (read a n s).2.byte = s.byte := by
  obtain ⟨seg, hseg, rfl, rfl⟩ := hs.alone
  have hcontent : s.content? a n =
      (seg.place? a n).map fun i => (seg.content.drop i).take n := by
    rw [content?, hseg, List.findSome?_singleton]
  rw [Segments.read, hs.unlimited, Option.all_none, if_pos rfl, hcontent, within]
  by_cases hfit : seg.region.start ≤ a ∧ a.toNat - seg.region.start.toNat + n ≤ seg.content.length
  · have hplace : seg.place? a n = some (a.toNat - seg.region.start.toNat) := if_pos hfit
    have hbytes : (seg.content.drop (a.toNat - seg.region.start.toNat)).take n =
        bytesFrom s.byte a.toNat n := by
      refine content?_eq_bytesFrom (s := s) ?_ (by rw [hcontent, hplace]; rfl)
      intro seg' hmem i b hb
      rw [hseg, List.mem_singleton] at hmem
      subst hmem
      rw [byte_singleton hseg]
      exact overlay_of_inside (Nat.le_add_right _ _) (by rwa [Nat.add_sub_cancel_left])
    rw [if_pos hfit, hplace]
    exact ⟨congrArg Except.ok hbytes, hs.log _, rfl⟩
  · have hplace : seg.place? a n = none := if_neg hfit
    rw [if_neg hfit, hplace]
    exact ⟨rfl, hs.log _, rfl⟩

theorem Single.write {s : Segments} (hs : Single start size s) :
    (write a bytes s).1 = within start size a bytes.length ∧ Single start size (write a bytes s).2 ∧
      (write a bytes s).2.byte = overlay s.byte a.toNat
        (bytes.take (if within start size a bytes.length = .ok () then bytes.length else 0)) := by
  obtain ⟨seg, hseg, rfl, rfl⟩ := hs.alone
  rw [Segments.write, hs.writable, if_pos rfl, hseg, written?, written?, within, byte_singleton hseg]
  by_cases hfit : seg.region.start ≤ a ∧
      a.toNat - seg.region.start.toNat + bytes.length ≤ seg.content.length
  · have hplace : seg.place? a bytes.length = some (a.toNat - seg.region.start.toNat) := if_pos hfit
    rw [if_pos hfit, if_pos rfl, List.take_length, hplace,
      ← overlay_overwrite (Address.le_iff.1 hfit.1) hfit.2]
    refine ⟨rfl, ⟨⟨_, rfl, rfl, ?_⟩, hs.unlimited, rfl, hs.each⟩, rfl⟩
    simp only [overwrite, List.length_append, List.length_take, List.length_drop]
    omega
  · have hplace : seg.place? a bytes.length = none := if_neg hfit
    rw [if_neg hfit, if_neg nofun, List.take_zero, hplace]
    refine ⟨rfl, hs.log _, (byte_singleton hseg).trans ?_⟩
    funext place
    exact (overlay_of_outside (by simp only [List.length_nil]; omega)).symm

/-- Segments with one segment move its bytes. -/
def view (process : Nat) (start : Address) (size : Nat) : Segments.driver.View process where
  Sound := Single start size
  byte := byte
  readable := within start size
  writable := within start size
  reach a n := if within start size a n = .ok () then n else 0
  reach_granted h := by rw [if_pos h]
  read _ _ hs := hs.read
  write _ _ hs := hs.write

theorem view_readsEach (process : Nat) : (view process start size).ReadsEach := by
  intro requests s hs
  change readVectored requests s = _
  rw [readVectored, hs.each]
  rfl

theorem view_writesEach (process : Nat) : (view process start size).WritesEach := by
  intro requests s hs
  change writeVectored requests s = _
  rw [writeVectored, hs.each]
  rfl

end Segments

namespace MemoryWork

open MemoryDriver

variable {drv : MemoryDriver D W} {d : D} {m : Memory D W}

/-- A batch of reads agrees with the reads one by one, as far as its sizes can be summed up and there
is a buffer for each; otherwise all of it stops before anything was read. -/
structure ReadsAgree (drv : MemoryDriver D W) (m : Memory D W) (requests : List (Address × Nat)) :
    Prop where
  answered : (requests.map (·.2)).sum < wordLimit → (∀ request ∈ requests, request.2 < bufferLimit) →
    ∃ answers m', outcome (batchRead drv requests) m = (.ok answers, m') ∧
      answers.length = requests.length ∧
      ∀ (i : Nat) a size, requests[i]? = some (a, size) → size ≠ 0 →
        ∃ answer, answers[i]? = some answer ∧
          (outcome (readBytes drv a size) m).1 = answer.mapError .refused
  overflow : wordLimit ≤ (requests.map (·.2)).sum →
    outcome (batchRead drv requests) m = (.error (.trapped .addOverflow), m)
  oversized : (requests.map (·.2)).sum < wordLimit → (∃ request ∈ requests, bufferLimit ≤ request.2) →
    outcome (batchRead drv requests) m = (.error (.trapped .capacityOverflow), m)

/-- The memory after writes one by one. -/
def writeInTurn (drv : MemoryDriver D W) (m : Memory D W) (requests : List (Address × List UInt8)) :
    Memory D W :=
  requests.foldl (fun m request => (outcome (write drv request.1 request.2) m).2) m

/-- A batch of writes agrees with the writes one by one, in their answers and in the bytes that they
leave, as far as its sizes can be summed up. -/
structure WritesAgree (v : drv.View d) (m : Memory D W) (requests : List (Address × List UInt8)) :
    Prop where
  answered : (requests.map (·.2.length)).sum < wordLimit →
    ∃ answers m', outcome (batchWrite drv requests) m = (.ok answers, m') ∧
      answers.length = requests.length ∧
      (∀ (i : Nat) a bytes, requests[i]? = some (a, bytes) → bytes ≠ [] →
        ∃ answer, answers[i]? = some answer ∧
          (outcome (write drv a bytes) m).1 = answer.mapError .refused) ∧
      v.byte m'.world = v.byte (writeInTurn drv m requests).world
  overflow : wordLimit ≤ (requests.map (·.2.length)).sum →
    outcome (batchWrite drv requests) m = (.error (.trapped .addOverflow), m)

/-- A batch of reads is answered from one transfer that moved everything, or from the reads one by
one. -/
theorem outcome_batchRead (drv : MemoryDriver D W) (hd : m.handle = some d)
    (requests : List (Address × Nat)) (hfit : (requests.map (·.2)).sum < wordLimit)
    (hbuffers : ∀ request ∈ requests, request.2 < bufferLimit) :
    (∃ buffers w, drv.readVectored d requests m.world =
        (.ok ((requests.map (·.2)).sum, buffers), w) ∧
      outcome (batchRead drv requests) m = (.ok (buffers.map .ok), { m with world := w })) ∨
    outcome (batchRead drv requests) m =
      (.ok (each (fun (a, size) => drv.read d a size) requests
          (drv.readVectored d requests m.world).2).1,
        { m with world := (each (fun (a, size) => drv.read d a size) requests
          (drv.readVectored d requests m.world).2).2 }) := by
  rw [batchRead, outcome_bind, outcome_handle hd]
  dsimp only
  rw [outcome_bind, outcome_checked, total_eq, if_pos hfit]
  dsimp only [Except.mapError]
  rw [outcome_bind, outcome_checked, allocateAll_eq, if_pos hbuffers]
  dsimp only [Except.mapError]
  rw [outcome_bind, outcome_onWorld]
  cases drv.readVectored d requests m.world with
  | mk result w =>
    cases result with
    | error fault => exact .inr (outcome_mapM_one _ requests { m with world := w })
    | ok told =>
      obtain ⟨moved, buffers⟩ := told
      dsimp only
      split
      · next hmoved =>
        rw [hmoved]
        exact .inl ⟨buffers, w, rfl, rfl⟩
      · exact .inr (outcome_mapM_one _ requests { m with world := w })

/-- A batch of writes is answered from one transfer that moved everything, or from the writes one by
one. -/
theorem outcome_batchWrite (drv : MemoryDriver D W) (hd : m.handle = some d)
    (requests : List (Address × List UInt8))
    (hfit : (requests.map (·.2.length)).sum < wordLimit) :
    (∃ w, drv.writeVectored d requests m.world = (.ok (requests.map (·.2.length)).sum, w) ∧
      outcome (batchWrite drv requests) m =
        (.ok (requests.map fun _ => .ok ()), { m with world := w })) ∨
    outcome (batchWrite drv requests) m =
      (.ok (each (fun (a, bytes) => drv.write d a bytes) requests
          (drv.writeVectored d requests m.world).2).1,
        { m with world := (each (fun (a, bytes) => drv.write d a bytes) requests
          (drv.writeVectored d requests m.world).2).2 }) := by
  rw [batchWrite, outcome_bind, outcome_handle hd]
  dsimp only
  rw [outcome_bind, outcome_checked, total_lengths, if_pos hfit]
  dsimp only [Except.mapError]
  rw [outcome_bind, outcome_onWorld]
  cases drv.writeVectored d requests m.world with
  | mk result w =>
    cases result with
    | error fault => exact .inr (outcome_mapM_one _ requests { m with world := w })
    | ok moved =>
      dsimp only
      split
      · next hmoved =>
        rw [hmoved]
        exact .inl ⟨w, rfl, rfl⟩
      · exact .inr (outcome_mapM_one _ requests { m with world := w })

theorem batchRead_overflow (hd : m.handle = some d) {requests : List (Address × Nat)}
    (hlimit : wordLimit ≤ (requests.map (·.2)).sum) :
    outcome (batchRead drv requests) m = (.error (.trapped .addOverflow), m) := by
  rw [batchRead, outcome_bind, outcome_handle hd]
  dsimp only
  rw [outcome_bind, outcome_checked, total_eq, if_neg (Nat.not_lt.2 hlimit)]
  rfl

theorem batchRead_oversized (hd : m.handle = some d) {requests : List (Address × Nat)}
    (hfit : (requests.map (·.2)).sum < wordLimit)
    (hlarge : ∃ request ∈ requests, bufferLimit ≤ request.2) :
    outcome (batchRead drv requests) m = (.error (.trapped .capacityOverflow), m) := by
  have hsome : ¬ ∀ request ∈ requests, request.2 < bufferLimit := by
    obtain ⟨request, hmem, hsize⟩ := hlarge
    exact fun hall => Nat.not_lt.2 hsize (hall request hmem)
  rw [batchRead, outcome_bind, outcome_handle hd]
  dsimp only
  rw [outcome_bind, outcome_checked, total_eq, if_pos hfit]
  dsimp only [Except.mapError]
  rw [outcome_bind, outcome_checked, allocateAll_eq, if_neg hsome]
  rfl

theorem batchWrite_overflow (hd : m.handle = some d) {requests : List (Address × List UInt8)}
    (hlimit : wordLimit ≤ (requests.map (·.2.length)).sum) :
    outcome (batchWrite drv requests) m = (.error (.trapped .addOverflow), m) := by
  rw [batchWrite, outcome_bind, outcome_handle hd]
  dsimp only
  rw [outcome_bind, outcome_checked, total_lengths, if_neg (Nat.not_lt.2 hlimit)]
  rfl

variable {v : drv.View d}

theorem read_alone (v : drv.View d) (hd : m.handle = some d) (hs : v.Sound m.world) (a : Address)
    (size : Nat) :
    (outcome (read drv a size) m).1 = (v.reads (v.byte m.world) (a, size)).mapError .refused := by
  rw [outcome_read hd, (v.read a size hs).1]
  rfl

theorem write_alone (v : drv.View d) (hd : m.handle = some d) (hs : v.Sound m.world) (a : Address)
    (bytes : List UInt8) :
    (outcome (write drv a bytes) m).1 = (v.writable a bytes.length).mapError .refused := by
  rw [outcome_write hd, (v.write a bytes hs).1]

theorem byte_writeInTurn (v : drv.View d) (requests : List (Address × List UInt8))
    (hd : m.handle = some d) (hs : v.Sound m.world) :
    v.byte (writeInTurn drv m requests).world = overlays (v.byte m.world) (requests.map v.puts) := by
  induction requests generalizing m with
  | nil => rfl
  | cons request requests ih =>
    obtain ⟨_, hsound, hbyte⟩ := v.write request.1 request.2 hs
    have hstep : writeInTurn drv m (request :: requests) = writeInTurn drv
        { m with world := (drv.write d request.1 request.2 m.world).2 } requests := by
      rw [writeInTurn, List.foldl_cons, outcome_write hd]
      rfl
    have hrest := ih (m := { m with world := (drv.write d request.1 request.2 m.world).2 }) hd hsound
    rw [hstep, hrest, hbyte]
    rfl

theorem readsAgree (h : v.Fills) (hd : m.handle = some d) (hs : v.Sound m.world)
    (requests : List (Address × Nat)) : ReadsAgree drv m requests where
  answered hfit hbuffers := by
    have halone {i : Nat} {a : Address} {size : Nat} (hi : requests[i]? = some (a, size)) :
        outcome (readBytes drv a size) m = outcome (read drv a size) m :=
      outcome_readBytes (hbuffers _ (List.mem_of_getElem? hi)) a
    rcases outcome_batchRead drv hd requests hfit hbuffers with ⟨buffers, w, hv, hbatch⟩ | hbatch
    · have hlength := congrArg List.length (drv.lengths_readVectored (congrArg Prod.fst hv))
      rw [List.length_map, List.length_map] at hlength
      refine ⟨_, _, hbatch, by rw [List.length_map, hlength], ?_⟩
      intro i a size hi hne
      obtain ⟨buffer, hbuffer, hread⟩ := h.filled requests m.world _ buffers w hs hv rfl i a size hi hne
      refine ⟨.ok buffer, by rw [List.getElem?_map, hbuffer]; rfl, ?_⟩
      rw [halone hi, outcome_read hd, hread]
    · obtain ⟨hsound, hbyte⟩ := h.keeps requests m.world hs
      obtain ⟨hanswers, _⟩ := v.each_read requests hsound
      refine ⟨_, _, hbatch, by rw [hanswers, List.length_map], ?_⟩
      intro i a size hi _
      refine ⟨v.reads (v.byte m.world) (a, size), ?_, halone hi ▸ read_alone v hd hs a size⟩
      rw [hanswers, hbyte, List.getElem?_map, hi]
      rfl
  overflow hlimit := batchRead_overflow hd hlimit
  oversized hfit hlarge := batchRead_oversized hd hfit hlarge

theorem writesAgree (h : v.WritesEach) (hd : m.handle = some d) (hs : v.Sound m.world)
    (requests : List (Address × List UInt8)) : WritesAgree v m requests where
  answered hfit := by
    rw [byte_writeInTurn v requests hd hs]
    obtain ⟨count, w', before, after, hgoes, hsound, hrequests, hbyte, _, hfull⟩ :=
      v.writeEach_goes requests hs
    have hv := h requests m.world hs
    rw [hgoes] at hv
    rcases outcome_batchWrite drv hd requests hfit with ⟨w, hw, hbatch⟩ | hbatch
    · rw [hv] at hw
      cases hw
      obtain ⟨hafter, hgranted⟩ := hfull rfl
      refine ⟨_, _, hbatch, List.length_map .., ?_, ?_⟩
      · intro i a bytes hi hne
        refine ⟨.ok (), by rw [List.getElem?_map, hi]; rfl, ?_⟩
        rw [write_alone v hd hs, hgranted _ (List.mem_of_getElem? hi) hne]
      · -- what was left out has no byte to write
        have hnothing : ∀ write ∈ after.map v.puts, write.2 = [] := by
          intro write hwrite
          obtain ⟨request, hmem, rfl⟩ := List.mem_map.1 hwrite
          rw [View.puts, hafter request hmem, List.take_nil]
        change v.byte w' = _
        rw [hrequests, List.map_append, overlays_append, overlays_nothing hnothing, hbyte]
    · rw [hv] at hbatch
      obtain ⟨hanswers, hbytes⟩ := v.each_write requests hsound
      refine ⟨_, _, hbatch, by rw [hanswers, List.length_map], ?_, ?_⟩
      · intro i a bytes hi _
        refine ⟨v.writable a bytes.length, ?_, write_alone v hd hs a bytes⟩
        rw [hanswers, List.getElem?_map, hi]
        rfl
      · -- the writes of the first attempt are made again
        rw [hbytes, hbyte, hrequests, List.map_append]
        exact overlays_again
  overflow hlimit := batchWrite_overflow hd hlimit

/-- Batches agree with the transfers one by one. -/
theorem batches_agree (v : drv.View d) (hd : m.handle = some d) (hs : v.Sound m.world) :
    (v.ReadsEach ∨ v.Fills → ∀ requests, ReadsAgree drv m requests) ∧
    (v.WritesEach → ∀ requests, WritesAgree v m requests) := by
  refine ⟨?_, fun heach requests => writesAgree heach hd hs requests⟩
  rintro (heach | hfills) requests
  · exact readsAgree heach.fills hd hs requests
  · exact readsAgree hfills hd hs requests

/-- Four bytes that can be read and written; nothing else can be reached. -/
def fourBytes : Memory Nat Segments :=
  (Memory.create
    { segments :=
        [⟨⟨.ofNat 0x1000, .ofNat 0x1004, .readWrite, false, 0, none⟩, [1, 2, 3, 4], false⟩]
      maxRead := none
      writable := true
      vectored := .each
      regionsFail := false
      calls := [] }).attach 7

theorem single_fourBytes : Segments.Single (.ofNat 0x1000) 4 fourBytes.world :=
  ⟨⟨_, rfl, rfl, rfl⟩, rfl, rfl, rfl⟩

theorem batches_agree_overlapping :
    (∃ answers m', outcome (batchRead Segments.driver
        [(.ofNat 0x1001, 2), (.ofNat 0x2000, 1), (.ofNat 0x1002, 2)]) fourBytes = (.ok answers, m') ∧
      answers[2]? = some (.ok [3, 4])) ∧
    (∃ answers m', outcome (batchWrite Segments.driver [(.ofNat 0x1000, [5, 6, 7]),
        (.ofNat 0x1003, []), (.ofNat 0x2000, [8]), (.ofNat 0x1001, [9])]) fourBytes =
          (.ok answers, m') ∧
      answers[3]? = some (.ok ()) ∧ m'.world.byte 0x1001 = 9 ∧ m'.world.byte 0x1002 = 7) ∧
    outcome (batchRead Segments.driver [(.ofNat 0x1000, 4), (.ofNat 0x2000, 2 ^ 63)]) fourBytes =
        (.error (.trapped .capacityOverflow), fourBytes) ∧
      (outcome (readBytes Segments.driver (.ofNat 0x1000) 4) fourBytes).1 = .ok [1, 2, 3, 4] := by
  obtain ⟨hreads, hwrites⟩ :=
    batches_agree (m := fourBytes) (Segments.view 7 (.ofNat 0x1000) 4) rfl single_fourBytes
  have hread := hreads (.inl (Segments.view_readsEach 7))
  refine ⟨?_, ?_, (hread [(.ofNat 0x1000, 4), (.ofNat 0x2000, 2 ^ 63)]).oversized (by decide) ?_, by cbv⟩
  · obtain ⟨answers, m', hbatch, _, hanswers⟩ :=
      (hread [(.ofNat 0x1001, 2), (.ofNat 0x2000, 1), (.ofNat 0x1002, 2)]).answered (by decide)
        (by decide)
    obtain ⟨answer, hanswer, halone⟩ := hanswers 2 (.ofNat 0x1002) 2 rfl (by decide)
    refine ⟨answers, m', hbatch, hanswer.trans (congrArg some ?_)⟩
    cases answer with
    | ok bytes => exact congrArg _ (Except.ok.inj halone).symm
    | error fault => cases halone
  · obtain ⟨answers, m', hbatch, _, hanswers, hbyte⟩ :=
      (hwrites (Segments.view_writesEach 7) [(.ofNat 0x1000, [5, 6, 7]), (.ofNat 0x1003, []),
        (.ofNat 0x2000, [8]), (.ofNat 0x1001, [9])]).answered (by decide)
    obtain ⟨answer, hanswer, halone⟩ := hanswers 3 (.ofNat 0x1001) [9] rfl (by decide)
    refine ⟨answers, m', hbatch, hanswer.trans (congrArg some ?_), (congrFun hbyte 0x1001).trans rfl,
      (congrFun hbyte 0x1002).trans rfl⟩
    cases answer with
    | ok granted => rfl
    | error fault => cases halone
  · exact ⟨_, List.mem_cons_of_mem _ List.mem_cons_self, Nat.le_refl _⟩

end MemoryWork

end Grapnel
