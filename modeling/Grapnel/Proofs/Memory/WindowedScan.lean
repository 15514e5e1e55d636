import Grapnel.Memory.Basic
import Grapnel.Memory.Segments
import Grapnel.Proofs.Memory.PatternSearch
import Grapnel.Proofs.Memory.Place
import Grapnel.Proofs.Outcome
import Grapnel.Proofs.Traversal

namespace Grapnel

namespace Scan

/-- Reads that from a world on are granted or refused by address and size alone, and that give the
bytes of one memory wherever they are granted. -/
def ReadsFrom (read : Address → Nat → W → Option (List UInt8) × W) (memory : Nat → UInt8)
    (refused : Address → Nat → Bool) (w : W) : Prop :=
  ∃ steady : W → Prop, steady w ∧ ∀ a size w, steady w →
    (read a size w).1 = (if refused a size then none else some (bytesFrom memory a.toNat size)) ∧
      steady (read a size w).2

/-- The addresses of matches when every place of the range is tried on the whole of its bytes. -/
def everyPlace (p : BytePattern) (memory : Nat → UInt8) (start : Address) (length : Nat) :
    List Address :=
  ((List.range (length + 1 - p.length)).filter
    (p.matchesAt (bytesFrom memory start.toNat length).toArray)).map start.above

/-- The bytes at an offset were seen whole by a read that was granted. -/
def Seen (refused : Address → Nat → Bool) (start : Address) (length n o : Nat) : Prop :=
  ∃ w size, w ≤ o ∧ o + n ≤ w + size ∧ w + size ≤ length ∧ refused (start.above w) size = false

/-- A read of at most `small` bytes was refused not more than a window before an offset. -/
def Lost (refused : Address → Nat → Bool) (start : Address) (length window small o : Nat) : Prop :=
  ∃ w size, w ≤ o ∧ o < w + window ∧ size ≤ small ∧ w + size ≤ length ∧
    refused (start.above w) size = true

variable {W : Type} {read : Address → Nat → W → Option (List UInt8) × W}
  {memory : Nat → UInt8} {refused : Address → Nat → Bool} {a start : Address}
  {p : BytePattern} {overlap left step length chunk offset : Nat} {w : W}

/-- A window holds bytes of the memory from a read that was granted; no window means that a small
read was refused. -/
def WindowSound (memory : Nat → UInt8) (refused : Address → Nat → Bool) (a : Address)
    (overlap left step : Nat) : Except Trap (Option Window) → Prop
  | .ok (some ⟨taken, _, content⟩) =>
    taken ≤ step ∧ refused a (min (taken + overlap) left) = false ∧
      content = bytesFrom memory a.toNat (min (taken + overlap) left)
  | .ok none => ∃ size, size ≤ 3 * overlap + 1 ∧ size ≤ left ∧ refused a size = true
  | .error _ => False

theorem ReadsFrom.read_eq (hr : ReadsFrom read memory refused w)
    (h : read a size w = (result, w')) :
    result = (if refused a size then none else some (bytesFrom memory a.toNat size)) ∧
      ReadsFrom read memory refused w' := by
  obtain ⟨steady, hw, hs⟩ := hr
  obtain ⟨ha, hw'⟩ := hs a size w hw
  rw [h] at ha hw'
  exact ⟨ha, steady, hw', hs⟩

theorem ReadsFrom.granted (hr : ReadsFrom read memory refused w)
    (h : read a size w = (some content, w')) :
    refused a size = false ∧ content = bytesFrom memory a.toNat size := by
  obtain ⟨ha, _⟩ := hr.read_eq h
  cases hf : refused a size with
  | true => simp [hf] at ha
  | false => exact ⟨rfl, by simpa [hf] using ha⟩

theorem ReadsFrom.refusal (hr : ReadsFrom read memory refused w)
    (h : read a size w = (none, w')) : refused a size = true := by
  obtain ⟨ha, _⟩ := hr.read_eq h
  cases hf : refused a size with
  | true => rfl
  | false => simp [hf] at ha

theorem readWindow_sound (hr : ReadsFrom read memory refused w)
    (hfit : step + overlap < wordLimit) (positive : 0 < step)
    (h : readWindow read a overlap left step positive w = (result, w')) :
    WindowSound memory refused a overlap left step result ∧ ReadsFrom read memory refused w' := by
  fun_induction readWindow read a overlap left step positive w with
  | case1 step positive w trap hc =>
    rw [addChecked, if_pos hfit] at hc
    cases hc
  | case2 step positive w size hc content w₁ hread =>
    rw [addChecked, if_pos hfit] at hc
    cases hc
    cases h
    obtain ⟨hg, hb⟩ := hr.granted hread
    exact ⟨⟨Nat.le_refl _, hg, hb⟩, (hr.read_eq hread).2⟩
  | case3 step positive w size hc w₁ hread hhalf =>
    rw [addChecked, if_pos hfit] at hc
    cases hc
    cases h
    refine ⟨⟨min (step + overlap) left, ?_, Nat.min_le_right _ _, hr.refusal hread⟩, ?_⟩
    · omega
    · exact (hr.read_eq hread).2
  | case4 step positive w size hc w₁ hread hhalf ih =>
    obtain ⟨hs, hr'⟩ := ih (hr.read_eq hread).2 (by omega) h
    refine ⟨?_, hr'⟩
    cases result with
    | error trap => exact hs
    | ok window =>
      cases window with
      | none => exact hs
      | some window => exact ⟨Nat.le_trans hs.1 (Nat.div_le_self _ _), hs.2⟩

theorem scanFrom_step (hfit : ¬ wordLimit ≤ offset + p.length)
    (hlt : ¬ length < offset + p.length) (hadd : start.add offset = .ok a)
    {positive : 0 < min (max chunk p.length) (length - offset)} :
    readWindow read a (p.length - 1) (length - offset)
      (min (max chunk p.length) (length - offset)) positive w = (result, w') →
    scanFrom read p start length chunk firstOnly offset w =
      match result with
      | .error trap => (.error trap, w')
      | .ok none =>
        scanFrom read p start length chunk firstOnly
          (offset + min (max chunk p.length) (length - offset)) w'
      | .ok (some window) =>
        match matchesIn p a firstOnly window.content with
        | .error trap => (.error trap, w')
        | .ok found =>
          if firstOnly && !found.isEmpty then (.ok found, w')
          else
            let (rest, w'') :=
              scanFrom read p start length chunk firstOnly (offset + window.step) w'
            (rest.map (found ++ ·), w'') := by
  intro hw
  rw [scanFrom, if_neg hfit, dif_neg hlt, hadd]
  dsimp only
  rw [hw]
  cases result with
  | error trap => rfl
  | ok window => cases window <;> rfl

theorem matchesIn_bytesFrom (hfit : a.toNat + size < wordLimit) :
    matchesIn p a false (bytesFrom memory a.toNat size) =
      .ok ((p.findAll (bytesFrom memory a.toNat size).toArray).map a.above) := by
  apply mapM_ok
  intro i hi
  obtain ⟨hi, _⟩ := BytePattern.matchesAt_bytesFrom.1 (BytePattern.mem_findAll.1 hi)
  exact Address.add_eq_above (by omega)

/-- What a scan from an offset on answers: matches in ascending order that were seen, and all of
them but for those behind a small read that was refused. -/
structure Scanned (p : BytePattern) (memory : Nat → UInt8) (refused : Address → Nat → Bool)
    (start : Address) (length chunk offset : Nat) (offsets : List Nat) : Prop where
  ascending : offsets.Pairwise (· < ·)
  sound : ∀ o ∈ offsets, offset ≤ o ∧ o + p.length ≤ length ∧
    p.OccursAt memory (start.toNat + o) ∧ Seen refused start length p.length o
  complete : ∀ o, offset ≤ o → o + p.length ≤ length → p.OccursAt memory (start.toNat + o) →
    o ∈ offsets ∨ Lost refused start length (max chunk p.length) (3 * p.length - 2) o

theorem Scanned.nil (h : length < offset + p.length) :
    Scanned p memory refused start length chunk offset [] where
  ascending := .nil
  sound _ ho := absurd ho List.not_mem_nil
  complete o ho hl _ := by omega

/-- Skipping a window whose start had a small read refused loses only what that read explains. -/
theorem Scanned.skip
    (h : Scanned p memory refused start length chunk (offset + window) offsets)
    (hw : window ≤ max chunk p.length) (hsmall : size ≤ 3 * p.length - 2)
    (hl : offset + size ≤ length) (hr : refused (start.above offset) size = true) :
    Scanned p memory refused start length chunk offset offsets where
  ascending := h.ascending
  sound o ho :=
    have hs := h.sound o ho
    ⟨by omega, hs.2⟩
  complete o ho hlen hocc := by
    by_cases hin : o < offset + window
    · exact .inr ⟨offset, size, ho, by omega, hsmall, hl, hr⟩
    · exact h.complete o (by omega) hlen hocc

/-- The matches that start in a step come before those of the rest. -/
theorem Scanned.step_read
    (h : Scanned p memory refused start length chunk (offset + step) offsets)
    (hstart : start.toNat + length < wordLimit) (hlt : offset + p.length ≤ length)
    (hsize : size = min (step + (p.length - 1)) (length - offset))
    (hr : refused (start.above offset) size = false) :
    Scanned p memory refused start length chunk offset
      ((p.findAll (bytesFrom memory (start.above offset).toNat size).toArray).map (offset + ·)
        ++ offsets) := by
  have hp := p.length_pos
  have ha : (start.above offset).toNat = start.toNat + offset := Address.toNat_above (by omega)
  have hfind (i : Nat) : i ∈ p.findAll (bytesFrom memory (start.above offset).toNat size).toArray ↔
      i + p.length ≤ size ∧ p.OccursAt memory (start.toNat + (offset + i)) := by
    rw [BytePattern.mem_findAll, BytePattern.matchesAt_bytesFrom, ha, Nat.add_assoc]
  constructor
  · rw [List.pairwise_append]
    refine ⟨?_, h.ascending, ?_⟩
    · rw [List.pairwise_map]
      exact (BytePattern.findAll_ascending _ _).imp fun hij => by omega
    · intro o ho o' ho'
      obtain ⟨i, hi, rfl⟩ := List.mem_map.1 ho
      have hi := ((hfind i).1 hi).1
      have ho' := (h.sound o' ho').1
      omega
  · intro o ho
    rcases List.mem_append.1 ho with ho | ho
    · obtain ⟨i, hi, rfl⟩ := List.mem_map.1 ho
      obtain ⟨hi, hocc⟩ := (hfind i).1 hi
      exact ⟨by omega, by omega, hocc, offset, size, by omega, by omega, by omega, hr⟩
    · have hs := h.sound o ho
      exact ⟨by omega, hs.2⟩
  · intro o ho hlen hocc
    by_cases hin : o < offset + step
    · refine .inl (List.mem_append_left _ (List.mem_map.2 ⟨o - offset, (hfind _).2 ⟨?_, ?_⟩, ?_⟩))
      · omega
      · rwa [Nat.add_sub_cancel' ho]
      · exact Nat.add_sub_cancel' ho
    · exact (h.complete o (by omega) hlen hocc).imp (List.mem_append_right _) id

/-- The answer of a scan: addresses at offsets that are rightly found. -/
def AnswerSound (p : BytePattern) (memory : Nat → UInt8) (refused : Address → Nat → Bool)
    (start : Address) (length chunk offset : Nat) : Except Trap (List Address) → Prop
  | .ok found => ∃ offsets, found = offsets.map start.above ∧
      Scanned p memory refused start length chunk offset offsets
  | .error _ => False

theorem scanFrom_sound (hr : ReadsFrom read memory refused w)
    (hstart : start.toNat + length < wordLimit) (hlength : length + p.length < wordLimit)
    (hoffset : offset ≤ length) :
    AnswerSound p memory refused start length chunk offset
      (scanFrom read p start length chunk false offset w).1 := by
  have hp := p.length_pos
  fun_induction scanFrom read p start length chunk false offset w with
  | case1 => omega
  | case2 offset w positive hfit hlt => exact ⟨[], rfl, .nil hlt⟩
  | case3 offset w positive hfit hlt trap hadd =>
    rw [Address.add_eq_above (by omega)] at hadd
    cases hadd
  | case4 offset w positive hfit hlt a hadd window trap w₁ hwindow =>
    exact (readWindow_sound hr (by omega) _ hwindow).1.elim
  | case5 offset w positive hfit hlt a hadd window w₁ hwindow ih =>
    rw [Address.add_eq_above (by omega)] at hadd
    cases hadd
    obtain ⟨⟨size, hsmall, hleft, hrefused⟩, hr₁⟩ := readWindow_sound hr (by omega) _ hwindow
    have hi := ih hr₁ (by omega)
    generalize (scanFrom read p start length chunk false (offset + window) w₁).1 = result at hi
    cases result with
    | error trap => exact hi
    | ok found =>
      obtain ⟨offsets, rfl, hs⟩ := hi
      exact ⟨offsets, rfl, hs.skip (Nat.min_le_left _ _) (by omega) (by omega) hrefused⟩
  | case6 offset w positive hfit hlt a hadd window step hstep content w₁ hwindow trap hmatches =>
    rw [Address.add_eq_above (by omega)] at hadd
    cases hadd
    obtain ⟨⟨_, _, rfl⟩, _⟩ := readWindow_sound hr (by omega) _ hwindow
    have ha : (start.above offset).toNat = start.toNat + offset := Address.toNat_above (by omega)
    rw [matchesIn_bytesFrom (by omega)] at hmatches
    cases hmatches
  | case7 => contradiction
  | case8 offset w positive hfit hlt a hadd window step hstep content w₁ hwindow found hmatches _
      rest w₂ hrest ih =>
    rw [Address.add_eq_above (by omega)] at hadd
    cases hadd
    obtain ⟨⟨hle, hgranted, rfl⟩, hr₁⟩ := readWindow_sound hr (by omega) _ hwindow
    have ha : (start.above offset).toNat = start.toNat + offset := Address.toNat_above (by omega)
    rw [matchesIn_bytesFrom (by omega)] at hmatches
    cases hmatches
    have hi := ih hr₁ (by omega)
    rw [hrest] at hi
    cases rest with
    | error trap => exact hi
    | ok found =>
      obtain ⟨offsets, rfl, hs⟩ := hi
      refine ⟨_, ?_, hs.step_read hstart (by omega) rfl hgranted⟩
      rw [List.map_append, List.map_map]
      refine congrArg (· ++ _) (List.map_congr_left fun i _ => ?_)
      exact Address.above_above (by omega)

/-- Where nothing small is refused, a scan finds what trying every place finds. -/
theorem Scanned.eq_everyPlace
    (h : Scanned p memory refused start length chunk 0 offsets)
    (hr : ∀ w size, size ≤ 3 * p.length - 2 → w + size ≤ length →
      refused (start.above w) size = false) :
    offsets.map start.above = everyPlace p memory start length := by
  refine congrArg (List.map _) (h.ascending.eq_of_mem_iff
    (List.Pairwise.filter _ List.pairwise_lt_range) fun o => ?_)
  rw [List.mem_filter, List.mem_range, BytePattern.matchesAt_bytesFrom]
  constructor
  · intro ho
    obtain ⟨_, hlen, hocc, _⟩ := h.sound o ho
    exact ⟨by omega, hlen, hocc⟩
  · rintro ⟨_, hlen, hocc⟩
    rcases h.complete o (Nat.zero_le o) hlen hocc with ho | ⟨w, size, _, _, hsmall, hl, hrefused⟩
    · exact ho
    · rw [hr w size hsmall hl] at hrefused
      cases hrefused

end Scan

namespace Segments

/-- What a read is granted. -/
def granted? (s : Segments) (a : Address) (size : Nat) : Option (List UInt8) :=
  if s.maxRead.all (size ≤ ·) then s.content? a size else none

theorem content?_eq_bytesFrom {memory : Nat → UInt8} {s : Segments}
    (hm : ∀ seg ∈ s.segments, ∀ i b, seg.content[i]? = some b →
      memory (seg.region.start.toNat + i) = b)
    (h : s.content? a size = some bytes) : bytes = bytesFrom memory a.toNat size := by
  obtain ⟨seg, hseg, hplace⟩ := List.exists_of_findSome?_eq_some h
  obtain ⟨i, hi, rfl⟩ := Option.map_eq_some_iff.1 hplace
  unfold Segment.place? at hi
  split at hi
  · next hin =>
    cases hi
    have hle : seg.region.start.toNat ≤ a.toNat := hin.1
    apply List.ext_getElem?
    intro j
    have hj := getElem?_bytesFrom memory a.toNat size j
    rw [List.getElem?_toArray] at hj
    rw [hj, List.getElem?_take]
    split
    · next hlt =>
      rw [List.getElem?_drop, List.getElem?_eq_getElem (by omega)]
      have hb := hm seg hseg (a.toNat - seg.region.start.toNat + j) _
        (List.getElem?_eq_getElem (by omega))
      rw [← hb]
      congr 2
      omega
    · rfl
  · cases hi

theorem tryRead_eq (s : Segments) (process : Nat) :
    MemoryWork.tryRead driver process a size s =
      (s.granted? a size, s.log (.read a size (s.granted? a size).isSome)) := by
  have hg : (if s.maxRead.all (size ≤ ·) then s.content? a size else none) = s.granted? a size :=
    rfl
  have hr : driver.read process a size s = s.read a size := rfl
  rw [MemoryWork.tryRead, hr, read, hg]
  cases s.granted? a size <;> rfl

theorem readsFrom {memory : Nat → UInt8} {s : Segments}
    (hm : ∀ seg ∈ s.segments, ∀ i b, seg.content[i]? = some b →
      memory (seg.region.start.toNat + i) = b) (process : Nat) :
    Scan.ReadsFrom (MemoryWork.tryRead driver process) memory
      (fun a size => (s.granted? a size).isNone) s := by
  refine ⟨fun s' => s'.segments = s.segments ∧ s'.maxRead = s.maxRead, ⟨rfl, rfl⟩, ?_⟩
  rintro a size s' ⟨hs, hmax⟩
  have hg : s'.granted? a size = s.granted? a size := by
    rw [granted?, granted?, content?, content?, hs, hmax]
  rw [tryRead_eq, hg]
  refine ⟨?_, hs, hmax⟩
  cases hr : s.granted? a size with
  | none => simp only [hr, Option.isNone_none, if_true]
  | some bytes =>
    rw [granted?] at hr
    split at hr
    · next hmax => simp only [granted?, if_pos hmax, hr, Option.isNone_some, Bool.false_eq_true,
        if_false, content?_eq_bytesFrom hm hr]
    · cases hr

/-- The memory that one segment is a part of. -/
def memoryOf (seg : Segment) (i : Nat) : UInt8 :=
  seg.content.getD (i - seg.region.start.toNat) 0

theorem readsFrom_single {s : Segments} (h : s.segments = [seg]) (process : Nat) :
    Scan.ReadsFrom (MemoryWork.tryRead driver process) (memoryOf seg)
      (fun a size => (s.granted? a size).isNone) s := by
  apply readsFrom
  intro seg' hseg i b hi
  rw [h, List.mem_singleton] at hseg
  subst hseg
  rw [memoryOf, Nat.add_sub_cancel_left, List.getD_eq_getElem?_getD, hi]
  rfl

end Segments

namespace MemoryWork

variable {D W : Type} {drv : MemoryDriver D W} {m : Memory D W} {d : D}

theorem outcome_handle (hd : m.handle = some d) :
    outcome (handle : MemoryWork D W D) m = (.ok d, m) := by
  have hh : m.handle? = .ok d := by rw [Memory.handle?, hd]
  rw [handle, outcome_bind, outcome_get]
  simp only [hh]
  rfl

theorem outcome_findAllPatterns (hd : m.handle = some d) (p : BytePattern) (start : Address)
    (length : Nat) :
    (outcome (findAllPatterns drv p start length) m).1 =
      ((Scan.scanFrom (tryRead drv d) p start length m.scanChunk false 0 m.world).1).mapError
        .trapped := by
  rw [findAllPatterns, scan, outcome_bind, outcome_handle hd]
  dsimp only
  rw [outcome_bind, outcome_get]
  dsimp only
  rw [outcome_bind]
  change (outcome (checked
    (Scan.scanFrom (tryRead drv d) p start length m.scanChunk false 0 m.world).1) _).1 = _
  cases (Scan.scanFrom (tryRead drv d) p start length m.scanChunk false 0 m.world).1 <;> rfl

/-- A scan in windows of any size is sound, loses only what a small refused read explains, and where
no small read is refused finds what trying every place finds. -/
theorem findAllPatterns_sound_and_complete {memory : Nat → UInt8}
    {refused : Address → Nat → Bool} (hd : m.handle = some d)
    (hr : Scan.ReadsFrom (tryRead drv d) memory refused m.world) (p : BytePattern)
    (start : Address) (length : Nat) (hstart : start.toNat + length < wordLimit)
    (hlength : length + p.length < wordLimit) :
    ∃ found, (outcome (findAllPatterns drv p start length) m).1 = .ok found ∧
      found.Pairwise (· < ·) ∧
      (∀ a ∈ found, ∃ o, a = start.above o ∧ o + p.length ≤ length ∧
        p.OccursAt memory (start.toNat + o) ∧ Scan.Seen refused start length p.length o) ∧
      (∀ o, o + p.length ≤ length → p.OccursAt memory (start.toNat + o) →
        start.above o ∉ found →
        Scan.Lost refused start length (max m.scanChunk p.length) (3 * p.length - 2) o) ∧
      ((∀ w size, size ≤ 3 * p.length - 2 → w + size ≤ length →
          refused (start.above w) size = false) →
        found = Scan.everyPlace p memory start length) := by
  have hs : Scan.AnswerSound p memory refused start length m.scanChunk 0 _ :=
    Scan.scanFrom_sound hr hstart hlength (Nat.zero_le length)
  rw [outcome_findAllPatterns hd]
  generalize (Scan.scanFrom (tryRead drv d) p start length m.scanChunk false 0 m.world).1 = answer
    at hs ⊢
  cases answer with
  | error trap => exact hs.elim
  | ok found =>
    obtain ⟨offsets, rfl, hs⟩ := hs
    refine ⟨offsets.map start.above, rfl, ?_, ?_, ?_, hs.eq_everyPlace⟩
    · rw [List.pairwise_map]
      refine hs.ascending.imp_of_mem fun _ ho hlt => Address.above_lt_above ?_ hlt
      have hb := hs.sound _ ho
      omega
    · intro a ha
      obtain ⟨o, ho, rfl⟩ := List.mem_map.1 ha
      exact ⟨o, rfl, (hs.sound o ho).2⟩
    · intro o hlen hocc hnot
      refine (hs.complete o (Nat.zero_le o) hlen hocc).resolve_left fun ho => hnot ?_
      exact List.mem_map_of_mem ho

/-- Five bytes of which at most four are read at once. -/
def fiveBytes : Segments where
  segments := [⟨⟨.ofNat 0x1000, .ofNat 0x1005, .readExecute, false, 0, none⟩,
    [0xAB, 1, 2, 0xAB, 4], false⟩]
  maxRead := some 4
  writable := false
  vectored := .each
  regionsFail := false
  calls := []

theorem findAllPatterns_fiveBytes :
    (outcome (findAllPatterns Segments.driver ⟨[some 0xAB, none], by decide⟩ (.ofNat 0x1000) 5)
      ((Memory.open? (some 8) none fiveBytes).attach 7)).1 =
      .ok [.ofNat 0x1000, .ofNat 0x1003] := by
  obtain ⟨found, hfound, _, _, _, heq⟩ := findAllPatterns_sound_and_complete
    (m := (Memory.open? (some 8) none fiveBytes).attach 7) rfl
    (Segments.readsFrom_single (s := fiveBytes) rfl 7)
    ⟨[some 0xAB, none], by decide⟩ (.ofNat 0x1000) 5 (by decide) (by decide)
  rw [hfound, heq]
  · decide
  · have hgranted : ∀ w < 6, ∀ size < 5, w + size ≤ 5 →
        (fiveBytes.granted? ((Address.ofNat 0x1000).above w) size).isNone = false := by decide
    intro w size hsize hlen
    exact hgranted w (by omega) size (Nat.lt_succ_of_le hsize) hlen

end MemoryWork

end Grapnel
