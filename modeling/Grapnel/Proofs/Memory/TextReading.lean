import Grapnel.Proofs.Memory.Batch

namespace Grapnel

namespace TextReading

/-- Reads that from a world on are a function of address and size. -/
def Fixed (read : Address → Nat → W → Option (List UInt8) × W)
    (reads : Address → Nat → Option (List UInt8)) (w : W) : Prop :=
  ∃ steady : W → Prop, steady w ∧ ∀ a size w, steady w →
    (read a size w).1 = reads a size ∧ steady (read a size w).2

/-- Reads that are granted give as many bytes as were asked for. -/
def Filled (reads : Address → Nat → Option (List UInt8)) : Prop :=
  ∀ a size content, reads a size = some content → content.length = size

/-- Reads within a range give the bytes of a memory. -/
def Reflects (reads : Address → Nat → Option (List UInt8)) (memory : Nat → UInt8)
    (start : Address) (length : Nat) : Prop :=
  ∀ o size content, o + size ≤ length → reads (start.above o) size = some content →
    content = bytesFrom memory (start.toNat + o) size

/-- What is read of the piece at an offset; the last piece of a range may be shorter. -/
def piece (reads : Address → Nat → Option (List UInt8)) (start : Address) (chunk length o : Nat) :
    Option (List UInt8) :=
  reads (start.above o) (min chunk (length - o))

/-- The offsets at which pieces of a range begin, from one of them on. -/
def offsetsFrom (chunk length o : Nat) : List Nat := List.range' o ((length - o) ⌈/⌉ chunk) chunk

/-- How far the pieces are readable: up to the first one that is refused, or to the limit. -/
def reachFrom (reads : Address → Nat → Option (List UInt8)) (start : Address)
    (chunk length o : Nat) : Nat :=
  ((offsetsFrom chunk length o).find? fun o => (piece reads start chunk length o).isNone).getD length

/-- The bytes of the pieces before the first one that is refused. -/
def bytesOfPieces (reads : Address → Nat → Option (List UInt8)) (start : Address)
    (chunk length o : Nat) : List UInt8 :=
  (((offsetsFrom chunk length o).map (piece reads start chunk length)).takeWhile
    Option.isSome).reduceOption.flatten

variable {W : Type} {read : Address → Nat → W → Option (List UInt8) × W}
  {reads : Address → Nat → Option (List UInt8)} {memory : Nat → UInt8} {a start : Address}
  {chunk length o size : Nat} {content : List UInt8} {result : Option (List UInt8)} {w w' : W}

theorem Fixed.read_eq (hr : Fixed read reads w) (h : read a size w = (result, w')) :
    reads a size = result ∧ Fixed read reads w' := by
  obtain ⟨steady, hw, hs⟩ := hr
  obtain ⟨ha, hw'⟩ := hs a size w hw
  rw [h] at ha hw'
  exact ⟨ha.symm, steady, hw', hs⟩

/-- Reads of a memory, some of them refused. -/
def ofMemory (memory : Nat → UInt8) (refused : Address → Nat → Bool) (a : Address) (size : Nat) :
    Option (List UInt8) :=
  if refused a size then none else some (bytesFrom memory a.toNat size)

theorem fixed_ofMemory {refused : Address → Nat → Bool}
    (hr : Scan.ReadsFrom read memory refused w) : Fixed read (ofMemory memory refused) w := hr

theorem filled_ofMemory {refused : Address → Nat → Bool} : Filled (ofMemory memory refused) := by
  intro a size content h
  rw [ofMemory] at h
  split at h
  · cases h
  · cases h
    exact length_bytesFrom ..

/-- The first piece of a range is refused. -/
def FirstRefused (reads : Address → Nat → Option (List UInt8)) (start : Address)
    (chunk length : Nat) : Prop :=
  0 < length ∧ reads start (min chunk length) = none

instance : Decidable (FirstRefused reads start chunk length) := inferInstanceAs (Decidable (_ ∧ _))

theorem offsetsFrom_end (h : length ≤ o) : offsetsFrom chunk length o = [] := by
  rw [offsetsFrom, Nat.sub_eq_zero_of_le h, zero_ceilDiv]
  rfl

theorem offsetsFrom_step (hchunk : 0 < chunk) (h : o < length) :
    offsetsFrom chunk length o =
      o :: offsetsFrom chunk length (o + min chunk (length - o)) := by
  rcases Nat.le_total chunk (length - o) with hle | hle
  · have hcount : (length - o) ⌈/⌉ chunk = (length - (o + chunk)) ⌈/⌉ chunk + 1 := by
      rw [Nat.ceilDiv_eq_add_pred_div, Nat.ceilDiv_eq_add_pred_div, ← Nat.add_div_right _ hchunk]
      congr 1
      omega
    rw [Nat.min_eq_left hle, offsetsFrom, hcount, List.range'_succ]
    rfl
  · have hcount : (length - o) ⌈/⌉ chunk = 1 := by
      rw [Nat.ceilDiv_eq_add_pred_div]
      exact Nat.div_eq_of_lt_le (by omega) (by omega)
    rw [offsetsFrom_end (o := o + min chunk (length - o)) (by omega), offsetsFrom, hcount]
    rfl

theorem reachFrom_end (h : length ≤ o) : reachFrom reads start chunk length o = length := by
  rw [reachFrom, offsetsFrom_end h]
  rfl

theorem reachFrom_refused (hchunk : 0 < chunk) (h : o < length)
    (hp : piece reads start chunk length o = none) : reachFrom reads start chunk length o = o := by
  rw [reachFrom, offsetsFrom_step hchunk h, List.find?_cons_of_pos (by rw [hp]; rfl)]
  rfl

theorem reachFrom_granted (hchunk : 0 < chunk) (h : o < length)
    (hp : piece reads start chunk length o = some content) :
    reachFrom reads start chunk length o =
      reachFrom reads start chunk length (o + min chunk (length - o)) := by
  rw [reachFrom, offsetsFrom_step hchunk h, List.find?_cons_of_neg (by simp [hp])]
  rfl

theorem bytesOfPieces_end (h : length ≤ o) : bytesOfPieces reads start chunk length o = [] := by
  rw [bytesOfPieces, offsetsFrom_end h]
  rfl

theorem bytesOfPieces_refused (hchunk : 0 < chunk) (h : o < length)
    (hp : piece reads start chunk length o = none) :
    bytesOfPieces reads start chunk length o = [] := by
  rw [bytesOfPieces, offsetsFrom_step hchunk h, List.map_cons, hp]
  rfl

theorem bytesOfPieces_granted (hchunk : 0 < chunk) (h : o < length)
    (hp : piece reads start chunk length o = some content) :
    bytesOfPieces reads start chunk length o =
      content ++ bytesOfPieces reads start chunk length (o + min chunk (length - o)) := by
  rw [bytesOfPieces, offsetsFrom_step hchunk h, List.map_cons, hp]
  rfl

theorem piece_induction (length : Nat) (hchunk : 0 < chunk) {motive : Nat → Prop}
    (beyond : ∀ o, length ≤ o → motive o)
    (within : ∀ o, o < length → motive (o + min chunk (length - o)) → motive o) (o : Nat) :
    motive o := by
  induction hleft : length - o using Nat.strongRecOn generalizing o with
  | ind left ih =>
    rcases Nat.lt_or_ge o length with hlt | hge
    · exact within o hlt (ih _ (by omega) _ rfl)
    · exact beyond o hge

theorem length_bytesOfPieces (hfilled : Filled reads) (hchunk : 0 < chunk) (h : o ≤ length) :
    o + (bytesOfPieces reads start chunk length o).length = reachFrom reads start chunk length o := by
  induction o using piece_induction length hchunk with
  | beyond o hge =>
    rw [bytesOfPieces_end hge, reachFrom_end hge]
    exact Nat.le_antisymm h hge
  | within o hlt ih =>
    cases hp : piece reads start chunk length o with
    | none =>
      rw [bytesOfPieces_refused hchunk hlt hp, reachFrom_refused hchunk hlt hp]
      rfl
    | some content =>
      rw [bytesOfPieces_granted hchunk hlt hp, reachFrom_granted hchunk hlt hp, ← ih (by omega),
        List.length_append, hfilled _ _ _ hp, Nat.add_assoc]

theorem reachFrom_all (hchunk : 0 < chunk)
    (hgranted : ∀ o size, o + size ≤ length → reads (start.above o) size ≠ none) :
    reachFrom reads start chunk length o = length := by
  induction o using piece_induction length hchunk with
  | beyond o hge => exact reachFrom_end hge
  | within o hlt ih =>
    obtain ⟨content, hp⟩ := Option.ne_none_iff_exists'.1 (hgranted o (min chunk (length - o)) (by omega))
    rw [reachFrom_granted hchunk hlt hp, ih]

theorem bytesFrom_add (memory : Nat → UInt8) (a m n : Nat) :
    bytesFrom memory a (m + n) = bytesFrom memory a m ++ bytesFrom memory (a + m) n := by
  simp only [bytesFrom, List.range_add, List.map_append, List.map_map, Nat.add_assoc]
  rfl

/-- Where the pieces show one memory, their bytes are those that follow each other in it. -/
theorem bytesOfPieces_eq (hreflects : Reflects reads memory start length) (hchunk : 0 < chunk) :
    bytesOfPieces reads start chunk length o =
      bytesFrom memory (start.toNat + o) (bytesOfPieces reads start chunk length o).length := by
  induction o using piece_induction length hchunk with
  | beyond o hge =>
    rw [bytesOfPieces_end hge]
    rfl
  | within o hlt ih =>
    cases hp : piece reads start chunk length o with
    | none =>
      rw [bytesOfPieces_refused hchunk hlt hp]
      rfl
    | some content =>
      have hcontent := hreflects o _ _ (by omega) hp
      have hlength : content.length = min chunk (length - o) := by
        rw [hcontent, length_bytesFrom]
      rw [bytesOfPieces_granted hchunk hlt hp, List.length_append, bytesFrom_add, hlength,
        ← hcontent, Nat.add_assoc, ← ih]

theorem takeWhile_of_contains {rest : List UInt8} (h : content.contains 0 = true) :
    (content ++ rest).takeWhile (· ≠ 0) = content.takeWhile (· ≠ 0) := by
  rw [List.takeWhile_append, if_neg]
  intro hlength
  have hall := List.takeWhile_eq_self_iff.1 (List.Sublist.eq_of_length (List.takeWhile_sublist _) hlength)
  simpa using hall 0 (List.contains_iff_mem.1 h)

theorem takeWhile_of_not_contains {rest : List UInt8} (h : content.contains 0 = false) :
    (content ++ rest).takeWhile (· ≠ 0) = content ++ rest.takeWhile (· ≠ 0) := by
  apply List.takeWhile_append_of_pos
  intro b hb
  have hne : b ≠ 0 := by
    rintro rfl
    rw [List.contains_iff_mem.2 hb] at h
    cases h
  exact decide_eq_true hne

end TextReading

namespace MemoryWork

open TextReading

variable {D W : Type} {drv : MemoryDriver D W} {m : Memory D W} {d : D}
  {reads : Address → Nat → Option (List UInt8)} {a start : Address} {length left : Nat}
  {chunk : { n : Nat // 0 < n }} {isFirst : Bool} {w : W}

theorem stringFrom_pieces (hr : Fixed (tryRead drv d) reads w)
    (hfit : start.toNat + length < wordLimit) :
    ∀ o, a = start.above o → left = length - o →
      (stringFrom drv d chunk start isFirst a left w).1 =
        if isFirst ∧ o < length ∧ piece reads start chunk length o = none then
          .error (.refused (.notFound start))
        else .ok ((bytesOfPieces reads start chunk length o).takeWhile (· ≠ 0)) := by
  fun_induction stringFrom drv d chunk start isFirst a left w with
  | case1 isFirst a w =>
    intro o ha hleft
    rw [if_neg (by omega), bytesOfPieces_end (by omega)]
    rfl
  | case2 isFirst a left w hne positive size w' hread =>
    rintro o rfl rfl
    have hp : piece reads start chunk length o = none := (hr.read_eq hread).1
    rw [bytesOfPieces_refused positive (by omega) hp]
    simp only [hp, and_true, show o < length by omega]
    rfl
  | case3 isFirst a left w hne positive size content w' hread hzero =>
    rintro o rfl rfl
    have hp : piece reads start chunk length o = some content := (hr.read_eq hread).1
    rw [if_neg (by simp [hp]), bytesOfPieces_granted positive (by omega) hp,
      takeWhile_of_contains hzero]
  | case4 isFirst a left w hne positive size content w' hread hzero trap hadd =>
    rintro o rfl rfl
    have hstart := Address.toNat_above (a := start) (n := o) (by omega)
    rw [Address.add_eq_above (by omega)] at hadd
    cases hadd
  | case5 isFirst a left w hne positive size content w' hread hzero next hadd rest w'' hrest ih =>
    rintro o rfl rfl
    have hp : piece reads start chunk length o = some content := (hr.read_eq hread).1
    have hnext : next = start.above (o + size) := by
      rw [(Address.add_eq_ok hadd).1, Address.above_above (by omega)]
    have hi := ih (hr.read_eq hread).2 _ hnext (by omega)
    rw [hrest] at hi
    simp only [Bool.false_eq_true, false_and, if_false] at hi
    rw [if_neg (by simp [hp]), bytesOfPieces_granted positive (by omega) hp,
      takeWhile_of_not_contains (by simpa using hzero), hi]
    rfl

theorem outcome_readString (hd : m.handle = some d) (a : Address) (maxLength : Nat) :
    outcome (readString drv a maxLength) m =
      ((stringFrom drv d m.stringChunk a true a maxLength m.world).1.map Utf8.lossy,
        { m with world := (stringFrom drv d m.stringChunk a true a maxLength m.world).2 }) := by
  rw [readString, outcome_bind, outcome_handle hd]
  dsimp only
  rw [outcome_bind, outcome_get]
  dsimp only
  rw [outcome_bind, outcome_onWorld]
  dsimp only
  cases (stringFrom drv d m.stringChunk a true a maxLength m.world).1 <;> rfl

theorem readString_pieces (hd : m.handle = some d) (hr : Fixed (tryRead drv d) reads m.world)
    (hfit : a.toNat + length < wordLimit) :
    (outcome (readString drv a length) m).1 =
      if FirstRefused reads a m.stringChunk length then .error (.refused (.notFound a))
      else .ok (Utf8.lossy ((bytesOfPieces reads a m.stringChunk length 0).takeWhile (· ≠ 0))) := by
  have hzero : a.above 0 = a := Address.ofNat_toNat a
  rw [outcome_readString hd, stringFrom_pieces hr hfit 0 hzero.symm (Nat.sub_zero _).symm, piece,
    hzero]
  by_cases hfirst : FirstRefused reads a m.stringChunk length
  · rw [if_pos ⟨rfl, hfirst⟩, if_pos hfirst]
    rfl
  · rw [if_neg (fun h => hfirst h.2), if_neg hfirst]
    rfl

/-- A text is what stands before the first NUL among the bytes of the pieces before the first one that
is refused; it is not found where this is the first piece of all. Where the pieces show one memory,
these are its bytes, and where none of the range is refused, all of them. -/
theorem readString_exact (hd : m.handle = some d) (hr : Fixed (tryRead drv d) reads m.world)
    (hfilled : Filled reads) (a : Address) (maxLength : Nat)
    (hfit : a.toNat + maxLength < wordLimit) :
    ((outcome (readString drv a maxLength) m).1 = .error (.refused (.notFound a)) ↔
      FirstRefused reads a m.stringChunk maxLength) ∧
    (¬ FirstRefused reads a m.stringChunk maxLength →
      (outcome (readString drv a maxLength) m).1 =
        .ok (Utf8.lossy ((bytesOfPieces reads a m.stringChunk maxLength 0).takeWhile (· ≠ 0)))) ∧
    (bytesOfPieces reads a m.stringChunk maxLength 0).length =
      reachFrom reads a m.stringChunk maxLength 0 ∧
    ∀ memory, Reflects reads memory a maxLength →
      bytesOfPieces reads a m.stringChunk maxLength 0 =
        bytesFrom memory a.toNat (reachFrom reads a m.stringChunk maxLength 0) ∧
      ((∀ o size, o + size ≤ maxLength → reads (a.above o) size ≠ none) →
        (outcome (readString drv a maxLength) m).1 =
          .ok (Utf8.lossy ((bytesFrom memory a.toNat maxLength).takeWhile (· ≠ 0)))) := by
  have hchunk := m.stringChunk.property
  have hlength : (bytesOfPieces reads a m.stringChunk maxLength 0).length =
      reachFrom reads a m.stringChunk maxLength 0 := by
    rw [← length_bytesOfPieces hfilled hchunk (Nat.zero_le _), Nat.zero_add]
  rw [readString_pieces hd hr hfit]
  refine ⟨?_, fun hfirst => if_neg hfirst, hlength, ?_⟩
  · split
    · next hfirst => exact iff_of_true rfl hfirst
    · next hfirst => exact iff_of_false (by intro h; cases h) hfirst
  · intro memory hreflects
    have hbytes := bytesOfPieces_eq (o := 0) hreflects hchunk
    rw [hlength, Nat.add_zero] at hbytes
    refine ⟨hbytes, ?_⟩
    intro hgranted
    have hfirst : ¬ FirstRefused reads a m.stringChunk maxLength := by
      intro h
      apply hgranted 0 (min m.stringChunk maxLength) (by omega)
      rw [Address.above, Nat.add_zero, Address.ofNat_toNat, h.2]
    rw [if_neg hfirst, hbytes, reachFrom_all hchunk hgranted]

/-- A letter, a sign of three bytes, and no more that could be read. -/
def tornText : Segments where
  segments := [⟨⟨.ofNat 0x1000, .ofNat 0x1006, .readExecute, false, 0, none⟩,
    [0x61, 0x62, 0xE2, 0x82, 0xAC, 0x63], false⟩]
  maxRead := none
  writable := false
  vectored := .each
  regionsFail := false
  calls := []

theorem readString_exact_torn :
    (outcome (readString Segments.driver (.ofNat 0x1000) 6)
        ((Memory.open? none (some 4) tornText).attach 7)).1 =
      .ok (.ofList ['a', 'b', '€', 'c']) ∧
    (outcome (readString Segments.driver (.ofNat 0x1000) 7)
        ((Memory.open? none (some 4) tornText).attach 7)).1 =
      .ok (.ofList ['a', 'b', '\uFFFD']) ∧
    (outcome (readString Segments.driver (.ofNat 0x1003) 7)
        ((Memory.open? none (some 4) tornText).attach 7)).1 =
      .error (.refused (.notFound (.ofNat 0x1003))) := by
  have hr := fixed_ofMemory (Segments.readsFrom_single (s := tornText) rfl 7)
  refine ⟨?_, ?_, ?_⟩
  · obtain ⟨_, htext, _⟩ := readString_exact (m := (Memory.open? none (some 4) tornText).attach 7)
      rfl hr filled_ofMemory (.ofNat 0x1000) 6 (by decide)
    rw [htext (by decide)]
    refine congrArg (fun cs => Except.ok (String.ofList cs)) ?_
    cbv
  · obtain ⟨_, htext, _⟩ := readString_exact (m := (Memory.open? none (some 4) tornText).attach 7)
      rfl hr filled_ofMemory (.ofNat 0x1000) 7 (by decide)
    rw [htext (by decide)]
    refine congrArg (fun cs => Except.ok (String.ofList cs)) ?_
    cbv
  · exact (readString_exact (m := (Memory.open? none (some 4) tornText).attach 7)
      rfl hr filled_ofMemory (.ofNat 0x1003) 7 (by decide)).1.2 (by decide)

end MemoryWork

end Grapnel
