import Grapnel.Memory.Pattern
import Mathlib

namespace Grapnel

/-- The bytes that a memory holds from a place on. -/
def bytesFrom (memory : Nat → UInt8) (a size : Nat) : List UInt8 :=
  (List.range size).map fun i => memory (a + i)

@[simp] theorem length_bytesFrom (memory : Nat → UInt8) (a size : Nat) :
    (bytesFrom memory a size).length = size := by
  simp only [bytesFrom, List.length_map, List.length_range]

theorem getElem?_bytesFrom (memory : Nat → UInt8) (a size i : Nat) :
    (bytesFrom memory a size).toArray[i]? = if i < size then some (memory (a + i)) else none := by
  simp only [bytesFrom, List.getElem?_toArray, List.getElem?_map]
  by_cases h : i < size
  · rw [List.getElem?_range h, if_pos h]
    rfl
  · rw [List.getElem?_eq_none (by simpa using h), if_neg h]
    rfl

namespace BytePattern

/-- A pattern occurs in a memory where every byte that it names stands in its place. -/
def OccursAt (p : BytePattern) (memory : Nat → UInt8) (a : Nat) : Prop :=
  ∀ i b, p.tokens[i]? = some (some b) → memory (a + i) = b

variable {p : BytePattern} {haystack : Array UInt8} {tokens : List (Option UInt8)}
  {memory : Nat → UInt8} {a size i k index : Nat} {b : UInt8}

theorem agreesFrom_iff :
    agreesFrom haystack i tokens = true ↔
      ∀ j token, tokens[j]? = some token →
        ∃ b, haystack[i + j]? = some b ∧ token.all (· == b) = true := by
  induction tokens generalizing i with
  | nil => simp [agreesFrom]
  | cons token tokens ih =>
    rw [agreesFrom, Bool.and_eq_true, ih]
    constructor
    · rintro ⟨hb, hs⟩ j t hj
      cases j with
      | zero =>
        obtain rfl : token = t := by simpa using hj
        rw [Nat.add_zero]
        split at hb
        · next b hi => exact ⟨b, hi, hb⟩
        · cases hb
      | succ j =>
        obtain ⟨b, hb, ht⟩ := hs j t (by simpa using hj)
        exact ⟨b, by rwa [Nat.add_assoc, Nat.add_comm 1] at hb, ht⟩
    · intro h
      constructor
      · obtain ⟨b, hb, ht⟩ := h 0 token rfl
        rw [Nat.add_zero] at hb
        simpa [hb] using ht
      · intro j t hj
        obtain ⟨b, hb, ht⟩ := h (j + 1) t (by simpa using hj)
        exact ⟨b, by rwa [Nat.add_assoc, Nat.add_comm 1], ht⟩

theorem matchesAt_bound (h : p.matchesAt haystack i = true) : i + p.length ≤ haystack.size := by
  have hp := p.length_pos
  have hlast : p.length - 1 < p.tokens.length := Nat.sub_lt hp Nat.one_pos
  obtain ⟨b, hb, _⟩ := agreesFrom_iff.1 h _ _ (List.getElem?_eq_getElem hlast)
  obtain ⟨hlt, _⟩ := Array.getElem?_eq_some_iff.1 hb
  omega

/-- A pattern matches where it lies within the bytes and every byte that it names stands in its
place. -/
theorem matchesAt_iff :
    p.matchesAt haystack i = true ↔ i + p.length ≤ haystack.size ∧
      ∀ j b, p.tokens[j]? = some (some b) → haystack[i + j]? = some b := by
  constructor
  · intro h
    refine ⟨matchesAt_bound h, ?_⟩
    intro j b hj
    obtain ⟨b', hb, ht⟩ := agreesFrom_iff.1 h j _ hj
    obtain rfl : b = b' := by simpa using ht
    exact hb
  · rintro ⟨hsize, hb⟩
    refine agreesFrom_iff.2 fun j token hj => ?_
    have hlt : j < p.length := (List.getElem?_eq_some_iff.1 hj).1
    cases token with
    | none => exact ⟨_, Array.getElem?_eq_getElem (by omega), rfl⟩
    | some b => exact ⟨b, hb j b hj, by rw [Option.all_some, beq_self_eq_true]⟩

/-- Within the bytes cut out of a memory a pattern matches where it occurs and lies inside. -/
theorem matchesAt_bytesFrom :
    p.matchesAt (bytesFrom memory a size).toArray i = true ↔
      i + p.length ≤ size ∧ p.OccursAt memory (a + i) := by
  rw [matchesAt_iff, List.size_toArray, length_bytesFrom]
  refine and_congr_right fun hsize => forall_congr' fun j => forall_congr' fun b => ?_
  refine forall_congr' fun hj => ?_
  have hlt : j < p.length := (List.getElem?_eq_some_iff.1 hj).1
  rw [getElem?_bytesFrom, if_pos (by omega), Nat.add_assoc, Option.some_inj]

theorem matchesAt_anchor (h : p.matchesAt haystack i = true)
    (ha : p.anchor? = some (index, b)) : haystack[i + index]? = some b := by
  obtain ⟨j, rfl, hj⟩ := anchorFrom_sound ha
  rw [Nat.zero_add]
  exact (matchesAt_iff.1 h).2 j b hj

/-- A search that finds every position of a byte, in ascending order. -/
def Finds (search : ByteSearch) : Prop :=
  ∀ b bytes, (search b bytes).Pairwise (· < ·) ∧ ∀ i, i ∈ search b bytes ↔ bytes[i]? = some b

theorem finds_positionsOf : Finds positionsOf := by
  intro b bytes
  refine ⟨List.Pairwise.filter _ List.pairwise_lt_range, ?_⟩
  intro i
  rw [positionsOf, List.mem_filter, List.mem_range, beq_iff_eq]
  constructor
  · exact And.right
  · intro h
    obtain ⟨hlt, _⟩ := Array.getElem?_eq_some_iff.1 h
    exact ⟨hlt, h⟩

variable {search : ByteSearch} {found : List Nat}

theorem getElem?_slice {part : Array UInt8} {start stop : Nat}
    (h : slice? haystack start stop = some part) (hi : start + i < stop) :
    part[i]? = haystack[i + start]? := by
  rw [slice?] at h
  split at h
  · next hle =>
    cases h
    rw [Array.getElem?_extract, if_pos (by omega), Nat.add_comm]
  · cases h

/-- The candidates are the positions at which a match can end within the bytes and the anchor stands
in its place. -/
theorem mem_candidates (hs : Finds search) (h : p.candidates? search haystack = some found) :
    i ∈ found ↔ i + p.length ≤ haystack.size ∧
      ∀ index b, p.anchor? = some (index, b) → haystack[i + index]? = some b := by
  rw [candidates?] at h
  split at h
  · next hshort =>
    cases h
    exact ⟨fun hi => absurd hi List.not_mem_nil, fun hi => by omega⟩
  · next hlong =>
    dsimp only at h
    split at h
    · next index b ha =>
      obtain ⟨part, hpart, rfl⟩ := Option.map_eq_some_iff.1 h
      rw [List.mem_filter, decide_eq_true_iff, (hs b part).2]
      constructor
      · rintro ⟨hb, hle⟩
        rw [getElem?_slice hpart (by omega)] at hb
        refine ⟨by omega, ?_⟩
        intro index' b' ha'
        cases ha.symm.trans ha'
        exact hb
      · rintro ⟨hle, hanchor⟩
        rw [getElem?_slice hpart (by omega)]
        exact ⟨hanchor index b ha, by omega⟩
    · next ha =>
      cases h
      rw [List.mem_range]
      constructor
      · intro hi
        refine ⟨by omega, ?_⟩
        intro index b hsome
        cases ha.symm.trans hsome
      · rintro ⟨hi, _⟩
        omega

theorem candidates_ascending (hs : Finds search) (h : p.candidates? search haystack = some found) :
    found.Pairwise (· < ·) := by
  rw [candidates?] at h
  split at h
  · cases h
    exact .nil
  · dsimp only at h
    split at h
    · obtain ⟨part, _, rfl⟩ := Option.map_eq_some_iff.1 h
      exact (hs _ part).1.filter _
    · cases h
      exact List.pairwise_lt_range

theorem mem_findAllBy (hs : Finds search) (h : p.findAllBy? search haystack = some found) :
    i ∈ found ↔ p.matchesAt haystack i = true := by
  obtain ⟨candidates, hc, rfl⟩ := Option.map_eq_some_iff.1 h
  rw [List.mem_filter, mem_candidates hs hc]
  constructor
  · exact And.right
  · intro hm
    exact ⟨⟨matchesAt_bound hm, fun _ _ => matchesAt_anchor hm⟩, hm⟩

theorem findAllBy_ascending (hs : Finds search) (h : p.findAllBy? search haystack = some found) :
    found.Pairwise (· < ·) := by
  obtain ⟨candidates, hc, rfl⟩ := Option.map_eq_some_iff.1 h
  exact (candidates_ascending hs hc).filter _

theorem findAll_eq (p : BytePattern) (haystack : Array UInt8) :
    p.findAllBy? positionsOf haystack = some (p.findAll haystack) :=
  (Option.some_get _).symm

theorem mem_findAll : i ∈ p.findAll haystack ↔ p.matchesAt haystack i = true :=
  mem_findAllBy finds_positionsOf (findAll_eq p haystack)

theorem findAll_ascending (p : BytePattern) (haystack : Array UInt8) :
    (p.findAll haystack).Pairwise (· < ·) :=
  findAllBy_ascending finds_positionsOf (findAll_eq p haystack)

/-- However the anchor is looked for, as long as that finds every position of a byte in ascending order,
the search asks for no part outside the bytes and finds, in ascending order, exactly the positions at
which the pattern matches. -/
theorem findAllBy_exact (hs : Finds search) (p : BytePattern) (haystack : Array UInt8) :
    ∃ found, p.findAllBy? search haystack = some found ∧ found.Pairwise (· < ·) ∧
      ∀ i, (i ∈ found ↔ p.matchesAt haystack i = true) ∧
        (p.matchesAt haystack i = true ↔ i + p.length ≤ haystack.size ∧
          ∀ j b, p.tokens[j]? = some (some b) → haystack[i + j]? = some b) := by
  obtain ⟨found, hfound⟩ := Option.isSome_iff_exists.1 (p.isSome_findAllBy? search haystack)
  refine ⟨found, hfound, findAllBy_ascending hs hfound, ?_⟩
  intro i
  exact ⟨mem_findAllBy hs hfound, matchesAt_iff⟩

/-- Any byte, a one and any byte. -/
def oneBetween : BytePattern := ⟨[none, some 1, none], by decide⟩

theorem findAllBy_exact_overlapping :
    Finds positionsOf ∧ oneBetween.findAllBy? positionsOf #[1, 1, 1, 2, 1, 3] = some [0, 1, 3] ∧
      ∀ i, i ∈ [0, 1, 3] ↔ oneBetween.matchesAt #[1, 1, 1, 2, 1, 3] i = true := by
  obtain ⟨found, hfound, _, hmem⟩ :=
    findAllBy_exact finds_positionsOf oneBetween #[1, 1, 1, 2, 1, 3]
  have hall : oneBetween.findAllBy? positionsOf #[1, 1, 1, 2, 1, 3] = some [0, 1, 3] := by decide
  cases hfound.symm.trans hall
  exact ⟨finds_positionsOf, hall, fun i => (hmem i).1⟩

end BytePattern

end Grapnel
