import Grapnel.Proofs.Memory.Completion

namespace Grapnel

namespace Scan

/-- The world after reads, one after the other. -/
def afterReads (read : Address → Nat → W → α × W) (w : W) (reads : List (Address × Nat)) : W :=
  reads.foldl (fun w r => (read r.1 r.2 w).2) w

/-- Reads of places within a range. -/
def Within (start : Address) (length : Nat) (reads : List (Address × Nat)) : Prop :=
  ∀ r ∈ reads, start.toNat ≤ r.1.toNat ∧ r.1.toNat + r.2 ≤ start.toNat + length

variable {W : Type} {read : Address → Nat → W → Option (List UInt8) × W}
  {memory : Nat → UInt8} {refused : Address → Nat → Bool} {a start : Address}
  {p : BytePattern} {overlap left step length chunk offset : Nat} {firstOnly : Bool} {w w' : W}

theorem afterReads_append (read : Address → Nat → W → α × W) (w : W)
    (reads others : List (Address × Nat)) :
    afterReads read w (reads ++ others) = afterReads read (afterReads read w reads) others :=
  List.foldl_append

theorem Within.append {reads others : List (Address × Nat)} (h : Within start length reads)
    (h' : Within start length others) : Within start length (reads ++ others) :=
  List.forall_mem_append.2 ⟨h, h'⟩

theorem readWindow_reads (read : Address → Nat → W → Option (List UInt8) × W) (a : Address)
    (overlap left step : Nat) (positive : 0 < step) (w : W) :
    ∃ reads, (readWindow read a overlap left step positive w).2 = afterReads read w reads ∧
      Within a left reads := by
  fun_induction readWindow read a overlap left step positive w with
  | case1 => exact ⟨[], rfl, fun r hr => absurd hr List.not_mem_nil⟩
  | case2 step positive w size hc content w₁ hread =>
    refine ⟨[(a, min size left)], (congrArg Prod.snd hread).symm, ?_⟩
    intro r hr
    rw [List.mem_singleton.1 hr]
    exact ⟨Nat.le_refl _, Nat.add_le_add_left (Nat.min_le_right _ _) _⟩
  | case3 step positive w size hc w₁ hread hhalf =>
    refine ⟨[(a, min size left)], (congrArg Prod.snd hread).symm, ?_⟩
    intro r hr
    rw [List.mem_singleton.1 hr]
    exact ⟨Nat.le_refl _, Nat.add_le_add_left (Nat.min_le_right _ _) _⟩
  | case4 step positive w size hc w₁ hread hhalf ih =>
    obtain ⟨reads, hreads, hwithin⟩ := ih
    refine ⟨(a, min size left) :: reads, ?_, ?_⟩
    · rw [hreads, afterReads, afterReads, List.foldl_cons, hread]
    · refine List.forall_mem_cons.2 ⟨?_, hwithin⟩
      exact ⟨Nat.le_refl _, Nat.add_le_add_left (Nat.min_le_right _ _) _⟩

theorem scanFrom_reads (read : Address → Nat → W → Option (List UInt8) × W) (p : BytePattern)
    (start : Address) (length chunk : Nat) (firstOnly : Bool) (offset : Nat) (w : W) :
    ∃ reads, (scanFrom read p start length chunk firstOnly offset w).2 = afterReads read w reads ∧
      Within start length reads := by
  have hwindow {a : Address} {step left offset : Nat} {positive : 0 < step} {w w₁ : W}
      {result : Except Trap (Option Window)} (hadd : start.add offset = .ok a)
      (hleft : offset + left ≤ length)
      (h : readWindow read a (p.length - 1) left step positive w = (result, w₁)) :
      ∃ reads, w₁ = afterReads read w reads ∧ Within start length reads := by
    obtain ⟨reads, hreads, hwithin⟩ := readWindow_reads read a (p.length - 1) left step positive w
    refine ⟨reads, (congrArg Prod.snd h).symm.trans hreads, ?_⟩
    intro r hr
    have hr := hwithin r hr
    have ha := Address.add_ok hadd
    omega
  fun_induction scanFrom read p start length chunk firstOnly offset w with
  | case1 => exact ⟨[], rfl, fun r hr => absurd hr List.not_mem_nil⟩
  | case2 => exact ⟨[], rfl, fun r hr => absurd hr List.not_mem_nil⟩
  | case3 => exact ⟨[], rfl, fun r hr => absurd hr List.not_mem_nil⟩
  | case4 offset w positive hfit hlt a hadd window trap w₁ hw => exact hwindow hadd (by omega) hw
  | case5 offset w positive hfit hlt a hadd window w₁ hw ih =>
    obtain ⟨first, rfl, hfirst⟩ := hwindow hadd (by omega) hw
    obtain ⟨rest, hrest, hwithin⟩ := ih
    exact ⟨first ++ rest, by rw [hrest, afterReads_append], hfirst.append hwithin⟩
  | case6 offset w positive hfit hlt a hadd window step hstep content w₁ hw trap hm =>
    exact hwindow hadd (by omega) hw
  | case7 offset w positive hfit hlt a hadd window step hstep content w₁ hw found hm hf =>
    exact hwindow hadd (by omega) hw
  | case8 offset w positive hfit hlt a hadd window step hstep content w₁ hw found hm hf rest w₂
      hrest ih =>
    obtain ⟨first, rfl, hfirst⟩ := hwindow hadd (by omega) hw
    obtain ⟨others, hothers, hwithin⟩ := ih
    rw [hrest] at hothers
    exact ⟨first ++ others, by rw [afterReads_append]; exact hothers, hfirst.append hwithin⟩

theorem ReadsFrom.afterReads (hr : ReadsFrom read memory refused w) (reads : List (Address × Nat)) :
    ReadsFrom read memory refused (afterReads read w reads) := by
  induction reads generalizing w with
  | nil => exact hr
  | cons r reads ih => exact ih (hr.read_eq rfl).2

/-- Reads of a memory without a world. -/
def fixedRead (memory : Nat → UInt8) (refused : Address → Nat → Bool) (a : Address) (size : Nat)
    (_ : Unit) : Option (List UInt8) × Unit :=
  (if refused a size then none else some (bytesFrom memory a.toNat size), ())

theorem ReadsFrom.fixed {a : Address} {result : Option (List UInt8)}
    (hr : ReadsFrom read memory refused w) (h : read a size w = (result, w')) :
    fixedRead memory refused a size () = (result, ()) := by
  rw [fixedRead, (hr.read_eq h).1]

theorem readWindow_fixed (hr : ReadsFrom read memory refused w) (a : Address) (overlap left : Nat)
    (positive : 0 < step) :
    (readWindow read a overlap left step positive w).1 =
      (readWindow (fixedRead memory refused) a overlap left step positive ()).1 := by
  fun_induction readWindow read a overlap left step positive w with
  | case1 step positive w trap hc => rw [readWindow, hc]
  | case2 step positive w size hc content w₁ hread =>
    rw [readWindow, hc]
    dsimp only
    rw [hr.fixed hread]
  | case3 step positive w size hc w₁ hread hhalf =>
    rw [readWindow, hc]
    dsimp only
    rw [hr.fixed hread]
    dsimp only
    rw [dif_pos hhalf]
  | case4 step positive w size hc w₁ hread hhalf ih =>
    rw [ih (hr.read_eq hread).2]
    conv_rhs => rw [readWindow, hc]
    dsimp only
    rw [hr.fixed hread]
    dsimp only
    rw [dif_neg hhalf]

/-- A scan answers what it answers on the memory itself. -/
theorem scanFrom_fixed (hr : ReadsFrom read memory refused w) :
    (scanFrom read p start length chunk firstOnly offset w).1 =
      (scanFrom (fixedRead memory refused) p start length chunk firstOnly offset ()).1 := by
  have hwindow {a : Address} {step left : Nat} {positive : 0 < step} {w w₁ : W}
      {result : Except Trap (Option Window)} (hr : ReadsFrom read memory refused w)
      (h : readWindow read a (p.length - 1) left step positive w = (result, w₁)) :
      readWindow (fixedRead memory refused) a (p.length - 1) left step positive () = (result, ()) ∧
        ReadsFrom read memory refused w₁ := by
    obtain ⟨reads, hreads, _⟩ := readWindow_reads read a (p.length - 1) left step positive w
    have hworld : w₁ = afterReads read w reads := (congrArg Prod.snd h).symm.trans hreads
    have hanswer := readWindow_fixed hr a (p.length - 1) left positive
    rw [h] at hanswer
    exact ⟨Prod.ext hanswer.symm rfl, hworld ▸ hr.afterReads reads⟩
  fun_induction scanFrom read p start length chunk firstOnly offset w with
  | case1 offset w positive hfit => rw [scanFrom, if_pos hfit]
  | case2 offset w positive hfit hlt => rw [scanFrom, if_neg hfit, dif_pos hlt]
  | case3 offset w positive hfit hlt trap hadd => rw [scanFrom, if_neg hfit, dif_neg hlt, hadd]
  | case4 offset w positive hfit hlt a hadd window trap w₁ hw =>
    rw [scanFrom_step hfit hlt hadd (hwindow hr hw).1]
  | case5 offset w positive hfit hlt a hadd window w₁ hw ih =>
    obtain ⟨hfixed, hr₁⟩ := hwindow hr hw
    rw [ih hr₁]
    conv_rhs => rw [scanFrom_step hfit hlt hadd hfixed]
  | case6 offset w positive hfit hlt a hadd window step hstep content w₁ hw trap hm =>
    simp only [scanFrom_step hfit hlt hadd (hwindow hr hw).1, hm]
  | case7 offset w positive hfit hlt a hadd window step hstep content w₁ hw found hm hf =>
    simp only [scanFrom_step hfit hlt hadd (hwindow hr hw).1, hm, hf, if_true]
  | case8 offset w positive hfit hlt a hadd window step hstep content w₁ hw found hm hf rest w₂
      hrest ih =>
    have hi := ih (hwindow hr hw).2
    rw [hrest] at hi
    simp only [scanFrom_step hfit hlt hadd (hwindow hr hw).1, hm, if_neg hf]
    rw [← hi]

end Scan

end Grapnel
