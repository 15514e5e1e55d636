import Grapnel.Proofs.FileTree.Canonical

namespace Grapnel

open Node

namespace FileTree

variable {files : Node} {fits : List String → Bool} {k u d : Nat} {here p : List String}
  {xs : List Path.Step}

theorem Walks.links (h : Walks files fits k here xs u p) :
    ∃ d, k = d + u ∧ Walks files fits d here xs 0 p := by
  induction h with
  | stop => exact ⟨0, (Nat.zero_add _).symm, .stop⟩
  | root _ ih =>
    obtain ⟨d, hd, h⟩ := ih
    exact ⟨d, hd, .root h⟩
  | up hdir _ ih =>
    obtain ⟨d, hd, h⟩ := ih
    exact ⟨d, hd, .up hdir h⟩
  | stay hdir _ ih =>
    obtain ⟨d, hd, h⟩ := ih
    exact ⟨d, hd, .stay hdir h⟩
  | enter hf hs hl _ ih =>
    obtain ⟨d, hd, h⟩ := ih
    exact ⟨d, hd, .enter hf hs hl h⟩
  | follow hf hs _ ih =>
    obtain ⟨d, rfl, h⟩ := ih
    exact ⟨d + 1, Nat.add_right_comm .., .follow hf hs h⟩

/-- Links that a walk may follow beyond what it needs are left over. -/
theorem Walks.spare (h : Walks files fits k here xs u p) (v : Nat) :
    Walks files fits (k + v) here xs (u + v) p := by
  induction h with
  | stop => exact .stop
  | root _ ih => exact .root ih
  | up hdir _ ih => exact .up hdir ih
  | stay hdir _ ih => exact .stay hdir ih
  | enter hf hs hl _ ih => exact .enter hf hs hl ih
  | follow hf hs _ ih => exact Nat.add_right_comm .. ▸ .follow hf hs ih

theorem Walks.of_le (h : Walks files fits d here xs 0 p) (hk : d ≤ k) :
    Walks files fits k here xs (k - d) p := by
  have hs := h.spare (k - d)
  rwa [Nat.add_sub_cancel' hk, Nat.zero_add] at hs

end FileTree

end Grapnel
