import Grapnel.Patch.Interceptor
import Grapnel.Proofs.Patch.View

namespace Grapnel

@[simp] theorem LittleEndian.length_bytes (count n : Nat) : (bytes count n).length = count := by
  induction count generalizing n with
  | zero => rfl
  | succ count ih => rw [bytes, List.length_cons, ih]

@[simp] theorem Architecture.length_jump (arch : Architecture) (target : Address) :
    (arch.jump target).length = arch.jumpSize := by
  rw [jump, List.length_append, LittleEndian.length_bytes, jumpSize]

/-- A call that changes code. -/
inductive InterceptorCall where
  | install (target detour : Address)
  | remove (target : Address)

namespace Hook

/-- The place is one of those that the jump of a hook takes. -/
def Covers (arch : Architecture) (h : Hook) (place : Nat) : Prop :=
  h.target.toNat ≤ place ∧ place < h.target.toNat + arch.jumpSize

/-- No place is taken by the jumps of both hooks. -/
def Apart (arch : Architecture) (h k : Hook) : Prop :=
  h.target.toNat + arch.jumpSize ≤ k.target.toNat ∨
    k.target.toNat + arch.jumpSize ≤ h.target.toNat

/-- Where the code goes on behind the jump. -/
def resume (arch : Architecture) (h : Hook) : Address := .ofNat (h.target.toNat + arch.jumpSize)

/-- What the trampoline starts with. -/
def detourless (arch : Architecture) (h : Hook) : List UInt8 :=
  h.displaced ++ arch.jump (h.resume arch)

/-- The jump lies in the address space, with all of its pages. -/
structure Placed (arch : Architecture) (h : Hook) : Prop where
  fits : h.target.toNat + arch.jumpSize < wordLimit
  spans : ∃ start stop, Page.span h.target arch.jumpSize = .ok (start, stop)
  length : h.displaced.length = arch.jumpSize

/-- The pages under a jump were recorded with an access, so far as they have one. -/
def Recorded (arch : Architecture) (access : Nat → Option Access) (h : Hook) : Prop :=
  ∃ r : Nat → Access,
    h.pages = (Page.numbers h.target arch.jumpSize).map (fun n => (Page.start n, r n)) ∧
      ∀ n ∈ Page.numbers h.target arch.jumpSize, ∀ a, access n = some a → r n = a

end Hook

/-- What was done to the code. -/
inductive Deed where
  | put (h : Hook)
  /-- A hook was taken away, while some that had been put later were still there. -/
  | taken (h : Hook) (above : List Hook)

namespace Interceptor

/-- The hooks that were put later than a given one. -/
def above (i : Interceptor) (h : Hook) : List Hook := (i.hooks.dropWhile (· != h)).tail

/-- What a call did, going by its answer and by what it made of the interceptor. -/
def deeds (i : Interceptor) (call : InterceptorCall) (answer : Except HookFault Bool)
    (i' : Interceptor) : List Deed :=
  match call, answer with
  | .install target _, .ok true => (i'.hook? target).toList.map .put
  | .remove target, .ok true => (i.hook? target).toList.map fun h => .taken h (i.above h)
  | _, _ => []

/-- Carries a call out; answers whether it changed the code. -/
def perform {W : Type} (space : CodeSpace W) (i : Interceptor) (w : W) :
    InterceptorCall → Except HookFault Bool × Interceptor × W
  | .install target detour =>
    let (answer, i, w) := i.install space target detour w
    (answer.map fun _ => true, i, w)
  | .remove target => i.remove space target w

section Ways

variable {W : Type} (space : CodeSpace W) (i : Interceptor) (w : W)

/-- The ways in which an installation goes. -/
inductive Installs (target detour : Address) :
    Except HookFault Trampoline × Interceptor × W → Prop where
  | taken : i.isHooked target = true →
      Installs target detour (.error (.alreadyHooked target), i, w)
  | unallocated {fault : IoFault} {w' : W} : space.allocate w = (.error fault, w') →
      Installs target detour (.error (.allocation fault), i, w')
  | overflow {trap : Trap} {w' : W} : space.allocate w = (.ok (), w') →
      Installs target detour (.error (.trapped trap), i, w')
  | unpatched {pages : List (Address × Access)} {fault : HookFault} {w₁ w' : W} :
      space.allocate w = (.ok (), w₁) → space.protections target i.arch.jumpSize w₁ = .ok pages →
      space.patch target (i.arch.jump detour) pages w₁ = (.error fault, w') →
      Installs target detour (.error fault, i, w')
  | installed {resume : Address} {pages : List (Address × Access)} {w₁ w' : W} :
      i.isHooked target = false → space.allocate w = (.ok (), w₁) →
      target.add i.arch.jumpSize = .ok resume →
      space.protections target i.arch.jumpSize w₁ = .ok pages →
      space.patch target (i.arch.jump detour) pages w₁ = (.ok (), w') →
      Installs target detour (.ok ⟨i.nextTrampoline⟩,
        (i.record target detour (space.read target i.arch.jumpSize w)
          (pageOf (space.read target i.arch.jumpSize w ++ i.arch.jump resume)) pages).2, w')

theorem install_goes (target detour : Address) :
    Installs space i w target detour (i.install space target detour w) := by
  rw [install]
  split
  · next htaken => exact .taken htaken
  · next hfree =>
    dsimp only
    cases hallocate : space.allocate w with
    | mk result w₁ =>
      cases result with
      | error fault => exact .unallocated hallocate
      | ok _ =>
        dsimp only
        rw [Architecture.length_jump]
        cases hresume : target.add i.arch.jumpSize with
        | error trap => exact .overflow hallocate
        | ok resume =>
          cases hpages : space.protections target i.arch.jumpSize w₁ with
          | error trap => exact .overflow hallocate
          | ok pages =>
            dsimp only
            cases hpatch : space.patch target (i.arch.jump detour) pages w₁ with
            | mk result w₂ =>
              cases result with
              | error fault => exact .unpatched hallocate hpages hpatch
              | ok _ =>
                exact .installed (Bool.eq_false_of_not_eq_true hfree) hallocate hresume hpages hpatch

/-- The ways in which a removal goes. -/
inductive Removes (target : Address) : Except HookFault Bool × Interceptor × W → Prop where
  | absent : i.hook? target = none → Removes target (.ok false, i, w)
  | unpatched {h : Hook} {fault : HookFault} {w' : W} : i.hook? target = some h →
      space.patch target h.displaced h.pages w = (.error fault, w') →
      Removes target (.error fault, i, w')
  | removed {h : Hook} {w' : W} : i.hook? target = some h →
      space.patch target h.displaced h.pages w = (.ok (), w') →
      Removes target (.ok true, i.forget h, w')

theorem remove_goes (target : Address) : Removes space i w target (i.remove space target w) := by
  rw [remove]
  cases hh : i.hook? target with
  | none => exact .absent hh
  | some h =>
    dsimp only
    cases hpatch : space.patch target h.displaced h.pages w with
    | mk result w' =>
      cases result with
      | error fault => exact .unpatched hh hpatch
      | ok _ => exact .removed hh hpatch

end Ways

variable {W : Type} {space : CodeSpace W} (v : space.View) {i : Interceptor} {w : W}

/-- The hook that an installation makes. -/
def made (space : CodeSpace W) (i : Interceptor) (target detour : Address) (w : W) : Hook where
  target := target
  detour := detour
  displaced := space.read target i.arch.jumpSize w
  trampoline := ⟨i.nextTrampoline⟩
  pages := (Page.numbers target i.arch.jumpSize).map fun n =>
    (Page.start n, accessOfPage (space.regions (space.allocate w).2) (Page.start n))

/-- An interceptor with one more hook. -/
def grown (i : Interceptor) (h : Hook) : Interceptor :=
  { i with
    hooks := i.hooks ++ [h]
    trampolines := i.trampolines ++ [(h.trampoline, pageOf (h.detourless i.arch))]
    nextTrampoline := i.nextTrampoline + 1 }

theorem hook?_mem {target : Address} {h : Hook} (hh : i.hook? target = some h) :
    h ∈ i.hooks ∧ h.target = target := by
  rw [hook?] at hh
  have htarget := List.find?_some hh
  exact ⟨List.mem_of_find?_eq_some hh, beq_iff_eq.1 htarget⟩

theorem hook?_of_free {target : Address} (h : i.isHooked target = false) :
    i.hook? target = none :=
  Option.not_isSome_iff_eq_none.1 (ne_true_of_eq_false h)

theorem hook?_append {j : Interceptor} {h : Hook} (hh : i.hook? h.target = none)
    (hj : j.hooks = i.hooks ++ [h]) : j.hook? h.target = some h := by
  rw [hook?] at hh ⊢
  simp only [hj, List.find?_append, hh, Option.none_or, List.find?_cons, beq_self_eq_true]

theorem hooks_split {h : Hook} (hh : h ∈ i.hooks) : ∃ below, i.hooks = below ++ h :: i.above h := by
  rw [above]
  generalize i.hooks = hooks at hh ⊢
  induction hooks with
  | nil => cases hh
  | cons k hooks ih =>
    by_cases hk : k = h
    · subst hk
      refine ⟨[], ?_⟩
      rw [List.dropWhile_cons_of_neg (by simp)]
      rfl
    · obtain ⟨below, hsplit⟩ := ih (List.mem_of_ne_of_mem (Ne.symm hk) hh)
      refine ⟨k :: below, ?_⟩
      rw [List.dropWhile_cons_of_pos (by simp [hk]), List.cons_append, ← hsplit]

/-- What a call does to the bytes of the code and to the tables, by its deeds. -/
inductive Effect (i : Interceptor) (w : W) : List Deed → Interceptor → W → Prop where
  | put {target detour : Address} {w' : W} : i.hook? target = none →
      (i.made space target detour w).Placed i.arch →
      (i.made space target detour w).displaced =
        bytesFrom (v.byte w) target.toNat i.arch.jumpSize →
      v.byte w' = overlay (v.byte w) target.toNat (i.arch.jump detour) →
      Effect i w [.put (i.made space target detour w)] (i.grown (i.made space target detour w)) w'
  | taken {h : Hook} {below above : List Hook} {w' : W} : i.hooks = below ++ h :: above →
      v.byte w' = overlay (v.byte w) h.target.toNat h.displaced →
      Effect i w [.taken h above] (i.forget h) w'
  | none {w' : W} : v.byte w' = v.byte w → Effect i w [] i w'

variable {i' : Interceptor} {w' : W} {answer : Except HookFault Bool}

theorem install_effect {target detour : Address} (hs : v.Sound w)
    (h : i.perform space w (.install target detour) = (answer, i', w')) :
    v.Sound w' ∧ Effect v i w (i.deeds (.install target detour) answer i') i' w' := by
  obtain ⟨hs₁, hb₁, ha₁⟩ := v.allocate hs
  have hgoes := install_goes space i w target detour
  rw [perform] at h
  generalize i.install space target detour w = result at hgoes h
  cases hgoes with
  | taken =>
    cases h
    exact ⟨hs, .none rfl⟩
  | unallocated hallocate =>
    cases h
    rw [hallocate] at hs₁ hb₁
    exact ⟨hs₁, .none hb₁⟩
  | overflow hallocate =>
    cases h
    rw [hallocate] at hs₁ hb₁
    exact ⟨hs₁, .none hb₁⟩
  | unpatched hallocate hpages hpatch =>
    cases h
    rw [hallocate] at hs₁ hb₁
    obtain ⟨hs₂, hb₂⟩ := v.patch_error hs₁ hpatch
    exact ⟨hs₂, .none (hb₂.trans hb₁)⟩
  | @installed resume pages w₁ w₂ hfree hallocate hresume hpages hpatch =>
    obtain ⟨hspan, hpages⟩ := CodeSpace.protections_ok hpages
    have hfits := Address.add_ok hresume
    have hfree := hook?_of_free hfree
    have hmade : (i.record target detour (space.read target i.arch.jumpSize w)
        (pageOf (space.read target i.arch.jumpSize w ++ i.arch.jump resume)) pages).2 =
          i.grown (i.made space target detour w) := by
      have hresume : resume = (i.made space target detour w).resume i.arch := by
        rw [Hook.resume, made, ← hfits, Address.ofNat_toNat]
      rw [hresume, hpages, grown, made, hallocate]
      rfl
    rw [hmade] at h
    cases h
    rw [hallocate] at hs₁ hb₁ ha₁
    dsimp only at hs₁ hb₁ ha₁
    obtain ⟨hs₂, hb₂, hmapped⟩ := v.patch_ok hs₁ hpatch
    rw [Architecture.length_jump, ha₁] at hmapped
    have hread : space.read target i.arch.jumpSize w =
        bytesFrom (v.byte w) target.toNat i.arch.jumpSize :=
      v.read hs fun k hk => hmapped _ (Page.number_mem_numbers hk)
    have hplaced : (i.made space target detour w).Placed i.arch := by
      refine ⟨?_, hspan, ?_⟩
      · exact hfits ▸ resume.word.toNat_lt
      · rw [made, hread, length_bytesFrom]
    have hdeeds : i.deeds (.install target detour) (.ok true)
        (i.grown (i.made space target detour w)) = [.put (i.made space target detour w)] := by
      have hhook : (i.grown (i.made space target detour w)).hook? target = _ :=
        hook?_append (h := i.made space target detour w) hfree rfl
      rw [deeds, hhook]
      rfl
    refine ⟨hs₂, ?_⟩
    rw [Except.map, hdeeds]
    apply Effect.put hfree hplaced hread
    rw [hb₂, hb₁]

theorem remove_effect {target : Address} (hs : v.Sound w)
    (h : i.perform space w (.remove target) = (answer, i', w')) :
    v.Sound w' ∧ Effect v i w (i.deeds (.remove target) answer i') i' w' := by
  have hgoes := remove_goes space i w target
  rw [perform] at h
  generalize i.remove space target w = result at hgoes h
  cases hgoes with
  | absent hh =>
    cases h
    exact ⟨hs, .none rfl⟩
  | unpatched hh hpatch =>
    cases h
    obtain ⟨hs₁, hb₁⟩ := v.patch_error hs hpatch
    exact ⟨hs₁, .none hb₁⟩
  | removed hh hpatch =>
    cases h
    obtain ⟨hs₁, hb₁, _⟩ := v.patch_ok hs hpatch
    obtain ⟨hmem, htarget⟩ := hook?_mem hh
    obtain ⟨below, hsplit⟩ := hooks_split hmem
    refine ⟨hs₁, ?_⟩
    dsimp only [deeds]
    rw [hh]
    apply Effect.taken hsplit
    rw [hb₁, htarget]

/-- Every call is told by its deeds; one that changes nothing has none. -/
theorem perform_effect {call : InterceptorCall} (hs : v.Sound w)
    (h : i.perform space w call = (answer, i', w')) :
    v.Sound w' ∧ Effect v i w (i.deeds call answer i') i' w' := by
  cases call with
  | install target detour => exact install_effect v hs h
  | remove target => exact remove_effect v hs h

/-- What the call patches is reversible. -/
def Reversible (i : Interceptor) (w : W) : InterceptorCall → Prop
  | .install target detour => ∀ pages,
    space.protections target i.arch.jumpSize (space.allocate w).2 = .ok pages →
      v.Reversible target (i.arch.jump detour) pages (space.allocate w).2
  | .remove target => ∀ h, i.hook? target = some h → v.Reversible target h.displaced h.pages w

theorem made_recorded (hs : v.Sound w) (target detour : Address) :
    (i.made space target detour w).Recorded i.arch (v.access w) := by
  refine ⟨_, rfl, ?_⟩
  intro n _ a ha
  obtain ⟨hs₁, _, ha₁⟩ := v.allocate hs
  rw [← ha₁] at ha
  exact v.regions hs₁ ha

/-- A reversible call leaves its access to every page. -/
theorem access_perform {call : InterceptorCall} (hs : v.Sound w)
    (h : i.perform space w call = (answer, i', w'))
    (hlength : ∀ h ∈ i.hooks, h.displaced.length = i.arch.jumpSize)
    (hrecorded : ∀ h ∈ i.hooks, h.Recorded i.arch (v.access w)) (hback : Reversible v i w call) :
    v.access w' = v.access w := by
  cases call with
  | install target detour =>
    obtain ⟨hs₁, _, ha₁⟩ := v.allocate hs
    have hgoes := install_goes space i w target detour
    have hpatched {pages : List (Address × Access)}
        (hpages : space.protections target i.arch.jumpSize (space.allocate w).2 = .ok pages) :
        v.access (space.patch target (i.arch.jump detour) pages (space.allocate w).2).2 =
          v.access w := by
      rw [Reversible] at hback
      rw [← ha₁]
      apply v.access_patch hs₁ (hback pages hpages)
      · rw [Architecture.length_jump]
        exact (CodeSpace.protections_ok hpages).2
      · intro n _ a ha
        exact v.regions hs₁ ha
    rw [perform] at h
    generalize i.install space target detour w = result at hgoes h
    cases hgoes with
    | taken =>
      cases h
      rfl
    | unallocated hallocate =>
      cases h
      rw [hallocate] at ha₁
      exact ha₁
    | overflow hallocate =>
      cases h
      rw [hallocate] at ha₁
      exact ha₁
    | unpatched hallocate hpages hpatch =>
      cases h
      rw [hallocate] at hpatched
      have hsame := hpatched hpages
      rwa [hpatch] at hsame
    | installed _ hallocate _ hpages hpatch =>
      cases h
      rw [hallocate] at hpatched
      have hsame := hpatched hpages
      rwa [hpatch] at hsame
  | remove target =>
    have hgoes := remove_goes space i w target
    have hpatched {k : Hook} (hk : i.hook? target = some k) :
        v.access (space.patch target k.displaced k.pages w).2 = v.access w := by
      obtain ⟨hmem, rfl⟩ := hook?_mem hk
      obtain ⟨r, hpages, hr⟩ := hrecorded k hmem
      apply v.access_patch hs (hback k hk)
      · rw [hlength k hmem]
        exact hpages
      · rw [hlength k hmem]
        exact hr
    rw [perform] at h
    generalize i.remove space target w = result at hgoes h
    cases hgoes with
    | absent =>
      cases h
      rfl
    | unpatched hk hpatch =>
      cases h
      have hsame := hpatched hk
      rwa [hpatch] at hsame
    | removed hk hpatch =>
      cases h
      have hsame := hpatched hk
      rwa [hpatch] at hsame

end Interceptor

end Grapnel
