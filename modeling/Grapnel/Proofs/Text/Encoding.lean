import Mathlib
import Grapnel.Instances
import Grapnel.Text.Utf8

namespace Grapnel

namespace Utf8

/-- The bytes of a text. -/
def encode (cs : List Char) : List UInt8 := cs.flatMap String.utf8EncodeChar

/-- A byte that continues a character. -/
def Continues (b : UInt8) : Prop := 0x80 ≤ b.toNat ∧ b.toNat ≤ 0xBF

/-- The second bytes that make no overlong form, no surrogate and nothing above the last
character. -/
structure Seconds (b s : UInt8) : Prop where
  continues : Continues s
  notOverlongThree : b.toNat = 0xE0 → 0xA0 ≤ s.toNat
  notSurrogate : b.toNat = 0xED → s.toNat ≤ 0x9F
  notOverlongFour : b.toNat = 0xF0 → 0x90 ≤ s.toNat
  notAbove : b.toNat = 0xF4 → s.toNat ≤ 0x8F

/-- The bytes of a character and its number. -/
inductive Sequence : List UInt8 → Nat → Prop
  | one : b.toNat ≤ 0x7F → Sequence [b] b.toNat
  | two : 0xC2 ≤ b.toNat ∧ b.toNat ≤ 0xDF → Seconds b s →
      Sequence [b, s] ((b.toNat - 0xC0) * 64 + (s.toNat - 0x80))
  | three : 0xE0 ≤ b.toNat ∧ b.toNat ≤ 0xEF → Seconds b s → Continues t →
      Sequence [b, s, t] (((b.toNat - 0xE0) * 64 + (s.toNat - 0x80)) * 64 + (t.toNat - 0x80))
  | four : 0xF0 ≤ b.toNat ∧ b.toNat ≤ 0xF4 → Seconds b s → Continues t → Continues u →
      Sequence [b, s, t, u] ((((b.toNat - 0xF0) * 64 + (s.toNat - 0x80)) * 64 +
        (t.toNat - 0x80)) * 64 + (u.toNat - 0x80))

variable {b s t u : UInt8} {bytes rest : List UInt8} {c : Char} {cs ds : List Char} {n v : Nat}

@[simp] theorem encode_nil : encode [] = [] := rfl

theorem encode_cons : encode (c :: cs) = String.utf8EncodeChar c ++ encode cs := List.flatMap_cons

@[simp] theorem encode_append : encode (cs ++ ds) = encode cs ++ encode ds := List.flatMap_append

theorem isTail_iff : isTail b = true ↔ Continues b := by
  rw [isTail, Bool.and_eq_true, decide_eq_true_eq, decide_eq_true_eq, UInt8.le_iff_toNat_le,
    UInt8.le_iff_toNat_le]
  rfl

theorem secondRange_iff :
    ((secondRange b).1 ≤ s && s ≤ (secondRange b).2) = true ↔ Seconds b s := by
  have hiff : Seconds b s ↔ (0x80 ≤ s.toNat ∧ s.toNat ≤ 0xBF) ∧ (b.toNat = 0xE0 → 0xA0 ≤ s.toNat) ∧
      (b.toNat = 0xED → s.toNat ≤ 0x9F) ∧ (b.toNat = 0xF0 → 0x90 ≤ s.toNat) ∧
      (b.toNat = 0xF4 → s.toNat ≤ 0x8F) :=
    ⟨fun h => ⟨h.1, h.2, h.3, h.4, h.5⟩, fun h => ⟨h.1, h.2.1, h.2.2.1, h.2.2.2.1, h.2.2.2.2⟩⟩
  rw [hiff, secondRange]
  simp only [beq_iff_eq, ← UInt8.toNat_inj]
  simp only [UInt8.reduceToNat]
  split_ifs <;> simp only [Bool.and_eq_true, decide_eq_true_eq, UInt8.le_iff_toNat_le,
    UInt8.reduceToNat] <;> omega

theorem width?_iff : width? b = some n ↔
    (n = 1 ∧ b.toNat ≤ 0x7F) ∨ (n = 2 ∧ 0xC2 ≤ b.toNat ∧ b.toNat ≤ 0xDF) ∨
      (n = 3 ∧ 0xE0 ≤ b.toNat ∧ b.toNat ≤ 0xEF) ∨ (n = 4 ∧ 0xF0 ≤ b.toNat ∧ b.toNat ≤ 0xF4) := by
  rw [width?]
  simp only [Bool.and_eq_true, decide_eq_true_eq, UInt8.lt_iff_toNat_lt, UInt8.le_iff_toNat_le,
    UInt8.reduceToNat]
  split_ifs <;> simp <;> omega

theorem step_second (hwidth : width? b = some n) (hn : 2 ≤ n) :
    step b (s :: rest) =
      if (secondRange b).1 ≤ s && s ≤ (secondRange b).2 then
        tail ((b.toNat - (if n = 2 then 0xC0 else if n = 3 then 0xE0 else 0xF0)) * 64 +
          (s.toNat - 0x80)) 2 (n - 2) rest
      else .invalid 1 := by
  obtain ⟨n, rfl⟩ := Nat.exists_eq_add_of_le' hn
  rw [step, hwidth]
  rfl

theorem Sequence.step (h : Sequence bytes v) (rest : List UInt8) : ∃ b more, bytes = b :: more ∧
    Utf8.step b (more ++ rest) = .char (.ofNat v) bytes.length := by
  cases h with
  | @one b hb =>
    refine ⟨b, [], rfl, ?_⟩
    rw [Utf8.step, width?_iff.2 (.inl ⟨rfl, hb⟩)]
    rfl
  | @two b s hb hs =>
    refine ⟨b, [s], rfl, ?_⟩
    have hwidth : width? b = some 2 := width?_iff.2 (.inr (.inl ⟨rfl, hb⟩))
    rw [List.cons_append, step_second hwidth le_rfl, if_pos (secondRange_iff.2 hs)]
    rfl
  | @three b s t hb hs ht =>
    refine ⟨b, [s, t], rfl, ?_⟩
    have hwidth : width? b = some 3 := width?_iff.2 (.inr (.inr (.inl ⟨rfl, hb⟩)))
    rw [List.cons_append, step_second hwidth (by decide), if_pos (secondRange_iff.2 hs),
      List.cons_append, tail, if_pos (isTail_iff.2 ht)]
    rfl
  | @four b s t u hb hs ht hu =>
    refine ⟨b, [s, t, u], rfl, ?_⟩
    have hwidth : width? b = some 4 := width?_iff.2 (.inr (.inr (.inr ⟨rfl, hb⟩)))
    rw [List.cons_append, step_second hwidth (by decide), if_pos (secondRange_iff.2 hs),
      List.cons_append, tail, if_pos (isTail_iff.2 ht), List.cons_append, tail,
      if_pos (isTail_iff.2 hu)]
    rfl

theorem second_of_step (hwidth : width? b = some n) (hn : 2 ≤ n)
    (h : step b rest = .char c v) :
    ∃ s more, rest = s :: more ∧ Seconds b s ∧
      tail ((b.toNat - (if n = 2 then 0xC0 else if n = 3 then 0xE0 else 0xF0)) * 64 +
        (s.toNat - 0x80)) 2 (n - 2) more = .char c v := by
  cases rest with
  | nil =>
    obtain ⟨n, rfl⟩ := Nat.exists_eq_add_of_le' hn
    rw [step, hwidth] at h
    cases h
  | cons s more =>
    rw [step_second hwidth hn] at h
    split at h
    · next hs => exact ⟨s, more, rfl, secondRange_iff.1 hs, h⟩
    · cases h

theorem next_of_tail {value seen count : Nat} (h : tail value seen (count + 1) rest = .char c n) :
    ∃ t more, rest = t :: more ∧ Continues t ∧
      tail (value * 64 + (t.toNat - 0x80)) (seen + 1) count more = .char c n := by
  cases rest with
  | nil => cases h
  | cons t more =>
    rw [tail] at h
    split at h
    · next ht => exact ⟨t, more, rfl, isTail_iff.1 ht, h⟩
    · cases h

theorem eq_of_tail {value seen : Nat} (h : tail value seen 0 rest = .char c n) :
    c = .ofNat value ∧ n = seen := by
  rw [tail, Utf8Step.char.injEq] at h
  exact ⟨h.1.symm, h.2.symm⟩

theorem sequence_of_step (h : step b rest = .char c n) :
    ∃ front more v, rest = front ++ more ∧ Sequence (b :: front) v ∧ c = .ofNat v ∧
      n = front.length + 1 := by
  cases hwidth : width? b with
  | none =>
    rw [step, hwidth] at h
    cases h
  | some width =>
    rcases width?_iff.1 hwidth with ⟨rfl, hb⟩ | ⟨rfl, hb⟩ | ⟨rfl, hb⟩ | ⟨rfl, hb⟩
    · rw [step, hwidth] at h
      cases h
      exact ⟨[], rest, _, rfl, .one hb, rfl, rfl⟩
    · obtain ⟨s, more, rfl, hs, h⟩ := second_of_step hwidth le_rfl h
      obtain ⟨hc, hn⟩ := eq_of_tail h
      exact ⟨[s], more, _, rfl, .two hb hs, hc, hn⟩
    · obtain ⟨s, more, rfl, hs, h⟩ := second_of_step hwidth (by decide) h
      obtain ⟨t, more, rfl, ht, h⟩ := next_of_tail h
      obtain ⟨hc, hn⟩ := eq_of_tail h
      exact ⟨[s, t], more, _, rfl, .three hb hs ht, hc, hn⟩
    · obtain ⟨s, more, rfl, hs, h⟩ := second_of_step hwidth (by decide) h
      obtain ⟨t, more, rfl, ht, h⟩ := next_of_tail h
      obtain ⟨u, more, rfl, hu, h⟩ := next_of_tail h
      obtain ⟨hc, hn⟩ := eq_of_tail h
      exact ⟨[s, t, u], more, _, rfl, .four hb hs ht hu, hc, hn⟩

theorem toNat_ofNat (h : v.isValidChar) : (Char.ofNat v).val.toNat = v := by
  rw [Char.ofNat, dif_pos h]
  rfl

theorem ofNat_eq (h : n = b.toNat) : UInt8.ofNat n = b := by
  rw [h, UInt8.ofNat_toNat]

theorem encode_one (h : v ≤ 0x7F) (hc : c.val.toNat = v) :
    String.utf8EncodeChar c = [UInt8.ofNat v] := by
  subst hc
  exact if_pos h

theorem encode_two (hlow : 0x80 ≤ v) (hhigh : v ≤ 0x7FF) (hc : c.val.toNat = v) :
    String.utf8EncodeChar c = [.ofNat (v / 64 % 32 + 0xC0), .ofNat (v % 64 + 0x80)] := by
  subst hc
  rw [String.utf8EncodeChar, if_neg (by omega), if_pos hhigh]

theorem encode_three (hlow : 0x800 ≤ v) (hhigh : v ≤ 0xFFFF) (hc : c.val.toNat = v) :
    String.utf8EncodeChar c =
      [.ofNat (v / 4096 % 16 + 0xE0), .ofNat (v / 64 % 64 + 0x80), .ofNat (v % 64 + 0x80)] := by
  subst hc
  rw [String.utf8EncodeChar, if_neg (by omega), if_neg (by omega), if_pos hhigh]

theorem encode_four (hlow : 0x10000 ≤ v) (hc : c.val.toNat = v) :
    String.utf8EncodeChar c =
      [.ofNat (v / 262144 % 8 + 0xF0), .ofNat (v / 4096 % 64 + 0x80), .ofNat (v / 64 % 64 + 0x80),
        .ofNat (v % 64 + 0x80)] := by
  subst hc
  rw [String.utf8EncodeChar, if_neg (by omega), if_neg (by omega), if_neg (by omega)]

theorem Sequence.eq_encode (h : Sequence bytes v) : bytes = String.utf8EncodeChar (.ofNat v) := by
  cases h with
  | one hb =>
    rw [encode_one hb (toNat_ofNat (.inl (by omega))), UInt8.ofNat_toNat]
  | @two b s hb hs =>
    obtain ⟨hs₁, hs₂⟩ := hs.continues
    rw [encode_two (by omega) (by omega) (toNat_ofNat (.inl (by omega))),
      ofNat_eq (b := b) (by omega), ofNat_eq (b := s) (by omega)]
  | @three b s t hb hs ht =>
    obtain ⟨⟨hs₁, hs₂⟩, hover, hsurrogate, _, _⟩ := hs
    obtain ⟨ht₁, ht₂⟩ := ht
    have hvalid : (((b.toNat - 0xE0) * 64 + (s.toNat - 0x80)) * 64 + (t.toNat - 0x80)).isValidChar := by
      by_cases hb' : b.toNat ≤ 0xED
      · exact .inl (by omega)
      · exact .inr (by omega)
    rw [encode_three (by omega) (by omega) (toNat_ofNat hvalid), ofNat_eq (b := b) (by omega),
      ofNat_eq (b := s) (by omega), ofNat_eq (b := t) (by omega)]
  | @four b s t u hb hs ht hu =>
    obtain ⟨⟨hs₁, hs₂⟩, _, _, hover, habove⟩ := hs
    obtain ⟨ht₁, ht₂⟩ := ht
    obtain ⟨hu₁, hu₂⟩ := hu
    rw [encode_four (by omega) (toNat_ofNat (.inr (by omega))), ofNat_eq (b := b) (by omega),
      ofNat_eq (b := s) (by omega), ofNat_eq (b := t) (by omega), ofNat_eq (b := u) (by omega)]

theorem exists_byte (h : n < 256) : ∃ b : UInt8, UInt8.ofNat n = b ∧ b.toNat = n :=
  ⟨_, rfl, UInt8.toNat_ofNat_of_lt h⟩

theorem sequence_encode (c : Char) : Sequence (String.utf8EncodeChar c) c.val.toNat := by
  generalize hc : c.val.toNat = v
  have hvalid : v.isValidChar := hc ▸ c.valid
  rcases (by omega : v ≤ 0x7F ∨ (0x80 ≤ v ∧ v ≤ 0x7FF) ∨ (0x800 ≤ v ∧ v ≤ 0xFFFF) ∨ 0x10000 ≤ v)
    with h | ⟨hlow, hhigh⟩ | ⟨hlow, hhigh⟩ | hlow
  · obtain ⟨b, hb, hv⟩ := exists_byte (n := v) (by omega)
    rw [encode_one h hc, hb, ← hv]
    exact .one (by omega)
  · obtain ⟨b, hb, hb'⟩ := exists_byte (n := v / 64 % 32 + 0xC0) (by omega)
    obtain ⟨s, hs, hs'⟩ := exists_byte (n := v % 64 + 0x80) (by omega)
    have hv : v = (b.toNat - 0xC0) * 64 + (s.toNat - 0x80) := by omega
    rw [encode_two hlow hhigh hc, hb, hs, hv]
    refine .two (by omega) ⟨⟨?_, ?_⟩, ?_, ?_, ?_, ?_⟩ <;> omega
  · obtain ⟨b, hb, hb'⟩ := exists_byte (n := v / 4096 % 16 + 0xE0) (by omega)
    obtain ⟨s, hs, hs'⟩ := exists_byte (n := v / 64 % 64 + 0x80) (by omega)
    obtain ⟨t, ht, ht'⟩ := exists_byte (n := v % 64 + 0x80) (by omega)
    have hv : v = ((b.toNat - 0xE0) * 64 + (s.toNat - 0x80)) * 64 + (t.toNat - 0x80) := by omega
    rw [encode_three hlow hhigh hc, hb, hs, ht, hv]
    refine .three (by omega) ⟨⟨?_, ?_⟩, ?_, ?_, ?_, ?_⟩ ⟨?_, ?_⟩ <;> omega
  · obtain ⟨b, hb, hb'⟩ := exists_byte (n := v / 262144 % 8 + 0xF0) (by omega)
    obtain ⟨s, hs, hs'⟩ := exists_byte (n := v / 4096 % 64 + 0x80) (by omega)
    obtain ⟨t, ht, ht'⟩ := exists_byte (n := v / 64 % 64 + 0x80) (by omega)
    obtain ⟨u, hu, hu'⟩ := exists_byte (n := v % 64 + 0x80) (by omega)
    have hv : v = (((b.toNat - 0xF0) * 64 + (s.toNat - 0x80)) * 64 + (t.toNat - 0x80)) * 64 +
        (u.toNat - 0x80) := by omega
    rw [encode_four hlow hc, hb, hs, ht, hu, hv]
    refine .four (by omega) ⟨⟨?_, ?_⟩, ?_, ?_, ?_, ?_⟩ ⟨?_, ?_⟩ ⟨?_, ?_⟩ <;> omega

theorem step_encode (c : Char) (rest : List UInt8) : ∃ b more, String.utf8EncodeChar c = b :: more ∧
    step b (more ++ rest) = .char c (more.length + 1) := by
  obtain ⟨b, more, hbytes, hstep⟩ := (sequence_encode c).step rest
  refine ⟨b, more, hbytes, ?_⟩
  rw [hstep, hbytes, Utf8Step.char.injEq]
  exact ⟨Char.ofNat_toNat c, rfl⟩

theorem lossyChars_encode (cs : List Char) : lossyChars (encode cs) = cs := by
  induction cs with
  | nil => rw [encode_nil, lossyChars]
  | cons c cs ih =>
    obtain ⟨b, more, hbytes, hstep⟩ := step_encode c (encode cs)
    rw [encode_cons, hbytes, List.cons_append, lossyChars, hstep]
    dsimp only
    rw [Nat.add_sub_cancel, List.drop_left, ih]

theorem fault?_encode (cs : List Char) (index : Nat) : fault? (encode cs) index = none := by
  induction cs generalizing index with
  | nil => rw [encode_nil, fault?]
  | cons c cs ih =>
    obtain ⟨b, more, hbytes, hstep⟩ := step_encode c (encode cs)
    rw [encode_cons, hbytes, List.cons_append, fault?, hstep]
    dsimp only
    rw [Nat.add_sub_cancel, List.drop_left, ih]

/-- Bytes without a fault are those of a text. -/
theorem exists_encode_of_fault? {index : Nat} (h : fault? bytes index = none) :
    ∃ cs, bytes = encode cs := by
  induction bytes, index using fault?.induct with
  | case1 => exact ⟨[], rfl⟩
  | case2 index b rest c size hstep ih =>
    rw [fault?, hstep] at h
    obtain ⟨cs, hcs⟩ := ih h
    obtain ⟨front, more, v, rfl, hfront, rfl, rfl⟩ := sequence_of_step hstep
    rw [Nat.add_sub_cancel, List.drop_left] at hcs
    refine ⟨.ofNat v :: cs, ?_⟩
    rw [hcs, encode_cons, ← hfront.eq_encode]
    rfl
  | case3 index b rest size hstep =>
    rw [fault?, hstep] at h
    cases h
  | case4 index b rest hstep =>
    rw [fault?, hstep] at h
    cases h

/-- Bytes that are a text. -/
def IsText (bytes : List UInt8) : Prop := ∃ cs, bytes = encode cs

theorem decode_encode (cs : List Char) : decode (encode cs) = .ok (.ofList cs) := by
  rw [decode, fault?_encode, lossy, lossyChars_encode]

theorem decode_error (h : ¬ IsText bytes) : ∃ fault, decode bytes = .error fault := by
  rw [decode]
  cases hfault : fault? bytes 0 with
  | none => exact absurd (exists_encode_of_fault? hfault) h
  | some fault => exact ⟨fault, rfl⟩

theorem encode_injective (h : encode cs = encode ds) : cs = ds := by
  rw [← lossyChars_encode cs, h, lossyChars_encode]

theorem Sequence.eq_singleton (h : Sequence bytes v) (hmem : b ∈ bytes) (hb : b.toNat ≤ 0x7F) :
    bytes = [b] := by
  have hne {t : UInt8} (ht : 0x80 ≤ t.toNat) : b ≠ t := by
    rintro rfl
    omega
  cases h with
  | one => rw [List.mem_singleton.1 hmem]
  | two hlead hs => simp [hne (le_trans (by decide) hlead.1), hne hs.continues.1] at hmem
  | three hlead hs ht =>
    simp [hne (le_trans (by decide) hlead.1), hne hs.continues.1, hne ht.1] at hmem
  | four hlead hs ht hu =>
    simp [hne (le_trans (by decide) hlead.1), hne hs.continues.1, hne ht.1, hne hu.1] at hmem

/-- A byte below 128 is a character of its own, and what stands before and behind it is a text if
the whole is. -/
theorem encode_split {front back : List UInt8} (h : encode cs = front ++ b :: back)
    (hb : b.toNat ≤ 0x7F) : IsText front ∧ IsText back := by
  induction cs generalizing front with
  | nil => simp at h
  | cons c cs ih =>
    rw [encode_cons, List.append_eq_append_iff] at h
    -- The byte stands behind the first character or in it, and is then all of it.
    rcases h with ⟨more, rfl, h⟩ | ⟨more, hc, h⟩
    · obtain ⟨⟨ds, rfl⟩, hback⟩ := ih h
      exact ⟨⟨c :: ds, encode_cons.symm⟩, hback⟩
    · cases more with
      | nil =>
        rw [List.append_nil] at hc
        have hnil : encode cs = [] ++ b :: back := h.symm
        obtain ⟨_, hback⟩ := ih hnil
        exact ⟨⟨[c], by simp [encode_cons, hc]⟩, hback⟩
      | cons b' more =>
        rw [List.cons_append, List.cons.injEq] at h
        obtain ⟨rfl, rfl⟩ := h
        have hone := (sequence_encode c).eq_singleton
          (by rw [hc]; exact List.mem_append_right _ List.mem_cons_self) hb
        rw [hone, eq_comm, List.append_eq_singleton_iff] at hc
        rcases hc with ⟨rfl, hmore⟩ | ⟨_, hmore⟩
        · cases hmore
          exact ⟨⟨[], rfl⟩, ⟨cs, rfl⟩⟩
        · cases hmore

theorem not_isText (h : (fault? bytes 0).isSome = true) : ¬ IsText bytes := by
  rintro ⟨cs, rfl⟩
  rw [fault?_encode] at h
  cases h

theorem isText_encode (cs : List Char) : IsText (encode cs) := ⟨cs, rfl⟩

theorem IsText.encode_lossyChars (h : IsText bytes) : encode (lossyChars bytes) = bytes := by
  obtain ⟨cs, rfl⟩ := h
  rw [Utf8.lossyChars_encode]

theorem IsText.append (hfront : IsText bytes) (hback : IsText rest) : IsText (bytes ++ rest) := by
  obtain ⟨cs, rfl⟩ := hfront
  obtain ⟨ds, rfl⟩ := hback
  exact ⟨cs ++ ds, encode_append.symm⟩

theorem isText_append_cons (hb : b.toNat ≤ 0x7F) :
    IsText (bytes ++ b :: rest) ↔ IsText bytes ∧ IsText rest := by
  constructor
  · rintro ⟨cs, h⟩
    exact encode_split h.symm hb
  · rintro ⟨hfront, hback⟩
    have hone : encode [Char.ofNat b.toNat] = [b] := by
      rw [encode_cons, ← (Sequence.one hb).eq_encode]
      rfl
    rw [← List.singleton_append, ← hone]
    exact hfront.append ((isText_encode _).append hback)

theorem isText_cons (hb : b.toNat ≤ 0x7F) : IsText (b :: rest) ↔ IsText rest :=
  have hnil : IsText ([] ++ b :: rest) ↔ IsText [] ∧ IsText rest := isText_append_cons hb
  hnil.trans (and_iff_right (isText_encode []))

theorem zero_mem_encode (h : 0 ∈ encode cs) : Char.ofNat 0 ∈ cs := by
  obtain ⟨c, hc, hzero⟩ := List.mem_flatMap.1 h
  have hone := (sequence_encode c).eq_singleton hzero (by decide)
  have hnul : encode [c] = encode [Char.ofNat 0] := by
    rw [encode_cons, hone]
    rfl
  rw [← List.singleton_injective (encode_injective hnul)]
  exact hc

/-- Damage shows as one character only: all others that are decoded were there. -/
theorem encode_prefix_of_lossyChars (hcs : '\uFFFD' ∉ cs) (h : cs <+: lossyChars bytes) :
    encode cs <+: bytes := by
  induction bytes using lossyChars.induct generalizing cs with
  | case1 =>
    rw [lossyChars, List.prefix_nil] at h
    rw [h, encode_nil]
  | case2 b rest c size hstep ih =>
    rw [lossyChars, hstep] at h
    cases cs with
    | nil => exact List.nil_prefix
    | cons d cs =>
      obtain ⟨rfl, hrest⟩ := List.cons_prefix_cons.1 h
      obtain ⟨front, more, v, rfl, hfront, rfl, rfl⟩ := sequence_of_step hstep
      rw [Nat.add_sub_cancel, List.drop_left] at ih hrest
      rw [encode_cons, ← hfront.eq_encode, List.cons_append, List.cons_prefix_cons,
        List.prefix_append_right_inj]
      exact ⟨rfl, ih (fun hmem => hcs (List.mem_cons_of_mem _ hmem)) hrest⟩
  | case3 b rest size hstep ih =>
    rw [lossyChars, hstep] at h
    cases cs with
    | nil => exact List.nil_prefix
    | cons d cs => exact absurd (List.cons_prefix_cons.1 h).1 fun hd => hcs (hd ▸ List.mem_cons_self)
  | case4 b rest hstep =>
    rw [lossyChars, hstep] at h
    cases cs with
    | nil => exact List.nil_prefix
    | cons d cs => exact absurd (List.cons_prefix_cons.1 h).1 fun hd => hcs (hd ▸ List.mem_cons_self)

theorem toList_loop (bytes : ByteArray) (i : Nat) (acc : List UInt8) :
    ByteArray.toList.loop bytes i acc = acc.reverse ++ bytes.data.toList.drop i := by
  fun_induction ByteArray.toList.loop bytes i acc with
  | case1 i acc h ih =>
    have hi : i < bytes.data.toList.length := h
    rw [ih, List.drop_eq_getElem_cons hi, List.reverse_cons, List.append_assoc]
    have hget : bytes.get! i = bytes.data.toList[i] := getElem!_pos bytes.data i h
    rw [hget]
    rfl
  | case2 i acc h =>
    rw [List.drop_eq_nil_of_le (Nat.not_lt.1 h), List.append_nil]

theorem toList_eq (bytes : ByteArray) : bytes.toList = bytes.data.toList := by
  rw [ByteArray.toList, toList_loop, List.drop_zero, List.reverse_nil, List.nil_append]

theorem toList_toUTF8 (s : String) : s.toUTF8.toList = encode s.toList := by
  have hdata : s.toUTF8 = (encode s.toList).toByteArray := String.utf8Encode_toList.symm
  rw [hdata, toList_eq, List.toList_data_toByteArray]

theorem lossy_toUTF8 (s : String) : lossy s.toUTF8.toList = s := by
  rw [toList_toUTF8, lossy, lossyChars_encode, String.ofList_toList]

end Utf8

end Grapnel
