import Mathlib
import Grapnel.Proofs.Number.Reading
import Grapnel.Proofs.Text.Lines

namespace Grapnel

namespace Text

variable {ws : List (List Char)}

theorem parts_intercalate (h : ∀ w ∈ ws, IsWord w) :
    parts (.ofList ([' '].intercalate ws)) = ws := by
  rw [parts, String.toList_ofList]
  induction ws with
  | nil => rfl
  | cons w ws ih =>
    have hw := h w List.mem_cons_self
    have hrest := ih fun w' hw' => h w' (List.mem_cons_of_mem _ hw')
    cases ws with
    | nil =>
      rw [List.intercalate_singleton, List.splitOnP_eq_singleton hw.solid, List.filter_cons,
        if_pos (decide_eq_true hw.nonempty)]
      rfl
    | cons w' ws =>
      rw [List.intercalate_cons_cons, List.append_assoc, List.singleton_append,
        List.splitOnP_append_cons_of_forall_mem hw.solid ' ' rfl, List.filter_cons,
        if_pos (decide_eq_true hw.nonempty), hrest]

end Text

namespace Hexadecimal

theorem byte_toList (b : UInt8) : ∃ c d, (byte b).toList = [c, d] ∧
    IsDigit c (b.toNat / 16) ∧ IsDigit d (b.toNat % 16) := by
  have hb := b.toNat_lt
  refine ⟨_, _, ?_, ⟨by omega, .inr rfl⟩, ⟨by omega, .inr rfl⟩⟩
  rw [byte, String.toList_ofList, padded_byte hb]
  rfl

end Hexadecimal

namespace BytePattern

open Hexadecimal

variable {token : Option UInt8} {word : List Char} {place : UInt8 × Char}

theorem denotes_tokenText (token : Option UInt8) : Denotes (tokenText token).toList token := by
  cases token with
  | none => exact .marks
  | some b =>
    obtain ⟨c, d, htext, hc, hd⟩ := byte_toList b
    have hsum : 16 * (b.toNat / 16) + b.toNat % 16 = b.toNat := Nat.div_add_mod ..
    have hb := Denotes.byte hc hd
    rw [hsum, UInt8.ofNat_toNat] at hb
    rw [tokenText, htext]
    exact hb

theorem Denotes.isWord (h : Denotes word token) : Text.IsWord word := by
  cases h with
  | mark => exact ⟨by simp, List.forall_mem_singleton.2 rfl⟩
  | marks => exact ⟨by simp, List.forall_mem_cons.2 ⟨rfl, List.forall_mem_singleton.2 rfl⟩⟩
  | byte hc hd =>
    refine ⟨by simp, List.forall_mem_cons.2 ⟨hc.not_blank, ?_⟩⟩
    exact List.forall_mem_singleton.2 hd.not_blank

theorem parts_text (p : BytePattern) :
    Text.parts p.text = p.tokens.map fun token => (tokenText token).toList := by
  have htext : p.text =
      .ofList ([' '].intercalate (p.tokens.map fun token => (tokenText token).toList)) := by
    rw [← String.toList_inj, String.toList_ofList, text, String.toList_intercalate, List.map_map]
    rfl
  rw [htext]
  apply Text.parts_intercalate
  intro word hword
  obtain ⟨token, _, rfl⟩ := List.mem_map.1 hword
  exact (denotes_tokenText token).isWord

theorem ofText_text (p : BytePattern) : ofText p.text = .ok p := by
  rw [ofText_iff, parts_text, List.forall₂_map_left_iff, List.forall₂_same]
  intro token _
  exact .inl (denotes_tokenText token)

/-- How a byte and its character of a mask are written as a token: two digits for a byte that
counts, one or two question marks for whatever byte is masked. -/
inductive Spells : UInt8 × Char → List Char → Prop
  | masked : Spells (b, '?') ['?']
  | maskedTwice : Spells (b, '?') ['?', '?']
  | byte : c = 'x' ∨ c = 'X' → IsDigit d high → IsDigit e low → b.toNat = 16 * high + low →
      Spells (b, c) [d, e]

/-- The position of a pattern that a byte and its character of a mask stand for. -/
def position (place : UInt8 × Char) : Option UInt8 :=
  if place.2 = '?' then none else some place.1

theorem Spells.denotes (h : Spells place word) : Denotes word (position place) := by
  cases h with
  | masked => exact .mark
  | maskedTwice => exact .marks
  | byte hc hd he hb =>
    have hword := Denotes.byte hd he
    rw [← hb, UInt8.ofNat_toNat] at hword
    rcases hc with rfl | rfl
    · exact hword
    · exact hword

theorem Spells.readMask (h : Spells place word) :
    readMask place.1 place.2 = .ok (position place) := by
  cases h with
  | masked => rfl
  | maskedTwice => rfl
  | byte hc hd he hb =>
    rcases hc with rfl | rfl
    · rfl
    · rfl

theorem ofMask_ok {bytes : List UInt8} {mask : String} {tokens : List (Option UInt8)}
    (hlength : bytes.length = mask.toList.length)
    (h : (bytes.zip mask.toList).mapM (fun place => readMask place.1 place.2) = .ok tokens) :
    ofMask bytes mask = ofTokens tokens := by
  have hread : ofMask bytes mask =
      ((bytes.zip mask.toList).mapM fun place => readMask place.1 place.2).bind ofTokens := by
    rw [ofMask]
    dsimp only
    rw [if_neg (not_not.2 hlength)]
    rfl
  rw [hread, h]
  rfl

/-- A pattern is read back from its text, and bytes with a mask give the same pattern as any text
whose tokens spell them position by position, in either case and with either wildcard. -/
theorem notations_agree :
    (∀ p : BytePattern, ofText p.text = .ok p) ∧
      ∀ (bytes : List UInt8) (mask s : String), bytes ≠ [] → bytes.length = mask.toList.length →
        List.Forall₂ Spells (bytes.zip mask.toList) (Text.parts s) →
        ∃ p, ofMask bytes mask = .ok p ∧ ofText s = .ok p ∧
          p.tokens = (bytes.zip mask.toList).map position := by
  refine ⟨ofText_text, ?_⟩
  intro bytes mask s hne hlength hspells
  have htokens : (bytes.zip mask.toList).map position ≠ [] := by
    intro hnil
    have hzero := congrArg List.length hnil
    rw [List.length_map, List.length_zip, ← hlength, Nat.min_self, List.length_nil] at hzero
    exact hne (List.length_eq_zero_iff.1 hzero)
  refine ⟨⟨_, htokens⟩, ?_, ?_, rfl⟩
  · rw [ofMask_ok hlength, ofTokens_iff]
    apply mapM_ok
    intro place hplace
    obtain ⟨word, hword⟩ := exists_forall₂_iff.1 ⟨_, hspells⟩ place hplace
    exact hword.readMask
  · rw [ofText_iff, List.forall₂_map_right_iff]
    refine List.Forall₂.imp ?_ hspells.flip
    intro word place h
    exact .inl h.denotes

theorem notations_agree_mixed :
    List.Forall₂ Spells (List.zip [0x48, 0x8B, 0xAA, 0, 5] "xX??x".toList)
        (Text.parts "48 8b ?? ? 05") ∧
      ∃ p, ofMask [0x48, 0x8B, 0xAA, 0, 5] "xX??x" = .ok p ∧ ofText "48 8b ?? ? 05" = .ok p ∧
        p.tokens = [some 0x48, some 0x8B, none, none, some 5] := by
  have hparts : Text.parts "48 8b ?? ? 05" =
      [['4', '8'], ['8', 'b'], ['?', '?'], ['?'], ['0', '5']] := by decide
  have hdigits : IsDigit '4' 4 ∧ IsDigit '8' 8 ∧ IsDigit 'b' 11 ∧ IsDigit '0' 0 ∧ IsDigit '5' 5 :=
    ⟨isDigit_digitChar (by decide), isDigit_digitChar (by decide), isDigit_digitChar (by decide),
      isDigit_digitChar (by decide), isDigit_digitChar (by decide)⟩
  obtain ⟨h4, h8, hb, h0, h5⟩ := hdigits
  have hspells : List.Forall₂ Spells (List.zip [0x48, 0x8B, 0xAA, 0, 5] "xX??x".toList)
      (Text.parts "48 8b ?? ? 05") := by
    rw [hparts]
    refine .cons (.byte (.inl rfl) h4 h8 rfl) (.cons (.byte (.inr rfl) h8 hb rfl) ?_)
    exact .cons .maskedTwice (.cons .masked (.cons (.byte (.inl rfl) h0 h5 rfl) .nil))
  exact ⟨hspells, notations_agree.2 _ _ _ (by decide) rfl hspells⟩

end BytePattern

end Grapnel
