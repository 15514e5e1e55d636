import Grapnel.Memory.Pattern
import Grapnel.Proofs.Traversal

namespace Grapnel

namespace Text

/-- The longest parts of a text without white space. -/
def parts (s : String) : List (List Char) := (s.toList.splitOnP isBlank).filter (· ≠ [])

theorem wordsFrom_eq {cs w : List Char} {ws : List (List Char)}
    (h : cs.splitOnP isBlank = w :: ws) :
    wordsFrom true cs = w :: ws.filter (· ≠ []) ∧
      wordsFrom false cs = (w :: ws).filter (· ≠ []) := by
  induction cs generalizing w ws with
  | nil =>
    rw [List.splitOnP_nil] at h
    cases h
    exact ⟨rfl, rfl⟩
  | cons c cs ih =>
    obtain ⟨w', ws', hsplit⟩ := List.exists_cons_of_ne_nil (List.splitOnP_ne_nil isBlank cs)
    obtain ⟨hin, hout⟩ := ih hsplit
    rw [List.splitOnP_cons_eq_if_modifyHead, hsplit] at h
    cases hc : isBlank c with
    | true =>
      rw [hc, if_pos rfl] at h
      cases h
      simp only [wordsFrom, hc, if_true, hout, true_and]
      rfl
    | false =>
      rw [hc, if_neg Bool.false_ne_true] at h
      cases h
      simp only [wordsFrom, hc, Bool.false_eq_true, if_false, hin, extend, true_and]
      rfl

theorem words_eq_parts (s : String) : words s.toList = parts s := by
  obtain ⟨w, ws, h⟩ := List.exists_cons_of_ne_nil (List.splitOnP_ne_nil isBlank s.toList)
  rw [words, parts, (wordsFrom_eq h).2, h]

end Text

namespace Hexadecimal

/-- A character is the digit of a number, in lower case or in upper case. -/
def IsDigit (c : Char) (n : Nat) : Prop :=
  n < 16 ∧ (c = n.digitChar ∨ c = n.digitChar.toUpper)

variable {c d : Char} {n limit : Nat}

theorem exists_ofNat {low high : Nat} (hlow : low ≤ c.toNat) (hhigh : c.toNat ≤ low + high) :
    ∃ i ≤ high, c = .ofNat (low + i) :=
  ⟨c.toNat - low, by omega, by rw [Nat.add_sub_cancel' hlow, Char.ofNat_toNat]⟩

theorem value?_iff : value? c = some n ↔ IsDigit c n := by
  constructor
  · intro h
    rw [value?] at h
    split at h
    · next hrange =>
      obtain ⟨i, hi, rfl⟩ : ∃ i ≤ 9, c = .ofNat (48 + i) := exists_ofNat hrange.1 hrange.2
      cases h
      interval_cases i <;> exact ⟨by decide, .inl rfl⟩
    · split at h
      · next hrange =>
        obtain ⟨i, hi, rfl⟩ : ∃ i ≤ 5, c = .ofNat (97 + i) := exists_ofNat hrange.1 hrange.2
        cases h
        interval_cases i <;> exact ⟨by decide, .inl rfl⟩
      · split at h
        · next hrange =>
          obtain ⟨i, hi, rfl⟩ : ∃ i ≤ 5, c = .ofNat (65 + i) := exists_ofNat hrange.1 hrange.2
          cases h
          interval_cases i <;> exact ⟨by decide, .inr rfl⟩
        · cases h
  · rintro ⟨hn, rfl | rfl⟩
    · interval_cases n <;> rfl
    · interval_cases n <;> rfl

theorem IsDigit.ascii (h : IsDigit c n) : c.utf8Size = 1 := by
  obtain ⟨hn, rfl | rfl⟩ := h
  · interval_cases n <;> rfl
  · interval_cases n <;> rfl

theorem IsDigit.ne_sign (h : IsDigit c n) : c ≠ '+' ∧ c ≠ '?' := by
  obtain ⟨hn, rfl | rfl⟩ := h
  · interval_cases n <;> decide
  · interval_cases n <;> decide

theorem ofDigits?_cons {cs : List Char} {acc : Nat} :
    ofDigits? (c :: cs) acc = some n ↔ ∃ d, IsDigit c d ∧ ofDigits? cs (16 * acc + d) = some n := by
  simp only [ofDigits?, Option.bind_eq_some_iff, value?_iff]

theorem read?_signed : read? 256 ['+', c] = some n ↔ IsDigit c n := by
  have hread : read? 256 ['+', c] =
    (ofDigits? [c] 0).bind fun n => if n < 256 then some n else none := rfl
  rw [hread, Option.bind_eq_some_iff]
  simp only [ofDigits?_cons]
  constructor
  · rintro ⟨_, ⟨d, hd, hd'⟩, hn⟩
    cases hd'
    split at hn <;> cases hn
    rwa [Nat.mul_zero, Nat.zero_add]
  · intro h
    have hlt := h.1
    refine ⟨_, ⟨n, h, rfl⟩, ?_⟩
    rw [if_pos (by omega), Nat.mul_zero, Nat.zero_add]

theorem read?_unsigned {cs : List Char} (hc : c ≠ '+') :
    read? limit (c :: cs) =
      (ofDigits? (c :: cs) 0).bind fun n => if n < limit then some n else none := by
  rw [read?]
  · rfl
  · intro ds hds
    cases hds
    exact hc rfl

theorem read?_pair (hc : c ≠ '+') :
    read? 256 [c, d] = some n ↔
      ∃ high low, IsDigit c high ∧ IsDigit d low ∧ n = 16 * high + low := by
  rw [read?_unsigned hc, Option.bind_eq_some_iff]
  simp only [ofDigits?_cons]
  constructor
  · rintro ⟨_, ⟨high, hhigh, low, hlow, hsum⟩, hn⟩
    cases hsum
    split at hn <;> cases hn
    exact ⟨high, low, hhigh, hlow, by omega⟩
  · rintro ⟨high, low, hhigh, hlow, rfl⟩
    have h₁ := hhigh.1
    have h₂ := hlow.1
    refine ⟨_, ⟨high, hhigh, low, hlow, rfl⟩, ?_⟩
    rw [if_pos (by omega), Nat.mul_zero, Nat.zero_add]

theorem exists_pair {word : List Char} (hsize : (String.ofList word).utf8ByteSize = 2)
    (h : read? limit word = some n) : ∃ c d, word = [c, d] := by
  rw [String.utf8ByteSize_ofList] at hsize
  cases word with
  | nil => cases hsize
  | cons c word =>
    have hc := c.utf8Size_pos
    cases word with
    | nil =>
      -- a character of two bytes is neither a sign nor a digit
      by_cases hplus : c = '+'
      · subst hplus
        cases hsize
      · rw [read?_unsigned hplus, Option.bind_eq_some_iff] at h
        obtain ⟨_, hdigit, _⟩ := h
        obtain ⟨_, hdigit, _⟩ := ofDigits?_cons.1 hdigit
        rw [String.utf8Len_cons, hdigit.ascii] at hsize
        cases hsize
    | cons d word =>
      have hd := d.utf8Size_pos
      cases word with
      | nil => exact ⟨c, d, rfl⟩
      | cons e word =>
        have he := e.utf8Size_pos
        simp only [String.utf8Len_cons] at hsize
        omega

end Hexadecimal

namespace BytePattern

open Hexadecimal

/-- The notation: question marks for any byte, two digits for one. -/
inductive Denotes : List Char → Option UInt8 → Prop
  | mark : Denotes ['?'] none
  | marks : Denotes ['?', '?'] none
  | byte : IsDigit c high → IsDigit d low → Denotes [c, d] (some (.ofNat (16 * high + low)))

/-- A plus sign and one digit. -/
inductive Signed : List Char → Option UInt8 → Prop
  | plus : IsDigit c n → Signed ['+', c] (some (.ofNat n))

/-- What is read as a token. -/
def Reads (word : List Char) (token : Option UInt8) : Prop := Denotes word token ∨ Signed word token

variable {word : List Char} {token : Option UInt8} {words before after : List (List Char)}
  {grammar : List Char → Option UInt8 → Prop} {s : String}

theorem readToken_number {n : Nat} (hmark : word ≠ ['?'] ∧ word ≠ ['?', '?'])
    (hsize : (String.ofList word).utf8ByteSize = 2) (h : read? 256 word = some n) :
    readToken word = .ok (some (.ofNat n)) := by
  rw [readToken, if_neg (not_or.2 hmark)]
  dsimp only
  rw [if_pos hsize, h]

theorem readToken_iff : readToken word = .ok token ↔ Reads word token := by
  constructor
  · intro h
    rw [readToken] at h
    split at h
    · next hmark =>
      cases h
      rcases hmark with rfl | rfl
      · exact .inl .mark
      · exact .inl .marks
    · dsimp only at h
      split at h
      · next n hn =>
        cases h
        split at hn
        · next hsize =>
          obtain ⟨c, d, rfl⟩ := exists_pair hsize hn
          by_cases hc : c = '+'
          · subst hc
            exact .inr (.plus (read?_signed.1 hn))
          · obtain ⟨high, low, hhigh, hlow, rfl⟩ := (read?_pair hc).1 hn
            exact .inl (.byte hhigh hlow)
        · cases hn
      · cases h
  · rintro (h | h)
    · cases h with
      | mark => rfl
      | marks => rfl
      | @byte c high d low hc hd =>
        apply readToken_number
        · simp [hc.ne_sign.2]
        · simp [hc.ascii, hd.ascii]
        · exact (read?_pair hc.ne_sign.1).2 ⟨high, low, hc, hd, rfl⟩
    · cases h with
      | @plus c n hc =>
        apply readToken_number
        · simp
        · simp [hc.ascii]
          rfl
        · exact read?_signed.2 hc

theorem readToken_error (h : readToken word = .error fault) :
    fault = .invalidToken (.ofList word) := by
  rw [readToken] at h
  split at h
  · cases h
  · dsimp only at h
    split at h
    · cases h
    · cases h
      rfl

theorem Denotes.not_signed (h : Denotes word token) : ¬ ∃ token', Signed word token' := by
  rintro ⟨token', hs⟩
  cases hs with
  | plus hd =>
    cases h with
    | byte hc _ => exact hc.ne_sign.1 rfl

/-- A text is read by a grammar of tokens: a token gives one position, no token is an empty pattern,
and the first that the grammar does not have is refused. -/
structure ReadBy (grammar : List Char → Option UInt8 → Prop) (s : String) : Prop where
  succeeds : (∃ p, ofText s = .ok p) ↔
    Text.parts s ≠ [] ∧ ∀ word ∈ Text.parts s, ∃ token, grammar word token
  tokens : ∀ p, ofText s = .ok p → List.Forall₂ grammar (Text.parts s) p.tokens
  invalid : ∀ before word after, Text.parts s = before ++ word :: after →
    (∀ w ∈ before, ∃ token, grammar w token) → (¬ ∃ token, grammar word token) →
    ofText s = .error (.invalidToken (.ofList word))
  empty : ofText s = .error .empty ↔ Text.parts s = []

theorem ofText_eq (s : String) : ofText s = ((Text.parts s).mapM readToken).bind ofTokens := by
  rw [ofText, Text.words_eq_parts]
  rfl

theorem ofText_ok {tokens : List (Option UInt8)}
    (h : (Text.parts s).mapM readToken = .ok tokens) : ofText s = ofTokens tokens := by
  rw [ofText_eq, h]
  rfl

theorem ofTokens_iff {tokens : List (Option UInt8)} {p : BytePattern} :
    ofTokens tokens = .ok p ↔ tokens = p.tokens := by
  rw [ofTokens]
  split
  · next hnil =>
    constructor
    · intro h
      cases h
    · intro h
      exact absurd (h.symm.trans hnil) p.nonempty
  · constructor
    · intro h
      cases h
      rfl
    · rintro rfl
      rfl

theorem ofText_iff {p : BytePattern} :
    ofText s = .ok p ↔ List.Forall₂ Reads (Text.parts s) p.tokens := by
  have hread : (Text.parts s).mapM readToken = .ok p.tokens ↔
      List.Forall₂ Reads (Text.parts s) p.tokens := by
    simp only [mapM_ok_iff, readToken_iff]
  rw [← hread]
  cases h : (Text.parts s).mapM readToken with
  | error fault =>
    rw [ofText_eq, h]
    constructor
    · intro he
      cases he
    · intro he
      cases he
  | ok tokens => rw [ofText_ok h, ofTokens_iff, Except.ok.injEq]

theorem ofText_invalid (hparts : Text.parts s = before ++ word :: after)
    (hbefore : ∀ w ∈ before, ∃ token, Reads w token) (hword : ¬ ∃ token, Reads word token) :
    ofText s = .error (.invalidToken (.ofList word)) := by
  cases h : readToken word with
  | ok token => exact absurd ⟨token, readToken_iff.1 h⟩ hword
  | error fault =>
    obtain rfl := readToken_error h
    rw [ofText_eq, hparts, mapM_first_error _ h]
    · rfl
    · intro w hw
      obtain ⟨token, ht⟩ := hbefore w hw
      exact ⟨token, readToken_iff.2 ht⟩

theorem exists_ofText_iff : (∃ p, ofText s = .ok p) ↔
    Text.parts s ≠ [] ∧ ∀ word ∈ Text.parts s, ∃ token, Reads word token := by
  constructor
  · rintro ⟨p, hp⟩
    have hread := ofText_iff.1 hp
    constructor
    · intro hnil
      rw [hnil, List.forall₂_nil_left_iff] at hread
      exact p.nonempty hread
    · exact exists_forall₂_iff.1 ⟨_, hread⟩
  · rintro ⟨hne, hall⟩
    obtain ⟨tokens, ht⟩ := exists_forall₂_iff.2 hall
    have htokens : tokens ≠ [] := by
      rintro rfl
      exact hne (List.forall₂_nil_right_iff.1 ht)
    exact ⟨⟨tokens, htokens⟩, ofText_iff.2 ht⟩

theorem readBy_reads (s : String) : ReadBy Reads s where
  succeeds := exists_ofText_iff
  tokens p hp := ofText_iff.1 hp
  invalid before word after := ofText_invalid
  empty := by
    constructor
    · intro h
      rcases all_or_first (fun w => ∃ token, Reads w token) (Text.parts s) with
        hall | ⟨before, word, after, hparts, hbefore, hword⟩
      · by_contra hne
        obtain ⟨p, hp⟩ := exists_ofText_iff.2 ⟨hne, hall⟩
        cases h.symm.trans hp
      · cases h.symm.trans (ofText_invalid hparts hbefore hword)
    · intro h
      rw [ofText_eq, h]
      rfl

theorem not_reads_of_invalid (h : ofText s = .error (.invalidToken (.ofList word))) :
    ¬ ∃ token, Reads word token := by
  rcases all_or_first (fun w => ∃ token, Reads w token) (Text.parts s) with
    hall | ⟨before, first, after, hparts, hbefore, hfirst⟩
  · exfalso
    by_cases hnil : Text.parts s = []
    · cases h.symm.trans ((readBy_reads s).empty.2 hnil)
    · obtain ⟨p, hp⟩ := exists_ofText_iff.2 ⟨hnil, hall⟩
      cases h.symm.trans hp
  · have heq := h.symm.trans (ofText_invalid hparts hbefore hfirst)
    rw [Except.error.injEq, PatternFault.invalidToken.injEq, String.ofList_inj] at heq
    rwa [heq]

/-- A plus sign with a digit comes before all that cannot be read. -/
def ReachesSign (s : String) : Prop :=
  ∃ before word after, Text.parts s = before ++ word :: after ∧
    (∀ w ∈ before, ∃ token, Reads w token) ∧ ∃ token, Signed word token

/-- Where no sign is reached, what is read is of the notation. -/
theorem denotes_of_reads (h : ¬ ReachesSign s) (hparts : Text.parts s = before ++ after)
    (hbefore : ∀ w ∈ before, ∃ token, Reads w token) :
    ∀ w ∈ before, ∀ token, Reads w token → Denotes w token := by
  rintro w hw token (hd | hs)
  · exact hd
  · obtain ⟨front, back, rfl⟩ := List.append_of_mem hw
    refine absurd ⟨front, w, back ++ after, by simpa using hparts, ?_, token, hs⟩ h
    intro w' hw'
    exact hbefore w' (List.mem_append_left _ hw')

theorem readBy_denotes (h : ¬ ReachesSign s) : ReadBy Denotes s where
  succeeds := by
    rw [exists_ofText_iff]
    refine and_congr_right fun _ => ⟨fun hall w hw => ?_, fun hall w hw => ?_⟩
    · obtain ⟨token, ht⟩ := hall w hw
      exact ⟨token, denotes_of_reads h (List.append_nil _).symm hall w hw token ht⟩
    · obtain ⟨token, ht⟩ := hall w hw
      exact ⟨token, .inl ht⟩
  tokens p hp := by
    have hall := (exists_ofText_iff.1 ⟨p, hp⟩).2
    have hd := denotes_of_reads h (List.append_nil _).symm hall
    refine List.Forall₂.imp ?_ ((List.forall₂_and_left _ _).2 ⟨hd, ofText_iff.1 hp⟩)
    rintro w token ⟨himp, hr⟩
    exact himp token hr
  invalid before word after hparts hbefore hword := by
    have hreads : ∀ w ∈ before, ∃ token, Reads w token := by
      intro w hw
      obtain ⟨token, ht⟩ := hbefore w hw
      exact ⟨token, .inl ht⟩
    apply ofText_invalid hparts hreads
    rintro ⟨token, hd | hs⟩
    · exact hword ⟨token, hd⟩
    · exact h ⟨before, word, after, hparts, hreads, token, hs⟩
  empty := (readBy_reads s).empty

theorem not_readBy_denotes (h : ReachesSign s) : ¬ ReadBy Denotes s := by
  intro hread
  obtain ⟨before, word, after, hparts, hbefore, token, hs⟩ := h
  -- the notation refuses the sign, or a token before it, and each of them is read
  rcases all_or_first (fun w => ∃ token, Denotes w token) (before ++ [word]) with
    hall | ⟨front, first, back, hsplit, hfront, hfirst⟩
  · obtain ⟨token', hd⟩ := hall word (List.mem_append_right _ (List.mem_singleton_self word))
    exact hd.not_signed ⟨token, hs⟩
  · have hfault : ofText s = .error (.invalidToken (.ofList first)) := by
      apply hread.invalid front first (back ++ after) _ hfront hfirst
      rw [hparts, ← List.cons_append, ← List.append_assoc, ← hsplit, List.append_assoc]
      rfl
    apply not_reads_of_invalid hfault
    have hmem : first ∈ before ++ [word] := by
      rw [hsplit]
      exact List.mem_append_right _ List.mem_cons_self
    rcases List.mem_append.1 hmem with hmem | hmem
    · exact hbefore first hmem
    · rw [List.mem_singleton.1 hmem]
      exact ⟨token, .inr hs⟩

/-- Texts are read by the notation and by a plus sign with a digit, hence by the notation alone
unless such a sign is reached. -/
theorem ofText_exact (s : String) : ReadBy Reads s ∧ (ReadBy Denotes s ↔ ¬ ReachesSign s) :=
  ⟨readBy_reads s, fun hread hsign => not_readBy_denotes hsign hread, readBy_denotes⟩

theorem ofText_exact_signed :
    ofText "+5" = .ok ⟨[some 5], by decide⟩ ∧ ¬ ReadBy Denotes "+5" := by
  have hparts : Text.parts "+5" = [['+', '5']] := by decide
  have hsigned : Signed ['+', '5'] (some 5) := .plus (n := 5) ⟨by decide, by decide⟩
  refine ⟨?_, ?_⟩
  · rw [ofText_iff, hparts]
    exact .cons (.inr hsigned) .nil
  · intro hread
    refine (ofText_exact "+5").2.1 hread ⟨[], _, [], hparts, ?_, _, hsigned⟩
    intro w hw
    exact absurd hw List.not_mem_nil

end BytePattern

end Grapnel
