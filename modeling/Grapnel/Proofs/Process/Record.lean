import Mathlib
import Grapnel.Process.Record
import Grapnel.Proofs.Number.Reading
import Grapnel.Proofs.Text.Encoding

namespace Grapnel

namespace ProcessRecord

open Text

variable {c : Char} {w s front inner rest : List Char} {name state remainder : String}
  {pid parent : Nat} {args : List String}

/-- A field: not empty and without the white space that separates fields. -/
structure IsField (w : List Char) : Prop where
  nonempty : w ≠ []
  solid : ∀ c ∈ w, isBlank c = false

theorem isBlank_of_isDigit (h : c.isDigit = true) : isBlank c = false := by
  rw [Bool.eq_false_iff, isBlank]
  intro hblank
  simp only [Bool.or_eq_true, beq_iff_eq] at hblank
  rcases hblank with (((rfl | rfl) | rfl) | rfl) | rfl <;> cases h

theorem isField_toString (n : Nat) : IsField (toString n).toList where
  nonempty := toList_toString n ▸ Nat.toDigits_ne_nil
  solid _ hc := isBlank_of_isDigit (isDigit_of_mem_toString hc)

theorem nextField_field (hw : IsField w) : nextField (' ' :: (w ++ ' ' :: s)) = (w, ' ' :: s) := by
  obtain ⟨c, cs, hc⟩ := List.exists_cons_of_ne_nil hw.nonempty
  have hsolid : isBlank c = false := hw.solid c (hc ▸ List.mem_cons_self)
  have hstart : (' ' :: (w ++ ' ' :: s)).dropWhile isBlank = w ++ ' ' :: s := by
    rw [List.dropWhile_cons_of_pos rfl, hc, List.cons_append, List.dropWhile_cons_of_neg]
    simp [hsolid]
  have hword : ∀ c ∈ w, (!isBlank c) = true := by
    intro c hmem
    rw [hw.solid c hmem]
    rfl
  rw [nextField, hstart, List.takeWhile_append_of_pos hword, List.dropWhile_append_of_pos hword]
  exact Prod.ext (List.append_nil w) rfl

theorem ne_of_not_mem (h : c ∉ w) : ∀ d ∈ w, decide (d ≠ c) = true := by
  intro d hd
  rw [decide_eq_true_eq]
  rintro rfl
  exact h hd

/-- The first opening and the last closing parenthesis are the ones that count. -/
theorem parseStat_parts (hfront : '(' ∉ front) (hrest : ')' ∉ rest) :
    parseStat (.ofList (front ++ '(' :: (inner ++ ')' :: rest))) =
      if (nextField rest).1.isEmpty then none
      else (readDecimal? (2 ^ 32) (nextField (nextField rest).2).1).map
        fun p => (String.ofList inner, p) := by
  have hopen : (front ++ '(' :: (inner ++ ')' :: rest)).dropWhile (· ≠ '(') =
      '(' :: (inner ++ ')' :: rest) :=
    List.dropWhile_append_of_pos (ne_of_not_mem hfront)
  have hback := ne_of_not_mem (mt List.mem_reverse.1 hrest)
  have hreverse : (inner ++ ')' :: rest).reverse = rest.reverse ++ ')' :: inner.reverse := by simp
  have hclose : (inner ++ ')' :: rest).reverse.dropWhile (· ≠ ')') = ')' :: inner.reverse := by
    rw [hreverse]
    exact List.dropWhile_append_of_pos hback
  have hbehind : (inner ++ ')' :: rest).reverse.takeWhile (· ≠ ')') = rest.reverse := by
    rw [hreverse, List.takeWhile_append_of_pos hback]
    exact List.append_nil _
  rw [parseStat, String.toList_ofList, hopen]
  dsimp only
  rw [hclose]
  dsimp only
  rw [hbehind, List.reverse_reverse, List.reverse_reverse]

/-- A status line. -/
def statLine (pid : Nat) (name state : String) (parent : Nat) (remainder : String) : String :=
  toString pid ++ " (" ++ name ++ ") " ++ state ++ " " ++ toString parent ++ " " ++ remainder

/-- A status line behind its name. -/
def behind (state : List Char) (parent : Nat) (remainder : String) : List Char :=
  ' ' :: (state ++ ' ' :: ((toString parent).toList ++ ' ' :: remainder.toList))

theorem statLine_eq : statLine pid name state parent remainder =
    .ofList ((toString pid ++ " ").toList ++
      '(' :: (name.toList ++ ')' :: behind state.toList parent remainder)) := by
  rw [← String.toList_inj, String.toList_ofList]
  simp [statLine, behind]

theorem open_not_mem (pid : Nat) : '(' ∉ (toString pid ++ " ").toList := by
  rw [String.toList_append, List.mem_append, not_or]
  refine ⟨fun h => ?_, by decide⟩
  cases isDigit_of_mem_toString h

theorem close_not_mem_behind (hstate : ')' ∉ s) (hremainder : ')' ∉ remainder.toList) :
    ')' ∉ behind s parent remainder := by
  have hparent : ')' ∉ (toString parent).toList := by
    intro h
    cases isDigit_of_mem_toString h
  simp only [behind, List.mem_cons, List.mem_append, hstate, hparent, hremainder, or_false]
  decide

theorem parseStat_statLine (hstate : IsField state.toList) (hclose : ')' ∉ state.toList)
    (hparent : parent < 2 ^ 32) (hremainder : ')' ∉ remainder.toList) :
    parseStat (statLine pid name state parent remainder) = some (name, parent) := by
  rw [statLine_eq, parseStat_parts (open_not_mem pid) (close_not_mem_behind hclose hremainder),
    behind, nextField_field hstate, nextField_field (isField_toString parent)]
  dsimp only
  rw [if_neg (by simpa using hstate.nonempty), readDecimal?_toString, if_pos hparent,
    Option.map_some, String.ofList_toList]

theorem exists_last_of_mem (h : c ∈ s) : ∃ front back, s = front ++ c :: back ∧ c ∉ back := by
  obtain ⟨back, front, hs, hback⟩ := List.eq_append_cons_of_mem (List.mem_reverse.2 h)
  refine ⟨front.reverse, back.reverse, ?_, mt List.mem_reverse.1 hback⟩
  rw [← List.reverse_reverse s, hs]
  simp

/-- A parenthesis that closes in the state is taken for the end of the name. -/
theorem parseStat_ne (hclose : ')' ∈ state.toList) (hremainder : ')' ∉ remainder.toList) :
    parseStat (statLine pid name state parent remainder) ≠ some (name, parent) := by
  -- The line is that of a longer name, up to the last parenthesis in the state.
  obtain ⟨early, late, hstate, hlate⟩ := exists_last_of_mem hclose
  have hline : name.toList ++ ')' :: behind state.toList parent remainder =
      (name.toList ++ ')' :: ' ' :: early) ++ ')' :: (late ++ (behind [] parent remainder).tail) := by
    simp [behind, hstate]
  have hrest : ')' ∉ late ++ (behind [] parent remainder).tail := by
    rw [List.mem_append, not_or]
    exact ⟨hlate, fun h => close_not_mem_behind List.not_mem_nil hremainder (List.mem_of_mem_tail h)⟩
  rw [statLine_eq, hline, parseStat_parts (open_not_mem pid) hrest]
  intro h
  split at h
  · cases h
  · obtain ⟨_, _, hanswer⟩ := Option.map_eq_some_iff.1 h
    have hname := congrArg (fun x => x.1.toList.length) hanswer
    simp at hname

/-- Bytes with a zero behind each part. -/
def terminated (parts : List (List UInt8)) : List UInt8 := parts.flatMap (· ++ [0])

theorem splitZero_of_not_mem {part : List UInt8} (h : 0 ∉ part) : splitZero part = [part] := by
  induction part with
  | nil => rfl
  | cons b part ih =>
    obtain ⟨hb, hpart⟩ := not_or.1 (mt List.mem_cons.2 h)
    rw [splitZero, if_neg (Ne.symm hb), ih hpart]

theorem splitZero_append {part bytes : List UInt8} (h : 0 ∉ part) :
    splitZero (part ++ 0 :: bytes) = part :: splitZero bytes := by
  induction part with
  | nil => rw [List.nil_append, splitZero, if_pos rfl]
  | cons b part ih =>
    obtain ⟨hb, hpart⟩ := not_or.1 (mt List.mem_cons.2 h)
    rw [List.cons_append, splitZero, if_neg (Ne.symm hb), ih hpart]

theorem splitZero_terminated {parts : List (List UInt8)} {last : List UInt8}
    (h : ∀ part ∈ parts, 0 ∉ part) (hlast : 0 ∉ last) :
    splitZero (terminated parts ++ last) = parts ++ [last] := by
  induction parts with
  | nil => exact splitZero_of_not_mem hlast
  | cons part parts ih =>
    have hsplit : terminated (part :: parts) ++ last = part ++ 0 :: (terminated parts ++ last) := by
      simp [terminated]
    rw [hsplit, splitZero_append (h part List.mem_cons_self),
      ih fun p hp => h p (List.mem_cons_of_mem _ hp)]
    rfl

/-- An argument that a command line can show. -/
structure IsArgument (a : String) : Prop where
  nonempty : a ≠ ""
  nul_not_mem : Char.ofNat 0 ∉ a.toList

namespace IsArgument

variable {a : String}

theorem zero_not_mem (h : IsArgument a) : 0 ∉ a.toUTF8.toList := by
  rw [Utf8.toList_toUTF8]
  exact mt Utf8.zero_mem_encode h.nul_not_mem

theorem bytes_ne_nil (h : IsArgument a) : a.toUTF8.toList ≠ [] := by
  rw [Utf8.toList_toUTF8, ← Utf8.encode_nil]
  intro hnil
  exact h.nonempty (String.toList_eq_nil_iff.1 (Utf8.encode_injective hnil))

end IsArgument

/-- Arguments with a zero byte behind each. -/
def commandLine (args : List String) : List UInt8 := terminated (args.map (·.toUTF8.toList))

theorem parts_arguments (h : ∀ a ∈ args, IsArgument a) :
    ((args.map (·.toUTF8.toList)).filter fun part => !part.isEmpty).map Utf8.lossy = args := by
  rw [List.filter_eq_self.2, List.map_map]
  · exact List.map_id'' Utf8.lossy_toUTF8 args
  · rw [List.forall_mem_map]
    intro a ha
    simpa using (h a ha).bytes_ne_nil

theorem parseCommandLine_commandLine (h : ∀ a ∈ args, IsArgument a) :
    parseCommandLine (commandLine args) = args := by
  have hparts : splitZero (commandLine args ++ []) = args.map (·.toUTF8.toList) ++ [[]] := by
    refine splitZero_terminated ?_ List.not_mem_nil
    rw [List.forall_mem_map]
    exact fun a ha => (h a ha).zero_not_mem
  rw [List.append_nil] at hparts
  rw [parseCommandLine, hparts, List.filter_append, List.map_append, parts_arguments h]
  exact List.append_nil args

theorem parseCommandLine_dropLast (h : ∀ a ∈ args, IsArgument a) :
    parseCommandLine (commandLine args).dropLast = args := by
  rcases List.eq_nil_or_concat' args with rfl | ⟨args, last, rfl⟩
  · rfl
  · have hline : (commandLine (args ++ [last])).dropLast =
        commandLine args ++ last.toUTF8.toList := by
      simp [commandLine, terminated, ← List.append_assoc]
    have hparts : splitZero (commandLine (args ++ [last])).dropLast =
        (args ++ [last]).map (·.toUTF8.toList) := by
      rw [hline, List.map_append]
      refine splitZero_terminated ?_ (h last (by simp)).zero_not_mem
      rw [List.forall_mem_map]
      exact fun a ha => (h a (List.mem_append_left _ ha)).zero_not_mem
    rw [parseCommandLine, hparts, parts_arguments h]

/-- Records are read as what they were written with: a status line exactly if no parenthesis closes
in the state, and a command line with or without the zero byte at its end. -/
theorem records_read_back :
    (∀ pid name state parent remainder, IsField state.toList → parent < 2 ^ 32 →
      ')' ∉ remainder.toList →
      (parseStat (statLine pid name state parent remainder) = some (name, parent) ↔
        ')' ∉ state.toList)) ∧
    (∀ args, (∀ a ∈ args, IsArgument a) →
      parseCommandLine (commandLine args) = args ∧
        parseCommandLine (commandLine args).dropLast = args) := by
  refine ⟨fun pid name state parent remainder hstate hparent hremainder => ?_, fun args hargs =>
    ⟨parseCommandLine_commandLine hargs, parseCommandLine_dropLast hargs⟩⟩
  constructor
  · intro h hclose
    exact parseStat_ne hclose hremainder h
  · intro hclose
    exact parseStat_statLine hstate hclose hparent hremainder

theorem records_read_back_imitated :
    parseStat "4194304 () S 1\n(a) R (2 ) S 4294967295 0 -1 " =
      some (") S 1\n(a) R (2 ", 4294967295) ∧
    parseCommandLine [47, 195, 169, 0, 45, 32, 0] = ["/é", "- "] ∧
    parseCommandLine [47, 195, 169, 0, 45, 32] = ["/é", "- "] := by
  obtain ⟨hstat, hline⟩ := records_read_back
  have hname := (hstat 4194304 ") S 1\n(a) R (2 " "S" 4294967295 "0 -1 "
    ⟨by decide, by simp [isBlank]⟩ (by decide) (by decide)).2 (by decide)
  have hargs : ∀ a ∈ ["/é", "- "], IsArgument a := by
    rw [List.forall_mem_cons, List.forall_mem_singleton]
    exact ⟨⟨by decide, by decide⟩, ⟨by decide, by decide⟩⟩
  obtain ⟨hfull, hcut⟩ := hline _ hargs
  have hbytes : commandLine ["/é", "- "] = [47, 195, 169, 0, 45, 32, 0] := by cbv
  rw [hbytes] at hfull hcut
  refine ⟨?_, hfull, hcut⟩
  refine Eq.trans (congrArg parseStat ?_) hname
  cbv

/-- A state in which a parenthesis closes lengthens the name. -/
theorem parseStat_closing_state :
    IsField "S)".toList ∧ ')' ∉ "0".toList ∧
      parseStat (statLine 1 "a" "S)" 5 "0") = some ("a) S", 0) ∧
      parseStat (statLine 1 "a" "S)" 5 "0") ≠ some ("a", 5) := by
  refine ⟨⟨by decide, by simp [isBlank]⟩, by decide, by cbv, ?_⟩
  exact parseStat_ne (by decide) (by decide)

end ProcessRecord

end Grapnel
