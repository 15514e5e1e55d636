import Grapnel.Proofs.Number.Reading
import Grapnel.Proofs.Text.Lines
import Grapnel.Proofs.Text.Search
import Grapnel.Script.Failure

namespace Grapnel

namespace Failure

/-- What a failure may pass through on its way. -/
inductive Wrapper where
  | callback (traceback : String)
  | context (text : String)

def Wrapper.around : Wrapper → Failure → Failure
  | .callback traceback, f => .wrapped traceback f
  | .context text, f => .context text f

/-- A failure in wrappers, the outermost one first. -/
def within (f : Failure) (ws : List Wrapper) : Failure := ws.foldr Wrapper.around f

variable {f : Failure} {w : Wrapper}

theorem isCancellation_around : (w.around f).isCancellation = f.isCancellation := by
  cases w <;> rfl

theorem isTypeMismatch_around : (w.around f).isTypeMismatch = f.isTypeMismatch := by
  cases w <;> rfl

theorem rootMessage_around : (w.around f).rootMessage = f.rootMessage := by
  cases w <;> rfl

theorem rootMessage_raised (m : String) : (raised m).rootMessage = withoutTraceback m := rfl

theorem rootMessage_rejected (m : String) : (rejected m).rootMessage = withoutTraceback m := rfl

theorem rootMessage_eq (f : Failure) : ∃ m, f.rootMessage = withoutTraceback m := by
  induction f with
  | wrapped _ _ ih => exact ih
  | context _ _ ih => exact ih
  | rejected m => exact ⟨m, rfl⟩
  | raised m => exact ⟨m, rfl⟩
  | _ => exact ⟨_, rfl⟩

theorem not_infix_withoutTraceback (m : String) :
    ¬ tracebackMark.toList <:+: (withoutTraceback m).toList := by
  rw [withoutTraceback, String.toList_ofList]
  exact Text.not_infix_cutAt (by decide) _

end Failure

namespace ScriptError

open Failure

variable {kind : ScriptErrorKind} {source name text : String} {f : Failure} {n : Nat}

theorem ofFailure_around (w : Wrapper) (kind : ScriptErrorKind) (f : Failure) (source : String) :
    ofFailure kind (w.around f) source = ofFailure kind f source := by
  rw [ofFailure, isCancellation_around, isTypeMismatch_around, rootMessage_around, ofFailure]

theorem ofFailure_within (ws : List Wrapper) (kind : ScriptErrorKind) (f : Failure)
    (source : String) : ofFailure kind (f.within ws) source = ofFailure kind f source := by
  induction ws with
  | nil => rfl
  | cons w ws ih => exact (ofFailure_around w kind _ source).trans ih

theorem line_ofFailure (kind : ScriptErrorKind) (f : Failure) (source : String) :
    (ofFailure kind f source).line = parseLine f.rootMessage := rfl

/-- What the guest says of a failure in a line of a script. -/
def located (name : String) (n : Nat) (text : String) : String :=
  "[tether:input] " ++ name ++ ":" ++ toString n ++ ": " ++ text

/-- The front of what a traceback begins with, which a name may hold. -/
def tracebackFront : List Char := "\nstack traceback".toList

theorem tracebackMark_eq : tracebackMark.toList = tracebackFront ++ [':'] := by decide

theorem toList_join (a b c d e g : String) : (a ++ b ++ c ++ d ++ e ++ g).toList =
    a.toList ++ b.toList ++ c.toList ++ d.toList ++ e.toList ++ g.toList := by
  simp only [String.toList_append]

theorem located_toList (name : String) (n : Nat) (text : String) :
    (located name n text).toList =
      "[tether".toList ++ ':' :: ("input] ".toList ++ name.toList ++ ':' ::
        ((toString n).toList ++ ':' :: (' ' :: text.toList))) := by
  have htag : "[tether:input] ".toList = "[tether".toList ++ ':' :: "input] ".toList := by
    decide
  have hcolon : ":".toList = [':'] := rfl
  have hblank : ": ".toList = [':', ' '] := rfl
  refine (toList_join ..).trans ?_
  rw [htag, hcolon, hblank]
  simp only [List.append_assoc, List.cons_append, List.nil_append]

/-- The message of a failure in a script that is named well ends after the line at the earliest. -/
theorem cutAt_located (hname : ':' ∉ name.toList) :
    Text.cutAt tracebackMark.toList (located name n text).toList =
      "[tether".toList ++ ':' ::
        if tracebackFront <:+ name.toList then
          ("input] ".toList ++ name.toList).take
            (("input] ".toList ++ name.toList).length - tracebackFront.length)
        else "input] ".toList ++ name.toList ++ ':' :: ((toString n).toList ++ ':' ::
          Text.cutAt tracebackMark.toList (' ' :: text.toList)) := by
  have hne : tracebackFront ≠ [] := by decide
  have hfront : ':' ∉ tracebackFront := by decide
  have htag : ¬ tracebackFront <:+ "[tether".toList := by decide
  have hinput : tracebackFront <:+ "input] ".toList ++ name.toList ↔ tracebackFront <:+ name.toList :=
    Text.suffix_append_iff (by decide)
  have hcolon : ':' ∉ "input] ".toList ++ name.toList := by
    rw [List.mem_append, not_or]
    exact ⟨by decide, hname⟩
  have hdigits : ':' ∉ (toString n).toList := fun h => by cases Text.isDigit_of_mem_toString h
  have hline : ¬ tracebackFront <:+ (toString n).toList := fun h => by
    cases Text.isDigit_of_mem_toString (h.subset (show '\n' ∈ tracebackFront by decide))
  rw [tracebackMark_eq, located_toList, Text.cutAt_ended hne hfront (by decide), if_neg htag,
    Text.cutAt_ended hne hfront hcolon]
  congr 2
  by_cases hend : tracebackFront <:+ name.toList
  · rw [if_pos (hinput.2 hend), if_pos hend]
  · rw [if_neg (mt hinput.1 hend), if_neg hend, Text.cutAt_ended hne hfront hdigits, if_neg hline]

theorem not_digits_input (s : List Char) :
    (!("input] ".toList ++ s).isEmpty && ("input] ".toList ++ s).all Char.isDigit) = false := by
  rw [List.all_append, show "input] ".toList.all Char.isDigit = false by decide,
    Bool.false_and, Bool.and_false]

theorem parseLine_located (hname : ':' ∉ name.toList) (hn : n < 2 ^ 32) (text : String) :
    parseLine (withoutTraceback (located name n text)) =
      if tracebackFront <:+ name.toList then none else some n := by
  have htag : ':' ∉ "[tether".toList := by decide
  have hinput : ':' ∉ "input] ".toList := by decide
  have hlength : tracebackFront.length = 16 := by decide
  rw [parseLine, withoutTraceback, String.toList_ofList, cutAt_located hname,
    Text.fields_append htag, List.tail_cons]
  by_cases hend : tracebackFront <:+ name.toList
  · rw [if_pos hend, if_pos hend]
    -- the name is cut where the traceback seems to begin, and no line is left
    obtain ⟨front, hfront⟩ := hend
    have hcut : ("input] ".toList ++ name.toList).take
        (("input] ".toList ++ name.toList).length - tracebackFront.length) =
          "input] ".toList ++ front := by
      rw [← hfront, ← List.append_assoc, List.length_append, Nat.add_sub_cancel, List.take_left]
    have hcolon : ':' ∉ "input] ".toList ++ front := by
      rw [List.mem_append, not_or]
      exact ⟨hinput, fun h => hname (hfront ▸ List.mem_append_left _ h)⟩
    rw [hcut, Text.fields_of_not_mem hcolon, List.find?_cons, not_digits_input, List.find?_nil]
  · rw [if_neg hend, if_neg hend]
    have hcolon : ':' ∉ "input] ".toList ++ name.toList := by
      rw [List.mem_append, not_or]
      exact ⟨hinput, hname⟩
    have hdigits : ':' ∉ (toString n).toList := fun h => by cases Text.isDigit_of_mem_toString h
    have hline : (!(toString n).toList.isEmpty && (toString n).toList.all Char.isDigit) = true := by
      rw [Text.all_isDigit_toString, List.isEmpty_eq_false_iff.2 (Text.toString_ne_nil n)]
      rfl
    rw [Text.fields_append hcolon, Text.fields_append hdigits, List.find?_cons, not_digits_input,
      List.find?_cons, hline]
    simp only [Text.decimalValue_toString, if_pos hn]

/-- A report does not depend on wrappers, has no traceback in its message, and tells the line of a
failure in a script whose name has no colon, just when this name does not end as a traceback begins. -/
theorem ofFailure_exact (kind : ScriptErrorKind) (source : String) :
    (∀ (f : Failure) (ws : List Wrapper), ofFailure kind (f.within ws) source =
      ofFailure kind f source) ∧
    (∀ f : Failure, ¬ tracebackMark.toList <:+: (ofFailure kind f source).message.toList) ∧
    ∀ (name : String) (n : Nat) (text : String) (f : Failure), ':' ∉ name.toList → n < 2 ^ 32 →
      f = .raised (located name n text) ∨ f = .rejected (located name n text) →
      (ofFailure kind f source).line =
        if tracebackFront <:+ name.toList then none else some n := by
  refine ⟨fun f ws => ofFailure_within ws kind f source, fun f => ?_, ?_⟩
  · obtain ⟨m, hm⟩ := f.rootMessage_eq
    change ¬ _ <:+: f.rootMessage.toList
    rw [hm]
    exact not_infix_withoutTraceback m
  · intro name n text f hname hn hf
    have hroot : f.rootMessage = withoutTraceback (located name n text) := by
      rcases hf with hf | hf
      · rw [hf, rootMessage_raised]
      · rw [hf, rootMessage_rejected]
    rw [line_ofFailure, hroot]
    exact parseLine_located hname hn text

theorem ofFailure_exact_wrapped :
    let m := located "main" 7 "in [tether:input] main:9: boom\nstack traceback:\n\t[C]: in ?"
    (ofFailure .runtime ((raised m).within [.callback "stack traceback:", .context "task"]) "s").line =
      some 7 := by
  intro m
  obtain ⟨hwithin, _, hline⟩ := ofFailure_exact .runtime "s"
  have h := hline "main" 7 _ (.raised m) (by decide) (by decide) (.inl rfl)
  rw [hwithin, h]
  decide

/-- The line is lost if the name of the script ends as a traceback begins. -/
theorem line_of_feigned_traceback :
    ¬ ∀ (kind : ScriptErrorKind) (source name text : String) (n : Nat), ':' ∉ name.toList →
      n < 2 ^ 32 → (ofFailure kind (.raised (located name n text)) source).line = some n := by
  intro h
  have hline := h .runtime "main" "\nstack traceback" "boom" 3 (by decide) (by decide)
  have hnone : (ofFailure .runtime (.raised (located "\nstack traceback" 3 "boom")) "main").line =
      none := by decide
  cases hline.symm.trans hnone

end ScriptError

end Grapnel
