import Grapnel.Instances
import Grapnel.Text.Search
import Grapnel.Workspace.Fault

namespace Grapnel

/-- A primitive got an argument of the wrong type. -/
structure TypeMismatch where
  primitive : String
  position : Nat
  expected : String
  got : String
deriving DecidableEq, Inhabited

namespace TypeMismatch

def message (m : TypeMismatch) : String :=
  "bad argument #" ++ toString m.position ++ " to '" ++ m.primitive ++ "' (" ++ m.expected
    ++ " expected, got " ++ m.got ++ ")"

end TypeMismatch

inductive Failure where
  | rejected (message : String)
  | raised (message : String)
  | outOfMemory (message : String)
  | stackExhausted
  | notResumable
  | cancelled
  | mismatch (m : TypeMismatch)
  | workspace (fault : WorkspaceFault)
  | external (text : String)
  | conversion (source target : String) (reason : Option String)
  /-- An argument, by its position, could not be converted. -/
  | argument (position : Nat) (cause : Failure)
  /-- The object that a method was called on could not be converted. -/
  | receiver (method : String) (cause : Failure)
  /-- Passed through a native. -/
  | wrapped (traceback : String) (cause : Failure)
  | context (text : String) (cause : Failure)
deriving DecidableEq, Inhabited

namespace Failure

def cancelledText : String := "script execution was cancelled"

/-- The text of a failure; a wrapped one has the traceback after it. -/
def message : Failure → String
  | .rejected m => "syntax error: " ++ m
  | .raised m => "runtime error: " ++ m
  | .outOfMemory m => "memory error: " ++ m
  | .stackExhausted =>
    "out of Lua stack, too many arguments to a Lua function or too many return values from a callback"
  | .notResumable => "coroutine is non-resumable"
  | .cancelled => cancelledText
  | .mismatch m => m.message
  | .workspace fault => fault.message
  | .external text => text
  | .conversion source target reason =>
    "error converting Lua " ++ source ++ " to " ++ target ++
      match reason with
      | some reason => " (" ++ reason ++ ")"
      | none => ""
  | .argument position cause => "bad argument #" ++ toString position ++ ": " ++ cause.message
  | .receiver method cause =>
    "bad argument \x60self\x60 to \x60" ++ method ++ "\x60: " ++ cause.message
  | .wrapped traceback cause => cause.message ++ "\n" ++ traceback ++ "\n"
  | .context text cause => text ++ "\n" ++ cause.message

/-- A stop, also one that the guest raised again as text. -/
def isCancellation : Failure → Bool
  | .cancelled => true
  | .wrapped _ cause => cause.isCancellation
  | .context _ cause => cause.isCancellation
  | .raised m => Text.hasInfix cancelledText.toList m.toList
  | _ => false

def isTypeMismatch : Failure → Bool
  | .mismatch _ => true
  | .wrapped _ cause => cause.isTypeMismatch
  | .context _ cause => cause.isTypeMismatch
  | _ => false

/-- Where the traceback in a message begins. -/
def tracebackMark : String := "\nstack traceback:"

def withoutTraceback (message : String) : String :=
  String.ofList (Text.cutAt tracebackMark.toList message.toList)

/-- The message of a report: that of the innermost failure, without a traceback. -/
def rootMessage : Failure → String
  | .wrapped _ cause => cause.rootMessage
  | .context _ cause => cause.rootMessage
  | .rejected m => withoutTraceback m
  | .raised m => withoutTraceback m
  | f => withoutTraceback f.message

end Failure

inductive ScriptErrorKind where
  | compile
  | runtime
  | cancelled
  | type
deriving DecidableEq, Inhabited

namespace ScriptErrorKind

def name : ScriptErrorKind → String
  | .compile => "compile error"
  | .runtime => "runtime error"
  | .cancelled => "cancelled"
  | .type => "type error"

end ScriptErrorKind

/-- A failure of a script as it is reported. -/
structure ScriptError where
  kind : ScriptErrorKind
  message : String
  line : Option Nat
  source : String
  context : Option String
deriving DecidableEq, Inhabited

namespace ScriptError

/-- The first run of digits that fills the space between two colons or follows the last one, if it
fits into thirty-two bits. -/
def parseLine (message : String) : Option Nat :=
  match (Text.fields ':' message.toList).tail.find? fun part =>
      !part.isEmpty && part.all Char.isDigit with
  | some digits =>
    let n := Text.decimalValue digits
    if n < 2 ^ 32 then some n else none
  | none => none

/-- The report of a failure; `kind` holds unless it is a stop or a type mismatch. -/
def ofFailure (kind : ScriptErrorKind) (failure : Failure) (source : String) : ScriptError :=
  let kind :=
    if failure.isCancellation then .cancelled
    else if failure.isTypeMismatch then .type
    else kind
  let message := failure.rootMessage
  ⟨kind, message, parseLine message, source, none⟩

def withContext (e : ScriptError) (context : String) : ScriptError :=
  { e with context := some context }

def display (e : ScriptError) : String := e.source ++ ": " ++ e.kind.name ++ ": " ++ e.message

end ScriptError

end Grapnel
