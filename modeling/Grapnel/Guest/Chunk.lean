import Grapnel.Guest.Compile
import Grapnel.Guest.Parser

namespace Grapnel.Guest

namespace Chunk

/-- The space for a name in messages, with one byte to end it. -/
def nameSpace : Nat := 60

/-- How messages show a chunk's name: after `=` as it is but cut, after `@` by its end if it is too
long, and else as the first line of a source text. -/
def shownName (name : Text) : Text :=
  match name.toList with
  | 61 :: rest => ⟨(rest.take (nameSpace - 1)).toArray⟩
  | 64 :: rest =>
    if rest.length < nameSpace then ⟨rest.toArray⟩
    else text "..." ++ ⟨(rest.drop (rest.length - (nameSpace - 4))).toArray⟩
  | bytes =>
    let space := nameSpace - 15
    let line := bytes.takeWhile (· ≠ 10)
    let shown : Text :=
      if line.length = bytes.length && bytes.length < space then name
      else ⟨(line.take space).toArray⟩ ++ text "..."
    text "[string \"" ++ shown ++ text "\"]"

def position (name : Text) (line : Nat) : Text :=
  shownName name ++ text (":" ++ toString line ++ ": ")

def refusal (name : Text) (e : SourceError) : Text :=
  let message := match e.near with
    | some near => e.message ++ text " near " ++ near
    | none => e.message
  if e.line = 0 then message else position name e.line ++ message

def binaryRefusal : Text := text "attempt to load a binary chunk (mode is 't')"

/-- Compiles a source text; what begins like compiled code is refused. -/
def compile (name source : Text) : Except Text Proto :=
  if source.toList.head? = some 27 then .error binaryRefusal
  else
    match parse source with
    | .ok body => .ok (Guest.compile name body)
    | .error e => .error (refusal name e)

end Chunk

end Grapnel.Guest
