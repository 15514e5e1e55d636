import Grapnel.Number.Hexadecimal
import Grapnel.Text.Blank
import Grapnel.Text.Search

namespace Grapnel

/-- The names of bits; several bits together may have a name too. -/
abbrev FlagNames := List (String × UInt8)

namespace FlagNames

/-- The bits that one name or number stands for. -/
def bitsOf? (names : FlagNames) (word : List Char) : Option UInt8 :=
  match word with
  | '0' :: 'x' :: digits => (Hexadecimal.read? 256 digits).map UInt8.ofNat
  | _ => names.lookup (String.ofList word)

/-- The bits that a text stands for; a blank text stands for none. -/
def read? (names : FlagNames) (s : String) : Option UInt8 :=
  if (Text.trim s.toList).isEmpty then some 0
  else
    ((Text.fields '|' s.toList).mapM fun word => names.bitsOf? (Text.trim word)).map
      fun bits => bits.foldl (· ||| ·) 0

/-- The names that cover bits, each only where it covers bits that no earlier one does, and the bits
that are left. -/
def cover (bits : UInt8) : FlagNames → (left : UInt8) → List String × UInt8
  | [], left => ([], left)
  | (name, flag) :: names, left =>
    if bits &&& flag == flag && left &&& flag != 0 then
      let (found, left) := cover bits names (left &&& ~~~flag)
      (name :: found, left)
    else cover bits names left

def text (names : FlagNames) (bits : UInt8) : String :=
  let (found, left) := names.cover bits bits
  " | ".intercalate (found ++ if left == 0 then [] else [Hexadecimal.tagged left.toNat])

end FlagNames

end Grapnel
