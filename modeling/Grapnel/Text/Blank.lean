namespace Grapnel

namespace Text

def isBlank (c : Char) : Bool :=
  (9 ≤ c.toNat && c.toNat ≤ 13) || c.toNat == 0x20 || c.toNat == 0x85 || c.toNat == 0xA0
    || c.toNat == 0x1680 || (0x2000 ≤ c.toNat && c.toNat ≤ 0x200A) || c.toNat == 0x2028
    || c.toNat == 0x2029 || c.toNat == 0x202F || c.toNat == 0x205F || c.toNat == 0x3000

def trimStart (s : List Char) : List Char := s.dropWhile isBlank

def trimEnd (s : List Char) : List Char := (s.reverse.dropWhile isBlank).reverse

def trim (s : List Char) : List Char := trimEnd (trimStart s)

/-- Puts a character in front of the first word. -/
def extend (c : Char) : List (List Char) → List (List Char)
  | [] => [[c]]
  | w :: ws => (c :: w) :: ws

/-- The words of a text; `inWord` tells whether the text continues one. -/
def wordsFrom : (inWord : Bool) → List Char → List (List Char)
  | inWord, [] => if inWord then [[]] else []
  | inWord, c :: cs =>
    if isBlank c then if inWord then [] :: wordsFrom false cs else wordsFrom false cs
    else extend c (wordsFrom true cs)

/-- The longest runs without white space. -/
def words (s : List Char) : List (List Char) := wordsFrom false s

end Text

end Grapnel
