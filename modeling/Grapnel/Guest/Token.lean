import Grapnel.Guest.Numeral

namespace Grapnel.Guest

/-- A guest text: any bytes. -/
abbrev Text := ByteArray

/-- The bytes of a text written in the program. -/
def text (s : String) : Text := s.toUTF8

inductive Token where
  | name (s : Text)
  | string (s : Text)
  | numeral (n : Numeral)
  | word (w : String)
  | mark (m : String)
  | stray (b : UInt8)
  | eof
deriving DecidableEq, Inhabited

/-- A token as it stands in the source; `line` is the line that the scanner has reached. -/
structure Lexeme where
  token : Token
  written : Text
  line : Nat
deriving Inhabited

/-- Why a source text is refused, the line, and what it stands near. -/
structure SourceError where
  line : Nat
  message : Text
  near : Option Text
deriving Inhabited

def quoted (s : Text) : Text := text "'" ++ s ++ text "'"

namespace Token

def reservedWords : List String :=
  ["and", "break", "do", "else", "elseif", "end", "false", "for", "function", "goto", "if", "in",
    "local", "nil", "not", "or", "repeat", "return", "then", "true", "until", "while"]

/-- The token's name in a message that expects it. -/
def described : Token → Text
  | .name _ => text "<name>"
  | .string _ => text "<string>"
  | .numeral (.integer _) => text "<integer>"
  | .numeral (.float _) => text "<number>"
  | .word w => text ("'" ++ w ++ "'")
  | .mark m => text ("'" ++ m ++ "'")
  | .stray b =>
    if 32 ≤ b && b < 127 then quoted ⟨#[b]⟩ else text ("'<\\" ++ toString b.toNat ++ ">'")
  | .eof => text "<eof>"

end Token

def untilNul (s : Text) : Text := ⟨(s.toList.takeWhile (· ≠ 0)).toArray⟩

namespace Lexeme

/-- The token as a message shows it: names, strings and numerals as they were written. -/
def shown (x : Lexeme) : Text :=
  match x.token with
  | .name _ | .string _ | .numeral _ => quoted (untilNul x.written)
  | token => token.described

end Lexeme

/-- UTF-8 in its oldest, widest form: up to six bytes for values below `2 ^ 31`. -/
def wideUtf8 (value : Nat) : List UInt8 :=
  let rec tail (fuel value : Nat) (bound : Nat) (acc : List UInt8) : List UInt8 :=
    match fuel with
    | 0 => acc
    | fuel + 1 =>
      if value ≤ bound then (UInt8.ofNat ((255 - (2 * bound + 1)) + value)) :: acc
      else tail fuel (value / 64) (bound / 2) (UInt8.ofNat (128 + value % 64) :: acc)
  if value < 128 then [UInt8.ofNat value]
  else tail 6 (value / 64) 31 [UInt8.ofNat (128 + value % 64)]

namespace Scanner

def isNewline (b : UInt8) : Bool := b == 10 || b == 13

/-- Drops a line break, counting a pair of different break bytes as one. -/
def dropNewline : List UInt8 → List UInt8
  | a :: b :: rest => if isNewline b && a != b then rest else b :: rest
  | _ :: rest => rest
  | [] => []

/-- After an opening bracket: the count of equals signs, and what follows them. -/
def level (s : List UInt8) : Nat × List UInt8 :=
  (s.takeWhile (· == 61) |>.length, s.dropWhile (· == 61))

/-- Whether a closing long bracket of the given level stands at the front. -/
def closes (depth : Nat) (s : List UInt8) : Option (List UInt8) :=
  match s with
  | 93 :: rest =>
    let (found, after) := level rest
    match after with
    | 93 :: after => if found = depth then some after else none
    | _ => none
  | _ => none

/-- The body of a long bracket up to its closing one: content, line reached and the rest. Without a
closing one, the line at the end of the source. -/
def longBody (depth : Nat) :
    (fuel : Nat) → List UInt8 → Nat → Text → Except Nat (Text × Nat × List UInt8)
  | 0, _, line, _ => .error line
  | fuel + 1, s, line, content =>
    match closes depth s with
    | some rest => .ok (content, line, rest)
    | none =>
      match s with
      | [] => .error line
      | b :: rest =>
        if isNewline b then longBody depth fuel (dropNewline s) (line + 1) (content.push 10)
        else longBody depth fuel rest line (content.push b)

/-- A long bracket from after its first bracket on; a line break right after it is skipped. -/
def long (depth : Nat) (s : List UInt8) (line : Nat) : Except Nat (Text × Nat × List UInt8) :=
  match s with
  | b :: _ =>
    if isNewline b then longBody depth (s.length + 1) (dropNewline s) (line + 1) .empty
    else longBody depth (s.length + 1) s line .empty
  | [] => .error line

def unfinishedLong (what : String) (start line : Nat) : SourceError :=
  ⟨line, text ("unfinished long " ++ what ++ " (starting at line " ++ toString start ++ ")"),
    some (text "<eof>")⟩

/-- An escape that cannot be read; the message shows what was read and one byte more. -/
def badEscape (message : String) (line : Nat) (read : Text) (next : List UInt8) : SourceError :=
  let shown := match next with
    | b :: _ => read.push b
    | [] => read
  ⟨line, text message, some (quoted (untilNul shown))⟩

/-- A value in hexadecimal digits, `read` being what the message would show. -/
def hexDigits (line : Nat) :
    List UInt8 → Nat → Text → Except SourceError (Nat × Text × List UInt8)
  | [], value, read => .ok (value, read, [])
  | b :: rest, value, read =>
    match hexValue? b with
    | some d =>
      if value ≤ 0x7FFFFFF then hexDigits line rest (value * 16 + d) (read.push b)
      else .error (badEscape "UTF-8 value too large" line read (b :: rest))
    | none => .ok (value, read, b :: rest)

/-- The escape after a backslash: the bytes it stands for, the line reached and the rest. -/
def escape (line : Nat) (read : Text) (s : List UInt8) :
    Except SourceError (List UInt8 × Nat × List UInt8) :=
  match s with
  | [] => .ok ([], line, [])
  | 97 :: rest => .ok ([7], line, rest)
  | 98 :: rest => .ok ([8], line, rest)
  | 102 :: rest => .ok ([12], line, rest)
  | 110 :: rest => .ok ([10], line, rest)
  | 114 :: rest => .ok ([13], line, rest)
  | 116 :: rest => .ok ([9], line, rest)
  | 118 :: rest => .ok ([11], line, rest)
  | 120 :: rest =>
    let message := "hexadecimal digit expected"
    match rest with
    | a :: rest' =>
      match hexValue? a with
      | none => .error (badEscape message line (read.push 120) rest)
      | some high =>
        match rest' with
        | b :: rest'' =>
          match hexValue? b with
          | none => .error (badEscape message line ((read.push 120).push a) rest')
          | some low => .ok ([UInt8.ofNat (high * 16 + low)], line, rest'')
        | [] => .error (badEscape message line ((read.push 120).push a) [])
    | [] => .error (badEscape message line (read.push 120) [])
  | 117 :: rest =>
    let read := read.push 117
    match rest with
    | 123 :: rest' =>
      let read := read.push 123
      match rest' with
      | a :: rest'' =>
        match hexValue? a with
        | none => .error (badEscape "hexadecimal digit expected" line read rest')
        | some d =>
          match hexDigits line rest'' d (read.push a) with
          | .error e => .error e
          | .ok (value, _, 125 :: after) => .ok (wideUtf8 value, line, after)
          | .ok (_, read, after) => .error (badEscape "missing '\x7d'" line read after)
      | [] => .error (badEscape "hexadecimal digit expected" line read [])
    | _ => .error (badEscape "missing '\x7b'" line read rest)
  | 122 :: rest =>
    let rec skip (fuel line : Nat) (s : List UInt8) : Nat × List UInt8 :=
      match fuel, s with
      | fuel + 1, b :: rest =>
        if isNewline b then skip fuel (line + 1) (dropNewline (b :: rest))
        else if isBlankByte b then skip fuel line rest
        else (line, b :: rest)
      | _, s => (line, s)
    let (line, rest) := skip rest.length line rest
    .ok ([], line, rest)
  | b :: rest =>
    if isNewline b then .ok ([10], line + 1, dropNewline s)
    else if b == 92 || b == 34 || b == 39 then .ok ([b], line, rest)
    else if isDigitByte b then
      let digits := (s.take 3).takeWhile isDigitByte
      let after := s.drop digits.length
      let value := digits.foldl (fun acc d => acc * 10 + (d.toNat - 48)) 0
      if value < 256 then .ok ([UInt8.ofNat value], line, after)
      else .error (badEscape "decimal escape too large" line (read ++ ⟨digits.toArray⟩) after)
    else .error (badEscape "invalid escape sequence" line read s)

/-- A quoted string after its opening mark. -/
def short (mark : UInt8) :
    (fuel : Nat) → List UInt8 → Nat → Text → Except SourceError (Text × Nat × List UInt8)
  | 0, _, line, _ => .error ⟨line, text "unfinished string", some (text "<eof>")⟩
  | fuel + 1, s, line, content =>
    match s with
    | [] => .error ⟨line, text "unfinished string", some (text "<eof>")⟩
    | b :: rest =>
      if b == mark then .ok (content, line, rest)
      else if isNewline b then
        .error ⟨line, text "unfinished string",
          some (quoted (untilNul ((⟨#[mark]⟩ : Text) ++ content)))⟩
      else if b == 92 then
        match escape line ((⟨#[mark]⟩ : Text) ++ content ++ ⟨#[92]⟩) rest with
        | .error e => .error e
        | .ok (bytes, line, rest) => short mark fuel rest line (content ++ ⟨bytes.toArray⟩)
      else short mark fuel rest line (content.push b)

/-- What a numeral takes from the source: digits, points, and exponent marks with a sign. -/
def numeralBytes (marks : List UInt8) : (fuel : Nat) → List UInt8 → List UInt8
  | fuel + 1, b :: rest =>
    if marks.contains b then
      match rest with
      | c :: rest' =>
        if c == 43 || c == 45 then b :: c :: numeralBytes marks fuel rest'
        else b :: numeralBytes marks fuel rest
      | [] => [b]
    else if isHexByte b || b == 46 then b :: numeralBytes marks fuel rest
    else []
  | _, _ => []

/-- A numeral at the front; a letter that touches it spoils it. -/
def numeral (line : Nat) (s : List UInt8) : Except SourceError (Lexeme × List UInt8) :=
  let (lead, marks) : List UInt8 × List UInt8 :=
    match s with
    | 48 :: x :: _ => if x == 120 || x == 88 then ([48, x], [112, 80]) else (s.take 1, [101, 69])
    | _ => (s.take 1, [101, 69])
  let body := lead ++ numeralBytes marks s.length (s.drop lead.length)
  let after := s.drop body.length
  let (body, after) :=
    match after with
    | b :: rest => if isNameStart b then (body ++ [b], rest) else (body, after)
    | [] => (body, after)
  match Numeral.read? body with
  | some n => .ok (⟨.numeral n, ⟨body.toArray⟩, line⟩, after)
  | none => .error ⟨line, text "malformed number", some (quoted ⟨body.toArray⟩)⟩

/-- Drops a comment after its two dashes: the line reached and the rest. -/
def comment (line : Nat) (s : List UInt8) : Except SourceError (Nat × List UInt8) :=
  let plain := s.dropWhile fun b => !isNewline b
  match s with
  | 91 :: rest =>
    let (depth, after) := level rest
    match after with
    | 91 :: body =>
      match long depth body line with
      | .ok (_, line, rest) => .ok (line, rest)
      | .error last => .error (unfinishedLong "comment" line last)
    | _ => .ok (line, plain)
  | _ => .ok (line, plain)

/-- Symbols of more than one byte, longest first. -/
def longMarks : List String :=
  ["...", "..", "==", "~=", "<=", ">=", "<<", ">>", "//", "::"]

def singleMarks : List Char :=
  ['+', '-', '*', '/', '%', '^', '#', '&', '~', '|', '<', '>', '=', '(', ')', '\x7b', '\x7d',
    '[', ']', ';', ':', ',', '.']

/-- The token at the front of a source without blanks before it. -/
def token (line : Nat) (s : List UInt8) : Except SourceError (Lexeme × List UInt8) :=
  match s with
  | [] => .ok (⟨.eof, .empty, line⟩, [])
  | b :: rest =>
    if isNameStart b then
      let body := s.takeWhile isNameByte
      let written : Text := ⟨body.toArray⟩
      let token := match Token.reservedWords.find? (fun w => text w == written) with
        | some w => Token.word w
        | none => Token.name written
      .ok (⟨token, written, line⟩, s.dropWhile isNameByte)
    else if isDigitByte b || (b == 46 && (rest.head?.any isDigitByte)) then numeral line s
    else if b == 34 || b == 39 then
      match short b (s.length + 1) rest line .empty with
      | .error e => .error e
      | .ok (content, line, rest) =>
        let mark : Text := ⟨#[b]⟩
        .ok (⟨.string content, mark ++ content ++ mark, line⟩, rest)
    else
      let fallback : Except SourceError (Lexeme × List UInt8) :=
        match longMarks.find? (fun m => (text m).toList.isPrefixOf s) with
        | some m => .ok (⟨.mark m, text m, line⟩, s.drop m.length)
        | none =>
          match singleMarks.find? (fun c => c.toNat == b.toNat) with
          | some c => .ok (⟨.mark (String.singleton c), ⟨#[b]⟩, line⟩, rest)
          | none => .ok (⟨.stray b, ⟨#[b]⟩, line⟩, rest)
      if b == 91 then
        let (depth, after) := level rest
        match after with
        | 91 :: body =>
          match long depth body line with
          | .ok (content, line, rest) =>
            let fence := List.replicate depth (61 : UInt8)
            let written : Text :=
              ⟨([91] ++ fence ++ [91]).toArray⟩ ++ content ++ ⟨([93] ++ fence ++ [93]).toArray⟩
            .ok (⟨.string content, written, line⟩, rest)
          | .error last => .error (unfinishedLong "string" line last)
        | _ =>
          if depth = 0 then fallback
          else
            .error ⟨line, text "invalid long string delimiter",
              some (quoted ⟨(91 :: List.replicate depth (61 : UInt8)).toArray⟩)⟩
      else fallback

/-- All tokens of a source; the last one is the end of the source or an error. -/
def tokens : (fuel : Nat) → Nat → List UInt8 → List (Except SourceError Lexeme)
  | 0, _, _ => []
  | fuel + 1, line, s =>
    match s with
    | 45 :: 45 :: rest =>
      match comment line rest with
      | .error e => [.error e]
      | .ok (line, rest) => tokens fuel line rest
    | b :: rest =>
      if isNewline b then tokens fuel (line + 1) (dropNewline s)
      else if isBlankByte b then tokens fuel line rest
      else
        match token line s with
        | .error e => [.error e]
        | .ok (x, rest) => .ok x :: tokens fuel x.line rest
    | [] => [.ok ⟨.eof, .empty, line⟩]

def scan (source : Text) : List (Except SourceError Lexeme) :=
  let bytes := source.toList
  tokens (bytes.length + 1) 1 bytes

end Scanner

end Grapnel.Guest
