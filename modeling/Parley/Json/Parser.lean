import Parley.Json.Basic
import Parley.Text.Utf8

/-!
# Reading JSON text

A value is read from bytes, blanks being space, tab, line feed and carriage return. Arrays and objects nest at most 127 deep.
A failure has a cause and a place; the place is a line and the number of bytes of that line up to and with the byte that was
consumed or looked at when the failure was noticed. Inside the reader a place is the number of bytes left behind it.

A whole number that fits 64 bits, signed or unsigned, stays whole. Any other number is a float: at most the digits that fit an
unsigned 64-bit significand are taken, and the significand is scaled by one power of ten with one rounding, so the result may
differ in the last place from the number nearest to the text.
-/

namespace Parley.Json

/-- Why a text is not JSON. -/
inductive Cause where
  | eofValue | eofObject | eofList | eofString
  | expectedValue | expectedIdent | expectedColon | expectedCommaOrBrace | expectedCommaOrBracket
  | keyNotString | trailingComma | trailingCharacters
  | invalidNumber | numberOutOfRange
  | invalidEscape | loneSurrogate | unfinishedEscape | invalidCodePoint | controlCharacter
  | recursionLimit
  deriving DecidableEq, Repr

/-- The wording of a cause. -/
def Cause.message : Cause → String
  | .eofValue => "EOF while parsing a value"
  | .eofObject => "EOF while parsing an object"
  | .eofList => "EOF while parsing a list"
  | .eofString => "EOF while parsing a string"
  | .expectedValue => "expected value"
  | .expectedIdent => "expected ident"
  | .expectedColon => "expected `:`"
  | .expectedCommaOrBrace => "expected `,` or `\x7d`"
  | .expectedCommaOrBracket => "expected `,` or `]`"
  | .keyNotString => "key must be a string"
  | .trailingComma => "trailing comma"
  | .trailingCharacters => "trailing characters"
  | .invalidNumber => "invalid number"
  | .numberOutOfRange => "number out of range"
  | .invalidEscape => "invalid escape"
  | .loneSurrogate => "lone leading surrogate in hex escape"
  | .unfinishedEscape => "unexpected end of hex escape"
  | .invalidCodePoint => "invalid unicode code point"
  | .controlCharacter => "control character (\\u0000-\\u001F) found while parsing a string"
  | .recursionLimit => "recursion limit exceeded"

/-- A failure to read a text, with its place. -/
structure ParseError where
  cause : Cause
  line : Nat
  column : Nat
  deriving DecidableEq, Repr

/-- The wording of a failure. -/
def ParseError.message (e : ParseError) : String :=
  e.cause.message ++ " at line " ++ toString e.line ++ " column " ++ toString e.column

/-- A failure inside the reader: the cause, and how many bytes lie behind its place. -/
structure Stop where
  cause : Cause
  left : Nat
  deriving DecidableEq, Repr

/-- A failure at the byte that was read last. -/
def stopAt (cause : Cause) (rest : Bytes) : Stop := ⟨cause, rest.length⟩

/-- A failure at the byte that comes next, or at the end. -/
def stopBefore (cause : Cause) (rest : Bytes) : Stop := ⟨cause, rest.length - 1⟩

/-- A blank between tokens. -/
def isSpace (b : UInt8) : Bool := b == 0x20 || b == 0x09 || b == 0x0a || b == 0x0d

/-- The bytes from the next token on. -/
def skip (bytes : Bytes) : Bytes := bytes.dropWhile isSpace

/-- A digit. -/
def isDigit (b : UInt8) : Bool := 0x30 ≤ b && b ≤ 0x39

/-! ## Numbers -/

/-- The largest unsigned 64-bit number. -/
def maxSignificand : Nat := Nat.pow 2 64 - 1

/-- Takes digits into a significand while it fits: the significand, how many were taken, and the bytes behind them. -/
def takeDigits : Nat → Bytes → Nat × Nat × Bytes
  | s, [] => (s, 0, [])
  | s, b :: rest =>
    let s' := s * 10 + (b.toNat - 0x30)
    if isDigit b ∧ s' ≤ maxSignificand then
      let (r, n, after) := takeDigits s' rest
      (r, n + 1, after)
    else (s, 0, b :: rest)

/-- Starts with a digit. -/
def startsWithDigit : Bytes → Bool
  | b :: _ => isDigit b
  | [] => false

/-- A significand times a power of ten, as a float: the significand is rounded, then multiplied or divided by one rounded power
of ten; exponents below -308 are taken in steps of 308. None if the result is out of range. -/
def scaled : Nat → Binary64 → Int → Option Binary64
  | 0, f, _ => some f
  | fuel + 1, f, e =>
    if e.natAbs ≤ 308 then
      if 0 ≤ e then
        let r := f.mul (Binary64.pow10 e.toNat)
        if r.isFinite then some r else none
      else some (f.div (Binary64.pow10 e.natAbs))
    else if f.magnitude = 0 then some f
    else if 0 ≤ e then none
    else scaled fuel (f.div (Binary64.pow10 308)) (e + 308)

/-- A float from its sign, significand and power of ten; `rest` are the bytes behind it. -/
def floatOf (negative : Bool) (significand : Nat) (e : Int) (rest : Bytes) : Except Stop (JsonNumber × Bytes) :=
  match scaled (e.natAbs / 308 + 2) (Binary64.ofNat significand) e with
  | some x => .ok (.float (if negative then x.neg else x), rest)
  | none => .error (stopAt .numberOutOfRange rest)

/-- The digits of an exponent beyond the first: its value, or nothing when it leaves 31 bits; and the bytes behind the last
digit looked at. -/
def takeExponent : Nat → Bytes → Option Nat × Bytes
  | e, [] => (some e, [])
  | e, b :: rest =>
    if isDigit b then
      let e' := e * 10 + (b.toNat - 0x30)
      if e' ≤ Nat.pow 2 31 - 1 then takeExponent e' rest else (none, rest)
    else (some e, b :: rest)

/-- The rest of a number from behind the letter of its exponent. -/
def readExponent (negative : Bool) (significand : Nat) (start : Int) (bytes : Bytes) : Except Stop (JsonNumber × Bytes) :=
  let (down, bytes) := match bytes with
    | 0x2b :: rest => (false, rest)
    | 0x2d :: rest => (true, rest)
    | rest => (false, rest)
  match bytes with
  | [] => .error (stopAt .eofValue [])
  | b :: rest =>
    if isDigit b then
      match takeExponent (b.toNat - 0x30) rest with
      | (some e, after) => floatOf negative significand (if down then start - e else start + e) after
      | (none, after) =>
        if significand ≠ 0 ∧ down = false then .error (stopAt .numberOutOfRange after)
        else .ok (.float (Binary64.ofMagnitude negative 0), after.dropWhile isDigit)
    else .error (stopAt .invalidNumber rest)

/-- The rest of a number from behind its significand: an exponent or nothing. -/
def readTail (negative : Bool) (significand : Nat) (e : Int) (bytes : Bytes) : Except Stop (JsonNumber × Bytes) :=
  match bytes with
  | b :: rest => if b = 0x65 ∨ b = 0x45 then readExponent negative significand e rest else floatOf negative significand e bytes
  | [] => floatOf negative significand e []

/-- The rest of a number from behind its point. Digits that do not fit the significand are dropped. -/
def readFraction (negative : Bool) (significand : Nat) (start : Int) (bytes : Bytes) : Except Stop (JsonNumber × Bytes) :=
  let (s, n, rest) := takeDigits significand bytes
  if startsWithDigit rest then readTail negative s (start - n) (rest.dropWhile isDigit)
  else if n = 0 then .error (stopBefore (if rest.isEmpty then .eofValue else .invalidNumber) rest)
  else readTail negative s (start - n) rest

/-- A whole number, or a float where it fits neither 64-bit range; minus zero is a float. -/
def wholeNumber (negative : Bool) (n : Nat) : JsonNumber :=
  if negative then
    if n = 0 ∨ Nat.pow 2 63 < n then .float (Binary64.ofNat n).neg else .int (-(n : Int))
  else .int n

/-- The rest of a number from behind its first digits. -/
def readNumberTail (negative : Bool) (significand : Nat) (bytes : Bytes) : Except Stop (JsonNumber × Bytes) :=
  match bytes with
  | 0x2e :: rest => readFraction negative significand 0 rest
  | b :: rest =>
    if b = 0x65 ∨ b = 0x45 then readExponent negative significand 0 rest
    else .ok (wholeNumber negative significand, bytes)
  | [] => .ok (wholeNumber negative significand, [])

/-- The rest of a number with more digits than its significand holds: the digits left over count as powers of ten. -/
def readLong (negative : Bool) (significand : Nat) (bytes : Bytes) : Except Stop (JsonNumber × Bytes) :=
  let e : Int := (bytes.takeWhile isDigit).length
  match bytes.dropWhile isDigit with
  | 0x2e :: rest => readFraction negative significand e rest
  | rest => readTail negative significand e rest

/-- A number from behind its sign. -/
def readNumber (negative : Bool) (bytes : Bytes) : Except Stop (JsonNumber × Bytes) :=
  match bytes with
  | [] => .error (stopAt .eofValue [])
  | 0x30 :: rest =>
    if startsWithDigit rest then .error (stopBefore .invalidNumber rest) else readNumberTail negative 0 rest
  | b :: rest =>
    if isDigit b then
      let (s, _, after) := takeDigits (b.toNat - 0x30) rest
      if startsWithDigit after then readLong negative s after else readNumberTail negative s after
    else .error (stopAt .invalidNumber rest)

/-! ## Strings -/

/-- The value of a hexadecimal digit. -/
def hexDigit? (b : UInt8) : Option Nat :=
  if 0x30 ≤ b ∧ b ≤ 0x39 then some (b.toNat - 0x30)
  else if 0x61 ≤ b ∧ b ≤ 0x66 then some (b.toNat - 0x57)
  else if 0x41 ≤ b ∧ b ≤ 0x46 then some (b.toNat - 0x37)
  else none

/-- Four hexadecimal digits. -/
def readHex (bytes : Bytes) : Except Stop (Nat × Bytes) :=
  match bytes with
  | a :: b :: c :: d :: rest =>
    match hexDigit? a, hexDigit? b, hexDigit? c, hexDigit? d with
    | some a, some b, some c, some d => .ok (a * 4096 + b * 256 + c * 16 + d, rest)
    | _, _, _, _ => .error (stopAt .invalidEscape rest)
  | _ => .error (stopAt .eofString [])

/-- The bytes of a code point that is no surrogate. -/
def codePoint (n : Nat) : Bytes := Utf8.ofChar (Char.ofNat n)

/-- The second half of a surrogate pair, from behind the first. -/
def readLowSurrogate (high : Nat) (bytes : Bytes) : Except Stop (Bytes × Bytes) :=
  match bytes with
  | [] => .error (stopAt .eofString [])
  | 0x5c :: [] => .error (stopAt .eofString [])
  | 0x5c :: 0x75 :: rest => do
    let (low, rest) ← readHex rest
    if 0xdc00 ≤ low ∧ low ≤ 0xdfff then
      .ok (codePoint ((high - 0xd800) * 1024 + (low - 0xdc00) + 0x10000), rest)
    else .error (stopAt .loneSurrogate rest)
  | 0x5c :: _ :: rest => .error (stopAt .unfinishedEscape rest)
  | _ :: rest => .error (stopAt .unfinishedEscape rest)

/-- A code point by its digits, from behind the letter of the escape. -/
def readUnicode (bytes : Bytes) : Except Stop (Bytes × Bytes) := do
  let (n, rest) ← readHex bytes
  if 0xdc00 ≤ n ∧ n ≤ 0xdfff then .error (stopAt .loneSurrogate rest)
  else if 0xd800 ≤ n ∧ n ≤ 0xdbff then readLowSurrogate n rest
  else .ok (codePoint n, rest)

/-- What an escape stands for, from behind the backslash. -/
def readEscape (bytes : Bytes) : Except Stop (Bytes × Bytes) :=
  match bytes with
  | [] => .error (stopAt .eofString [])
  | b :: rest =>
    if b = 0x22 ∨ b = 0x5c ∨ b = 0x2f then .ok ([b], rest)
    else if b = 0x62 then .ok ([0x08], rest)
    else if b = 0x66 then .ok ([0x0c], rest)
    else if b = 0x6e then .ok ([0x0a], rest)
    else if b = 0x72 then .ok ([0x0d], rest)
    else if b = 0x74 then .ok ([0x09], rest)
    else if b = 0x75 then readUnicode rest
    else .error (stopAt .invalidEscape rest)

/-- The bytes of a string up to its closing quote; each round takes a byte at least, so `fuel` is a bound on the bytes. -/
def readText : Nat → Bytes → Except Stop (Bytes × Bytes)
  | 0, _ => .error ⟨.eofString, 0⟩
  | _ + 1, [] => .error (stopAt .eofString [])
  | fuel + 1, b :: rest =>
    if b = 0x22 then .ok ([], rest)
    else if b = 0x5c then do
      let (part, rest) ← readEscape rest
      let (text, rest) ← readText fuel rest
      .ok (part ++ text, rest)
    else if b < 0x20 then .error (stopAt .controlCharacter rest)
    else do
      let (text, rest) ← readText fuel rest
      .ok (b :: text, rest)

/-- A string from behind its opening quote. One that is not valid UTF-8 fails at the first byte that is no part of a character. -/
def readString (bytes : Bytes) : Except Stop (String × Bytes) := do
  let (text, rest) ← readText (bytes.length + 1) bytes
  match Utf8.decode? text with
  | some s => .ok (s, rest)
  | none => .error (stopBefore .invalidCodePoint (bytes.drop (Utf8.validLength bytes.length bytes)))

/-! ## Values -/

/-- The rest of a word, letter by letter. -/
def readWord : Bytes → Bytes → Except Stop (Unit × Bytes)
  | [], rest => .ok ((), rest)
  | _ :: _, [] => .error (stopAt .eofValue [])
  | e :: word, b :: rest => if b = e then readWord word rest else .error (stopAt .expectedIdent rest)

/-- The items of an array from behind its bracket, or behind the item before; `seen` are the items so far, the last first. -/
def readItems (item : Bytes → Except Stop (Json × Bytes)) : Nat → List Json → Bytes → Except Stop (List Json × Bytes)
  | 0, _, _ => .error ⟨.eofList, 0⟩
  | fuel + 1, seen, bytes =>
    match skip bytes with
    | [] => .error (stopBefore .eofList [])
    | 0x5d :: rest => .ok (seen.reverse, rest)
    | b :: rest =>
      if seen.isEmpty then do
        let (v, rest) ← item (b :: rest)
        readItems item fuel [v] rest
      else if b = 0x2c then
        match skip rest with
        | [] => .error (stopBefore .eofValue [])
        | 0x5d :: rest => .error (stopBefore .trailingComma (0x5d :: rest))
        | c :: rest => do
          let (v, rest) ← item (c :: rest)
          readItems item fuel (v :: seen) rest
      else .error (stopBefore .expectedCommaOrBracket (b :: rest))

/-- A field from behind the opening quote of its name. -/
def readField (item : Bytes → Except Stop (Json × Bytes)) (bytes : Bytes) : Except Stop ((String × Json) × Bytes) := do
  let (name, rest) ← readString bytes
  match skip rest with
  | [] => .error (stopBefore .eofObject [])
  | b :: rest =>
    if b = 0x3a then do
      let (v, rest) ← item rest
      .ok ((name, v), rest)
    else .error (stopBefore .expectedColon (b :: rest))

/-- The fields of an object from behind its brace, or behind the field before; `first` before the first one. -/
def readFields (item : Bytes → Except Stop (Json × Bytes)) :
    Nat → Bool → List (String × Json) → Bytes → Except Stop (List (String × Json) × Bytes)
  | 0, _, _, _ => .error ⟨.eofObject, 0⟩
  | fuel + 1, first, seen, bytes =>
    match skip bytes with
    | [] => .error (stopBefore .eofObject [])
    | 0x7d :: rest => .ok (seen, rest)
    | b :: rest =>
      if first then
        if b = 0x22 then do
          let (f, rest) ← readField item rest
          readFields item fuel false (insertField f.1 f.2 seen) rest
        else .error (stopBefore .keyNotString (b :: rest))
      else if b = 0x2c then
        match skip rest with
        | [] => .error (stopBefore .eofValue [])
        | c :: rest =>
          if c = 0x22 then do
            let (f, rest) ← readField item rest
            readFields item fuel false (insertField f.1 f.2 seen) rest
          else if c = 0x7d then .error (stopBefore .trailingComma (c :: rest))
          else .error (stopBefore .keyNotString (c :: rest))
      else .error (stopBefore .expectedCommaOrBrace (b :: rest))

/-- A value; `depth` is one more than the arrays and objects that may still open. -/
def readValue : Nat → Bytes → Except Stop (Json × Bytes)
  | 0, _ => .error ⟨.recursionLimit, 0⟩
  | depth + 1, bytes =>
    match skip bytes with
    | [] => .error (stopBefore .eofValue [])
    | b :: rest =>
      if b = 0x6e then do
        let (_, rest) ← readWord (ascii "ull") rest
        .ok (.null, rest)
      else if b = 0x74 then do
        let (_, rest) ← readWord (ascii "rue") rest
        .ok (.bool true, rest)
      else if b = 0x66 then do
        let (_, rest) ← readWord (ascii "alse") rest
        .ok (.bool false, rest)
      else if b = 0x2d then do
        let (n, rest) ← readNumber true rest
        .ok (.num n, rest)
      else if isDigit b then do
        let (n, rest) ← readNumber false (b :: rest)
        .ok (.num n, rest)
      else if b = 0x22 then do
        let (s, rest) ← readString rest
        .ok (.str s, rest)
      else if b = 0x5b then
        if depth = 0 then .error (stopBefore .recursionLimit (b :: rest))
        else do
          let (items, rest) ← readItems (readValue depth) (rest.length + 1) [] rest
          .ok (.arr items, rest)
      else if b = 0x7b then
        if depth = 0 then .error (stopBefore .recursionLimit (b :: rest))
        else do
          let (fields, rest) ← readFields (readValue depth) (rest.length + 1) true [] rest
          .ok (.obj fields, rest)
      else .error (stopBefore .expectedValue (b :: rest))

/-- How deep arrays and objects may nest, and one more. -/
def depthLimit : Nat := 128

/-- The line and column of the place with so many bytes behind it. -/
def place (bytes : Bytes) (left : Nat) : Nat × Nat :=
  let before := bytes.take (bytes.length - left)
  (1 + before.count 0x0a, (before.reverse.takeWhile (· != 0x0a)).length)

/-- Reads a text that holds one value and nothing else but blanks. -/
def parse (bytes : Bytes) : Except ParseError Json :=
  let read : Except Stop Json := do
    let (v, rest) ← readValue depthLimit bytes
    match skip rest with
    | [] => .ok v
    | b :: rest => .error (stopBefore .trailingCharacters (b :: rest))
  read.mapError fun s =>
    let (line, column) := place bytes s.left
    ⟨s.cause, line, column⟩

/-- Reads a text. -/
def ofText (s : String) : Except ParseError Json := parse (Utf8.encode s)

end Parley.Json
