import Parley.Text.Utf8

/-!
# URI references

Documents and folders are named by URI references, absolute or relative, kept as they were written: two that differ in a letter
name two things. `Uri.parse` accepts the grammar of URI references and says at which byte a text leaves it.
-/

namespace Parley

/-- A URI reference, as written. -/
structure Uri where
  text : String
  deriving DecidableEq, Repr, Inhabited

/-- Where a text leaves the grammar of URI references, by bytes. -/
inductive UriFault where
  | unexpectedCharacter (index : Nat)
  | invalidOctet (index : Nat)
  | invalidIpLiteral (index : Nat)
  deriving DecidableEq, Repr

/-- The wording of a fault. -/
def UriFault.message : UriFault → String
  | .unexpectedCharacter i => "unexpected character at index " ++ toString i
  | .invalidOctet i => "invalid percent-encoded octet at index " ++ toString i
  | .invalidIpLiteral i => "invalid IP literal at index " ++ toString i

namespace Uri

/-- Where reading stands: the index of the next byte and the bytes from it on. -/
abbrev Cursor := Nat × Bytes

/-- A letter of the ASCII range. -/
def isAlpha (b : UInt8) : Bool := (0x41 ≤ b && b ≤ 0x5a) || (0x61 ≤ b && b ≤ 0x7a)

/-- A digit. -/
def isDigit (b : UInt8) : Bool := 0x30 ≤ b && b ≤ 0x39

/-- A hexadecimal digit. -/
def isHex (b : UInt8) : Bool := isDigit b || (0x41 ≤ b && b ≤ 0x46) || (0x61 ≤ b && b ≤ 0x66)

/-- One of the characters of a text of the ASCII range. -/
def oneOf (s : String) (b : UInt8) : Bool := (ascii s).contains b

/-- The characters of a scheme. -/
def isScheme (b : UInt8) : Bool := isAlpha b || isDigit b || oneOf "+-." b

/-- The characters of a registered name: the unreserved ones and the sub-delimiters. -/
def isName (b : UInt8) : Bool := isAlpha b || isDigit b || oneOf "-._~!$&'()*+,;=" b

/-- The characters of an authority other than its brackets and its `@`. -/
def isAuthority (b : UInt8) : Bool := isName b || b == 0x3a

/-- The characters of a first segment without a colon. -/
def isPlainSegment (b : UInt8) : Bool := isName b || b == 0x40

/-- The characters of a path. -/
def isPath (b : UInt8) : Bool := isName b || oneOf ":@/" b

/-- The characters of a query or a fragment. -/
def isQuery (b : UInt8) : Bool := isPath b || b == 0x3f

/-- Passes over allowed bytes. -/
def pass (allowed : UInt8 → Bool) : Cursor → Cursor
  | (i, bytes) => (i + (bytes.takeWhile allowed).length, bytes.dropWhile allowed)

/-- Passes over allowed bytes and percent-encoded octets. -/
def passEncoded (allowed : UInt8 → Bool) (i : Nat) : Bytes → Except UriFault Cursor
  | 0x25 :: a :: b :: rest =>
    if isHex a && isHex b then passEncoded allowed (i + 3) rest else .error (.invalidOctet i)
  | 0x25 :: _ => .error (.invalidOctet i)
  | b :: rest => if allowed b then passEncoded allowed (i + 1) rest else .ok (i, b :: rest)
  | [] => .ok (i, [])

/-- The parts between single colons. -/
def splitColons (bytes : Bytes) : List Bytes := bytes.splitOn 0x3a

/-- A group of an IPv6 address. -/
def isGroup (part : Bytes) : Bool := 1 ≤ part.length && part.length ≤ 4 && part.all isHex

/-- A decimal octet without leading zeros. -/
def isOctet (part : Bytes) : Bool :=
  1 ≤ part.length && part.length ≤ 3 && part.all isDigit && (part.length == 1 || part.head? != some 0x30) &&
    part.foldl (fun n b => n * 10 + (b.toNat - 0x30)) 0 ≤ 255

/-- An IPv4 address. -/
def isIpv4 (bytes : Bytes) : Bool :=
  let parts := bytes.splitOn 0x2e
  parts.length == 4 && parts.all isOctet

/-- How many groups a run of parts stands for, an IPv4 address at the end counting as two. -/
def groupCount (parts : List Bytes) (last : Bool) : Option Nat :=
  match parts.reverse with
  | [] => some 0
  | tail :: front =>
    if front.all isGroup then
      if isGroup tail then some parts.length
      else if last && isIpv4 tail then some (parts.length + 1)
      else none
    else none

/-- The two sides of the first pair of colons, if there is one. -/
def splitPair : Bytes → Option (Bytes × Bytes)
  | 0x3a :: 0x3a :: rest => some ([], rest)
  | b :: rest => (splitPair rest).map fun p => (b :: p.1, p.2)
  | [] => none

/-- The parts of one side of a pair of colons; an empty side has none. -/
def sideParts (side : Bytes) : List Bytes := if side.isEmpty then [] else splitColons side

/-- An IPv6 address: eight groups, or fewer around one pair of colons. -/
def isIpv6 (bytes : Bytes) : Bool :=
  match splitPair bytes with
  | none => groupCount (splitColons bytes) true == some 8
  | some (left, right) =>
    match groupCount (sideParts left) false, groupCount (sideParts right) true with
    | some a, some b => a + b ≤ 7
    | _, _ => false

/-- A literal of a later version: `v`, hexadecimal digits, a point and characters of an authority. -/
def isIpFuture (bytes : Bytes) : Bool :=
  match bytes with
  | v :: rest =>
    let version := rest.takeWhile isHex
    let address := (rest.dropWhile isHex).drop 1
    (v == 0x76 || v == 0x56) && !version.isEmpty && (rest.dropWhile isHex).head? == some 0x2e && !address.isEmpty &&
      address.all isAuthority
  | [] => false

/-- Passes over an IP literal in brackets, if one starts here. -/
def passIpLiteral : Cursor → Except UriFault (Option Cursor)
  | (i, 0x5b :: rest) =>
    let inner := rest.takeWhile (· != 0x5d)
    let after := rest.dropWhile (· != 0x5d)
    if !after.isEmpty && (isIpv6 inner || isIpFuture inner) then .ok (some (i + inner.length + 2, after.drop 1))
    else .error (.invalidIpLiteral i)
  | _ => .ok none

/-- Passes over a port, if one starts here. -/
def passPort : Cursor → Cursor
  | (i, 0x3a :: rest) => pass isDigit (i + 1, rest)
  | c => c

/-- Whether an authority without user information is a host or a host with a port; `start` is its index. -/
def checkHostPort (start : Nat) (authority : Bytes) : Except UriFault Unit :=
  match splitColons authority with
  | [_] => .ok ()
  | [host, port] =>
    let digits := port.reverse.takeWhile isDigit
    if digits.length = port.length then .ok ()
    else .error (.unexpectedCharacter (start + host.length + port.length - digits.length))
  | host :: _ => .error (.unexpectedCharacter (start + host.length))
  | [] => .ok ()

/-- Passes over an authority, from behind its slashes. -/
def passAuthority : Cursor → Except UriFault Cursor
  | (start, bytes) => do
    let (i, rest) ← passEncoded isAuthority start bytes
    match rest with
    | 0x40 :: rest =>
      match ← passIpLiteral (i + 1, rest) with
      | some c => .ok (passPort c)
      | none =>
        let (j, rest) ← passEncoded isName (i + 1) rest
        .ok (passPort (j, rest))
    | rest =>
      if i = start then
        match ← passIpLiteral (i, rest) with
        | some c => .ok (passPort c)
        | none => .ok (i, rest)
      else do
        checkHostPort start (bytes.take (i - start))
        .ok (i, rest)

/-- What follows the path: a query and a fragment, each optional, and then the end. -/
def checkTail (c : Cursor) : Except UriFault Unit := do
  let c ← match c with
    | (i, 0x3f :: rest) => passEncoded isQuery (i + 1) rest
    | c => .ok c
  let (i, rest) ← match c with
    | (i, 0x23 :: rest) => passEncoded isQuery (i + 1) rest
    | c => .ok c
  if rest.isEmpty then .ok () else .error (.unexpectedCharacter i)

/-- A path behind an authority is empty or starts with a slash. -/
def checkAfterAuthority : Cursor → Except UriFault Unit
  | (i, bytes) => do
    let (j, rest) ← passEncoded isPath i bytes
    if i < j ∧ bytes.head? ≠ some 0x2f then .error (.unexpectedCharacter i) else checkTail (j, rest)

/-- Whether bytes are a URI reference. -/
def check (bytes : Bytes) : Except UriFault Unit := do
  let (i, rest) := pass isScheme (0, bytes)
  match rest with
  | 0x3a :: rest =>
    if (bytes.head?.map isAlpha).getD false = false then .error (.unexpectedCharacter 0)
    else
      match rest with
      | 0x2f :: 0x2f :: rest => checkAfterAuthority (← passAuthority (i + 3, rest))
      | rest => checkTail (← passEncoded isPath (i + 1) rest)
  | 0x2f :: 0x2f :: after =>
    if i = 0 then checkAfterAuthority (← passAuthority (2, after))
    else checkTail (← passEncoded isPath i rest)
  | rest => do
    let (j, rest) ← passEncoded isPlainSegment i rest
    match rest with
    | 0x3a :: _ => .error (.unexpectedCharacter j)
    | rest => checkTail (← passEncoded isPath j rest)

/-- Reads a URI reference. -/
def parse (s : String) : Except UriFault Uri :=
  (check (Utf8.encode s)).map fun _ => ⟨s⟩

end Uri

end Parley
