/-!
# Texts as bytes

Everything on the wire is a list of bytes. A text is written in UTF-8, and bytes are read as a text only where they are valid
UTF-8. `decode?_encode` says that what was written is read back, and `encode_of_decode?` that nothing else is.
-/

namespace Parley

/-- Bytes as they travel. -/
abbrev Bytes := List UInt8

namespace Utf8

/-- The UTF-8 bytes of a text. -/
def encode (s : String) : Bytes :=
  s.toByteArray.data.toList

/-- The text whose UTF-8 bytes these are, if they are valid. -/
def decode? (b : Bytes) : Option String :=
  String.fromUTF8? ⟨b.toArray⟩

/-- What was encoded is decoded as it was. -/
theorem decode?_encode (s : String) : decode? (encode s) = some s := by
  have h : (⟨(encode s).toArray⟩ : ByteArray) = s.toByteArray := by simp [encode]
  unfold decode?
  rw [h, String.fromUTF8?, dif_pos s.isValidUTF8]
  rfl

/-- What was decoded is encoded as it was. -/
theorem encode_of_decode? {b : Bytes} {s : String} (h : decode? b = some s) : encode s = b := by
  unfold decode? String.fromUTF8? at h
  split at h
  · cases h
    simp [encode, String.fromUTF8]
  · cases h

/-- The bytes of one character. -/
def ofChar (c : Char) : Bytes :=
  encode c.toString

/-- The length of the first character, if the bytes begin with one. -/
def firstLength? (b : Bytes) : Option Nat :=
  [1, 2, 3, 4].find? fun n => n ≤ b.length && (decode? (b.take n)).isSome

/-- How many bytes stand before the first that is not part of a character. -/
def validLength : Nat → Bytes → Nat
  | 0, _ => 0
  | fuel + 1, b =>
    match firstLength? b with
    | some n => n + validLength fuel (b.drop n)
    | none => 0

end Utf8

/-- The parts between single separators: always one more than there are separators. -/
def Bytes.splitOn (separator : UInt8) : Bytes → List Bytes
  | [] => [[]]
  | b :: rest =>
    if b = separator then [] :: Bytes.splitOn separator rest
    else
      match Bytes.splitOn separator rest with
      | part :: parts => (b :: part) :: parts
      | [] => [[b]]

/-- A text from characters of the ASCII range, one byte each. -/
def ascii (s : String) : Bytes :=
  Utf8.encode s

/-- The bytes between single positions, in lower-case hexadecimal. -/
def Bytes.toHex (b : Bytes) : String :=
  String.ofList (b.flatMap fun x => [Nat.digitChar (x.toNat / 16), Nat.digitChar (x.toNat % 16)])

/-- The number of a hexadecimal digit. -/
def hexValue (c : Char) : Nat := if c.isDigit then c.toNat - '0'.toNat else c.toLower.toNat - 'a'.toNat + 10

/-- The bytes that pairs of hexadecimal digits stand for. -/
def Bytes.ofHex : List Char → Bytes
  | a :: b :: rest => UInt8.ofNat (16 * hexValue a + hexValue b) :: ofHex rest
  | _ => []

end Parley
