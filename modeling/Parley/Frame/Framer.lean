import Parley.Frame.ContentLength

/-!
# Frames on a byte stream

A frame is a header block and a body. `frame` writes one; `Framer.next` takes the next body from the bytes of a stream. The
header block is read line by line, a blank line ends it, and the first line that declares a length decides the length of the
body. A framer holds no bytes: what it keeps between calls is the length declared by a block not yet ended.

A line without a line feed within its first 8192 bytes, or a length above the limit, ends the connection (`FrameFault.isFatal`);
so does a length for which no buffer can be had (`maxBuffer`), which a limit may allow. After any other fault reading goes on
behind the line that was at fault.
-/

namespace Parley.Frame

/-- The longest header line, its line feed included. -/
def maxLine : Nat := 8192

/-- The limit on a body unless another is set. -/
def defaultLimit : Nat := 16 * 1024 * 1024

/-- The most bytes that a buffer can have. That memory may run out before is not part of the model. -/
def maxBuffer : Nat := Nat.pow 2 63 - 1

/-- A body with its header block. -/
def frame (body : Bytes) : Bytes :=
  ascii ("Content-Length: " ++ toString body.length ++
    "\r\nContent-Type: application/vscode-jsonrpc; charset=utf-8\r\n\r\n") ++ body

/-- What can go wrong on the way to the next body. -/
inductive FrameFault where
  /-- Reading the stream failed. -/
  | io (text : String)
  /-- A header block ended without a length. -/
  | missingLength
  /-- A line declares a length that is none. -/
  | invalidLength (digits : String)
  /-- A header line is too long. -/
  | headerTooLong (max : Nat)
  /-- A body is announced that exceeds the limit. -/
  | tooLarge (size max : Nat)
  /-- A message-oriented transport failed. -/
  | transport (text : String)
  /-- No buffer can be had for the body that is announced. This is no error that a call returns: the call breaks off, and whoever
  made it with it. -/
  | capacityOverflow
  deriving DecidableEq, Repr

/-- The name of a kind of fault. -/
def FrameFault.kind : FrameFault → String
  | .io _ => "Io"
  | .missingLength => "MissingContentLength"
  | .invalidLength _ => "InvalidContentLength"
  | .headerTooLong _ => "HeaderTooLong"
  | .tooLarge _ _ => "MessageTooLarge"
  | .transport _ => "Transport"
  | .capacityOverflow => "Panic"

/-- The wording of a fault. -/
def FrameFault.message : FrameFault → String
  | .io text => "Transport error: " ++ text
  | .missingLength => "Header block ended without a Content-Length header"
  | .invalidLength digits => "Invalid content length: " ++ digits
  | .headerTooLong max => "Header line exceeds " ++ toString max ++ " bytes"
  | .tooLarge size max => "Message too large: " ++ toString size ++ " bytes (max: " ++ toString max ++ ")"
  | .transport text => "Transport error: " ++ text
  | .capacityOverflow => "capacity overflow"

/-- A fault after which nothing more is read. -/
def FrameFault.isFatal : FrameFault → Bool
  | .io _ | .headerTooLong _ | .tooLarge _ _ | .transport _ | .capacityOverflow => true
  | .missingLength | .invalidLength _ => false

/-- What is no fault that a call returns. -/
def FrameFault.breaksOff (f : FrameFault) : Bool := f = .capacityOverflow

/-- The state of a framer between calls. -/
structure Framer where
  /-- The length declared in the header block being read. -/
  declared : Option Nat := none
  /-- The longest body accepted. -/
  limit : Nat := defaultLimit
  deriving DecidableEq, Repr

/-- What a call gives. -/
inductive Reading where
  | payload (body : Bytes)
  | ended
  | fault (f : FrameFault)
  deriving DecidableEq, Repr

/-- The call has broken off: it has given its caller nothing. -/
def Reading.breaksOff : Reading → Bool
  | .fault f => f.breaksOff
  | .payload _ | .ended => false

/-- Splits off a line: up to and with the first line feed, and at most `n` bytes. -/
def splitLine : Nat → Bytes → Bytes × Bytes
  | 0, rest => ([], rest)
  | _ + 1, [] => ([], [])
  | n + 1, b :: rest =>
    if b = 0x0a then ([b], rest)
    else
      let (line, after) := splitLine n rest
      (b :: line, after)

/-- A line and what stands behind it are all there is. -/
theorem splitLine_append (n : Nat) (bytes : Bytes) : (splitLine n bytes).1 ++ (splitLine n bytes).2 = bytes := by
  induction bytes generalizing n with
  | nil => cases n <;> simp [splitLine]
  | cons b rest ih =>
    cases n with
    | zero => simp [splitLine]
    | succ n =>
      by_cases h : b = 0x0a
      · simp [splitLine, h]
      · simp [splitLine, h, ih]

/-- What stands behind a line is shorter than all there is. -/
theorem length_splitLine_lt {bytes : Bytes} (h : bytes ≠ []) :
    (splitLine maxLine bytes).2.length < bytes.length := by
  have ha := congrArg List.length (splitLine_append maxLine bytes)
  have hp : 0 < (splitLine maxLine bytes).1.length := by
    cases bytes with
    | nil => exact absurd rfl h
    | cons b rest =>
      by_cases hb : b = 0x0a <;> simp [maxLine, splitLine, hb]
  simp only [List.length_append] at ha
  omega

/-- A line that ended by its line feed. -/
def endsLine (line : Bytes) : Bool := line.getLast? = some 0x0a

/-- What a header line leads to. -/
inductive LineStep where
  /-- The block goes on. -/
  | more (f : Framer)
  /-- The block ended; a body of this length follows. -/
  | body (length : Nat) (f : Framer)
  /-- The line is at fault. -/
  | fault (e : FrameFault) (f : Framer)
  deriving DecidableEq, Repr

/-- A line that does not declare a length: a blank one ends the block, and a buffer is made for the body. -/
def Framer.otherLine (f : Framer) (line : Bytes) : LineStep :=
  if line.all Text.isAsciiBlank then
    match f.declared with
    | some n =>
      if maxBuffer < n then .fault .capacityOverflow { f with declared := none } else .body n { f with declared := none }
    | none => .fault .missingLength f
  else .more f

/-- A header line. Once a length is declared, later declarations are lines like any other. -/
def Framer.line (f : Framer) (line : Bytes) : LineStep :=
  if line.length = maxLine ∧ endsLine line = false then .fault (.headerTooLong maxLine) f
  else if f.declared.isNone then
    match lengthLine line with
    | .declares n => if f.limit < n then .fault (.tooLarge n f.limit) f else .more { f with declared := some n }
    | .malformed digits => .fault (.invalidLength digits) f
    | .other => f.otherLine line
  else f.otherLine line

/-- The next body of a stream of which `bytes` have arrived and are not yet taken; `closed` says that no more will arrive. None
as long as more bytes are needed. A stream that ends inside a line ends that line; one that ends inside a body has ended. -/
def Framer.next (f : Framer) (closed : Bool) (bytes : Bytes) : Option (Reading × Framer × Bytes) :=
  if _h : bytes = [] then
    if closed then some (.ended, f, []) else none
  else
    let line := (splitLine maxLine bytes).1
    let rest := (splitLine maxLine bytes).2
    if endsLine line = false ∧ line.length < maxLine ∧ closed = false then none
    else
      match f.line line with
      | .more f => f.next closed rest
      | .fault e f => some (.fault e, f, rest)
      | .body n f =>
        if n ≤ rest.length then some (.payload (rest.take n), f, rest.drop n)
        else if closed then some (.ended, f, [])
        else none
  termination_by bytes.length
  decreasing_by exact length_splitLine_lt _h

end Parley.Frame
