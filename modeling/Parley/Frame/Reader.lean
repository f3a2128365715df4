import Parley.Frame.Framer

/-!
# Framing from a buffered reader

A stream delivers its bytes in pieces, and a read may fail in between. `Reader` is a buffer of bounded capacity over such
pieces, and `Framer.poll` is the framer working on it: it copies a line or a body together from as many pieces as it takes. A
failed read loses the part of a line or body copied so far, and nothing else.
-/

namespace Parley.Frame

/-- One piece that a stream delivers. -/
inductive Piece where
  | data (bytes : Bytes)
  | failure (text : String)
  deriving DecidableEq, Repr

/-- A buffer over the pieces still to come. -/
structure Reader where
  capacity : Nat
  buffer : Bytes := []
  pieces : List Piece := []
  deriving DecidableEq, Repr

/-- The bytes in the buffer and in the pieces. -/
def Reader.size (r : Reader) : Nat :=
  r.pieces.foldl
    (fun n piece =>
      match piece with
      | .data b => n + b.length
      | .failure _ => n)
    r.buffer.length

/-- The pieces from the first one that holds bytes or fails. -/
def dropEmpty : List Piece → List Piece
  | .data [] :: rest => dropEmpty rest
  | pieces => pieces

/-- A reader with bytes in its buffer, unless the stream has ended; or the text of the failure of the read. -/
def Reader.fill (r : Reader) : Except (String × Reader) Reader :=
  if r.buffer ≠ [] then .ok r
  else
    match dropEmpty r.pieces with
    | [] => .ok { r with pieces := [] }
    | .failure text :: rest => .error (text, { r with pieces := rest })
    | .data b :: rest => .ok { r with buffer := b.take r.capacity, pieces := .data (b.drop r.capacity) :: rest }

/-- What reading a line or a body gives. -/
inductive Fetched where
  | bytes (b : Bytes) (r : Reader)
  | failed (text : String) (r : Reader)
  deriving Repr

/-- Reads a line of at most `n` bytes behind what is `seen` of it; at the end of the stream, what there is. -/
def Reader.readLine : Nat → Nat → Bytes → Reader → Fetched
  | 0, _, seen, r => .bytes seen r
  | fuel + 1, n, seen, r =>
    if n = 0 then .bytes seen r
    else
      match r.fill with
      | .error (text, r) => .failed text r
      | .ok r =>
        let (part, rest) := splitLine n r.buffer
        if part = [] then .bytes seen r
        else if endsLine part then .bytes (seen ++ part) { r with buffer := rest }
        else readLine fuel (n - part.length) (seen ++ part) { r with buffer := rest }

/-- Reads `n` bytes behind what is `seen`; at the end of the stream, what there is. -/
def Reader.readExact : Nat → Nat → Bytes → Reader → Fetched
  | 0, _, seen, r => .bytes seen r
  | fuel + 1, n, seen, r =>
    if n = 0 then .bytes seen r
    else
      match r.fill with
      | .error (text, r) => .failed text r
      | .ok r =>
        let part := r.buffer.take n
        if part = [] then .bytes seen r
        else readExact fuel (n - part.length) (seen ++ part) { r with buffer := r.buffer.drop n }

/-- The next body; each round takes a line, so `fuel` is a bound on the bytes. -/
def Framer.pollLines : Nat → Framer → Reader → Reading × Framer × Reader
  | 0, f, r => (.ended, f, r)
  | fuel + 1, f, r =>
    match r.readLine (r.size + 1) maxLine [] with
    | .failed text r => (.fault (.io text), f, r)
    | .bytes line r =>
      if line = [] then (.ended, f, r)
      else
        match f.line line with
        | .more f => pollLines fuel f r
        | .fault e f => (.fault e, f, r)
        | .body n f =>
          match r.readExact (r.size + 1) n [] with
          | .failed text r => (.fault (.io text), f, r)
          | .bytes body r => if body.length = n then (.payload body, f, r) else (.ended, f, r)

/-- The next body from a buffered reader. -/
def Framer.poll (f : Framer) (r : Reader) : Reading × Framer × Reader :=
  f.pollLines (r.size + 1) r

end Parley.Frame
