import Teletype.Terminal.Basic
import Teletype.Text.Units
import Teletype.Text.Utf8

/-!
# A terminal over a descriptor

A descriptor delivers bytes in pieces, of which none need end where a line or a character ends. The
line reader decodes them as they come and cuts the text at newlines. It asks for more bytes only
while it has no whole line; a read that would block is repeated; a read of nothing, or an
end-of-file failure, is the end, and after it the descriptor is not asked again. A last line without
a newline is still a line.

A program whose lines are units uses the same descriptor (`Device.unitTerminal`). What it writes
leaves the host as a text, so each half of a pair that stands alone is replaced; what it reads are
the units of a text.
-/

namespace Teletype

/-- What one read of a descriptor gives: bytes, none at the end, or a failure. -/
inductive Delivery where
  | bytes (chunk : List UInt8)
  | failure (f : Failure)

namespace Delivery

/-- The most bytes that one read asks for. -/
def readSize : Nat := 4096

/-- Bytes that are there at once, cut into reads. -/
def cut (bytes : List UInt8) : List Delivery :=
  if bytes.length ≤ readSize then [.bytes bytes]
  else .bytes (bytes.take readSize) :: cut (bytes.drop readSize)
termination_by bytes.length
decreasing_by simp [readSize] at *; omega

end Delivery

inductive EndOfInput where
  | fail
  | empty
  deriving DecidableEq, Inhabited

structure LineOptions where
  trimCarriageReturn : Bool := true
  endOfInput : EndOfInput := .fail
  deriving DecidableEq

/-- A line without the one carriage return at its end, if such are trimmed. -/
def LineOptions.clean (o : LineOptions) (line : List Char) : String :=
  String.ofList <|
    if o.trimCarriageReturn && line.getLast? == some '\r' then line.dropLast else line

/-- What a line reader holds: the bytes of an unfinished character, the text not yet handed out, and
whether the end was seen. -/
structure LineReader where
  decoder : Text.Decoder := .start
  pending : List Char := []
  ended : Bool := false

namespace LineReader

/-- The text before the first newline and the text behind it, if there is a newline. -/
def cutLine (cs : List Char) : Option (List Char × List Char) :=
  match cs.dropWhile (· != '\n') with
  | [] => none
  | _ :: rest => some (cs.takeWhile (· != '\n'), rest)

/-- A line that holds no newline is cut off before the first one. -/
theorem cutLine_append {line : List Char} (h : '\n' ∉ line) (rest : List Char) :
    cutLine (line ++ '\n' :: rest) = some (line, rest) := by
  have hne : ∀ c ∈ line, (c != '\n') = true := fun c hc => by
    simpa using fun h' : c = '\n' => h (h' ▸ hc)
  simp [cutLine, List.dropWhile_append_of_pos hne, List.takeWhile_append_of_pos hne]

/-- Nothing is cut off where there is no newline. -/
theorem cutLine_eq_none {cs : List Char} (h : '\n' ∉ cs) : cutLine cs = none := by
  have hnil : cs.dropWhile (· != '\n') = [] := by
    induction cs with
    | nil => rfl
    | cons c rest ih =>
      have hc : (c != '\n') = true := by
        simpa using fun h' : c = '\n' => h (h' ▸ List.mem_cons_self)
      simpa [List.dropWhile_cons, hc] using ih fun hm => h (List.mem_cons_of_mem c hm)
  simp [cutLine, hnil]

def feed (r : LineReader) (chunk : List UInt8) : LineReader :=
  let (chars, decoder) := r.decoder.feed chunk
  { r with decoder, pending := r.pending ++ chars }

def close (r : LineReader) : LineReader :=
  { decoder := .start, pending := r.pending ++ r.decoder.flush, ended := true }

/-- A line after the end: what is pending, or what the options say. -/
def lastLine (o : LineOptions) (r : LineReader) : Except Failure String × LineReader :=
  if r.pending.isEmpty then
    match o.endOfInput with
    | .empty => (.ok "", r)
    | .fail => (.error .endOfInput, r)
  else (.ok (o.clean r.pending), { r with pending := [] })

end LineReader

/-- A descriptor's two sides and what was done to them: the deliveries still to come, the count of
reads, the texts written, and the reader between. -/
structure Device where
  source : List Delivery
  reads : Nat := 0
  written : Array String := #[]
  reader : LineReader := {}

namespace Device

variable {V : Type}

/-- The code of a read that would block. -/
def retryCode : String := "EAGAIN"

/-- The code of a read at the end of a file. -/
def endCode : String := "EOF"

/-- Read until a whole line is there, or the end, or a failure that is neither. -/
def readFrom (o : LineOptions) :
    List Delivery → LineReader → Nat → Except Failure String × List Delivery × LineReader × Nat
  | source, r, reads =>
    match LineReader.cutLine r.pending with
    | some (line, rest) => (.ok (o.clean line), source, { r with pending := rest }, reads)
    | none =>
      if r.ended then
        let (line, r) := r.lastLine o
        (line, source, r, reads)
      else match source with
        | [] => finish [] r (reads + 1)
        | .bytes [] :: source => finish source r (reads + 1)
        | .bytes chunk :: source => readFrom o source (r.feed chunk) (reads + 1)
        | .failure f :: source =>
          if f.code = some retryCode then readFrom o source r (reads + 1)
          else if f.code = some endCode then finish source r (reads + 1)
          else (.error f, source, r, reads + 1)
where
  /-- The first line after the end was seen. -/
  finish (source : List Delivery) (r : LineReader) (reads : Nat) :=
    let (line, r) := r.close.lastLine o
    (line, source, r, reads)

def readLine (o : LineOptions) : EStateM (Thrown V) Device String :=
  fun ⟨source, reads, written, r⟩ =>
  match readFrom o source r reads with
  | (.ok line, source, r, reads) => .ok line ⟨source, reads, written, r⟩
  | (.error f, source, r, reads) => .error (.failure f) ⟨source, reads, written, r⟩

def writeLine (line : String) : EStateM (Thrown V) Device Unit := fun ⟨source, reads, written, r⟩ =>
  .ok () ⟨source, reads, written.push (line ++ "\n"), r⟩

def terminal (o : LineOptions) : Terminal (Thrown V) Device := ⟨readLine o, writeLine⟩

def readUnits (o : LineOptions) : EStateM (Thrown V) Device Text.Units :=
  Text.Units.ofText <$> readLine o

def writeUnits (line : Text.Units) : EStateM (Thrown V) Device Unit := writeLine line.toText

def unitTerminal (o : LineOptions) : Terminal (Thrown V) Device Text.Units :=
  ⟨readUnits o, writeUnits⟩

/-- A terminal opened anew: what an earlier one held back is gone. -/
def reopen (d : Device) : Device := { d with reader := {} }

end Device

end Teletype
