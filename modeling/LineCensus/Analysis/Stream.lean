/-
Measuring a stream of bytes. Bytes are gathered in a buffer until a line end
comes; the line's text is then classified. The buffer is handed from one file to
the next, so it is part of what an analysis takes and gives back, and every
analysis starts by emptying it.
-/
import LineCensus.Scan.Trace
import LineCensus.Summary

namespace LineCensus

/-- The bytes a file yields, and the error that ends them if they do not simply end. -/
structure Stream where
  bytes : List UInt8
  failure : Option String := none

/-- The bytes of the line being read, the last one first. -/
structure LineBuffer where
  reversed : List UInt8 := []
deriving Inhabited

namespace LineBuffer

def clear (_ : LineBuffer) : LineBuffer := {}

def push (b : LineBuffer) (byte : UInt8) : LineBuffer := ⟨byte :: b.reversed⟩

def isEmpty (b : LineBuffer) : Bool := b.reversed.isEmpty

/-- The bytes gathered. -/
def bytes (b : LineBuffer) : List UInt8 := b.reversed.reverse

/-- The text of the line, without a carriage return at its end. -/
def text (b : LineBuffer) : List Char :=
  match b.reversed with
  | 13 :: rest => Text.decodeLossy rest.reverse
  | _ => Text.decodeLossy b.bytes

end LineBuffer

namespace Analysis

/-- An analysis in progress. The last message stands first. -/
structure Progress where
  scanner : Scanner := {}
  buffer : LineBuffer := {}
  messages : Log := []

/-- Classify a line and note it if lines are traced. -/
def Progress.line (g : Grammar) (traced : Bool) (p : Progress) (raw : List Char) : Progress :=
  let next := p.scanner.feed g raw
  { scanner := next
    buffer := p.buffer.clear
    messages :=
      if traced then (LineTrace.ofScan next (p.scanner.classify g raw) raw).toLog :: p.messages
      else p.messages }

/-- Read one byte. -/
def Progress.push (g : Grammar) (traced : Bool) (p : Progress) (byte : UInt8) : Progress :=
  if byte = 10 then p.line g traced p.buffer.text else { p with buffer := p.buffer.push byte }

/-- Read the end of the bytes: what follows the last line end is a line if it is
not empty. -/
def Progress.close (g : Grammar) (traced : Bool) (p : Progress) : Progress :=
  if p.buffer.isEmpty then p else p.line g traced p.buffer.text

/-- What an analysis gives: the scan, the messages, and the buffer for the next file. -/
structure Outcome where
  scanner : Scanner
  log : Log
  buffer : LineBuffer

/-- Measure a stream. When it fails, the lines completed before count and what
was gathered of the next one is lost. -/
def run (name : String) (g : Grammar) (traced : Bool) (stream : Stream) (buffer : LineBuffer) : Outcome :=
  let p := stream.bytes.foldl (Progress.push g traced) { buffer := buffer.clear }
  match stream.failure with
  | none =>
    let p := p.close g traced
    ⟨p.scanner, p.messages.reverse, p.buffer.clear⟩
  | some error =>
    let warning := .analysisWarning s!"{name}: read failed after {p.scanner.tally.total} lines: {error}"
    ⟨p.scanner, (warning :: p.messages).reverse, p.buffer.clear⟩

/-- The summary an outcome leads to. -/
def Outcome.summary (o : Outcome) (name language : String) : Summary :=
  .ofTally name language o.scanner.tally

end Analysis

end LineCensus
