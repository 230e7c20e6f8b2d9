import SqlBatch.Scanner
import SqlBatch.Text.Lines
import SqlBatch.Text.Utf8
/-!
# Statement streams

Statements of a script that is read as bytes, a line at a time.  A line that is not UTF-8 and a
source that fails both end the stream with an error; the line that was being read and the statement
under way are lost.
-/

namespace SqlBatch

inductive SourceEnd where
  | clean
  | failed (message : Text)
  deriving DecidableEq, Repr

inductive ReadError where
  | notUtf8
  | source (message : Text)
  deriving DecidableEq, Repr

def ReadError.message : ReadError → Text
  | .notUtf8 => "stream did not contain valid UTF-8".toList
  | .source message => message

structure Stream where
  scanner : Scanner := {}
  /-- The bytes still to read, cut after each line feed. -/
  chunks : List (List UInt8)
  ending : SourceEnd := .clean
  /-- Nothing more will be read. -/
  ended : Bool := false

namespace Stream

def ofBytes (bytes : List UInt8) (ending : SourceEnd) : Stream :=
  { chunks := Text.chunks (· == 10) bytes, ending }

/-- The line that a chunk holds: every carriage return and line feed at its end is removed. -/
def line? (chunk : List UInt8) : Except ReadError Text :=
  match Utf8.decode chunk with
  | .error _ => .error .notUtf8
  | .ok text => .ok (text.reverse.dropWhile fun c => c == '\n' || c == '\r').reverse

/-- Reads a chunk: one that its line feed does not end runs into the end of the source. -/
def readChunk (ending : SourceEnd) (chunk : List UInt8) : Except ReadError Text :=
  match ending with
  | .clean => line? chunk
  | .failed message => if chunk.getLast? = some 10 then line? chunk else .error (.source message)

/-- The next statement or the error that ends the stream, and the stream after it. -/
def next (s : Stream) : Option (Except ReadError Statement) × Stream :=
  match s.scanner.ready with
  | statement :: later =>
    (some (.ok statement), { s with scanner := { s.scanner with ready := later } })
  | [] =>
    if _h : s.ended = true then (none, s)
    else match _hc : s.chunks with
    | [] =>
      match s.ending with
      | .failed message => (some (.error (.source message)), { s with ended := true })
      | .clean => next { s with scanner := s.scanner.finish, ended := true }
    | chunk :: chunks =>
      match readChunk s.ending chunk with
      | .error error => (some (.error error), { s with ended := true })
      | .ok line => next { s with scanner := s.scanner.feed line, chunks }
termination_by s.chunks.length + (if s.ended then 0 else 1)
decreasing_by all_goals simp_all

end Stream
end SqlBatch
