import GuestBridge.Text.Units

/-!
# The guest's console

A guest writes one code unit at a time to one of two streams. Each stream gathers
units until a newline ends the line; finished lines are decoded and delivered in
the order of their newlines. A flush delivers what is left over.

* `lines_put_of_ne`: a unit that is no newline delivers nothing.
* `flush_flush`: a second flush delivers nothing.
-/

namespace GuestBridge

/-- The two output streams. -/
inductive Stream where
  | stdout
  | stderr
  deriving DecidableEq, Repr

/-- The word for a stream. -/
def Stream.name : Stream → String
  | stdout => "stdout"
  | stderr => "stderr"

/-- The unit of a code: its low sixteen bits. -/
def unitOfCode (code : Int32) : UInt16 := code.toUInt32.toUInt16

/-- The unfinished line of each stream, and the lines delivered. -/
structure Console where
  stdout : Array UInt16 := #[]
  stderr : Array UInt16 := #[]
  lines : Array (Stream × String) := #[]

namespace Console

/-- The unit that ends a line. -/
def newline : UInt16 := 10

/-- The unfinished line of a stream. -/
def pending (c : Console) : Stream → Array UInt16
  | .stdout => c.stdout
  | .stderr => c.stderr

/-- Replaces the unfinished line of a stream. -/
def setPending (c : Console) (s : Stream) (us : Array UInt16) : Console :=
  match s with
  | .stdout => { c with stdout := us }
  | .stderr => { c with stderr := us }

/-- Delivers the unfinished line of a stream. -/
def deliver (c : Console) (s : Stream) : Console :=
  { c.setPending s #[] with lines := c.lines.push (s, Text.decode (c.pending s).toList) }

/-- Takes one code from the guest. -/
def put (c : Console) (s : Stream) (code : Int32) : Console :=
  let unit := unitOfCode code
  if unit = newline then c.deliver s else c.setPending s ((c.pending s).push unit)

/-- Delivers the unfinished line of a stream unless it is empty. -/
def flushStream (c : Console) (s : Stream) : Console :=
  if (c.pending s).isEmpty then c else c.deliver s

/-- Delivers both unfinished lines, standard output first. -/
def flush (c : Console) : Console := (c.flushStream .stdout).flushStream .stderr

/-- The lines delivered to one stream. -/
def linesOf (c : Console) (s : Stream) : List String :=
  c.lines.toList.filterMap fun l => if l.1 = s then some l.2 else none

/-- **A unit that is no newline delivers nothing.** -/
theorem lines_put_of_ne {c : Console} {s : Stream} {code : Int32}
    (h : unitOfCode code ≠ newline) : (c.put s code).lines = c.lines := by
  cases s <;> simp [put, h, setPending]

theorem pending_flush (c : Console) (s : Stream) : c.flush.pending s = #[] := by
  cases s <;> simp only [flush, flushStream] <;> split <;> split <;>
    simp_all [pending, deliver, setPending]

theorem flushStream_of_pending_eq {c : Console} {s : Stream} (h : c.pending s = #[]) :
    c.flushStream s = c := by
  simp [flushStream, h]

/-- **A second flush delivers nothing.** -/
theorem flush_flush (c : Console) : c.flush.flush = c.flush := by
  have h1 := flushStream_of_pending_eq (pending_flush c .stdout)
  have h2 := flushStream_of_pending_eq (pending_flush c .stderr)
  generalize c.flush = d at h1 h2
  rw [flush, h1, h2]

end Console

end GuestBridge
