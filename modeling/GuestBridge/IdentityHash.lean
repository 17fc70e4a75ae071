import GuestBridge.OrderedMap
import GuestBridge.Host.Value

/-!
# Identity hashes

Objects and symbols draw their hashes from one pseudo-random sequence, each at its
first hashing, and keep them while they live. Numbers and big integers hash to
their value modulo `2 ^ 32`.

* `hashIdentity_of_assigned`: a value with a hash keeps it, and the sequence stays.
* `hashIdentity_of_new`: a value without one gets the next of the sequence.
-/

namespace GuestBridge

/-- The step of the hash sequence: three shifts, each added bit by bit. -/
def xorshift (x : UInt32) : UInt32 :=
  let x := x ^^^ (x <<< 13)
  let x := x ^^^ (x >>> 17)
  x ^^^ (x <<< 5)

/-- The state of the hash sequence and the hashes given so far. -/
structure Hasher where
  state : UInt32
  assigned : OrderedMap HostId Int32 := {}

namespace Hasher

/-- The seed in place of zero, from which the sequence would not move. -/
def defaultSeed : UInt32 := 2463534242

/-- A sequence from a seed; zero stands for the default one. -/
def ofSeed (seed : UInt32) : Hasher := { state := if seed = 0 then defaultSeed else seed }

/-- The number of words, `2 ^ 32`. -/
def wordCount : Double := 4294967296

/-- The hash of a finite number, its integer part modulo `2 ^ 32` as a signed word, and zero for
other numbers. -/
def hashNumber (x : Double) : Int32 :=
  if x.isFinite then
    let modulo := x.trunc.remEuclid wordCount
    let wrapped := if modulo.less (wordCount / 2) then modulo else modulo - wordCount
    wrapped.toInt32
  else 0

/-- The bits that an integer shares with a mask. A negative integer has those bits that its
complement, which is one less than its magnitude, has not. -/
def masked (mask : Nat) : Int → Nat
  | .ofNat n => n &&& mask
  | .negSucc n => (n &&& mask) ^^^ mask

/-- The hash of an integer: its lowest 32 bits as a signed word. -/
def hashInt (n : Int) : Int32 :=
  let low := masked 0xffffffff n
  if low < UInt32.size then low.toUInt32.toInt32 else 0

/-- The hash of an object or a symbol: the one it has, or the next of the sequence. -/
def hashIdentity (h : Hasher) (i : HostId) : Int32 × Hasher :=
  match h.assigned.find? i with
  | some code => (code, h)
  | none =>
    let state := xorshift h.state
    (state.toInt32, { state, assigned := h.assigned.insert i state.toInt32 })

/-- The hash of a value. -/
def hash (h : Hasher) : HostValue → Int32 × Hasher
  | .number x => (hashNumber x, h)
  | .bigint n => (hashInt n, h)
  | .bool b => (if b then 1 else 0, h)
  | .object i => h.hashIdentity i
  | .symbol s => h.hashIdentity s.id
  | _ => (0, h)

/-- Forgets the hashes of values that are no longer alive. -/
def sweep (h : Hasher) (alive : HostId → Bool) : Hasher :=
  { h with assigned := h.assigned.filter fun i _ => alive i }

/-- **A value with a hash keeps it**, and the sequence stays where it is. -/
theorem hashIdentity_of_assigned {h : Hasher} {i : HostId} {code : Int32}
    (hc : h.assigned.find? i = some code) : h.hashIdentity i = (code, h) := by
  simp [hashIdentity, hc]

/-- **A value without a hash gets the next of the sequence.** -/
theorem hashIdentity_of_new {h : Hasher} {i : HostId} (hc : h.assigned.find? i = none) :
    h.hashIdentity i = ((xorshift h.state).toInt32,
      ⟨xorshift h.state, h.assigned.insert i (xorshift h.state).toInt32⟩) := by
  simp [hashIdentity, hc]

end Hasher

end GuestBridge
