import GuestBridge.Number.Binary

/-!
# The shortest decimal text of a number

The text has the fewest digits that read back as the number: it names a point of
the coarsest decimal grid that has a point among the reals that round to the
number. Of two such points the nearer one counts, and of two equally near ones
the larger. Digits are written positionally, at every magnitude.
-/

namespace GuestBridge

namespace Shortest

/-- The reals that round to one magnitude: those strictly between the bounds, and the bounds
themselves if `closed`. -/
structure Interval where
  low : Rat
  high : Rat
  closed : Bool

/-- Whether `q` lies in the interval. -/
def Interval.contains (i : Interval) (q : Rat) : Bool :=
  (i.low < q && q < i.high) || (i.closed && (q == i.low || q == i.high))

/-- The interval of a positive magnitude. Its bounds lie half way to its neighbours, which below
a power of two are half as far as above; a tie goes to the even code. -/
def interval (f : Format) (code : Nat) : Interval where
  low := (f.toRat (code - 1) + f.toRat code) / 2
  high := (f.toRat code + (f.toRat code + 2 ^ f.exponent code)) / 2
  closed := code % 2 == 0

/-- The point of the grid of multiples of `10 ^ p` that stands for `q`, in multiples. -/
def pointOnGrid? (i : Interval) (q : Rat) (p : Int) : Option Nat :=
  let unit : Rat := 10 ^ p
  let below := (q / unit).floor.toNat
  let low : Rat := below * unit
  let high : Rat := low + unit
  match i.contains low, i.contains high with
  | true, true => some (if q - low < high - q then below else below + 1)
  | true, false => some below
  | false, true => some (below + 1)
  | false, false => none

/-- The coarsest grid with a point in the interval, tried from `10 ^ p` on downwards. -/
def coarsest? (i : Interval) (q : Rat) : Nat → Int → Option (Nat × Int)
  | 0, _ => none
  | n + 1, p =>
    match pointOnGrid? i q p with
    | some d => some (d, p)
    | none => coarsest? i q n (p - 1)

/-- Digits and exponent of ten of a positive magnitude. Every magnitude is itself a point of the
finest grid tried. -/
def digits (f : Format) (code : Nat) : Nat × Int :=
  let q := f.toRat code
  let top : Nat := (Nat.toDigits 10 q.floor.toNat).length
  (coarsest? (interval f code) q (top + (-f.leastExponent).toNat + 1) top).getD (0, 0)

/-- `d · 10 ^ p` written out. -/
def positional (d : Nat) (p : Int) : String :=
  let ds := Nat.toDigits 10 d
  if 0 ≤ p then String.ofList (ds ++ List.replicate p.toNat '0')
  else
    let places := (-p).toNat
    let padded := List.replicate (places + 1 - ds.length) '0' ++ ds
    let split := padded.length - places
    String.ofList (padded.take split ++ '.' :: padded.drop split)

end Shortest

/-- The text of a number as the host prints it; both zeros print alike. -/
def Binary.display {f : Format} : Binary f → String
  | .nan => "NaN"
  | .infinity s => if s then "-Infinity" else "Infinity"
  | .finite s c =>
    if c.val = 0 then "0"
    else
      let (d, p) := Shortest.digits f c.val
      (if s then "-" else "") ++ Shortest.positional d p

end GuestBridge
