import GuestBridge.Number.Binary

/-!
# The mathematical library

Functions of one and two numbers. What the machine's library computes is exact to
the last few bits only; all other functions are exact.
-/

namespace GuestBridge

/-- The functions of one number. -/
inductive UnaryFunction where
  | sin | cos | tan | asin | acos | atan | exp | log | log10 | sqrt | cbrt
  | ceil | floor | round | abs | sign
  deriving DecidableEq, Repr

/-- The functions of two numbers. -/
inductive BinaryFunction where
  | atan2 | pow | hypot | min | max
  deriving DecidableEq, Repr

namespace Double

/-- The nearest integer, half-way cases going up; a result of zero keeps the sign. -/
def roundHalfUp (x : Double) : Double := x.integral fun q => (q + 1 / 2).floor

/-- One with the sign of the number; zeros and not-a-number stay. -/
def sign (x : Double) : Double :=
  if x.isNaN || x.equals 0 then x else if x.isNegative then -1 else 1

/-- A power. Not-a-number as the exponent, and one to an infinite power, give not-a-number. -/
def power (x y : Double) : Double :=
  let isInfinite := !y.isNaN && !y.isFinite
  if y.isNaN || (x.abs.equals 1 && isInfinite) then .nan else library₂ Float.pow x y

/-- The length of a hypotenuse; an infinite leg outweighs not-a-number. -/
def hypotenuse (x y : Double) : Double :=
  match x.toRat?, y.toRat? with
  | some p, some q =>
    let square := p * p + q * q
    if square.num = 0 then 0 else .sqrtRatio square.num.natAbs square.den
  | _, _ =>
    if (!x.isNaN && !x.isFinite) || (!y.isNaN && !y.isFinite) then .infinity false else .nan

/-- The lesser number; the negative zero is the lesser one. -/
def lesser (x y : Double) : Double :=
  if x.isNaN || y.isNaN then .nan
  else if x.equals y then (if x.isNegative then x else y)
  else if x.less y then x else y

/-- The greater number; the positive zero is the greater one. -/
def greater (x y : Double) : Double :=
  if x.isNaN || y.isNaN then .nan
  else if x.equals y then (if x.isNegative then y else x)
  else if x.less y then y else x

/-- The number with its last eight bits rounded away. -/
def coarse (x : Double) : Double :=
  match x with
  | .finite s c => if c.val = 0 then x else .ofCode s ((c.val + 0x80) / 0x100 * 0x100)
  | _ => x

end Double

namespace UnaryFunction

/-- The name of a function. -/
def name : UnaryFunction → String
  | sin => "sin" | cos => "cos" | tan => "tan" | asin => "asin" | acos => "acos"
  | atan => "atan" | exp => "exp" | log => "log" | log10 => "log10" | sqrt => "sqrt"
  | cbrt => "cbrt" | ceil => "ceil" | floor => "floor" | round => "round" | abs => "abs"
  | sign => "sign"

/-- All functions, in the order in which they are listed. -/
def all : List UnaryFunction :=
  [sin, cos, tan, asin, acos, atan, exp, log, log10, sqrt, cbrt, ceil, floor, round, abs, sign]

/-- Applies a function. -/
def apply : UnaryFunction → Double → Double
  | sin => Double.library Float.sin
  | cos => Double.library Float.cos
  | tan => Double.library Float.tan
  | asin => Double.library Float.asin
  | acos => Double.library Float.acos
  | atan => Double.library Float.atan
  | exp => Double.library Float.exp
  | log => Double.library Float.log
  | log10 => Double.library Float.log10
  | sqrt => Binary.sqrt
  | cbrt => Double.library Float.cbrt
  | ceil => Binary.ceil
  | floor => Binary.floor
  | round => Double.roundHalfUp
  | abs => Binary.abs
  | sign => Double.sign

/-- Whether all bits of the result are right. -/
def isExact : UnaryFunction → Bool
  | sqrt | ceil | floor | round | abs | sign => true
  | _ => false

end UnaryFunction

namespace BinaryFunction

/-- The name of a function. -/
def name : BinaryFunction → String
  | atan2 => "atan2" | pow => "pow" | hypot => "hypot" | min => "min" | max => "max"

/-- All functions, in the order in which they are listed. -/
def all : List BinaryFunction := [atan2, pow, hypot, min, max]

/-- Applies a function. -/
def apply : BinaryFunction → Double → Double → Double
  | atan2 => Double.library₂ Float.atan2
  | pow => Double.power
  | hypot => Double.hypotenuse
  | min => Double.lesser
  | max => Double.greater

/-- Whether all bits of the result are right. -/
def isExact : BinaryFunction → Bool
  | min | max => true
  | _ => false

end BinaryFunction

end GuestBridge
