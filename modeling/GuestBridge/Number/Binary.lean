/-!
# Binary floating-point numbers

A number is a sign and a *code*, the position of its magnitude among the finite
magnitudes of the format: the code is the interchange bit pattern without the
sign, so codes and magnitudes are ordered alike. Every operation is the exact
operation on rationals followed by one rounding to the nearest number, ties going
to the even code.

* `toRat?_neg`: negation negates the exact value.
* `compare?_comm`, `equals_comm`: comparison is symmetric.
* `ofBits_toBits`: a bit pattern reads back as its number.
-/

namespace GuestBridge

-- Powers are those of the core library, whatever is imported besides.
attribute [local instance (high)] instPowNat

/-- The widths of a binary floating-point format. -/
structure Format where
  exponentBits : Nat
  fractionBits : Nat
  deriving DecidableEq, Repr

namespace Format

/-- One and eleven and fifty-two bits. -/
def double : Format := ⟨11, 52⟩

/-- One and eight and twenty-three bits. -/
def single : Format := ⟨8, 23⟩

/-- The code of infinity; finite magnitudes have the smaller codes. -/
def infinityCode (f : Format) : Nat := (2 ^ f.exponentBits - 1) * 2 ^ f.fractionBits

/-- The exponent of two in the least positive magnitude. -/
def leastExponent (f : Format) : Int := 2 - 2 ^ (f.exponentBits - 1) - f.fractionBits

/-- The integer that is scaled by a power of two. -/
def significand (f : Format) (code : Nat) : Nat :=
  if code < 2 ^ f.fractionBits then code else 2 ^ f.fractionBits + code % 2 ^ f.fractionBits

/-- The power of two that scales the significand. -/
def exponent (f : Format) (code : Nat) : Int :=
  f.leastExponent + ((code / 2 ^ f.fractionBits - 1 : Nat) : Int)

/-- The exact value of a magnitude. -/
def toRat (f : Format) (code : Nat) : Rat := (f.significand code : Rat) * 2 ^ f.exponent code

/-- The exponent of two of the leading bit of `n / d`, both positive. -/
def leadingExponent (n d : Nat) : Int :=
  let gap : Int := (n.log2 : Int) - d.log2
  if d * 2 ^ gap.toNat ≤ n * 2 ^ (-gap).toNat then gap else gap - 1

/-- The integer nearest to `n / d`, a tie going to the even one. -/
def nearestEven (n d : Nat) : Nat :=
  if 2 * (n % d) < d ∨ (2 * (n % d) = d ∧ n / d % 2 = 0) then n / d else n / d + 1

/-- The code nearest to the positive ratio `n / d`; past the last finite one it is at least
`infinityCode`. A rounding up to the next power of two carries into the exponent by itself. -/
def roundRatio (f : Format) (n d : Nat) : Nat :=
  let unit := max f.leastExponent (leadingExponent n d - f.fractionBits)
  (unit - f.leastExponent).toNat * 2 ^ f.fractionBits +
    nearestEven (n * 2 ^ (-unit).toNat) (d * 2 ^ unit.toNat)

end Format

/-- A binary floating-point number; not-a-number has neither sign nor payload. -/
inductive Binary (f : Format) where
  | nan
  | infinity (negative : Bool)
  | finite (negative : Bool) (code : Fin f.infinityCode)
  deriving DecidableEq, Repr

/-- Numbers of the host and of the guest's wide float. -/
abbrev Double := Binary .double

/-- Numbers of the guest's narrow float. -/
abbrev Single := Binary .single

namespace Binary

variable {f : Format}

/-- The number with the given sign and code; codes past the finite ones are infinite. -/
def ofCode (negative : Bool) (code : Nat) : Binary f :=
  if h : code < f.infinityCode then finite negative ⟨code, h⟩ else infinity negative

/-- Zero with the given sign. -/
def zero (negative : Bool) : Binary f := ofCode negative 0

/-- The number nearest to `q`; `negativeZero` is the sign of the result if `q` is zero. -/
def ofRat (q : Rat) (negativeZero : Bool := false) : Binary f :=
  if q.num = 0 then zero negativeZero
  else ofCode (q.num < 0) (f.roundRatio q.num.natAbs q.den)

/-- The number nearest to an integer. -/
def ofInt (n : Int) : Binary f := ofRat n

/-- The number nearest to a natural number. -/
def ofNat (n : Nat) : Binary f := ofRat (n : Int)

instance (n : Nat) : OfNat (Binary f) n := ⟨ofNat n⟩

instance : Inhabited (Binary f) := ⟨nan⟩

/-- The exact value of a finite number. -/
def toRat? : Binary f → Option Rat
  | finite false c => some (f.toRat c)
  | finite true c => some (-f.toRat c)
  | _ => none

/-- Whether the number is not-a-number. -/
def isNaN : Binary f → Bool
  | nan => true
  | _ => false

/-- Whether the number has an exact value. -/
def isFinite : Binary f → Bool
  | finite _ _ => true
  | _ => false

/-- Whether the sign is set; never for not-a-number. -/
def isNegative : Binary f → Bool
  | nan => false
  | infinity s => s
  | finite s _ => s

/-- The integer part, cut off toward zero, of a finite number. -/
def truncate? (x : Binary f) : Option Int :=
  x.toRat?.map fun q => q.num.tdiv q.den

/-- A number's place in the numeric order; both zeros share one place. -/
def place? : Binary f → Option Int
  | nan => none
  | infinity false => some f.infinityCode
  | infinity true => some (-f.infinityCode)
  | finite false c => some (c.val : Int)
  | finite true c => some (-(c.val : Int))

/-- The numeric order of two numbers, if neither is not-a-number. -/
def compare? (x y : Binary f) : Option Ordering := do
  return compare (← x.place?) (← y.place?)

/-- Numeric equality: not-a-number differs from all, the two zeros are equal. -/
def equals (x y : Binary f) : Bool := x.compare? y == some .eq

/-- Numerically less. -/
def less (x y : Binary f) : Bool := x.compare? y == some .lt

/-- The same magnitude with the other sign. -/
def neg : Binary f → Binary f
  | nan => nan
  | infinity s => infinity !s
  | finite s c => finite (!s) c

/-- The magnitude. -/
def abs : Binary f → Binary f
  | nan => nan
  | infinity _ => infinity false
  | finite _ c => finite false c

/-- The exact value, where the caller has excluded the numbers that have none. -/
def exact (x : Binary f) : Rat := x.toRat?.getD 0

/-- The sum. A sum of zero is negative only if both terms are. -/
def add (x y : Binary f) : Binary f :=
  match x, y with
  | nan, _ | _, nan => nan
  | infinity s, infinity t => if s = t then infinity s else nan
  | infinity s, _ => infinity s
  | _, infinity t => infinity t
  | finite s c, finite t d =>
    ofRat ((finite s c).exact + (finite t d).exact) (s && t)

/-- The product. -/
def mul (x y : Binary f) : Binary f :=
  match x, y with
  | nan, _ | _, nan => nan
  | infinity s, infinity t => infinity (s != t)
  | infinity s, finite t d => if d.val = 0 then nan else infinity (s != t)
  | finite s c, infinity t => if c.val = 0 then nan else infinity (s != t)
  | finite s c, finite t d =>
    ofRat ((finite s c).exact * (finite t d).exact) (s != t)

/-- The quotient. -/
def div (x y : Binary f) : Binary f :=
  match x, y with
  | nan, _ | _, nan => nan
  | infinity _, infinity _ => nan
  | infinity s, finite t _ => infinity (s != t)
  | finite s _, infinity t => zero (s != t)
  | finite s c, finite t d =>
    if d.val = 0 then (if c.val = 0 then nan else infinity (s != t))
    else ofRat ((finite s c).exact / (finite t d).exact) (s != t)

instance : Neg (Binary f) := ⟨neg⟩
instance : Add (Binary f) := ⟨add⟩
instance : Sub (Binary f) := ⟨fun x y => x + -y⟩
instance : Mul (Binary f) := ⟨mul⟩
instance : Div (Binary f) := ⟨div⟩

/-- Applies an integer-valued function to the exact value; a result of zero keeps the sign. -/
def integral (g : Rat → Int) (x : Binary f) : Binary f :=
  match x.toRat? with
  | some q => ofRat (g q) x.isNegative
  | none => x

/-- The greatest integer that is not above. -/
def floor (x : Binary f) : Binary f := x.integral Rat.floor

/-- The least integer that is not below. -/
def ceil (x : Binary f) : Binary f := x.integral Rat.ceil

/-- The integer part. -/
def trunc (x : Binary f) : Binary f := x.integral fun q => q.num.tdiv q.den

/-- The remainder of a division whose quotient is cut off toward zero. It has the sign of the
dividend. -/
def rem (x y : Binary f) : Binary f :=
  match x, y with
  | nan, _ | _, nan => nan
  | infinity _, _ => nan
  | finite s c, infinity _ => finite s c
  | finite s c, finite t d =>
    if d.val = 0 then nan
    else
      let p := (finite s c).exact
      let q := (finite t d).exact
      ofRat (p - q * (p / q).num.tdiv (p / q).den) s

/-- The remainder that is not negative. -/
def remEuclid (x y : Binary f) : Binary f :=
  let r := x.rem y
  if r.less 0 then r + y.abs else r

/-- The integer part as a signed word: the nearest word if it is past them, and zero for
not-a-number. -/
def toInt32 (x : Binary f) : Int32 :=
  match x with
  | nan => 0
  | infinity s => if s then Int32.minValue else Int32.maxValue
  | finite _ _ =>
    Int32.ofInt (max Int32.minValue.toInt (min Int32.maxValue.toInt (x.truncate?.getD 0)))

/-- The nearest number to the square root of `n / d`, given to so many more bits than the
format holds that a final odd bit for the remainder decides every rounding. -/
def sqrtRatio (n d : Nat) : Binary f :=
  let shift := f.fractionBits + 2 + d.log2
  let scaled := n * 4 ^ shift / d
  let root := scaled.sqrt
  let sticky := if root * root * d = n * 4 ^ shift then 2 * root else 2 * root + 1
  ofRat (mkRat sticky (2 * 2 ^ shift))

/-- The square root. -/
def sqrt (x : Binary f) : Binary f :=
  match x with
  | nan => nan
  | infinity false => infinity false
  | infinity true => nan
  | finite s c =>
    if c.val = 0 then finite s c
    else if s then nan
    else sqrtRatio (f.toRat c).num.natAbs (f.toRat c).den

/-- The same number in another format. -/
def convert {g : Format} (x : Binary f) : Binary g :=
  match x with
  | nan => nan
  | infinity s => infinity s
  | finite s c => ofRat (finite s c).exact s

/-- The interchange bit pattern; not-a-number has the one quiet pattern. -/
def toBits : Binary f → Nat
  | nan => f.infinityCode + 2 ^ (f.fractionBits - 1)
  | infinity s => (if s then 2 ^ (f.exponentBits + f.fractionBits) else 0) + f.infinityCode
  | finite s c => (if s then 2 ^ (f.exponentBits + f.fractionBits) else 0) + c.val

/-- The number of an interchange bit pattern. -/
def ofBits (bits : Nat) : Binary f :=
  let size := 2 ^ (f.exponentBits + f.fractionBits)
  let code := bits % size
  if f.infinityCode < code then nan else ofCode (bits / size % 2 = 1) code

/-- Negation negates the exact value. -/
theorem toRat?_neg (x : Binary f) : (-x).toRat? = x.toRat?.map fun q => -q := by
  cases x with
  | nan => rfl
  | infinity s => rfl
  | finite s c =>
    cases s
    · rfl
    · exact congrArg some (Rat.neg_neg _).symm

theorem compare?_comm (x y : Binary f) : x.compare? y = (y.compare? x).map Ordering.swap := by
  unfold compare?
  cases x.place? <;> cases y.place? <;> simp [Int.compare_swap]

/-- Numeric equality is symmetric. -/
theorem equals_comm (x y : Binary f) : x.equals y = y.equals x := by
  unfold equals
  rw [compare?_comm]
  rcases y.compare? x with _ | o
  · rfl
  · cases o <;> rfl

theorem ofBits_double (bits : Nat) :
    (ofBits bits : Double) =
      if 2047 * 2 ^ (52 : Nat) < bits % 2 ^ (63 : Nat) then nan
      else ofCode (decide (bits / 2 ^ (63 : Nat) % 2 = 1)) (bits % 2 ^ (63 : Nat)) := rfl

theorem ofCode_of_lt {s : Bool} {c : Nat} (h : c < f.infinityCode) :
    (ofCode s c : Binary f) = finite s ⟨c, h⟩ := dif_pos h

/-- **The bit pattern of a number reads back as the number.** -/
theorem ofBits_toBits (x : Double) : ofBits x.toBits = x := by
  cases x with
  | nan => decide
  | infinity s => cases s <;> decide
  | finite s c =>
    obtain ⟨c, hc⟩ := c
    have h : c < 2047 * 2 ^ (52 : Nat) := hc
    have hb : (finite s ⟨c, hc⟩ : Double).toBits = (if s then 2 ^ (63 : Nat) else 0) + c := rfl
    rw [hb, ofBits_double]
    cases s
    · have hm : ((if false = true then 2 ^ (63 : Nat) else 0) + c) % 2 ^ (63 : Nat) = c := by
        simp; omega
      have hd : ((if false = true then 2 ^ (63 : Nat) else 0) + c) / 2 ^ (63 : Nat) % 2 = 0 := by
        simp; omega
      rw [hm, hd, if_neg (by omega)]
      exact ofCode_of_lt hc
    · have hm : ((if true = true then 2 ^ (63 : Nat) else 0) + c) % 2 ^ (63 : Nat) = c := by
        simp; omega
      have hd : ((if true = true then 2 ^ (63 : Nat) else 0) + c) / 2 ^ (63 : Nat) % 2 = 1 := by
        simp; omega
      rw [hm, hd, if_neg (by omega)]
      exact ofCode_of_lt hc

end Binary

namespace Double

/-- A function of the machine's mathematical library. -/
def library (g : Float → Float) (x : Double) : Double :=
  .ofBits (g (Float.ofBits x.toBits.toUInt64)).toBits.toNat

/-- A function of two numbers of the machine's mathematical library. -/
def library₂ (g : Float → Float → Float) (x y : Double) : Double :=
  .ofBits (g (Float.ofBits x.toBits.toUInt64) (Float.ofBits y.toBits.toUInt64)).toBits.toNat

end Double

end GuestBridge
