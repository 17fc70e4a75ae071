import GuestBridge.Number.Binary

/-!
# Decimal literals

A literal is an optional sign, digits with an optional point and at least one
digit, and an optional exponent. `Decimal.read?` reads a whole text as one literal;
`Decimal.readLongest?` reads the longest prefix that is one.

* `splitDigits_append`, `isDigit_of_mem_splitDigits`: a run of digits holds digits only, and with
  what follows it makes up the text.
-/

namespace GuestBridge

/-- The number a decimal literal denotes: `± digits · 10 ^ exponent`. -/
structure Decimal where
  negative : Bool
  digits : Nat
  exponent : Int
  deriving DecidableEq, Repr

namespace Decimal

/-- The value of a decimal digit. -/
def digitValue (c : Char) : Nat := c.toNat - '0'.toNat

/-- The value of a run of digits. -/
def ofDigits (cs : List Char) : Nat := cs.foldl (fun n c => 10 * n + digitValue c) 0

/-- The longest run of digits and the rest. -/
def splitDigits (cs : List Char) : List Char × List Char :=
  (cs.takeWhile Char.isDigit, cs.dropWhile Char.isDigit)

/-- A sign, if there is one, and the rest. -/
def splitSign : List Char → Bool × List Char
  | '-' :: cs => (true, cs)
  | '+' :: cs => (false, cs)
  | cs => (false, cs)

/-- The digits after a point, if there is one, and the rest. -/
def splitFraction : List Char → List Char × List Char
  | '.' :: cs => splitDigits cs
  | cs => ([], cs)

/-- A whole text as an exponent part: nothing, or a marker, a sign and digits. -/
def readExponent? : List Char → Option Int
  | [] => some 0
  | c :: cs =>
    if c = 'e' ∨ c = 'E' then
      let (negative, cs) := splitSign cs
      let (digits, rest) := splitDigits cs
      if digits ≠ [] ∧ rest = [] then
        some (if negative then -(ofDigits digits : Int) else ofDigits digits)
      else none
    else none

/-- A whole text as one literal. -/
def read? (cs : List Char) : Option Decimal := do
  let (negative, cs) := splitSign cs
  let (whole, cs) := splitDigits cs
  let (fraction, cs) := splitFraction cs
  guard (whole ≠ [] ∨ fraction ≠ [])
  let exponent ← readExponent? cs
  return ⟨negative, ofDigits (whole ++ fraction), exponent - fraction.length⟩

/-- Whether a character may occur in a literal. -/
def isLiteralChar (c : Char) : Bool :=
  c.isDigit || c == '.' || c == 'e' || c == 'E' || c == '+' || c == '-'

/-- The longest prefix that is a literal. -/
def readLongest? (cs : List Char) : Option Decimal :=
  let run := cs.takeWhile isLiteralChar
  (List.range (run.length + 1)).reverse.findSome? fun n => read? (run.take n)

/-- Exponents of ten past this are past every finite magnitude, either way. -/
def exponentBound : Int := 400

/-- The number nearest to a literal. A magnitude past the range is settled by its number of
digits alone, so that no power of ten larger than the range is computed. -/
def toDouble (d : Decimal) : Double :=
  let size : Int := (Nat.toDigits 10 d.digits).length + d.exponent
  if d.digits = 0 then .zero d.negative
  else if exponentBound < size then .infinity d.negative
  else if size < -exponentBound then .zero d.negative
  else
    let magnitude : Rat := d.digits * 10 ^ d.exponent
    .ofRat (if d.negative then -magnitude else magnitude)

theorem splitDigits_append (cs : List Char) : (splitDigits cs).1 ++ (splitDigits cs).2 = cs :=
  List.takeWhile_append_dropWhile

theorem isDigit_of_mem_splitDigits {cs : List Char} {c : Char} (h : c ∈ (splitDigits cs).1) :
    c.isDigit := by
  induction cs with
  | nil => simp [splitDigits] at h
  | cons a cs ih => by_cases ha : a.isDigit <;> grind [splitDigits, List.takeWhile_cons]

end Decimal

end GuestBridge
