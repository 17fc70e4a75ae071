import GuestBridge.Host.Value
import GuestBridge.Number.Decimal
import GuestBridge.Number.Limbs

/-!
# Texts and values as numbers

Three readings of a text: as a whole (`numberOfText`), by its longest numeric prefix
(`parseFloat`), and by its leading digits in some radix (`parseInt`).

* `isBlank_of_isWhitespace`: blanks of the basic set are blanks.
* `numberOfText_blank`: a text of blanks counts as zero.
-/

/-! ## Blanks -/

namespace GuestBridge.Text

/-- Whether a character has the property `White_Space`. -/
def isBlank (c : Char) : Bool :=
  (0x9 ≤ c.toNat && c.toNat ≤ 0xD) || c.toNat == 0x20 || c.toNat == 0x85 || c.toNat == 0xA0 ||
    c.toNat == 0x1680 || (0x2000 ≤ c.toNat && c.toNat ≤ 0x200A) || c.toNat == 0x2028 ||
    c.toNat == 0x2029 || c.toNat == 0x202F || c.toNat == 0x205F || c.toNat == 0x3000

/-- The text from its first character that is no blank. -/
def trimStart (cs : List Char) : List Char := cs.dropWhile isBlank

/-- The text without the blanks at both ends. -/
def trim (cs : List Char) : List Char := (trimStart (trimStart cs).reverse).reverse

/-- Blanks of the basic set are blanks. -/
theorem isBlank_of_isWhitespace {c : Char} (h : c.isWhitespace) : isBlank c := by
  simp only [Char.isWhitespace, Bool.or_eq_true, decide_eq_true_eq] at h
  rcases h with ((rfl | rfl) | rfl) | rfl <;> decide

end GuestBridge.Text

/-! ## Numbers -/

namespace GuestBridge.Conversion

-- Powers are those of the core library, whatever is imported besides.
attribute [local instance (high)] instPowNat

/-- The value of a digit in bases up to thirty-six. -/
def digit? (c : Char) : Option Nat :=
  if c.isDigit then some (c.toNat - '0'.toNat)
  else if 'a' ≤ c ∧ c ≤ 'z' then some (c.toNat - 'a'.toNat + 10)
  else if 'A' ≤ c ∧ c ≤ 'Z' then some (c.toNat - 'A'.toNat + 10)
  else none

/-- The value of a digit in a radix. -/
def digitIn? (radix : Nat) (c : Char) : Option Nat := (digit? c).filter (· < radix)

/-- The rest after the mark of a hexadecimal number. -/
def afterHexMark? : List Char → Option (List Char)
  | '0' :: 'x' :: cs => some cs
  | '0' :: 'X' :: cs => some cs
  | _ => none

/-- A whole text of hexadecimal digits, after an optional plus sign, as a 64-bit number. -/
def hexWord? (cs : List Char) : Option Nat := do
  let cs := match cs with
    | '+' :: cs => cs
    | cs => cs
  guard (cs ≠ [])
  let digits ← cs.mapM (digitIn? 16)
  let n := digits.foldl (fun n d => 16 * n + d) 0
  guard (n < 2 ^ (64 : Nat))
  return n

/-- Whether a character is a letter other than the exponent marks. -/
def isForeignLetter (c : Char) : Bool := c.isAlpha && c != 'e' && c != 'E'

/-- A whole text as a number, blanks at its ends aside: nothing counts as zero; a hexadecimal
number, infinity by name, or a decimal literal counts as itself; all else is no number. -/
def numberOfText (text : String) : Double :=
  let cs := Text.trim text.toList
  if cs = [] then 0
  else
    match afterHexMark? cs with
    | some hex => ((hexWord? hex).map Binary.ofNat).getD .nan
    | none =>
      if cs = "Infinity".toList ∨ cs = "+Infinity".toList then .infinity false
      else if cs = "-Infinity".toList then .infinity true
      else if cs.any isForeignLetter then .nan
      else ((Decimal.read? cs).map Decimal.toDouble).getD .nan

/-- A value as a number. -/
def toNumber : HostValue → Double
  | .null => 0
  | .bool b => if b then 1 else 0
  | .number x => x
  | .bigint n => Limbs.toDouble n
  | .string s => numberOfText s.text
  | _ => .nan

/-- The number of the longest numeric prefix after leading blanks. -/
def parseFloat (text : String) : Double :=
  let cs := Text.trimStart text.toList
  if "Infinity".toList.isPrefixOf cs || "+Infinity".toList.isPrefixOf cs then .infinity false
  else if "-Infinity".toList.isPrefixOf cs then .infinity true
  else ((Decimal.readLongest? cs).map Decimal.toDouble).getD .nan

/-- The radix that an argument asks for: none if it is absent, not finite or has no integer
part. An integer part that is no radix is an error. -/
def radixOf (argument : Option Double) : Except Unit (Option Nat) :=
  match argument.bind Binary.truncate? with
  | none => .ok none
  | some 0 => .ok none
  | some r => if 2 ≤ r ∧ r ≤ 36 then .ok (some r.toNat) else .error ()

/-- Takes one digit onto a number, with the roundings of a multiplication and an addition. -/
def pushDigit (radix : Nat) (x : Double) (d : Nat) : Double := x * .ofNat radix + .ofNat d

/-- The longest run of digits of a radix. -/
def leadingDigits (radix : Nat) : List Char → List Nat
  | [] => []
  | c :: cs =>
    match digitIn? radix c with
    | some d => d :: leadingDigits radix cs
    | none => []

/-- The number of the leading digits after leading blanks and a sign. The mark of a hexadecimal
number is skipped, and sets the radix, where none or sixteen was asked for. -/
def parseInt (text : String) (argument : Option Double) : Double :=
  match radixOf argument with
  | .error () => .nan
  | .ok asked =>
    let (negative, cs) := Decimal.splitSign (Text.trimStart text.toList)
    let (radix, cs) :=
      match asked, afterHexMark? cs with
      | none, some rest => (16, rest)
      | none, none => (10, cs)
      | some 16, some rest => (16, rest)
      | some r, _ => (r, cs)
    let digits := leadingDigits radix cs
    if digits = [] then .nan
    else
      -- Every digit rounds anew, so past the exact integers this is not always the nearest number.
      let x := digits.foldl (pushDigit radix) 0
      if negative then -x else x

/-- A text of blanks counts as zero. -/
theorem numberOfText_blank {text : String} (h : Text.trim text.toList = []) :
    numberOfText text = 0 := by
  simp [numberOfText, h]

end GuestBridge.Conversion
