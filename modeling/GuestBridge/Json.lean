import GuestBridge.Number.Decimal

/-!
# JSON texts

A reader of JSON values. Whole numbers of 64 bits stay exact, all others become
floating-point numbers, and a number past their range is refused, as are control
characters in strings, surrogates without their partner, and nesting deeper than
`Json.depthLimit`.
-/

namespace GuestBridge

-- Powers are those of the core library, whatever is imported besides.
attribute [local instance (high)] instPowNat

/-- A JSON value. Fields keep the order of the text, repeated keys included. -/
inductive Json where
  | null
  | bool (b : Bool)
  /-- A whole number of at most 64 bits, without sign. -/
  | natural (n : Nat)
  /-- A whole number below zero that fits 64 bits. -/
  | negative (n : Int)
  | real (x : Double)
  | string (s : String)
  | array (items : List Json)
  | object (fields : List (String × Json))
  deriving Inhabited

namespace Json

/-- Objects and arrays nest at most this deep. -/
def depthLimit : Nat := 127

/-- The value of the last field of that name. -/
def lastField? (fields : List (String × Json)) (key : String) : Option Json :=
  (fields.reverse.find? fun f => f.1 = key).map Prod.snd

/-- Whether a character may stand between tokens. -/
def isSpace (c : Char) : Bool := c == ' ' || c == '\n' || c == '\t' || c == '\r'

/-- The rest after spaces. -/
def skipSpace (cs : List Char) : List Char := cs.dropWhile isSpace

/-! ## Strings -/

/-- A piece of a string: a character, or a 16-bit unit written as an escape. -/
inductive Piece where
  | char (c : Char)
  | unit (n : Nat)

/-- The body of a string up to its closing quote, and the rest after it. -/
def splitString : List Char → Option (List Char × List Char)
  | [] => none
  | '"' :: rest => some ([], rest)
  | '\\' :: c :: rest => (splitString rest).map fun (body, rest) => ('\\' :: c :: body, rest)
  | c :: rest => (splitString rest).map fun (body, rest) => (c :: body, rest)

/-- The value of a hexadecimal digit. -/
def hexDigit? (c : Char) : Option Nat :=
  if c.isDigit then some (c.toNat - '0'.toNat)
  else if 'a' ≤ c ∧ c ≤ 'f' then some (c.toNat - 'a'.toNat + 10)
  else if 'A' ≤ c ∧ c ≤ 'F' then some (c.toNat - 'A'.toNat + 10)
  else none

/-- The value of four hexadecimal digits. -/
def hex4? (a b c d : Char) : Option Nat := do
  return ((← hexDigit? a) * 16 + (← hexDigit? b)) * 256 + ((← hexDigit? c) * 16 + (← hexDigit? d))

/-- The character of a one-letter escape. -/
def shortEscape? : Char → Option Char
  | '"' => some '"'
  | '\\' => some '\\'
  | '/' => some '/'
  | 'b' => some '\x08'
  | 'f' => some '\x0c'
  | 'n' => some '\n'
  | 'r' => some '\r'
  | 't' => some '\t'
  | _ => none

/-- The pieces of a string's body. -/
def pieces? : List Char → Option (List Piece)
  | [] => some []
  | '\\' :: 'u' :: a :: b :: c :: d :: rest => do
    return .unit (← hex4? a b c d) :: (← pieces? rest)
  | '\\' :: e :: rest => do return .char (← shortEscape? e) :: (← pieces? rest)
  | c :: rest => if c.toNat < 0x20 ∨ c = '\\' then none else (pieces? rest).map (.char c :: ·)

/-- The characters of pieces; surrogates come in pairs only. -/
def joinPieces? : List Piece → Option (List Char)
  | [] => some []
  | .char c :: ps => (joinPieces? ps).map (c :: ·)
  | .unit u :: .unit v :: ps =>
    if 0xD800 ≤ u ∧ u < 0xDC00 then
      if 0xDC00 ≤ v ∧ v < 0xE000 then
        (joinPieces? ps).map (Char.ofNat (0x10000 + (u - 0xD800) * 0x400 + (v - 0xDC00)) :: ·)
      else none
    else if 0xDC00 ≤ u ∧ u < 0xE000 then none
    else (joinPieces? (.unit v :: ps)).map (Char.ofNat u :: ·)
  | .unit u :: ps =>
    if 0xD800 ≤ u ∧ u < 0xE000 then none else (joinPieces? ps).map (Char.ofNat u :: ·)

/-- A string after its opening quote, and the rest. -/
def readString? (cs : List Char) : Option (String × List Char) := do
  let (body, rest) ← splitString cs
  return (String.ofList (← joinPieces? (← pieces? body)), rest)

/-! ## Numbers -/

/-- Whole numbers below this keep all their digits. -/
def wordSize : Nat := 2 ^ (64 : Nat)

/-- Takes digits onto `n` while the number fits a word; gives also how many were taken. -/
def takeDigits (n : Nat) : List Char → Nat × Nat
  | [] => (n, 0)
  | c :: cs =>
    let m := 10 * n + Decimal.digitValue c
    if m < wordSize then
      let (r, k) := takeDigits m cs
      (r, k + 1)
    else (n, 0)

/-- The largest power of ten that a number can be scaled by at once. -/
def scaleLimit : Nat := 308

/-- Scales a number by a power of ten, with one rounding for each factor; none if the result
leaves the range. Past two factors a number scaled down is zero. -/
def scale? : Nat → Double → Int → Option Double
  | 0, x, _ => some x
  | n + 1, x, e =>
    if e.natAbs ≤ scaleLimit then
      let power : Double := .ofNat (10 ^ e.natAbs)
      if 0 ≤ e then
        let y := x * power
        if y.isFinite then some y else none
      else some (x / power)
    else if x.equals 0 then some x
    else if 0 ≤ e then none
    else scale? n (x / .ofNat (10 ^ scaleLimit)) (e + scaleLimit)

/-- The largest exponent that is taken at its word. -/
def exponentLimit : Nat := 2 ^ (31 : Nat) - 1

/-- The number of a sign, digits, and an exponent of ten with its own sign. -/
def realOf? (negative : Bool) (whole fraction : List Char) (down : Bool) (exponent : Nat) :
    Option Double :=
  let (n, taken) := takeDigits 0 whole
  let (n, takenFraction) := takeDigits n fraction
  let start : Int := ((whole.length - taken : Nat) : Int) - takenFraction
  let magnitude? : Option Double :=
    if exponentLimit < exponent then (if n ≠ 0 ∧ ¬down then none else some (.zero false))
    else scale? 4 (.ofNat n) (if down then start - exponent else start + exponent)
  magnitude?.map fun x => if negative then -x else x

/-- The exponent part of a number, and the rest: whether it scales down, and its digits. -/
def readExponent? : List Char → Option ((Bool × List Char) × List Char)
  | c :: cs =>
    if c = 'e' ∨ c = 'E' then
      let (down, cs) := Decimal.splitSign cs
      let (digits, rest) := Decimal.splitDigits cs
      if digits = [] then none else some ((down, digits), rest)
    else some ((false, []), c :: cs)
  | [] => some ((false, []), [])

/-- A number, and the rest. -/
def readNumber? (cs : List Char) : Option (Json × List Char) := do
  let (minus, cs) := match cs with
    | '-' :: cs => (true, cs)
    | cs => (false, cs)
  let (whole, cs) := Decimal.splitDigits cs
  guard (whole ≠ [] ∧ (whole.head? = some '0' → whole.length = 1))
  let hasPoint := cs.head? = some '.'
  let (fraction, cs) := Decimal.splitFraction cs
  guard (hasPoint → fraction ≠ [])
  let ((down, exponent), rest) ← readExponent? cs
  let n := Decimal.ofDigits whole
  if fraction = [] ∧ exponent = [] then
    if ¬minus ∧ n < wordSize then return (natural n, rest)
    if minus ∧ n ≠ 0 ∧ n ≤ wordSize / 2 then return (negative (-n), rest)
  return (real (← realOf? minus whole fraction down (Decimal.ofDigits exponent)), rest)

/-! ## Values -/

/-- The rest after a word that must come next. -/
def expect? : List Char → List Char → Option (List Char)
  | [], cs => some cs
  | w :: ws, c :: cs => if w = c then expect? ws cs else none
  | _ :: _, [] => none

mutual

/-- A value, and the rest. `depth` levels may still open; `fuel` bounds the number of values. -/
def readValue? (fuel depth : Nat) (cs : List Char) : Option (Json × List Char) :=
  match fuel with
  | 0 => none
  | fuel + 1 =>
    match skipSpace cs with
    | 'n' :: cs => (expect? "ull".toList cs).map (null, ·)
    | 't' :: cs => (expect? "rue".toList cs).map (bool true, ·)
    | 'f' :: cs => (expect? "alse".toList cs).map (bool false, ·)
    | '"' :: cs => (readString? cs).map fun (s, rest) => (string s, rest)
    | '[' :: cs =>
      match depth with
      | 0 => none
      | depth + 1 =>
        match skipSpace cs with
        | ']' :: rest => some (array [], rest)
        | cs => (readItems? fuel depth cs).map fun (items, rest) => (array items, rest)
    | '{' :: cs =>
      match depth with
      | 0 => none
      | depth + 1 =>
        match skipSpace cs with
        | '}' :: rest => some (object [], rest)
        | cs => (readFields? fuel depth cs).map fun (fields, rest) => (object fields, rest)
    | cs => readNumber? cs

/-- The items of an array from its next item on, and the rest after the closing bracket. -/
def readItems? (fuel depth : Nat) (cs : List Char) : Option (List Json × List Char) :=
  match fuel with
  | 0 => none
  | fuel + 1 => do
    let (item, cs) ← readValue? fuel depth cs
    match skipSpace cs with
    | ',' :: cs =>
      let (items, rest) ← readItems? fuel depth cs
      return (item :: items, rest)
    | ']' :: rest => return ([item], rest)
    | _ => none

/-- The fields of an object from its next field on, and the rest after the closing brace. -/
def readFields? (fuel depth : Nat) (cs : List Char) : Option (List (String × Json) × List Char) :=
  match fuel with
  | 0 => none
  | fuel + 1 =>
    match skipSpace cs with
    | '"' :: cs => do
      let (key, cs) ← readString? cs
      match skipSpace cs with
      | ':' :: cs =>
        let (value, cs) ← readValue? fuel depth cs
        match skipSpace cs with
        | ',' :: cs =>
          let (fields, rest) ← readFields? fuel depth cs
          return ((key, value) :: fields, rest)
        | '}' :: rest => return ([(key, value)], rest)
        | _ => none
      | _ => none
    | _ => none

end

/-- A whole text as one value. Every value takes a character, so the text's length bounds their
number. -/
def read? (text : String) : Option Json := do
  let cs := text.toList
  let (value, rest) ← readValue? (2 * cs.length + 1) depthLimit cs
  guard (skipSpace rest = [])
  return value

end Json

end GuestBridge
