import GuestBridge.Number.Shortest

/-!
# Host values

A host value is a primitive or refers to an object. Objects and symbols have an
identity; so do strings, which weak references to strings observe, though equality
of strings goes by their text.

* `strictEquals_comm`: strict equality is symmetric.
-/

namespace GuestBridge

/-- The identity of an object, symbol or string. No identity is given twice. -/
structure HostId where
  index : Nat
  deriving DecidableEq, Repr, Inhabited

/-- A host string: its identity and its text. -/
structure HostString where
  id : HostId
  text : String
  deriving DecidableEq, Repr

/-- A host symbol: its identity and its description. -/
structure HostSymbol where
  id : HostId
  description : Option String
  deriving DecidableEq, Repr

/-- A value of the host. -/
inductive HostValue where
  | undefined
  | null
  | bool (b : Bool)
  | number (x : Double)
  | bigint (n : Int)
  | string (s : HostString)
  | symbol (s : HostSymbol)
  | object (id : HostId)
  deriving DecidableEq, Repr, Inhabited

/-- The kinds of values that error texts and the `typeof` operator tell apart. -/
inductive Kind where
  | undefined
  | null
  | boolean
  | number
  | bigint
  | string
  | symbol
  | object
  | function
  deriving DecidableEq, Repr

/-- The word for a kind. -/
def Kind.name : Kind → String
  | undefined => "undefined"
  | null => "null"
  | boolean => "boolean"
  | number => "number"
  | bigint => "bigint"
  | string => "string"
  | symbol => "symbol"
  | object => "object"
  | function => "function"

/-- The kind that the `typeof` operator shows: null counts as an object. -/
def Kind.typeOf : Kind → Kind
  | null => object
  | k => k

/-- What a weak link leads to. -/
inductive Referent where
  | object (id : HostId)
  | symbol (s : HostSymbol)
  | string (s : HostString)
  deriving DecidableEq, Repr

namespace Referent

/-- The identity of a referent. -/
def id : Referent → HostId
  | object id => id
  | symbol s => s.id
  | string s => s.id

/-- The value of a referent. -/
def toValue : Referent → HostValue
  | object id => .object id
  | symbol s => .symbol s
  | string s => .string s

/-- Whether the referent is a string. -/
def isString : Referent → Bool
  | string _ => true
  | _ => false

end Referent

namespace HostValue

/-- What the value holds: its own identity, if it has one. -/
def holds : HostValue → List HostId
  | string s => [s.id]
  | symbol s => [s.id]
  | object id => [id]
  | _ => []

/-- The referent of a value that is the same only as itself: an object or a symbol. -/
def identity? : HostValue → Option Referent
  | object id => some (.object id)
  | symbol s => some (.symbol s)
  | _ => none

/-- Whether the value is an object or a symbol. -/
def hasIdentity (v : HostValue) : Bool := v.identity?.isSome

/-- The identity of an object. -/
def object? : HostValue → Option HostId
  | object id => some id
  | _ => none

/-- The number of a numeric value. -/
def number? : HostValue → Option Double
  | number x => some x
  | _ => none

/-- Equality that converts nothing: numbers numerically, strings by text, objects and symbols by
identity. -/
def strictEquals : HostValue → HostValue → Bool
  | undefined, undefined => true
  | null, null => true
  | bool a, bool b => a == b
  | number x, number y => x.equals y
  | bigint m, bigint n => m == n
  | string s, string t => s.text == t.text
  | symbol s, symbol t => s.id == t.id
  | object a, object b => a == b
  | _, _ => false

/-- Strict equality is symmetric. -/
theorem strictEquals_comm (v w : HostValue) : v.strictEquals w = w.strictEquals v := by
  cases v <;> cases w <;> first | rfl | exact Binary.equals_comm .. | exact BEq.comm

end HostValue

end GuestBridge
