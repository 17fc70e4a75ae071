import GuestBridge.Host.Expr
import GuestBridge.Error

/-!
# Guest values

The calling convention: everything that crosses does so as an argument or a result
of one of these shapes. A truth value crosses as a narrow integer.

* `boolOfCode_codeOfBool`: a truth value comes back as it was sent.
-/

namespace GuestBridge

/-- The integer that stands for a truth value. -/
def codeOfBool (b : Bool) : Int32 := if b then 1 else 0

/-- The truth value of an integer: all but zero are true. -/
def boolOfCode (code : Int32) : Bool := code != 0

theorem boolOfCode_codeOfBool (b : Bool) : boolOfCode (codeOfBool b) = b := by
  cases b <;> decide

/-- A function of the guest that the host can call. -/
structure GuestEntry where
  name : String
  body : Body HostValue GuestExpr

/-- What the constants of a body hold. -/
def Body.holds : Body HostValue GuestExpr → List HostId
  | .const v => v.holds
  | _ => []

/-- A value of the guest's calling convention. -/
inductive GuestValue where
  | i32 (n : Int32)
  | i64 (n : Int64)
  | f32 (x : Single)
  | f64 (x : Double)
  | ref (handle : Option Handle)
  /-- A host value that the guest cannot look into. -/
  | external (value : HostValue)
  | entry (entry : GuestEntry)
  deriving Inhabited

namespace GuestValue

/-- The word for the shape of a value. -/
def kind : GuestValue → String
  | i32 _ => "i32"
  | i64 _ => "i64"
  | f32 _ => "f32"
  | f64 _ => "f64"
  | ref _ => "ref"
  | external _ => "externref"
  | entry _ => "funcref"

/-- What a guest value keeps alive on the host side. -/
def holds : GuestValue → List HostId
  | external v => v.holds
  | entry e => e.body.holds
  | _ => []

/-- The error of a value that has another shape. -/
def mismatch (v : GuestValue) (expected : String) : BridgeError := .typeMismatch expected v.kind

/-- The value as a narrow integer. -/
def asI32 : GuestValue → Except BridgeError Int32
  | i32 n => .ok n
  | v => .error (v.mismatch "i32")

/-- The value as a wide float; the narrow one widens. -/
def asF64 : GuestValue → Except BridgeError Double
  | f64 x => .ok x
  | f32 x => .ok x.convert
  | v => .error (v.mismatch "f64")

/-- The value as a reference. -/
def asHandle : GuestValue → Except BridgeError (Option Handle)
  | ref h => .ok h
  | v => .error (v.mismatch "ref")

/-- The value as a host value. -/
def asExternal : GuestValue → Except BridgeError HostValue
  | external v => .ok v
  | v => .error (v.mismatch "externref")

/-- The value as a guest function. -/
def asEntry : GuestValue → Except BridgeError GuestEntry
  | entry e => .ok e
  | v => .error (v.mismatch "funcref")

/-- The value as a number of any width. -/
def asNumber : GuestValue → Except BridgeError Double
  | i32 n => .ok (.ofInt n.toInt)
  | i64 n => .ok (.ofInt n.toInt)
  | v => v.asF64

/-- The host value that a guest value denotes. A reference to a guest object denotes none by
itself: it takes a class to cross. -/
def toHost : GuestValue → Except BridgeError HostValue
  | i32 n => .ok (.number (.ofInt n.toInt))
  | i64 n => .ok (.number (.ofInt n.toInt))
  | f32 x => .ok (.number x.convert)
  | f64 x => .ok (.number x)
  | ref none => .ok .null
  | external v => .ok v
  | v => .error (v.mismatch "host value")

end GuestValue

end GuestBridge
