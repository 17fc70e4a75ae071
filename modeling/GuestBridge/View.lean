import GuestBridge.World

/-!
# What can be seen of values

A view is what an observer learns of a value: the content of a primitive, and of
objects and symbols a text and the variables that hold the very same one.
-/

namespace GuestBridge

/-- What can be seen of a host value. -/
inductive HostView where
  | undefined
  | null
  | bool (b : Bool)
  | number (x : Double)
  | bigint (n : Int)
  | string (text : String)
  | symbol (text : String) (holders : List String)
  | object (text : String) (holders : List String)
  deriving DecidableEq, Repr

/-- What can be seen of a guest value. -/
inductive GuestView where
  | i32 (n : Int32)
  | i64 (n : Int64)
  | f32 (x : Single)
  | f64 (x : Double)
  | ref (handle : Option Handle)
  | external (value : HostView)
  | entry (name : String)
  deriving DecidableEq, Repr

/-- What can be seen of the result of an import. -/
inductive ImportView where
  | nothing
  /-- A time, of which it is told only whether it can be the present one. -/
  | clock (credible : Bool)
  /-- A random number, of which it is told only whether it lies in the range of such numbers. -/
  | random (inRange : Bool)
  | value (v : GuestView)
  deriving DecidableEq, Repr

namespace World

/-- The variables that hold the object or symbol of an identity, in alphabetical order. -/
def variablesHolding (w : World) (i : HostId) : List String :=
  let holders := w.bindings.entries.filterMap fun (name, v) =>
    match v with
    | .external h => if (h.identity?.map Referent.id) = some i then some name else none
    | _ => none
  holders.mergeSort fun a b => a ≤ b

/-- What can be seen of a host value. -/
def viewHost (w : World) : HostValue → HostView
  | .undefined => .undefined
  | .null => .null
  | .bool b => .bool b
  | .number x => .number x
  | .bigint n => .bigint n
  | .string s => .string s.text
  | .symbol s => .symbol (w.heap.display (.symbol s)) (w.variablesHolding s.id)
  | .object i => .object (w.heap.describeObject i) (w.variablesHolding i)

/-- What can be seen of a guest value. -/
def viewGuest (w : World) : GuestValue → GuestView
  | .i32 n => .i32 n
  | .i64 n => .i64 n
  | .f32 x => .f32 x
  | .f64 x => .f64 x
  | .ref h => .ref h
  | .external v => .external (w.viewHost v)
  | .entry e => .entry e.name

end World

namespace ImportObject

/-- Whether the last bits of the results of an import are not settled. -/
def isCoarse (module name : String) : Bool :=
  module = mathModule &&
    ((UnaryFunction.all.any fun f => f.name = name && !f.isExact) ||
      (BinaryFunction.all.any fun f => f.name = name && !f.isExact))

/-- Whether an import tells the time. -/
def isClock (module name : String) : Bool :=
  (module = consoleModule && name = "currentTimeMillis") || (module = dateModule && name = "now")

/-- Whether an import gives a random number. -/
def isRandom (module name : String) : Bool := module = mathModule && name = "random"

/-- Whether a number lies from zero up to one. -/
def isFraction (x : Double) : Bool := x.toRat?.any fun q => 0 ≤ q && q < 1

end ImportObject

namespace World

/-- What can be seen of the result of an import. -/
def viewImport (w : World) (module name : String) (result : Option GuestValue) : ImportView :=
  match result with
  | none => .nothing
  | some (.f64 x) =>
    if ImportObject.isClock module name then .clock (Instant.isCredible x)
    else if ImportObject.isRandom module name then .random (ImportObject.isFraction x)
    else if ImportObject.isCoarse module name then .value (.f64 x.coarse)
    else .value (.f64 x)
  | some v => .value (w.viewGuest v)

end World

end GuestBridge
