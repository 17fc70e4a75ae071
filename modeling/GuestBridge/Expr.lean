import GuestBridge.World

/-!
# Values from descriptions

Reading a description makes the value that it describes: new objects, strings and
symbols, functions that hold their constants, and guest strings.
-/

namespace GuestBridge

/-- The host value that a guest value shows: itself, or the value it denotes. -/
def GuestValue.shown (v : GuestValue) : HostValue :=
  match v.toHost with
  | .ok v => v
  | .error _ => .undefined

/-- A name whose characters other than ASCII letters, digits, `_` and `$` are replaced by `_`,
as is a digit in front. An empty name becomes `_`. -/
def identifierOf (name : String) : String :=
  let isStart (c : Char) : Bool := c.isAlpha || c == '_' || c == '$'
  match name.toList with
  | [] => "_"
  | c :: cs =>
    String.ofList ((if isStart c then c else '_') ::
      cs.map fun c => if isStart c || c.isDigit then c else '_')

namespace BridgeM

/-- A fresh wrapper class under the identifier of a name. -/
def synthesizeClass (name : String) : BridgeM HostId := do
  let definition ← allocCell (.definition { name := identifierOf name })
  allocObject (.class definition)

/-- The value of a variable; one that is not set is undefined. -/
def variableValue (name : String) : BridgeM GuestValue := do
  return ((← get).bindings.find? name).getD (.external .undefined)

end BridgeM

open BridgeM

mutual

/-- The host value of a description. -/
def HostExpr.read : HostExpr → BridgeM HostValue
  | .undefined => pure .undefined
  | .null => pure .null
  | .bool b => pure (.bool b)
  | .number x => pure (.number x)
  | .bigint n => pure (.bigint n)
  | .string s => allocString s
  | .symbol d => allocSymbol d
  | .object fields => do
    let properties ← readFields fields
    return .object (← allocObject .plain (.ofList properties))
  | .function name body => do
    let body ← readBody body
    return .object (← allocObject (.function { name, behaviour := .body body }))
  | .constructor name call construct => do
    let call ← readBody call
    let construct ← readBody construct
    return .object
      (← allocObject (.function { name, behaviour := .body call, construct := some construct }))
  | .class name => return .object (← synthesizeClass name)
  | .variable name => return (← variableValue name).shown

/-- The properties of a description's fields. -/
def readFields : List (String × HostExpr) → BridgeM (List (String × HostValue))
  | [] => pure []
  | field :: fields => do
    let property ← readField field
    return property :: (← readFields fields)

/-- The property of a field. -/
def readField : String × HostExpr → BridgeM (String × HostValue)
  | (key, e) => do return (key, ← e.read)

/-- A body with its constant made. -/
def readBody : Body HostExpr GuestExpr → BridgeM (Body HostValue GuestExpr)
  | .undefined => pure .undefined
  | .this => pure .this
  | .argument i => pure (.argument i)
  | .argumentCount => pure .argumentCount
  | .const e => do return .const (← e.read)
  | .join => pure .join
  | .sum => pure .sum
  | .fail s => pure (.fail s)
  | .get key => pure (.get key)
  | .make keys => pure (.make keys)
  | .load cell => pure (.load cell)
  | .save cell => pure (.save cell)
  | .apply => pure .apply
  | .callImport name args => pure (.callImport name args)

end

/-- The guest value of a description. -/
def GuestExpr.read : GuestExpr → BridgeM GuestValue
  | .i32 n => pure (.i32 n)
  | .i64 n => pure (.i64 n)
  | .f32 x => pure (.f32 x)
  | .f64 x => pure (.f64 x)
  | .ref h => pure (.ref h)
  | .external e => do return .external (← e.read)
  | .entry name body => do return .entry ⟨name, ← readBody body⟩
  | .variable name => variableValue name
  | .text s => do return .ref (some (← changeGuest fun g => g.allocString s))

end GuestBridge
