import GuestBridge.Console
import GuestBridge.Guest.Value
import GuestBridge.Instant
import GuestBridge.Math
import GuestBridge.OrderedMap

/-!
# Imports

The functions that the host offers to a guest, by module and name. An embedder may
add imports of its own, and replace or remove the others.

* `get?_define`: a definition changes its own import only.
* `get?_remove`: a removed import is gone, and the others stay.
-/

namespace GuestBridge

/-- The imports through which identity, weak references and calls cross. -/
inductive Interop where
  | wrap | unwrap | synthesizeClass | defineMethod | defineProperty | hashCode
  | createWeakRef | deref | createStringWeakRef | stringDeref
  | callFunction | construct | callMethod | asFunction | functionAsObject
  | getProperty | setProperty | createObject | typeOf
  deriving DecidableEq, Repr

namespace Interop

/-- The name of an interop import. -/
def name : Interop → String
  | wrap => "wrap" | unwrap => "unwrap" | synthesizeClass => "synthesizeClass"
  | defineMethod => "defineMethod" | defineProperty => "defineProperty"
  | hashCode => "hashCode" | createWeakRef => "createWeakRef" | deref => "deref"
  | createStringWeakRef => "createStringWeakRef" | stringDeref => "stringDeref"
  | callFunction => "callFunction" | construct => "construct" | callMethod => "callMethod"
  | asFunction => "asFunction" | functionAsObject => "functionAsObject"
  | getProperty => "getProperty" | setProperty => "setProperty"
  | createObject => "createObject" | typeOf => "typeOf"

/-- All interop imports, in the order in which they are listed. -/
def all : List Interop :=
  [wrap, unwrap, synthesizeClass, defineMethod, defineProperty, hashCode, createWeakRef, deref,
    createStringWeakRef, stringDeref, callFunction, construct, callMethod, asFunction,
    functionAsObject, getProperty, setProperty, createObject, typeOf]

end Interop

/-- Imports that an embedder adds. -/
inductive CustomImport where
  /-- Returns nothing. -/
  | nothing
  /-- Returns the first argument, if there is one. -/
  | first
  /-- Returns the number of arguments. -/
  | argumentCount
  /-- Raises a guest error. -/
  | fail (text : String)
  /-- Returns a value that is made anew for each call. -/
  | value (description : GuestExpr)

/-- A function that a guest can import. -/
inductive ImportFunction where
  | putChar (stream : Stream)
  /-- The milliseconds of the present instant. -/
  | clock
  | composeDate (zone : Zone)
  | getDateField (zone : Zone) (field : DateField)
  | setDateField (zone : Zone) (field : DateField)
  | weekday (zone : Zone)
  | minutesBehind
  | unary (function : UnaryFunction)
  | binary (function : BinaryFunction)
  /-- A random number from zero up to one. -/
  | random
  | interop (import_ : Interop)
  | custom (import_ : CustomImport)

/-- A change of the imports before the guest sees them. -/
inductive ImportEdit where
  | define (module name : String) (import_ : CustomImport)
  | remove (module name : String)

/-- Imports by module and name, both in the order of definition. -/
structure ImportObject where
  modules : OrderedMap String (OrderedMap String ImportFunction) := {}

namespace ImportObject

/-- The module of console output and of the clock. -/
def consoleModule : String := "teavm"

/-- The module of dates. -/
def dateModule : String := "teavmDate"

/-- The module of the mathematical library. -/
def mathModule : String := "teavmMath"

/-- The module of the interop imports. -/
def interopModule : String := "teavmJso"

/-- Adds or replaces an import. -/
def define (o : ImportObject) (module name : String) (f : ImportFunction) : ImportObject :=
  ⟨o.modules.insert module (((o.modules.find? module).getD {}).insert name f)⟩

/-- The import of that module and name. -/
def get? (o : ImportObject) (module name : String) : Option ImportFunction :=
  (o.modules.find? module).bind fun m => m.find? name

/-- Whether there is an import of that module and name. -/
def contains (o : ImportObject) (module name : String) : Bool := (o.get? module name).isSome

/-- Removes an import; its module stays. -/
def remove (o : ImportObject) (module name : String) : ImportObject :=
  match o.modules.find? module with
  | some m => ⟨o.modules.insert module (m.erase name)⟩
  | none => o

/-- Changes the imports. -/
def edit (o : ImportObject) : ImportEdit → ImportObject
  | .define module name f => o.define module name (.custom f)
  | .remove module name => o.remove module name

/-- The import of that module and name, for a guest that needs it. -/
def resolve (o : ImportObject) (module name : String) : Except BridgeError ImportFunction :=
  (o.get? module name).elim (.error (.missingImport module name)) .ok

/-- The names of a module's imports. -/
def names (o : ImportObject) (module : String) : List String :=
  (o.modules.find? module).elim [] OrderedMap.keys

/-- The date imports of one zone; the names for Greenwich carry a mark. -/
def dateImports (zone : Zone) (mark : String) : List (String × ImportFunction) :=
  DateField.all.map (fun f => ("get" ++ mark ++ f.name, .getDateField zone f)) ++
    DateField.all.map (fun f => ("set" ++ mark ++ f.name, .setDateField zone f)) ++
    [("get" ++ mark ++ "Day", .weekday zone)]

/-- The imports that every guest gets, by module. -/
def defaultModules : List (String × List (String × ImportFunction)) :=
  [(consoleModule,
      [("putcharStdout", .putChar .stdout), ("putcharStderr", .putChar .stderr),
        ("currentTimeMillis", .clock)]),
    (dateModule,
      [("now", .clock), ("create", .composeDate .eastern), ("createFromUTC", .composeDate .utc)] ++
        dateImports .eastern "" ++ dateImports .utc "UTC" ++
        [("getTimezoneOffset", .minutesBehind)]),
    (mathModule,
      UnaryFunction.all.map (fun f => (f.name, .unary f)) ++
        BinaryFunction.all.map (fun f => (f.name, .binary f)) ++ [("random", .random)]),
    (interopModule, Interop.all.map fun i => (i.name, .interop i))]

/-- The imports that every guest gets. -/
def defaults : ImportObject :=
  defaultModules.foldl (fun o m => m.2.foldl (fun o f => o.define m.1 f.1 f.2) o) {}

/-- **A definition changes its own import only.** -/
theorem get?_define (o : ImportObject) (module name : String) (f : ImportFunction)
    (module' name' : String) :
    (o.define module name f).get? module' name' =
      if module' = module ∧ name' = name then some f else o.get? module' name' := by
  simp only [get?, define, OrderedMap.find?_insert]
  by_cases hm : module' = module
  · subst hm
    by_cases hn : name' = name
    · simp [hn]
    · cases h : o.modules.find? module' <;> simp [hn, OrderedMap.find?_insert]
  · simp [hm]

/-- **A removed import is gone**, and the others stay. -/
theorem get?_remove (o : ImportObject) (module name module' name' : String) :
    (o.remove module name).get? module' name' =
      if module' = module ∧ name' = name then none else o.get? module' name' := by
  unfold remove
  split
  · next m h =>
    simp only [get?, OrderedMap.find?_insert]
    by_cases hm : module' = module
    · subst hm
      by_cases hn : name' = name <;> simp [h, hn, OrderedMap.find?_erase]
    · simp [hm]
  · next h =>
    by_cases hm : module' = module
    · simp [get?, hm, h]
    · simp [hm]

end ImportObject

end GuestBridge
