import GuestBridge.OrderedMap
import GuestBridge.Guest.Value

/-!
# Host objects

An object has own properties and a kind: plain, callable, the constructor of a
wrapper class, an instance of one, or a weak reference. Classes and their
instances share one definition, which holds methods and accessors. The functions that a
configuration can expose by name are callables too.

* `Global.ofName?_name`: every one of these functions is found under its name.
-/

namespace GuestBridge

/-- The functions that a host offers by name. -/
inductive Global where
  | parseInt
  | parseFloat
  | isNaN
  | isFinite
  | string
  | number
  deriving DecidableEq, Repr

namespace Global

/-- The name of a global function. -/
def name : Global → String
  | parseInt => "parseInt"
  | parseFloat => "parseFloat"
  | isNaN => "isNaN"
  | isFinite => "isFinite"
  | string => "String"
  | number => "Number"

/-- All global functions, in the order in which they are listed. -/
def all : List Global := [parseInt, parseFloat, isNaN, isFinite, string, number]

/-- The global function of a name. -/
def ofName? (s : String) : Option Global := all.find? fun g => g.name = s

/-- **Every function is found under its name.** -/
theorem ofName?_name (g : Global) : ofName? g.name = some g := by
  cases g <;> decide

end Global

/-- What a callable does when called. -/
inductive Behaviour where
  | body (body : Body HostValue GuestExpr)
  /-- Passes `this` and the arguments on to a guest function. -/
  | forward (entry : GuestEntry)
  | global (g : Global)
  /-- Calls a property of a receiver, looked up at the call. -/
  | bound (receiver : HostId) (property : String)

/-- What a behaviour keeps alive. A bound callable holds its receiver. -/
def Behaviour.holds : Behaviour → List HostId
  | body b => b.holds
  | forward e => e.body.holds
  | global _ => []
  | bound receiver _ => [receiver]

/-- A callable object's name, its behaviour, and what it does as a constructor, if it is one. -/
structure Callable where
  name : String
  behaviour : Behaviour
  construct : Option (Body HostValue GuestExpr) := none

/-- The kinds of objects. -/
inductive ObjectKind where
  | plain
  | function (callable : Callable)
  /-- The constructor of a wrapper class. -/
  | class (definition : HostId)
  /-- The host's stand-in for one guest object. -/
  | wrapper (definition : HostId) (handle : Handle)
  | weakRef (target : Referent)

/-- An object: its kind, its own properties, and the bound callables extracted from it, which it
does not hold. -/
structure HostObject where
  kind : ObjectKind
  properties : OrderedMap String HostValue := {}
  methodCache : OrderedMap String HostId := {}

/-- A property that guest functions read and write. -/
structure Accessor where
  getter : GuestEntry
  setter : Option GuestEntry

/-- What a guest accessor keeps alive. -/
def Accessor.holds (a : Accessor) : List HostId :=
  a.getter.body.holds ++ (a.setter.elim [] fun e => e.body.holds)

/-- The members of a wrapper class. -/
structure ClassDefinition where
  name : String
  methods : OrderedMap String HostId := {}
  accessors : OrderedMap String Accessor := {}

/-- Whether a class has a method or an accessor of that name. -/
def ClassDefinition.hasMember (c : ClassDefinition) (name : String) : Bool :=
  c.methods.contains name || c.accessors.contains name

/-- What stands behind an identity. -/
inductive Cell where
  | string (text : String)
  | symbol (description : Option String)
  | object (o : HostObject)
  | definition (c : ClassDefinition)

/-- What an object kind keeps alive. A weak reference holds nothing. -/
def ObjectKind.holds : ObjectKind → List HostId
  | plain => []
  | function c => c.behaviour.holds ++ c.construct.elim [] Body.holds
  | .class d => [d]
  | wrapper d _ => [d]
  | weakRef _ => []

/-- What a cell keeps alive. -/
def Cell.holds : Cell → List HostId
  | string _ => []
  | symbol _ => []
  | object o => o.kind.holds ++ o.properties.values.flatMap HostValue.holds
  | definition c => c.methods.values ++ c.accessors.values.flatMap Accessor.holds

end GuestBridge
