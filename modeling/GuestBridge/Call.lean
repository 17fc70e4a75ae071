import GuestBridge.Crossing
import GuestBridge.Expr
import GuestBridge.Host.Conversion

/-!
# Calls

Properties, calls and imports. What a callable does is data, and a `Runner` carries
it out; property access, calls and imports are written over any runner, and
`Runner.ofDepth` ties them together, with a bound on how deep calls nest.

* `runner_step`: a call at depth `n + 1` makes its own calls at depth `n`.
-/

namespace GuestBridge

/-- Carries out a behaviour on `this` and arguments. -/
abbrev Runner := Behaviour → HostValue → List HostValue → BridgeM HostValue

namespace Global

/-- The result of a global function. A string result is a new string. -/
def apply (g : Global) (args : List HostValue) : BridgeM HostValue := do
  let v := args.headD .undefined
  match g with
  | .parseInt =>
    return .number (Conversion.parseInt (← BridgeM.display v) (args[1]?.bind HostValue.number?))
  | .parseFloat => return .number (Conversion.parseFloat (← BridgeM.display v))
  | .isNaN => return .bool (Conversion.toNumber v).isNaN
  | .isFinite => return .bool (Conversion.toNumber v).isFinite
  | .string => BridgeM.allocString (← BridgeM.display v)
  | .number => return .number (if args.isEmpty then 0 else Conversion.toNumber v)

end Global

namespace BridgeM

variable (run : Runner)

/-! ## Properties -/

/-- Runs a guest function; it has no `this`. -/
def invoke (entry : GuestEntry) (args : List HostValue) : BridgeM HostValue :=
  holding (entry.body.holds ++ args.flatMap HostValue.holds) do
    run (.body entry.body) .undefined args

/-- The class definition of a wrapper instance. -/
def definitionOf (o : HostObject) : BridgeM (Option ClassDefinition) := do
  match o.kind with
  | .wrapper d _ => return (← get).heap.definition? d
  | _ => return none

/-- Reads a property: an own one, or what the class of a wrapper instance offers, accessors
first; else undefined. -/
def getProperty (i : HostId) (name : String) : BridgeM HostValue := do
  let some o ← object? i | return .undefined
  if let some v := o.properties.find? name then return v
  let some c ← definitionOf o | return .undefined
  if let some accessor := c.accessors.find? name then
    return ← invoke run accessor.getter [.object i]
  return (c.methods.find? name).elim .undefined .object

/-- Writes a property: through the accessor of a wrapper instance's class, or as an own one. -/
def setProperty (i : HostId) (name : String) (v : HostValue) : BridgeM Unit := do
  let some o ← object? i | return
  match (← definitionOf o).bind fun c => c.accessors.find? name with
  | some accessor =>
    match accessor.setter with
    -- The class may be redefined while the setter runs, so the whole accessor is held.
    | some setter => holding accessor.holds do discard (invoke run setter [.object i, v])
    | none => throw (.readOnlyProperty name)
  | none => setObject i { o with properties := o.properties.insert name v }

/-- Whether there is an own property or a class member of that name. -/
def hasProperty (i : HostId) (name : String) : BridgeM Bool := do
  let some o ← object? i | return false
  if o.properties.contains name then return true
  return (← definitionOf o).elim false fun c => c.hasMember name

/-! ## Calls -/

/-- Calls an object. -/
def callObject (f : HostId) (this : HostValue) (args : List HostValue) : BridgeM HostValue :=
  holding (f :: this.holds ++ args.flatMap HostValue.holds) do
    let heap := (← get).heap
    match heap.callable? f, heap.classDefinition? f with
    | some c, _ => run c.behaviour this args
    | none, some d => throw (.notCallable (heap.className d))
    | none, none => throw (.notCallable (heap.displayObject f))

/-- Calls a value without `this`. -/
def callFunction (f : HostValue) (args : List HostValue) : BridgeM HostValue := do
  match f with
  | .object i => callObject run i .undefined args
  | v => throw (.notCallable (← display v))

/-- Makes a value with a constructor. -/
def construct (f : HostValue) (args : List HostValue) : BridgeM HostValue :=
  holding (f.holds ++ args.flatMap HostValue.holds) do
    match (f.object?.bind (← get).heap.callable?).bind Callable.construct with
    | some body => run (.body body) .undefined args
    | none => throw .notConstructible

/-- Calls what a property of an object holds, with the object as `this`. -/
def callProperty (i : HostId) (name : String) (args : List HostValue) : BridgeM HostValue :=
  holding (i :: args.flatMap HostValue.holds) do
    match ← getProperty run i name with
    | .object f => callObject run f (.object i) args
    | _ => throw (.notCallable name)

/-- Calls a global function. -/
def callGlobal (name : String) (args : List HostValue) : BridgeM HostValue := do
  let w ← get
  match w.context.globals.find? name with
  | none => throw (.notFound name)
  | some v =>
    match v.object?.filter fun f => (w.heap.callable? f).isSome with
    | some f => callObject run f .undefined args
    | none => throw (.notCallable name)

/-- Calls a method of an object, or a global function if there is no object. -/
def callMethod (v : HostValue) (name : String) (args : List HostValue) : BridgeM HostValue := do
  match v with
  | .null => callGlobal run name args
  | .object i => callProperty run i name args
  | v => throw (.notAnObject (← kindOf v).name)

/-- A callable for a property of an object. While it is alive it is given again. -/
def asFunction (v : HostValue) (property : String) : BridgeM HostId :=
  holding v.holds do
    match v with
    | .object i =>
      let alive ← aliveNow
      let cached := ((← object? i).bind fun o => o.methodCache.find? property).filter alive
      if let some f := cached then return f
      let f ← allocObject
        (.function { name := "bound " ++ property, behaviour := .bound i property })
      if let some o ← object? i then
        setObject i { o with methodCache := o.methodCache.insert property f }
      return f
    | v => throw (.notAnObject (← kindOf v).name)

/-- The receiver and the property that a callable was extracted from. -/
def originOf (f : HostId) : BridgeM (Option (HostId × String)) := do
  match ((← get).heap.callable? f).map Callable.behaviour with
  | some (.bound receiver property) => return some (receiver, property)
  | _ => return none

/-- An object with a function under a property: where the function was extracted from, if it is
still the callable given for that property, or else a new object. -/
def functionAsObject (v : HostValue) (property : String) : BridgeM HostId :=
  holding v.holds do
    match v with
    | .object f =>
      if let some (receiver, origin) ← originOf f then
        if origin = property then
          if let some o ← object? receiver then
            if o.methodCache.find? property = some f then return receiver
      allocObject .plain (.ofList [(property, v)])
    | v => throw (.notCallable (← display v))

/-! ## Classes -/

/-- The definition behind the constructor of a wrapper class. -/
def definitionBehind (class_ : HostId) : BridgeM (HostId × ClassDefinition) := do
  let heap := (← get).heap
  match heap.classDefinition? class_ with
  | some d => return (d, (heap.definition? d).getD { name := "" })
  | none => throw (.typeMismatch "wrapper class" (heap.kind (.object class_)).name)

/-- Replaces a class definition. -/
def setDefinition (d : HostId) (c : ClassDefinition) : BridgeM Unit :=
  modify fun w => { w with heap := w.heap.setCell d (.definition c) }

/-- Gives a class a method that passes the instance and the arguments to a guest function. -/
def defineMethod (class_ : HostId) (name : String) (entry : GuestEntry) : BridgeM Unit := do
  let (d, c) ← definitionBehind class_
  let method ← allocObject (.function { name, behaviour := .forward entry })
  setDefinition d { c with methods := c.methods.insert name method }

/-- Gives a class an accessor. -/
def defineProperty (class_ : HostId) (name : String) (getter : GuestEntry)
    (setter : Option GuestEntry) : BridgeM Unit := do
  let (d, c) ← definitionBehind class_
  setDefinition d { c with accessors := c.accessors.insert name ⟨getter, setter⟩ }

/-! ## Imports -/

/-- The argument at a position. -/
def argument (args : List GuestValue) (i : Nat) : BridgeM GuestValue :=
  match args[i]? with
  | some v => pure v
  | none => throw (.typeMismatch "argument" "nothing")

/-- A numeric argument. -/
def numberArg (args : List GuestValue) (i : Nat) : BridgeM Double := do
  ofExcept (← argument args i).asNumber

/-- An argument that is a host value. -/
def externalArg (args : List GuestValue) (i : Nat) : BridgeM HostValue := do
  ofExcept (← argument args i).asExternal

/-- An argument that denotes a host value. -/
def hostArg (args : List GuestValue) (i : Nat) : BridgeM HostValue := do
  ofExcept (← argument args i).toHost

/-- An argument that is a guest function. -/
def entryArg (args : List GuestValue) (i : Nat) : BridgeM GuestEntry := do
  ofExcept (← argument args i).asEntry

/-- A name: a guest string, or a host string. -/
def nameArg (args : List GuestValue) (i : Nat) : BridgeM String := do
  match ← argument args i with
  | .ref (some h) => askGuest fun g => g.readString h
  | .external (.string s) => return s.text
  | v => throw (v.mismatch "string")

/-- An argument that is an object, where a class is expected. -/
def classArg (args : List GuestValue) (i : Nat) : BridgeM HostId := do
  match ← externalArg args i with
  | .object c => return c
  | v => throw (.typeMismatch "wrapper class" (← kindOf v).name)

/-- An argument that is an object, where properties are to be accessed. -/
def objectArg (args : List GuestValue) (i : Nat) : BridgeM HostId := do
  match ← externalArg args i with
  | .object o => return o
  | v => throw (.notAnObject (← kindOf v).name)

/-- An optional argument; the null reference stands for none. -/
def optionalArg (args : List GuestValue) (i : Nat) : Option GuestValue :=
  match args[i]? with
  | some (.ref none) => none
  | v => v

/-- The host values of the arguments from a position on. -/
def restArgs (args : List GuestValue) (i : Nat) : BridgeM (List HostValue) :=
  (args.drop i).mapM fun v => ofExcept v.toHost

/-- Carries out an interop import. All arguments are read before anything is done. -/
def callInterop (import_ : Interop) (args : List GuestValue) : BridgeM (Option GuestValue) := do
  match import_ with
  | .wrap =>
    let v ← hostArg args 0
    return some (.ref (← wrap v))
  | .unwrap =>
    let handle ← ofExcept (← argument args 0).asHandle
    let class_ ← classArg args 1
    return some (.external (← unwrap handle class_))
  | .synthesizeClass =>
    let name ← nameArg args 0
    return some (.external (.object (← synthesizeClass name)))
  | .defineMethod =>
    -- Names are read first, except by the imports that access properties of an object.
    let name ← nameArg args 1
    let class_ ← classArg args 0
    let entry ← entryArg args 2
    defineMethod class_ name entry
    return none
  | .defineProperty =>
    let name ← nameArg args 1
    let setter ← (optionalArg args 3).mapM fun v => ofExcept v.asEntry
    let class_ ← classArg args 0
    let getter ← entryArg args 2
    defineProperty class_ name getter setter
    return none
  | .hashCode =>
    let v ← hostArg args 0
    return some (.i32 (← hashCode v))
  | .createWeakRef =>
    let v ← externalArg args 0
    return some (.external (.object (← createWeakRef v (optionalArg args 1))))
  | .deref =>
    let v ← externalArg args 0
    return some (.external (← deref v))
  | .createStringWeakRef =>
    let v ← externalArg args 0
    return some (.external (.object (← createStringWeakRef v (optionalArg args 1))))
  | .stringDeref =>
    let v ← externalArg args 0
    return some (.external (← derefString v))
  | .callFunction =>
    let f ← externalArg args 0
    let rest ← restArgs args 1
    return some (.external (← callFunction run f rest))
  | .construct =>
    let f ← externalArg args 0
    let rest ← restArgs args 1
    return some (.external (← construct run f rest))
  | .callMethod =>
    let v ← hostArg args 0
    let name ← nameArg args 1
    let rest ← restArgs args 2
    return some (.external (← callMethod run v name rest))
  | .asFunction =>
    let name ← nameArg args 1
    let v ← externalArg args 0
    return some (.external (.object (← asFunction v name)))
  | .functionAsObject =>
    let name ← nameArg args 1
    let v ← externalArg args 0
    return some (.external (.object (← functionAsObject v name)))
  | .getProperty =>
    let i ← objectArg args 0
    let name ← nameArg args 1
    return some (.external (← getProperty run i name))
  | .setProperty =>
    let i ← objectArg args 0
    let v ← hostArg args 2
    let name ← nameArg args 1
    setProperty run i name v
    return none
  | .createObject => return some (.external (.object (← allocObject .plain)))
  | .typeOf =>
    let v ← externalArg args 0
    let name := (← kindOf v).typeOf.name
    return some (.ref (some (← tryGuest fun g => g.makeString name)))

/-- The fields of a date from six arguments. -/
def dateArgs (args : List GuestValue) : BridgeM DateFields := do
  return {
    year := ← numberArg args 0
    month := ← numberArg args 1
    day := ← numberArg args 2
    hours := ← numberArg args 3
    minutes := ← numberArg args 4
    seconds := ← numberArg args 5
    millis := 0 }

/-- Carries out an import. -/
def callImportFunction (f : ImportFunction) (args : List GuestValue) :
    BridgeM (Option GuestValue) :=
  holding (args.flatMap GuestValue.holds) do
    match f with
    | .putChar stream =>
      let code ← ofExcept (← argument args 0).asI32
      modifyContext fun c => { c with console := c.console.put stream code }
      return none
    | .clock => return some (.f64 (← get).environment.clock)
    | .random => return some (.f64 (← get).environment.random)
    | .composeDate zone => return some (.f64 ((← dateArgs args).compose zone))
    | .getDateField zone field =>
      let fields := DateFields.ofTime? (← numberArg args 0) zone
      return some (.f64 (fields.elim .nan fun f => field.get f))
    | .setDateField zone field =>
      let time ← numberArg args 0
      let v ← numberArg args 1
      return some (.f64 (DateFields.replace time zone field v))
    | .weekday zone => return some (.f64 (Instant.weekday (← numberArg args 0) zone))
    | .minutesBehind => return some (.f64 (Instant.minutesBehind (← numberArg args 0)))
    | .unary f => return some (.f64 (f.apply (← numberArg args 0)))
    | .binary f =>
      let x ← numberArg args 0
      let y ← numberArg args 1
      return some (.f64 (f.apply x y))
    | .interop i => callInterop run i args
    | .custom .nothing => return none
    | .custom .first => return args.head?
    | .custom .argumentCount => return some (.i32 (Int32.ofNat args.length))
    | .custom (.fail text) => throw (.guest text)
    | .custom (.value e) => return some (← e.read)

/-- Calls an import out of several. -/
def callFrom (imports : ImportObject) (module name : String) (args : List GuestValue) :
    BridgeM (Option GuestValue) := do
  callImportFunction run (← ofExcept (imports.resolve module name)) args

/-- Has the guest call one of its imports. -/
def callImport (module name : String) (args : List GuestValue) :
    BridgeM (Option GuestValue) := do
  callFrom run (← guest).imports module name args

/-! ## Bodies and behaviours -/

/-- The host value that a function gives for the result of an import: a handle as text. -/
def hostOfResult : Option GuestValue → BridgeM HostValue
  | none => pure .undefined
  | some (.ref none) => allocString "null"
  | some (.ref (some h)) => allocString h.display
  | some v => ofExcept v.toHost

/-- Carries out a body. -/
def performBody (body : Body HostValue GuestExpr) (this : HostValue) (args : List HostValue) :
    BridgeM HostValue := do
  match body with
  | .undefined => return .undefined
  | .this => return this
  | .argument i => return args[i]?.getD .undefined
  | .argumentCount => return .number (.ofNat args.length)
  | .const v => return v
  | .join =>
    let texts ← (this :: args).mapM display
    allocString (",".intercalate texts)
  | .sum => return .number ((args.filterMap HostValue.number?).foldl (· + ·) 0)
  | .fail text => throw (.guest text)
  | .get key =>
    match this with
    | .object i => getProperty run i key
    | v => throw (.notAnObject (← kindOf v).name)
  | .make keys =>
    let properties := keys.zipIdx.map fun (key, i) => (key, args[i]?.getD .undefined)
    return .object (← allocObject .plain (.ofList properties))
  | .load cell => return ((← get).cells.find? cell).getD .undefined
  | .save cell =>
    modify fun w => { w with cells := w.cells.insert cell (args.getLast?.getD .undefined) }
    return .undefined
  | .apply => callFunction run (args.headD .undefined) args.tail
  | .callImport name exprs =>
    let values ← exprs.mapM GuestExpr.read
    hostOfResult (← callImport run ImportObject.interopModule name values)

/-- Carries out a behaviour, its own calls by `run`. -/
def perform (behaviour : Behaviour) (this : HostValue) (args : List HostValue) :
    BridgeM HostValue :=
  match behaviour with
  | .body b => performBody run b this args
  | .forward entry => performBody run entry.body .undefined (this :: args)
  | .global g => g.apply args
  | .bound receiver property => callProperty run receiver property args

end BridgeM

/-- The runner for calls that nest at most `n` deep. -/
def Runner.ofDepth : Nat → Runner
  | 0 => fun _ _ _ => throw .callDepthExceeded
  | n + 1 => BridgeM.perform (ofDepth n)

/-- Calls may nest this deep. -/
def callDepthLimit : Nat := 1000000

/-- Carries out behaviours. -/
def runner : Runner := Runner.ofDepth callDepthLimit

/-- A call at depth `n + 1` makes its own calls at depth `n`. -/
theorem runner_step (n : Nat) : Runner.ofDepth (n + 1) = BridgeM.perform (.ofDepth n) := rfl

end GuestBridge
