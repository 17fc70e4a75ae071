import GuestBridge.Program
import GuestBridge.Session.Answer
import GuestBridge.Session.Step

/-!
# Carrying out actions

An action reads its descriptions from left to right, and the values that it has read
stay alive until it is done. What can be seen of the result is taken down before the
result is kept.
-/

namespace GuestBridge

/-- The answer to an action, and what it leaves for a variable. -/
structure Reply where
  answer : Answer
  result : Option GuestValue := none

namespace Reply

/-- Nothing but success. -/
def done : Reply := { answer := .nothing }

/-- A new guest object. -/
def ofHandle (h : Handle) : Reply := { answer := .handle (some h), result := some (.ref (some h)) }

end Reply

namespace BridgeM

/-- A host value as a reply. -/
def replyHost (v : HostValue) : BridgeM Reply := do
  return { answer := .host ((← get).viewHost v), result := some (.external v) }

/-! ## Reading descriptions -/

/-- Reads a host value, and holds it during what is done with it. -/
def withHost {α : Type} (e : HostExpr) (act : HostValue → BridgeM α) : BridgeM α := do
  let v ← e.read
  holding v.holds (act v)

/-- Reads host values, and holds them during what is done with them. -/
def withHosts {α : Type} (es : List HostExpr) (act : List HostValue → BridgeM α) :
    BridgeM α := do
  let vs ← es.mapM HostExpr.read
  holding (vs.flatMap HostValue.holds) (act vs)

/-- Reads a guest value, and holds it during what is done with it. -/
def withGuest {α : Type} (e : GuestExpr) (act : GuestValue → BridgeM α) : BridgeM α := do
  let v ← e.read
  holding v.holds (act v)

/-- Reads a guest value that may be left out. -/
def withToken {α : Type} (e : Option GuestExpr) (act : Option GuestValue → BridgeM α) :
    BridgeM α :=
  match e with
  | none => act none
  | some e => withGuest e fun v => act (some v)

/-- Reads the handle of a guest object. -/
def handleFrom (e : GuestExpr) : BridgeM Handle := do
  match ← ofExcept (← e.read).asHandle with
  | some h => return h
  | none => throw (.typeMismatch "ref" "null")

/-! ## Guest -/

/-- Asks something of the guest. -/
def performGuest : GuestAction → BridgeM Reply
  | .createStringArray n => do return .ofHandle (← tryGuest fun g => g.createStringArray n)
  | .createStringBuilder => do return .ofHandle (← changeGuest Guest.createStringBuilder)
  | .appendChar builder code => do
    let h ← handleFrom builder
    tryGuest fun g => return ((), ← g.appendChar h code)
    return .done
  | .buildString builder => do
    let h ← handleFrom builder
    return .ofHandle (← tryGuest fun g => g.buildString h)
  | .setToStringArray array index value => do
    let array ← handleFrom array
    let value ← handleFrom value
    tryGuest fun g => return ((), ← g.setToStringArray array index value)
    return .done
  | .main args => do
    let (_, result) ← callMain (← handleFrom args)
    ofExcept result
    return .done
  | .createWrapper value => withHost value fun v => do
    return .ofHandle (← createWrapper (fun v => discard (crossings.wrap v)) v)
  | .isLive handle => do
    let h ← handleFrom handle
    return { answer := .bool ((← guest).heap.isLive h) }
  | .provides e => do return { answer := .bool ((← guest).provides e) }
  | .report channel token => withGuest token fun v => do
    report crossings channel v
    return .done
  | .stringLength string => do
    let h ← handleFrom string
    return { answer := .int (← askGuest fun g => g.stringLength h).toInt }
  | .stringCharAt string index => do
    let h ← handleFrom string
    return { answer := .int (← askGuest fun g => g.stringCharAt h index).toInt }
  | .makeString s => do return .ofHandle (← tryGuest fun g => g.makeString s)
  | .makeStringArray ss => do return .ofHandle (← tryGuest fun g => g.makeStringArray ss)
  | .readString string => do
    let h ← handleFrom string
    return { answer := .text (← askGuest fun g => g.readString h) }
  | .allocString s => do return .ofHandle (← changeGuest fun g => g.allocString s)
  | .stringValue string => do
    let h ← handleFrom string
    return { answer := .text (← askGuest fun g => g.stringValue h) }
  | .stringArray array => do
    let h ← handleFrom array
    return { answer := .handles (← askGuest fun g => g.stringArray h).toList }
  | .wrappedValue wrapper => do
    let h ← handleFrom wrapper
    replyHost (← askGuest fun g => g.wrappedValue h)

/-! ## Host values -/

/-- The identity of an object whose properties are asked for. -/
def requireObject (v : HostValue) : BridgeM HostId := do
  match v with
  | .object i => return i
  | v => throw (.notAnObject (← kindOf v).name)

/-- The identity of an object that is to be a wrapper class. -/
def requireClass (v : HostValue) : BridgeM HostId := do
  match v with
  | .object i => return i
  | v => throw (.typeMismatch "wrapper class" (← kindOf v).name)

/-- What an object is. -/
def aboutObject (i : HostId) : BridgeM About := do
  let w ← get
  let callable := w.heap.callable? i
  let definition := w.heap.classDefinition? i
  let origin ← originOf i
  return {
    name := (callable.map Callable.name).orElse fun _ => definition.map w.heap.className
    handle := w.heap.wrappedHandle? i
    isCallable := callable.isSome
    isClass := definition.isSome
    origin := origin.map fun (receiver, property) => (property, w.viewHost (.object receiver)) }

/-- Asks something of a host value. -/
def performHost (v : HostValue) : HostAction → BridgeM Reply
  | .typeOf => do
    let kind ← kindOf v
    return { answer := .kinds kind.typeOf kind }
  | .display => do return { answer := .text (← display v) }
  | .equals other => do return { answer := .bool (v.strictEquals (← other.read)) }
  | .get key => do replyHost (← getProperty runner (← requireObject v) key)
  | .getOwn key => do
    match (← object? (← requireObject v)).bind fun o => o.properties.find? key with
    | some p => replyHost p
    | none => return .done
  | .set key value => withHost value fun p => do
    setProperty runner (← requireObject v) key p
    return .done
  | .has key => do return { answer := .bool (← hasProperty (← requireObject v) key) }
  | .keys => do
    let o ← object? (← requireObject v)
    return { answer := .texts (o.elim [] fun o => o.properties.keys) }
  | .call this args => withHost this fun this => withHosts args fun args => do
    match v with
    | .object f => replyHost (← callObject runner f this args)
    | v => throw (.notCallable (← display v))
  | .construct args => withHosts args fun args => do replyHost (← construct runner v args)
  | .about => do return { answer := .about (← aboutObject (← requireObject v)) }
  | .defineMethod key entry => withGuest entry fun entry => do
    defineMethod (← requireClass v) key (← ofExcept entry.asEntry)
    return .done
  | .defineProperty key getter setter => withGuest getter fun getter => withToken setter
      fun setter => do
    let setter ← setter.mapM fun e => ofExcept e.asEntry
    defineProperty (← requireClass v) key (← ofExcept getter.asEntry) setter
    return .done

/-! ## Context -/

/-- Asks something of the context. -/
def performContext : ContextAction → BridgeM Reply
  | .hasGuest => do return { answer := .bool (← get).guest.isSome }
  | .wrap value => withHost value fun v => do
    let h ← wrap v
    return { answer := .handle h, result := some (.ref h) }
  | .unwrap class_ handle => withHost class_ fun c => withGuest handle fun h => do
    replyHost (← unwrap (← ofExcept h.asHandle) (← requireClass c))
  | .hash value => withHost value fun v => do
    return { answer := .int (← hashCode v).toInt }
  | .createWeakRef channel value token => withHost value fun v => withToken token
      fun token => do
    let reference ← match channel with
      | .value => createWeakRef v token
      | .string => createStringWeakRef v token
    replyHost (.object reference)
  | .deref channel value => withHost value fun v => do
    match channel with
    | .value => replyHost (← deref v)
    | .string => replyHost (← derefString v)
  | .callMethod value name args => withHost value fun v => withHosts args fun args => do
    replyHost (← callMethod runner v name args)
  | .asFunction value name => withHost value fun v => do
    replyHost (.object (← asFunction v name))
  | .functionAsObject value name => withHost value fun v => do
    replyHost (.object (← functionAsObject v name))
  | .globals => do return { answer := .texts (← get).context.globals.keys }
  | .flush => do
    modifyContext fun c => { c with console := c.console.flush }
    return .done

/-! ## Bridge -/

/-- The text of link counts. -/
def linkCountsText (c : LinkCounts) : String :=
  s!"RegistryStats \x7b host_links: {c.hostLinks}, guest_links: {c.guestLinks}, " ++
    s!"primitives: {c.primitives} \x7d"

/-- The sizes of the parts of the bridge. -/
def stats : BridgeM Stats := do
  let w ← get
  return {
    registry := w.context.registry.counts
    hashes := w.context.hasher.assigned.size
    watched := w.context.watched.length
    heap := w.guest.map fun g => g.heap.size }

/-- Carries out an action. -/
def performAction : Action → BridgeM Reply
  | .callImport module name args => do
    let args ← args.mapM GuestExpr.read
    holding (args.flatMap GuestValue.holds) do
      let result ← callImport runner module name args
      -- The view is taken before the variable is set.
      return { answer := .importResult ((← get).viewImport module name result), result }
  | .drop name => do
    let existed := (← get).bindings.contains name
    modify fun w => { w with bindings := w.bindings.erase name }
    return { answer := .bool existed }
  | .free handle => do
    let h ← handleFrom handle
    return { answer := .bool (← changeGuest fun g => g.free h) }
  | .collect => do return { answer := .collected (← collectGarbage) }
  | .stats => do return { answer := .stats (← stats) }
  | .reports => do
    let w ← get
    let g ← guest
    return { answer := .notices (g.reports.toList.map fun r => (r.1, w.viewGuest r.2)) }
  | .setExport e present => do
    setGuest ((← guest).setExport e present)
    return .done
  | .setMode mode => do
    setGuest { ← guest with mode }
    return .done
  | .guest action => performGuest action
  | .host target action => withHost target fun v => performHost v action
  | .context action => performContext action
  | .console => do return { answer := .lines (← get).context.console.lines.toList }
  | .describe => do
    let counts := linkCountsText (← get).context.registry.counts
    return { answer := .text ("Bridge \x7b registry: " ++ counts ++ ", .. \x7d") }
  | .unload => do
    unload
    return .done

end BridgeM

end GuestBridge
