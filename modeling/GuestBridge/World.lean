import GuestBridge.Guest.Module
import GuestBridge.Host.Heap
import GuestBridge.IdentityHash
import GuestBridge.Registry

/-!
# The state of a bridge

One bridge joins the host's heap to one guest. Its context keeps the identity
registry, the hashes, the watched values and the console. What is alive on the host
side is decided from the roots: variables and cells, the context, the guest, and
what the calls in progress hold.

The state that an action has reached when it fails is kept.
-/

namespace GuestBridge

/-- A value whose collection is to be reported with a token. -/
structure Watch where
  target : Referent
  token : GuestValue
  channel : Channel

/-- What a bridge knows apart from its guest. It outlives the guest. -/
structure Context where
  hasher : Hasher
  globals : OrderedMap String HostValue := {}
  registry : Registry := {}
  watched : List Watch := []
  /-- Crossings counted since the last collection. -/
  crossings : Nat := 0
  /-- Whether a collection is going on. -/
  collecting : Bool := false
  console : Console := {}

/-- What a context keeps alive. -/
def Context.holds (c : Context) : List HostId :=
  c.registry.holds ++ (c.watched.flatMap fun w => w.token.holds) ++
    c.globals.values.flatMap HostValue.holds

/-- What the outside world answers: the time, and a random number. -/
structure Environment where
  clock : Double := 0
  random : Double := 0

/-- The whole state: host heap, context, guest, and what the embedder holds. -/
structure World where
  context : Context
  heap : Heap := {}
  guest : Option Guest := none
  bindings : OrderedMap String GuestValue := {}
  cells : OrderedMap String HostValue := {}
  environment : Environment := {}

/-- What is held without regard to calls in progress. -/
def World.holds (w : World) : List HostId :=
  w.bindings.values.flatMap GuestValue.holds ++ w.cells.values.flatMap HostValue.holds ++
    w.context.holds ++ w.guest.elim [] Guest.holds

/-- An action on a bridge. It reads what the calls in progress hold, may fail, and keeps the
state that it has reached when it fails. -/
abbrev BridgeM := ReaderT (List HostId) (EStateM BridgeError World)

namespace BridgeM

/-- Runs an action outside of any call. -/
def outcome {α : Type} (act : BridgeM α) (w : World) : Except BridgeError α × World :=
  match act [] w with
  | .ok a w => (.ok a, w)
  | .error e w => (.error e, w)

/-- Runs an action of a call that holds `ids`. -/
def holding {α : Type} (ids : List HostId) (act : BridgeM α) : BridgeM α :=
  fun held => act (ids ++ held)

/-- The outcome of an action as a value. -/
def attempt {α : Type} (act : BridgeM α) : BridgeM (Except BridgeError α) :=
  fun held w =>
    match act held w with
    | .ok a w => .ok (.ok a) w
    | .error e w => .ok (.error e) w

/-! ## The host heap -/

/-- Drops the host values that nothing holds any more. -/
def reclaim : BridgeM Unit :=
  fun held w => .ok () { w with heap := w.heap.reclaim (held ++ w.holds) }

/-- Which host values are alive at this moment. -/
def aliveNow : BridgeM (HostId → Bool) := do
  reclaim
  return (← get).heap.isAlive

/-- Makes a cell. -/
def allocCell (c : Cell) : BridgeM HostId :=
  modifyGet fun w =>
    let (i, heap) := w.heap.alloc c
    (i, { w with heap })

/-- Makes an object. -/
def allocObject (kind : ObjectKind) (properties : OrderedMap String HostValue := {}) :
    BridgeM HostId :=
  allocCell (.object { kind, properties })

/-- Makes a string. -/
def allocString (text : String) : BridgeM HostValue := do
  return .string ⟨← allocCell (.string text), text⟩

/-- Makes a symbol. -/
def allocSymbol (description : Option String) : BridgeM HostValue := do
  return .symbol ⟨← allocCell (.symbol description), description⟩

/-- The text that a value prints as. -/
def display (v : HostValue) : BridgeM String := return (← get).heap.display v

/-- The kind of a value. -/
def kindOf (v : HostValue) : BridgeM Kind := return (← get).heap.kind v

/-- The object of an identity. -/
def object? (i : HostId) : BridgeM (Option HostObject) := return (← get).heap.object? i

/-- Replaces an object. -/
def setObject (i : HostId) (o : HostObject) : BridgeM Unit :=
  modify fun w => { w with heap := w.heap.setCell i (.object o) }

/-! ## Context and guest -/

/-- Changes the context. -/
def modifyContext (f : Context → Context) : BridgeM Unit :=
  modify fun w => { w with context := f w.context }

/-- The guest behind the bridge. -/
def guest : BridgeM Guest := do
  match (← get).guest with
  | some g => return g
  | none => throw .notInstantiated

/-- Replaces the guest. -/
def setGuest (g : Guest) : BridgeM Unit := modify fun w => { w with guest := some g }

/-- Asks the guest. -/
def askGuest {α : Type} (f : Guest → Except BridgeError α) : BridgeM α := do
  ofExcept (f (← guest))

/-- Has the guest do something that cannot fail. -/
def changeGuest {α : Type} (f : Guest → α × Guest) : BridgeM α := do
  let (a, g) := f (← guest)
  setGuest g
  return a

/-- Has the guest do something; where that fails the guest is unchanged. -/
def tryGuest {α : Type} (f : Guest → Except BridgeError (α × Guest)) : BridgeM α := do
  let (a, g) ← askGuest f
  setGuest g
  return a

/-- Whether a handle refers to a guest object; none does without a guest. -/
def isLiveNow : BridgeM (Handle → Bool) := do
  match (← get).guest with
  | some g => return g.heap.isLive
  | none => return fun _ => false

/-- Sets a variable. -/
def setVariable (name : String) (v : GuestValue) : BridgeM Unit :=
  modify fun w => { w with bindings := w.bindings.insert name v }

end BridgeM

end GuestBridge
