import GuestBridge.Expr

/-!
# Crossings and collections

Host values become guest handles (`wrap`), and handles host values (`unwrap`). Both,
as well as identity hashes and weak references, count as crossings; when
`collectInterval` crossings have been counted the next one first runs a collection.
A collection reports watched values that died, and drops links and hashes that lead
nowhere.

A guest may cross back while it makes a wrapper or takes a report. It crosses back
at most once per wrapper, and crossings within a collection start no other one, so
the crossings form four levels: within a collection, with and without crossing
back, and outside of one, with and without.

* `tally_run`: a counted crossing changes the count alone.
-/

namespace GuestBridge

/-- The number of crossings after which the next one runs a collection. -/
def collectInterval : Nat := 1000

/-- What one collection did. -/
structure CollectionReport where
  /-- Notices of values that the guest took. -/
  values : Nat := 0
  /-- Notices of strings that the guest took. -/
  strings : Nat := 0
  /-- Notices that there was no one to take. -/
  skipped : Nat := 0
  /-- Notices that the guest rejected. -/
  failed : Nat := 0
  registry : LinkCounts := {}
  /-- Hashes dropped. -/
  hashes : Nat := 0
  deriving DecidableEq, Repr

/-- The crossings that a guest can make while the bridge calls it. -/
structure Crossings where
  wrap : HostValue → BridgeM (Option Handle)
  hash : HostValue → BridgeM Int32
  weakRef : Channel → HostValue → Option GuestValue → BridgeM HostId
  collect : BridgeM Unit

namespace BridgeM

/-! ## Values and handles -/

/-- The handle recorded for a value. -/
def recordedHandle (l : Lookup) : BridgeM (Option Handle) := do
  return (← get).context.registry.find? (← isLiveNow) l

/-- The handle of a value: null has none, a wrapper instance has the one it stands for, others
have the recorded one, or a new one from `create`. A handle recorded while `create` ran stays. -/
def handleOf (create : HostValue → BridgeM Handle) (v : HostValue) : BridgeM (Option Handle) := do
  if let some handle := v.object?.bind (← get).heap.wrappedHandle? then
    return some handle
  match Lookup.of? v with
  | none => return none
  | some l =>
    if let some handle ← recordedHandle l then return some handle
    let handle ← create v
    -- A crossing made by `create` may have linked the value already; that link stays.
    if let some existing ← recordedHandle l then return some existing
    modifyContext fun c => { c with registry := c.registry.record l v handle }
    return some handle

/-- The guest's wrapper of a value. The guest may refuse, and may cross back first. -/
def createWrapper (rewrap : HostValue → BridgeM Unit) (v : HostValue) : BridgeM Handle := do
  let g ← guest
  if g.mode.refuse then throw (.guest "out of guest memory")
  if g.mode.reenter then
    setGuest { g with mode.reenter := false }
    rewrap v
  changeGuest fun g => g.alloc (.wrapper v)

/-- Wraps a value, with a way to count the crossing and a way to make a wrapper. -/
def wrapWith (track : BridgeM Unit) (create : HostValue → BridgeM Handle) (v : HostValue) :
    BridgeM (Option Handle) :=
  holding v.holds do
    track
    let _ ← guest
    handleOf create v

/-- Hashes a value, with a way to count the crossing. -/
def hashWith (track : BridgeM Unit) (v : HostValue) : BridgeM Int32 :=
  holding v.holds do
    if v.hasIdentity then track
    modifyGet fun w =>
      let (code, hasher) := w.context.hasher.hash v
      (code, { w with context.hasher := hasher })

/-- Makes a weak reference; a token has the death of its target reported. -/
def makeWeakRef (target : Referent) (token : Option GuestValue) (channel : Channel) :
    BridgeM HostId := do
  if let some token := token then
    modifyContext fun c => { c with watched := c.watched ++ [⟨target, token, channel⟩] }
  allocObject (.weakRef target)

/-- What a weak reference to a value leads to. One channel is for objects and symbols, the other
for strings. -/
def weakTargetOf : Channel → HostValue → Option Referent
  | .value, v => v.identity?
  | .string, .string s => some (.string s)
  | .string, _ => none

/-- Makes a weak reference to a value, with a way to count the crossing. -/
def weakRefWith (track : BridgeM Unit) (channel : Channel) (v : HostValue)
    (token : Option GuestValue) : BridgeM HostId :=
  holding (v.holds ++ token.elim [] GuestValue.holds) do
    track
    match weakTargetOf channel v with
    | some target => makeWeakRef target token channel
    | none => throw (.invalidWeakTarget (← kindOf v).name)

/-! ## Within a collection -/

/-- Counts a crossing. -/
def tally : BridgeM Unit := modifyContext fun c => { c with crossings := c.crossings + 1 }

/-- Wraps a value within a collection. -/
def wrapInPass : HostValue → BridgeM (Option Handle) :=
  wrapWith tally (createWrapper fun v => discard (wrapWith tally (createWrapper fun _ => pure ()) v))

/-- The crossings of a guest within a collection, where another collection does nothing. -/
def crossingsInPass : Crossings where
  wrap := wrapInPass
  hash := hashWith tally
  weakRef := weakRefWith tally
  collect := pure ()

/-- Carries out what a guest does when it is given a notice. -/
def react (x : Crossings) : Reaction → BridgeM Unit
  | .accept => pure ()
  | .reject e => throw e
  | .hash v next => do
    let code ← x.hash (← v.read)
    react x (next code)
  | .wrap v next => do
    let v ← v.read
    let result ← attempt (x.wrap v)
    react x (next result)
  | .weakRef channel v token next => do
    let v ← v.read
    let token ← token.mapM GuestExpr.read
    let result ← attempt (discard (x.weakRef channel v token))
    react x (next result)
  | .collect next => do
    x.collect
    react x next

/-- Gives a notice to the guest. A guest without optional exports takes none. -/
def report (x : Crossings) (channel : Channel) (token : GuestValue) : BridgeM Unit :=
  holding token.holds do
    let g ← guest
    if g.hasOptional then react x (g.mode.onReport channel token)
    tryGuest fun g => return ((), ← g.takeReport channel token)

/-- Takes the watches whose value has died off the watch list. -/
def poll : BridgeM (List Watch) := do
  let alive ← aliveNow
  modifyGet fun w =>
    let (live, dead) := w.context.watched.partition fun watch => alive watch.target.id
    (dead, { w with context.watched := live })

/-- Gives notice of one death, and counts what came of it. -/
def deliver (r : CollectionReport) (watch : Watch) : BridgeM CollectionReport := do
  match (← get).guest with
  | none => return { r with skipped := r.skipped + 1 }
  | some g =>
    if watch.channel = .value ∧ ¬g.provides .reportValue then
      return { r with skipped := r.skipped + 1 }
    match ← attempt (report crossingsInPass watch.channel watch.token), watch.channel with
    | .ok (), .value => return { r with values := r.values + 1 }
    | .ok (), .string => return { r with strings := r.strings + 1 }
    | .error _, _ => return { r with failed := r.failed + 1 }

/-- Gives notice of deaths one after the other. Each token is held until its turn is over. -/
def deliverAll (r : CollectionReport) : List Watch → BridgeM CollectionReport
  | [] => return r
  | watch :: rest => do
    let r ← holding ((watch :: rest).flatMap fun w => w.token.holds) (deliver r watch)
    deliverAll r rest

/-- Drops links and hashes that lead nowhere, and counts them. -/
def sweep (r : CollectionReport) : BridgeM CollectionReport := do
  let alive ← aliveNow
  let isLive ← isLiveNow
  modifyGet fun w =>
    let registry := w.context.registry.sweep alive isLive
    let hasher := w.context.hasher.sweep alive
    let before := w.context.registry.counts
    let after := registry.counts
    ({ r with
        registry :=
          { hostLinks := before.hostLinks - after.hostLinks
            guestLinks := before.guestLinks - after.guestLinks
            primitives := before.primitives - after.primitives }
        hashes := w.context.hasher.assigned.size - hasher.assigned.size },
      { w with context.registry := registry, context.hasher := hasher })

/-- Runs a collection, unless one is going on. -/
def collectGarbage : BridgeM CollectionReport := do
  if (← get).context.collecting then return {}
  -- The count starts anew before any notice, so what the guest does meanwhile is counted.
  modifyContext fun c => { c with collecting := true, crossings := 0 }
  let r ← sweep (← deliverAll {} (← poll))
  modifyContext fun c => { c with collecting := false }
  return r

/-! ## Outside of a collection -/

/-- Counts a crossing, or runs a collection in its place when the interval is full. -/
def trackCrossing : BridgeM Unit := do
  let c := (← get).context
  -- The crossing that fills the interval is not counted itself.
  if c.crossings + 1 < collectInterval ∨ c.collecting then tally else discard collectGarbage

/-- The guest handle of a host value; null has none. -/
def wrap : HostValue → BridgeM (Option Handle) :=
  wrapWith trackCrossing
    (createWrapper fun v => discard (wrapWith trackCrossing (createWrapper fun _ => pure ()) v))

/-- The identity hash of a value. Only objects and symbols count as crossings. -/
def hashCode : HostValue → BridgeM Int32 := hashWith trackCrossing

/-- The crossings of a guest outside of a collection. -/
def crossings : Crossings where
  wrap := wrap
  hash := hashCode
  weakRef := weakRefWith trackCrossing
  collect := discard collectGarbage

/-- The host value that stands for a handle, while it is alive. -/
def resolve (handle : Handle) : BridgeM (Option HostValue) := do
  match (← get).context.registry.guestLinks.find? handle with
  | none => return none
  | some (.primitive v) => return some v
  | some (.weak _) =>
    let alive ← aliveNow
    return (← get).context.registry.resolve? alive handle

/-- The host value of a handle. A guest object without a host value gets a new instance of the
class. -/
def valueOf (handle : Handle) (class_ : HostId) : BridgeM HostValue := do
  match (← get).heap.classDefinition? class_ with
  | none => throw (.typeMismatch "wrapper class" (← kindOf (.object class_)).name)
  | some definition =>
    -- A recorded host value counts before the guest is asked.
    if let some v ← resolve handle then return v
    if !(← isLiveNow) handle then throw (.staleHandle handle)
    let wrapper ← allocObject (.wrapper definition handle)
    modifyContext fun c => { c with registry := c.registry.recordWrapper handle wrapper }
    return .object wrapper

/-- The host value of a guest reference; the null reference gives null. -/
def unwrap (handle : Option Handle) (class_ : HostId) : BridgeM HostValue :=
  holding [class_] do
    trackCrossing
    let _ ← guest
    match handle with
    | none => return .null
    | some handle => valueOf handle class_

/-! ## Weak references -/

/-- A weak reference to an object or a symbol. -/
def createWeakRef : HostValue → Option GuestValue → BridgeM HostId :=
  weakRefWith trackCrossing .value

/-- A weak reference to a string. -/
def createStringWeakRef : HostValue → Option GuestValue → BridgeM HostId :=
  weakRefWith trackCrossing .string

/-- The target of a value that is a weak reference. -/
def weakTarget (v : HostValue) : BridgeM Referent := do
  match v.object?.bind (← get).heap.weakTarget? with
  | some target => return target
  | none => throw (.typeMismatch "weak reference" (← kindOf v).name)

/-- The value of a target, or undefined once it has died. -/
def followTarget (target : Referent) : BridgeM HostValue := do
  let alive ← aliveNow
  return if alive target.id then target.toValue else .undefined

/-- The target of a weak reference, or undefined once it has died. -/
def deref (v : HostValue) : BridgeM HostValue :=
  holding v.holds do followTarget (← weakTarget v)

/-- The target of a weak reference to a string, or undefined once it has died. -/
def derefString (v : HostValue) : BridgeM HostValue :=
  holding v.holds do
    let target ← weakTarget v
    if !target.isString then throw (.typeMismatch "string weak reference" "weak reference")
    followTarget target

/-- A counted crossing changes the count alone. -/
theorem tally_run (held : List HostId) (w : World) :
    tally held w =
      .ok () { w with context.crossings := w.context.crossings + 1 } := rfl

end BridgeM

end GuestBridge
