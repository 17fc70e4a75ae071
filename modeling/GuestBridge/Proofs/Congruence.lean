import GuestBridge.Call
import GuestBridge.Session.Setup

/-!
# Relations of actions

Actions are put together from a few steps, and always in the same ways. A relation of actions that is
kept by these ways, and that has the steps related to themselves, has whatever is put together
related to itself, and two runs of calls related when their behaviours are. So a walk through the
program is made once, here, and what is to be shown of all actions is shown of the steps. A property
of actions is a relation that does not look at the second of them.

* `Congruence`: a relation that is kept by the ways of putting actions together; looks at the state
  are related.
* `Congruence.Reading`: the relation has the making of cells related, and so the reading of
  descriptions (`Reading.hostExpr`).
* `Congruence.Crossing`: it has the steps of a crossing related, and so a collection, if notices are
  (`Crossing.collectGarbage`), and notices, if hashing is (`Crossing.report`).
* `Congruence.Calling`: it has crossings related, and so imports, bodies and behaviours
  (`Calling.callInterop`, `Calling.perform`).
-/

namespace GuestBridge

/-- The kinds of the objects that are made by themselves: no classes or instances, and no callables
that are extracted from an object. -/
def ObjectKind.Loose : ObjectKind → Prop
  | .plain | .weakRef _ => True
  | .function c => ∀ receiver property, c.behaviour ≠ .bound receiver property
  | .class _ | .wrapper _ _ => False

theorem ObjectKind.loose_plain : plain.Loose := trivial

theorem ObjectKind.loose_weakRef (target : Referent) : (weakRef target).Loose := trivial

/-- A function with a body of its own. -/
theorem ObjectKind.loose_function (name : String) (body : Body HostValue GuestExpr)
    (construct : Option (Body HostValue GuestExpr)) :
    (function { name, behaviour := .body body, construct }).Loose := fun _ _ => nofun

/-- The crossings of a guest are related to themselves. -/
structure Crossings.Related (R : ∀ {α : Type}, BridgeM α → BridgeM α → Prop) (x : Crossings) :
    Prop where
  wrap : ∀ v, R (x.wrap v) (x.wrap v)
  hash : ∀ v, R (x.hash v) (x.hash v)
  weakRef : ∀ channel v token, R (x.weakRef channel v token) (x.weakRef channel v token)
  collect : R x.collect x.collect

namespace BridgeM

/-- A relation of actions that is kept by the ways of putting actions together. -/
structure Congruence (R : ∀ {α : Type}, BridgeM α → BridgeM α → Prop) : Prop where
  pure {α : Type} (a : α) : R (Pure.pure a) (Pure.pure a)
  throw {α : Type} (e : BridgeError) :
    R (MonadExcept.throw e : BridgeM α) (MonadExcept.throw e)
  get : R (MonadState.get : BridgeM World) MonadState.get
  bind {α β : Type} {act act' : BridgeM α} {f f' : α → BridgeM β} (h : R act act')
    (hf : ∀ a, R (f a) (f' a)) : R (act >>= f) (act' >>= f')
  holding {α : Type} {act act' : BridgeM α} (h : R act act') (ids : List HostId) :
    R (holding ids act) (holding ids act')

section Rules

variable {R : ∀ {α : Type}, BridgeM α → BridgeM α → Prop} (h : Congruence R) {α : Type}
include h

/-- What comes after a failure is left out. -/
theorem Congruence.throw_bind {β : Type} {e : BridgeError} {f f' : α → BridgeM β} :
    R ((MonadExcept.throw e : BridgeM α) >>= f) (MonadExcept.throw e >>= f') := h.throw e

theorem Congruence.discard {act act' : BridgeM α} (ha : R act act') :
    R (discard act) (discard act') := h.bind ha fun _ => h.pure ()

/-- The actions for the items of a list, from the first one on. -/
theorem Congruence.mapM {ι : Type} {g : ι → BridgeM α} (hg : ∀ i, R (g i) (g i))
    (is : List ι) : R (is.mapM g) (is.mapM g) := by
  induction is with
  | nil => rw [List.mapM_nil]; exact h.pure _
  | cons i is ih =>
    rw [List.mapM_cons]
    exact h.bind (hg i) fun _ => h.bind ih fun _ => h.pure _

theorem Congruence.option_mapM {ι : Type} {g : ι → BridgeM α} (hg : ∀ i, R (g i) (g i))
    (i : Option ι) : R (i.mapM g) (i.mapM g) := by
  cases i with
  | none => exact h.pure _
  | some i => exact h.bind (hg i) fun _ => h.pure _

/-- The actions for the items of a list, each of which is given what the one before it has come to.
-/
theorem Congruence.foldlM {ι σ : Type} {g : σ → ι → BridgeM σ} (hg : ∀ s i, R (g s i) (g s i))
    (is : List ι) (s : σ) : R (is.foldlM g s) (is.foldlM g s) := by
  induction is generalizing s with
  | nil => exact h.pure s
  | cons i is ih =>
    rw [List.foldlM_cons]
    exact h.bind (hg s i) fun s' => ih s'

/-- What has been worked out without the state is the result, or is thrown. -/
theorem Congruence.ofExcept (x : Except BridgeError α) :
    R (ofExcept x : BridgeM α) (ofExcept x) := by
  cases x with
  | ok a => exact h.pure a
  | error e => exact h.throw e

/-! ## Looks at the state -/

/-- A look at the guest fails if there is none. -/
theorem Congruence.guest : R guest guest := by
  refine h.bind h.get fun w => ?_
  split
  · exact h.pure _
  · exact h.throw _

theorem Congruence.askGuest (g : Guest → Except BridgeError α) : R (askGuest g) (askGuest g) :=
  h.bind h.guest fun _ => h.ofExcept _

/-- Without a guest no handle is live, which is an answer and no failure. -/
theorem Congruence.isLiveNow : R isLiveNow isLiveNow := by
  refine h.bind h.get fun w => ?_
  split
  · exact h.pure _
  · exact h.pure _

theorem Congruence.kindOf (v : HostValue) : R (kindOf v) (kindOf v) :=
  h.bind h.get fun _ => h.pure _

theorem Congruence.display (v : HostValue) : R (display v) (display v) :=
  h.bind h.get fun _ => h.pure _

theorem Congruence.object? (i : HostId) : R (object? i) (object? i) :=
  h.bind h.get fun _ => h.pure _

theorem Congruence.variableValue (name : String) : R (variableValue name) (variableValue name) :=
  h.bind h.get fun _ => h.pure _

/-- A link to a guest object that has been freed counts as none, so to search for one is to look at
the guest as well. -/
theorem Congruence.recordedHandle (l : Lookup) : R (recordedHandle l) (recordedHandle l) :=
  h.bind h.get fun _ => h.bind h.isLiveNow fun _ => h.pure _

/-- Only the definition of a wrapper instance is looked for in the heap. -/
theorem Congruence.definitionOf (o : HostObject) : R (definitionOf o) (definitionOf o) := by
  unfold BridgeM.definitionOf
  split
  · exact h.bind h.get fun _ => h.pure _
  · exact h.pure _

/-- What is no wrapper class has no definition, and that is a failure. -/
theorem Congruence.definitionBehind (class_ : HostId) :
    R (definitionBehind class_) (definitionBehind class_) := by
  refine h.bind h.get fun w => ?_
  dsimp only
  split
  · exact h.pure _
  · exact h.throw _

theorem Congruence.originOf (f : HostId) : R (originOf f) (originOf f) := by
  refine h.bind h.get fun w => ?_
  split <;> exact h.pure _

/-- The failure names the kind of the value, so the state is looked at once more for it. -/
theorem Congruence.weakTarget (v : HostValue) : R (weakTarget v) (weakTarget v) := by
  refine h.bind h.get fun w => ?_
  split
  · exact h.pure _
  · exact h.bind (h.kindOf v) fun _ => h.throw _

/-! ## Arguments -/

theorem Congruence.argument (ts : List GuestValue) (n : Nat) : R (argument ts n) (argument ts n) := by
  unfold BridgeM.argument
  split
  · exact h.pure _
  · exact h.throw _

theorem Congruence.numberArg (ts : List GuestValue) (n : Nat) :
    R (numberArg ts n) (numberArg ts n) := h.bind (h.argument ts n) fun _ => h.ofExcept _

theorem Congruence.externalArg (ts : List GuestValue) (n : Nat) :
    R (externalArg ts n) (externalArg ts n) := h.bind (h.argument ts n) fun _ => h.ofExcept _

theorem Congruence.hostArg (ts : List GuestValue) (n : Nat) : R (hostArg ts n) (hostArg ts n) :=
  h.bind (h.argument ts n) fun _ => h.ofExcept _

theorem Congruence.entryArg (ts : List GuestValue) (n : Nat) : R (entryArg ts n) (entryArg ts n) :=
  h.bind (h.argument ts n) fun _ => h.ofExcept _

/-- A name that is a guest string is asked of the guest. -/
theorem Congruence.nameArg (ts : List GuestValue) (n : Nat) : R (nameArg ts n) (nameArg ts n) := by
  refine h.bind (h.argument ts n) fun t => ?_
  split
  · exact h.askGuest _
  · exact h.pure _
  · exact h.throw _

/-- An argument that is no object is refused by its kind, here and below. -/
theorem Congruence.classArg (ts : List GuestValue) (n : Nat) : R (classArg ts n) (classArg ts n) := by
  refine h.bind (h.externalArg ts n) fun v => ?_
  split
  · exact h.pure _
  · exact h.bind (h.kindOf _) fun _ => h.throw _

theorem Congruence.objectArg (ts : List GuestValue) (n : Nat) :
    R (objectArg ts n) (objectArg ts n) := by
  refine h.bind (h.externalArg ts n) fun v => ?_
  split
  · exact h.pure _
  · exact h.bind (h.kindOf _) fun _ => h.throw _

theorem Congruence.restArgs (ts : List GuestValue) (n : Nat) : R (restArgs ts n) (restArgs ts n) :=
  h.mapM (fun _ => h.ofExcept _) _

/-- The numbers are read from left to right, so a failure is about the first one that is missing. -/
theorem Congruence.dateArgs (ts : List GuestValue) : R (dateArgs ts) (dateArgs ts) :=
  h.bind (h.numberArg ts 0) fun _ => h.bind (h.numberArg ts 1) fun _ =>
    h.bind (h.numberArg ts 2) fun _ => h.bind (h.numberArg ts 3) fun _ =>
      h.bind (h.numberArg ts 4) fun _ => h.bind (h.numberArg ts 5) fun _ => h.pure _

end Rules

/-! ## Reading descriptions -/

/-- The making of cells is related to itself. -/
structure Congruence.Reading (R : ∀ {α : Type}, BridgeM α → BridgeM α → Prop) : Prop
    extends Congruence R where
  allocString (text : String) : R (BridgeM.allocString text) (BridgeM.allocString text)
  allocSymbol (description : Option String) :
    R (BridgeM.allocSymbol description) (BridgeM.allocSymbol description)
  allocObject {k : ObjectKind} (hk : k.Loose) (properties : OrderedMap String HostValue) :
    R (BridgeM.allocObject k properties) (BridgeM.allocObject k properties)
  synthesizeClass (name : String) :
    R (BridgeM.synthesizeClass name) (BridgeM.synthesizeClass name)
  allocGuestString (text : String) :
    R (BridgeM.changeGuest fun g => g.allocString text)
      (BridgeM.changeGuest fun g => g.allocString text)

section Reading

variable {R : ∀ {α : Type}, BridgeM α → BridgeM α → Prop}

mutual

/-- **Reading a description** is made of looks and of the making of cells. -/
theorem Congruence.Reading.hostExpr (h : Reading R) : ∀ e : HostExpr, R e.read e.read
  | .undefined | .null | .bool _ | .number _ | .bigint _ => h.pure _
  | .string text => h.allocString text
  | .symbol description => h.allocSymbol description
  | .object fields => by
    rw [HostExpr.read]
    exact h.bind (h.fields fields) fun _ =>
      h.bind (h.allocObject ObjectKind.loose_plain _) fun _ => h.pure _
  | .function name body => by
    rw [HostExpr.read]
    exact h.bind (h.body body) fun body =>
      h.bind (h.allocObject (ObjectKind.loose_function name body none) _) fun _ => h.pure _
  | .constructor name call construct => by
    rw [HostExpr.read]
    exact h.bind (h.body call) fun call => h.bind (h.body construct) fun construct =>
      h.bind (h.allocObject (ObjectKind.loose_function name call construct) _) fun _ => h.pure _
  | .class name => h.bind (h.synthesizeClass name) fun _ => h.pure _
  | .variable name => h.bind (h.variableValue name) fun _ => h.pure _

theorem Congruence.Reading.fields (h : Reading R) :
    ∀ fields : List (String × HostExpr), R (readFields fields) (readFields fields)
  | [] => h.pure _
  | field :: fields => by
    rw [readFields]
    exact h.bind (h.field field) fun _ => h.bind (h.fields fields) fun _ => h.pure _

theorem Congruence.Reading.field (h : Reading R) :
    ∀ field : String × HostExpr, R (readField field) (readField field)
  | (_, e) => h.bind (h.hostExpr e) fun _ => h.pure _

theorem Congruence.Reading.body (h : Reading R) :
    ∀ body : Body HostExpr GuestExpr, R (readBody body) (readBody body)
  | .const e => h.bind (h.hostExpr e) fun _ => h.pure _
  | .undefined | .this | .argument _ | .argumentCount | .join | .sum | .fail _ | .get _ | .make _
  | .load _ | .save _ | .apply | .callImport _ _ => h.pure _

end

/-- Of guest values only host values, entry points and strings are made; a variable is looked up. -/
theorem Congruence.Reading.guestExpr (h : Reading R) (e : GuestExpr) : R e.read e.read := by
  cases e with
  | external e => exact h.bind (h.hostExpr e) fun _ => h.pure _
  | entry name body => exact h.bind (h.body body) fun _ => h.pure _
  | «variable» name => exact h.variableValue name
  | text s => exact h.bind (h.allocGuestString s) fun _ => h.pure _
  | _ => exact h.pure _

namespace Congruence.Reading

/-- A name that stands for no global is a failure. -/
theorem globalTable (h : Reading R) (names : List String) :
    R (BridgeM.globalTable names) (BridgeM.globalTable names) := by
  refine h.foldlM (fun table name => ?_) names _
  split
  · next g _ =>
    have hk : (ObjectKind.function { name := g.name, behaviour := .global g }).Loose := fun _ _ =>
      nofun
    exact h.bind (h.allocObject hk _) fun _ => h.pure _
  · exact h.throw _

/-- Bound values are read one after the other, into the table of the globals. -/
theorem bindAll (h : Reading R) (table : OrderedMap String HostValue)
    (bound : List (String × HostExpr)) :
    R (BridgeM.bindAll table bound) (BridgeM.bindAll table bound) :=
  h.foldlM (fun _ b => h.bind (h.hostExpr b.2) fun _ => h.pure _) bound table

/-- **The options of a setup** are read with the values that it describes. -/
theorem readOptions (h : Reading R) (s : Setup) :
    R (BridgeM.readOptions s) (BridgeM.readOptions s) := by
  -- what comes after the configuration has been made out, from the file or without one
  have rest (config : Config) :=
    h.bind (h.globalTable (s.globals.getD config.globals)) fun table =>
      h.bind (h.bindAll table s.bound) fun globals => h.pure
        ({ hasHook := s.hook.isSome, globals, hashSeed := s.seed.getD config.hashSeed } : Options)
  unfold BridgeM.readOptions
  split
  · exact h.bind (h.pure _) fun _ => rest _
  · exact h.bind (h.ofExcept _) fun _ => rest _

end Congruence.Reading

end Reading

/-! ## What happens outside of the heap -/

/-- What happens outside of the heap is related to itself as well. -/
structure Congruence.Outside (R : ∀ {α : Type}, BridgeM α → BridgeM α → Prop) : Prop
    extends Reading R where
  outside {α : Type} {g : World → α × World} (hg : ∀ w, (g w).2.heap = w.heap) :
    R (modifyGet g : BridgeM α) (modifyGet g)

section Outside

variable {R : ∀ {α : Type}, BridgeM α → BridgeM α → Prop} {α : Type}

theorem Congruence.Outside.setGuest (h : Outside R) (g : Guest) :
    R (BridgeM.setGuest g) (BridgeM.setGuest g) := h.outside fun _ => rfl

theorem Congruence.Outside.modifyContext (h : Outside R) (f : Context → Context) :
    R (BridgeM.modifyContext f) (BridgeM.modifyContext f) := h.outside fun _ => rfl

theorem Congruence.Outside.changeGuest (h : Outside R) (g : Guest → α × Guest) :
    R (BridgeM.changeGuest g) (BridgeM.changeGuest g) :=
  h.bind h.guest fun _ => h.bind (h.setGuest _) fun _ => h.pure _

/-- A guest that fails stays as it was. -/
theorem Congruence.Outside.tryGuest (h : Outside R) (g : Guest → Except BridgeError (α × Guest)) :
    R (BridgeM.tryGuest g) (BridgeM.tryGuest g) :=
  h.bind (h.askGuest g) fun _ => h.bind (h.setGuest _) fun _ => h.pure _

/-- The guest refuses, or makes a wrapper; it crosses back before it does if it is told to, and then
its first step is to clear the flag. -/
theorem Congruence.Outside.createWrapper (h : Outside R) {rewrap : HostValue → BridgeM Unit}
    (hr : ∀ v, R (rewrap v) (rewrap v)) (v : HostValue) :
    R (BridgeM.createWrapper rewrap v) (BridgeM.createWrapper rewrap v) := by
  have last : R (BridgeM.changeGuest fun g => g.alloc (.wrapper v))
      (BridgeM.changeGuest fun g => g.alloc (.wrapper v)) := h.changeGuest _
  refine h.bind h.guest fun g => ?_
  dsimp only
  split
  · exact h.throw_bind
  · split
    · exact h.bind (h.setGuest _) fun _ => h.bind (hr v) fun _ => last
    · exact last

/-- Primitives are hashed without a count. -/
theorem Congruence.Outside.hashWith (h : Outside R) {track : BridgeM Unit} (ht : R track track)
    (v : HostValue) : R (BridgeM.hashWith track v) (BridgeM.hashWith track v) := by
  refine h.holding ?_ _
  dsimp only
  split
  · exact h.bind ht fun _ => h.outside fun _ => rfl
  · exact h.outside fun _ => rfl

end Outside

/-! ## Crossings and collections -/

/-- The steps of a crossing are related to themselves. -/
structure Congruence.Crossing (R : ∀ {α : Type}, BridgeM α → BridgeM α → Prop) : Prop
    extends Reading R where
  attempt {α : Type} {act act' : BridgeM α} (ha : R act act') :
    R (BridgeM.attempt act) (BridgeM.attempt act')
  aliveNow : R BridgeM.aliveNow BridgeM.aliveNow
  modifyContext {f : Context → Context} (hf : ∀ c, (f c).hasher = c.hasher) :
    R (BridgeM.modifyContext f) (BridgeM.modifyContext f)
  createWrapper {rewrap : HostValue → BridgeM Unit} (hr : ∀ v, R (rewrap v) (rewrap v))
    (v : HostValue) : R (BridgeM.createWrapper rewrap v) (BridgeM.createWrapper rewrap v)
  poll : R BridgeM.poll BridgeM.poll
  sweep (r : CollectionReport) : R (BridgeM.sweep r) (BridgeM.sweep r)

section Crossing

variable {R : ∀ {α : Type}, BridgeM α → BridgeM α → Prop} {track : BridgeM Unit}

/-- Besides what happens outside of the heap, a crossing drops what nothing holds. -/
theorem Congruence.Outside.crossing (h : Outside R)
    (attempt : ∀ {α : Type} {act act' : BridgeM α}, R act act' →
      R (BridgeM.attempt act) (BridgeM.attempt act'))
    (aliveNow : R BridgeM.aliveNow BridgeM.aliveNow) : Crossing R where
  toReading := h.toReading
  attempt := attempt
  aliveNow := aliveNow
  modifyContext _ := h.modifyContext _
  createWrapper := h.createWrapper
  poll := h.bind aliveNow fun _ => h.outside fun _ => rfl
  sweep _ := h.bind aliveNow fun _ => h.bind h.isLiveNow fun _ => h.outside fun _ => rfl

namespace Congruence.Crossing

/-- The links are searched before and after the guest makes a wrapper, since it may have crossed
back with the same value. -/
theorem handleOf (h : Crossing R) {create : HostValue → BridgeM Handle}
    (hc : ∀ v, R (create v) (create v)) (v : HostValue) :
    R (BridgeM.handleOf create v) (BridgeM.handleOf create v) := by
  refine h.bind h.get fun w => ?_
  split
  · exact h.pure _
  · split
    · exact h.pure _
    · refine h.bind (h.recordedHandle _) fun found => ?_
      split
      · exact h.pure _
      · refine h.bind (hc v) fun k => h.bind (h.recordedHandle _) fun found => ?_
        split
        · exact h.pure _
        · exact h.bind (h.modifyContext fun _ => rfl) fun _ => h.pure _

theorem wrapWith (h : Crossing R) {create : HostValue → BridgeM Handle} (ht : R track track)
    (hc : ∀ v, R (create v) (create v)) (v : HostValue) :
    R (BridgeM.wrapWith track create v) (BridgeM.wrapWith track create v) :=
  h.holding (h.bind ht fun _ => h.bind h.guest fun _ => h.handleOf hc v) _

/-- A wrap in which the guest may wrap the value once more. -/
theorem rewrap (h : Crossing R) (ht : R track track) (v : HostValue) :
    R (BridgeM.wrapWith track (BridgeM.createWrapper fun v =>
        Functor.discard (BridgeM.wrapWith track (BridgeM.createWrapper fun _ => Pure.pure ()) v)) v)
      (BridgeM.wrapWith track (BridgeM.createWrapper fun v =>
        Functor.discard (BridgeM.wrapWith track (BridgeM.createWrapper fun _ => Pure.pure ()) v)) v) :=
  h.wrapWith ht (h.createWrapper fun v =>
    h.discard (h.wrapWith ht (h.createWrapper fun _ => h.pure ()) v)) v

/-- With a token there is a watch, and it is there before the weak reference is. -/
theorem weakRefWith (h : Crossing R) (ht : R track track) (channel : Channel) (v : HostValue)
    (token : Option GuestValue) :
    R (BridgeM.weakRefWith track channel v token) (BridgeM.weakRefWith track channel v token) := by
  refine h.holding (h.bind ht fun _ => ?_) _
  split
  · next target _ =>
    have make := h.allocObject (ObjectKind.loose_weakRef target) {}
    cases token with
    | none => exact make
    | some t => exact h.bind (h.modifyContext fun _ => rfl) fun _ => make
  · exact h.bind (h.kindOf v) fun _ => h.throw _

theorem tally (h : Crossing R) : R BridgeM.tally BridgeM.tally := h.modifyContext fun _ => rfl

section Collections

variable (hreport : ∀ channel token, R (BridgeM.report crossingsInPass channel token)
  (BridgeM.report crossingsInPass channel token))
include hreport

/-- A notice whose guest fails is caught and counted. -/
theorem deliver (h : Crossing R) (r : CollectionReport) (x : Watch) :
    R (BridgeM.deliver r x) (BridgeM.deliver r x) := by
  refine h.bind h.get fun w => ?_
  split
  · exact h.pure _
  · split
    · exact h.pure _
    · refine h.bind (h.attempt (hreport _ _)) fun result => ?_
      split <;> exact h.pure _

theorem deliverAll (h : Crossing R) (r : CollectionReport) (xs : List Watch) :
    R (BridgeM.deliverAll r xs) (BridgeM.deliverAll r xs) := by
  induction xs generalizing r with
  | nil => exact h.pure r
  | cons x xs ih => exact h.bind (h.holding (h.deliver hreport r x) _) fun r' => ih r'

/-- **A collection** is made of such steps and of the notices that it gives. -/
theorem collectGarbage (h : Crossing R) : R BridgeM.collectGarbage BridgeM.collectGarbage := by
  refine h.bind h.get fun w => ?_
  split
  · exact h.pure _
  · exact h.bind (h.modifyContext fun _ => rfl) fun _ => h.bind h.poll fun dead =>
      h.bind (h.deliverAll hreport {} dead) fun r => h.bind (h.sweep r) fun r =>
        h.bind (h.modifyContext fun _ => rfl) fun _ => h.pure r

/-- A crossing is counted, or a collection runs in its place. -/
theorem trackCrossing (h : Crossing R) : R BridgeM.trackCrossing BridgeM.trackCrossing := by
  refine h.bind h.get fun w => ?_
  dsimp only
  split
  · exact h.tally
  · exact h.discard (h.collectGarbage hreport)

/-- Null is unwrapped without a look at the links. -/
theorem unwrap (h : Crossing R)
    (hvalue : ∀ k class_, R (BridgeM.valueOf k class_) (BridgeM.valueOf k class_))
    (k : Option Handle) (class_ : HostId) : R (BridgeM.unwrap k class_) (BridgeM.unwrap k class_) := by
  refine h.holding (h.bind (h.trackCrossing hreport) fun _ => h.bind h.guest fun _ => ?_) _
  cases k with
  | none => exact h.pure _
  | some k => exact hvalue k class_

end Collections

/-- A weak link is followed once the heap has dropped what nothing holds; a primitive one is not. -/
theorem resolve (h : Crossing R) (k : Handle) : R (BridgeM.resolve k) (BridgeM.resolve k) := by
  refine h.bind h.get fun w => ?_
  split
  · exact h.pure _
  · exact h.pure _
  · exact h.bind h.aliveNow fun _ => h.bind h.get fun _ => h.pure _

/-- What a handle stands for, if making an instance is related to itself. -/
theorem valueOf (h : Crossing R)
    (hmake : ∀ d k, R (BridgeM.allocObject (.wrapper d k)) (BridgeM.allocObject (.wrapper d k)))
    (k : Handle) (class_ : HostId) : R (BridgeM.valueOf k class_) (BridgeM.valueOf k class_) := by
  refine h.bind h.get fun w => ?_
  split
  · exact h.bind (h.kindOf _) fun _ => h.throw _
  · refine h.bind (h.resolve k) fun found => ?_
    split
    · exact h.pure _
    · refine h.bind h.isLiveNow fun live => ?_
      dsimp only
      split
      · exact h.throw_bind
      · exact h.bind (hmake _ _) fun _ => h.bind (h.modifyContext fun _ => rfl) fun _ => h.pure _

theorem followTarget (h : Crossing R) (target : Referent) :
    R (BridgeM.followTarget target) (BridgeM.followTarget target) :=
  h.bind h.aliveNow fun _ => h.pure _

theorem deref (h : Crossing R) (v : HostValue) : R (BridgeM.deref v) (BridgeM.deref v) :=
  h.holding (h.bind (h.weakTarget v) fun target => h.followTarget target) _

theorem derefString (h : Crossing R) (v : HostValue) :
    R (BridgeM.derefString v) (BridgeM.derefString v) := by
  refine h.holding (h.bind (h.weakTarget v) fun target => ?_) _
  dsimp only
  split
  · exact h.throw_bind
  · exact h.followTarget target

/-! ### Notices -/

/-- A reaction is a tree: what the guest does next depends on what it has been answered. -/
theorem react (h : Crossing R) {x : Crossings} (hx : x.Related R) (r : Reaction) :
    R (BridgeM.react x r) (BridgeM.react x r) := by
  induction r with
  | accept => exact h.pure _
  | reject e => exact h.throw e
  | hash e next ih =>
    exact h.bind (h.hostExpr e) fun v => h.bind (hx.hash v) fun code => ih code
  | wrap e next ih =>
    exact h.bind (h.hostExpr e) fun v => h.bind (h.attempt (hx.wrap v)) fun result => ih result
  | weakRef channel e token next ih =>
    refine h.bind (h.hostExpr e) fun v => h.bind (h.option_mapM h.guestExpr token) fun token => ?_
    exact h.bind (h.attempt (h.discard (hx.weakRef channel v token))) fun result => ih result
  | collect next ih => exact h.bind hx.collect fun _ => ih

/-- The guest crosses back first, and then takes the notice or fails to. -/
theorem report (h : Crossing R) (ho : Outside R) {x : Crossings} (hx : x.Related R)
    (channel : Channel) (token : GuestValue) :
    R (BridgeM.report x channel token) (BridgeM.report x channel token) := by
  refine h.holding (h.bind h.guest fun g => ?_) _
  dsimp only
  split
  · exact h.bind (h.react hx _) fun _ => ho.tryGuest _
  · exact ho.tryGuest _

/-- Crossings within a collection are counted, and do not start another one. -/
theorem crossingsInPass (h : Crossing R) (ho : Outside R) : BridgeM.crossingsInPass.Related R where
  wrap := h.rewrap h.tally
  hash := ho.hashWith h.tally
  weakRef := h.weakRefWith h.tally
  collect := h.pure _

/-- **Crossings outside of a collection.** -/
theorem crossings (h : Crossing R) (ho : Outside R) : BridgeM.crossings.Related R :=
  have hreport := h.report ho (h.crossingsInPass ho)
  { wrap := h.rewrap (h.trackCrossing hreport)
    hash := ho.hashWith (h.trackCrossing hreport)
    weakRef := h.weakRefWith (h.trackCrossing hreport)
    collect := h.discard (h.collectGarbage hreport) }

end Congruence.Crossing

end Crossing

/-! ## Calls -/

/-- The runs of behaviours by two runners are related. -/
def RelatedRunners (R : ∀ {α : Type}, BridgeM α → BridgeM α → Prop) (run run' : Runner) : Prop :=
  ∀ b this args, R (run b this args) (run' b this args)

/-- Crossings are related to themselves, and so is what is done to objects and classes. -/
structure Congruence.Calling (R : ∀ {α : Type}, BridgeM α → BridgeM α → Prop) : Prop
    extends Outside R where
  crossings : BridgeM.crossings.Related R
  unwrap (k : Option Handle) (class_ : HostId) : R (BridgeM.unwrap k class_) (BridgeM.unwrap k class_)
  deref (v : HostValue) : R (BridgeM.deref v) (BridgeM.deref v)
  derefString (v : HostValue) : R (BridgeM.derefString v) (BridgeM.derefString v)
  asFunction (v : HostValue) (property : String) :
    R (BridgeM.asFunction v property) (BridgeM.asFunction v property)
  setProperty {run run' : Runner} (hrun : RelatedRunners R run run') (i : HostId) (name : String)
    (v : HostValue) : R (BridgeM.setProperty run i name v) (BridgeM.setProperty run' i name v)
  defineMethod (class_ : HostId) (name : String) (entry : GuestEntry) :
    R (BridgeM.defineMethod class_ name entry) (BridgeM.defineMethod class_ name entry)
  defineProperty (class_ : HostId) (name : String) (getter : GuestEntry)
    (setter : Option GuestEntry) : R (BridgeM.defineProperty class_ name getter setter)
      (BridgeM.defineProperty class_ name getter setter)

section Calling

variable {R : ∀ {α : Type}, BridgeM α → BridgeM α → Prop} {run run' : Runner}

theorem Congruence.invoke (h : Congruence R) (hrun : RelatedRunners R run run')
    (entry : GuestEntry) (args : List HostValue) :
    R (BridgeM.invoke run entry args) (BridgeM.invoke run' entry args) := h.holding (hrun _ _ _) _

/-- An own property comes before those of the class, whose getters are run. -/
theorem Congruence.getProperty (h : Congruence R) (hrun : RelatedRunners R run run') (i : HostId)
    (name : String) : R (BridgeM.getProperty run i name) (BridgeM.getProperty run' i name) := by
  refine h.bind (h.object? i) fun found => ?_
  split
  · split
    · exact h.pure _
    · refine h.bind (h.definitionOf _) fun definition => ?_
      split
      · split
        · exact h.invoke hrun _ _
        · exact h.pure _
      · exact h.pure _
  · exact h.pure _

/-- What an object does is in its cell, so the state is looked at first. -/
theorem Congruence.callObject (h : Congruence R) (hrun : RelatedRunners R run run') (f : HostId)
    (this : HostValue) (args : List HostValue) :
    R (BridgeM.callObject run f this args) (BridgeM.callObject run' f this args) := by
  refine h.holding (h.bind h.get fun w => ?_) _
  dsimp only
  split
  · exact hrun _ _ _
  · exact h.throw _
  · exact h.throw _

theorem Congruence.callFunction (h : Congruence R) (hrun : RelatedRunners R run run')
    (f : HostValue) (args : List HostValue) :
    R (BridgeM.callFunction run f args) (BridgeM.callFunction run' f args) := by
  cases f with
  | object i => exact h.callObject hrun _ _ _
  | _ => exact h.bind (h.display _) fun _ => h.throw _

theorem Congruence.construct (h : Congruence R) (hrun : RelatedRunners R run run')
    (f : HostValue) (args : List HostValue) :
    R (BridgeM.construct run f args) (BridgeM.construct run' f args) := by
  refine h.holding (h.bind h.get fun w => ?_) _
  split
  · exact hrun _ _ _
  · exact h.throw _

theorem Congruence.callProperty (h : Congruence R) (hrun : RelatedRunners R run run') (i : HostId)
    (name : String) (args : List HostValue) :
    R (BridgeM.callProperty run i name args) (BridgeM.callProperty run' i name args) := by
  refine h.holding (h.bind (h.getProperty hrun i name) fun v => ?_) _
  split
  · exact h.callObject hrun _ _ _
  · exact h.throw _

/-- A method of null is a global function. -/
theorem Congruence.callMethod (h : Congruence R) (hrun : RelatedRunners R run run')
    (v : HostValue) (name : String) (args : List HostValue) :
    R (BridgeM.callMethod run v name args) (BridgeM.callMethod run' v name args) := by
  cases v with
  | null =>
    refine h.bind h.get fun w => ?_
    split
    · exact h.throw _
    · split
      · exact h.callObject hrun _ _ _
      · exact h.throw _
  | object i => exact h.callProperty hrun i name args
  | _ => exact h.bind (h.kindOf _) fun _ => h.throw _

namespace Congruence.Reading

theorem functionAsObject (h : Reading R) (v : HostValue) (property : String) :
    R (BridgeM.functionAsObject v property) (BridgeM.functionAsObject v property) := by
  refine h.holding ?_ _
  cases v with
  | object f =>
    -- each way that does not lead back to a receiver ends with a new object
    have last := h.allocObject ObjectKind.loose_plain (.ofList [(property, .object f)])
    refine h.bind (h.originOf f) fun found => ?_
    split
    · split
      · refine h.bind (h.object? _) fun o => ?_
        split
        · split
          · exact h.pure _
          · exact last
        · exact last
      · exact last
    · exact last
  | _ => exact h.bind (h.display _) fun _ => h.throw _

/-- A reference is given as its text, for which a string is made. -/
theorem hostOfResult (h : Reading R) (r : Option GuestValue) :
    R (BridgeM.hostOfResult r) (BridgeM.hostOfResult r) := by
  unfold BridgeM.hostOfResult
  split
  · exact h.pure _
  · exact h.allocString _
  · exact h.allocString _
  · exact h.ofExcept _

theorem apply (h : Reading R) (g : Global) (args : List HostValue) :
    R (g.apply args) (g.apply args) := by
  cases g with
  | string => exact h.bind (h.display _) fun _ => h.allocString _
  | parseInt | parseFloat => exact h.bind (h.display _) fun _ => h.pure _
  | _ => exact h.pure _

end Congruence.Reading

namespace Congruence.Calling

/-- **Interop imports** of two runs of calls. -/
theorem callInterop (h : Calling R) (hrun : RelatedRunners R run run') (x : Interop)
    (ts : List GuestValue) : R (BridgeM.callInterop run x ts) (BridgeM.callInterop run' x ts) := by
  have hname := h.nameArg ts
  have hexternal := h.externalArg ts
  have hhost := h.hostArg ts
  have hentry := h.entryArg ts
  cases x with
  | wrap => exact h.bind (hhost 0) fun v => h.bind (h.crossings.wrap v) fun _ => h.pure _
  | unwrap =>
    exact h.bind (h.argument ts 0) fun _ => h.bind (h.ofExcept _) fun k =>
      h.bind (h.classArg ts 1) fun c => h.bind (h.unwrap k c) fun _ => h.pure _
  | synthesizeClass =>
    exact h.bind (hname 0) fun name => h.bind (h.synthesizeClass name) fun _ => h.pure _
  | defineMethod =>
    exact h.bind (hname 1) fun name => h.bind (h.classArg ts 0) fun c => h.bind (hentry 2) fun e =>
      h.bind (h.defineMethod c name e) fun _ => h.pure _
  | defineProperty =>
    exact h.bind (hname 1) fun name =>
      h.bind (h.option_mapM (fun _ => h.ofExcept _) (optionalArg ts 3)) fun setter =>
        h.bind (h.classArg ts 0) fun c => h.bind (hentry 2) fun getter =>
          h.bind (h.defineProperty c name getter setter) fun _ => h.pure _
  | hashCode => exact h.bind (hhost 0) fun v => h.bind (h.crossings.hash v) fun _ => h.pure _
  | createWeakRef | createStringWeakRef =>
    exact h.bind (hexternal 0) fun v => h.bind (h.crossings.weakRef _ v _) fun _ => h.pure _
  | deref => exact h.bind (hexternal 0) fun v => h.bind (h.deref v) fun _ => h.pure _
  | stringDeref => exact h.bind (hexternal 0) fun v => h.bind (h.derefString v) fun _ => h.pure _
  | callFunction =>
    exact h.bind (hexternal 0) fun f => h.bind (h.restArgs ts 1) fun rest =>
      h.bind (h.callFunction hrun f rest) fun _ => h.pure _
  | construct =>
    exact h.bind (hexternal 0) fun f => h.bind (h.restArgs ts 1) fun rest =>
      h.bind (h.construct hrun f rest) fun _ => h.pure _
  | callMethod =>
    exact h.bind (hhost 0) fun v => h.bind (hname 1) fun name => h.bind (h.restArgs ts 2) fun rest =>
      h.bind (h.callMethod hrun v name rest) fun _ => h.pure _
  | asFunction =>
    exact h.bind (hname 1) fun name => h.bind (hexternal 0) fun v =>
      h.bind (h.asFunction v name) fun _ => h.pure _
  | functionAsObject =>
    exact h.bind (hname 1) fun name => h.bind (hexternal 0) fun v =>
      h.bind (h.functionAsObject v name) fun _ => h.pure _
  | getProperty =>
    exact h.bind (h.objectArg ts 0) fun i => h.bind (hname 1) fun name =>
      h.bind (h.getProperty hrun i name) fun _ => h.pure _
  | setProperty =>
    exact h.bind (h.objectArg ts 0) fun i => h.bind (hhost 2) fun v => h.bind (hname 1) fun name =>
      h.bind (h.setProperty hrun i name v) fun _ => h.pure _
  | createObject => exact h.bind (h.allocObject ObjectKind.loose_plain _) fun _ => h.pure _
  | typeOf =>
    exact h.bind (hexternal 0) fun v => h.bind (h.kindOf v) fun _ => h.bind (h.tryGuest _) fun _ =>
      h.pure _

/-- Imports for dates and numbers look at their arguments, the clock looks at the state, and the
console takes a unit. -/
theorem callImportFunction (h : Calling R) (hrun : RelatedRunners R run run') (x : ImportFunction)
    (ts : List GuestValue) :
    R (BridgeM.callImportFunction run x ts) (BridgeM.callImportFunction run' x ts) := by
  have hnumber := h.numberArg ts
  refine h.holding ?_ _
  cases x with
  | putChar stream =>
    exact h.bind (h.argument ts 0) fun _ => h.bind (h.ofExcept _) fun _ =>
      h.bind (h.modifyContext _) fun _ => h.pure _
  | clock | random => exact h.bind h.get fun _ => h.pure _
  | composeDate zone => exact h.bind (h.dateArgs ts) fun _ => h.pure _
  | getDateField | weekday | minutesBehind | unary =>
    exact h.bind (hnumber 0) fun _ => h.pure _
  | setDateField | binary =>
    exact h.bind (hnumber 0) fun _ => h.bind (hnumber 1) fun _ => h.pure _
  | interop x => exact h.callInterop hrun x ts
  | custom c =>
    cases c with
    | nothing | first | argumentCount => exact h.pure _
    | fail text => exact h.throw _
    | value e => exact h.bind (h.guestExpr e) fun _ => h.pure _

theorem callImport (h : Calling R) (hrun : RelatedRunners R run run') (module name : String)
    (ts : List GuestValue) :
    R (BridgeM.callImport run module name ts) (BridgeM.callImport run' module name ts) :=
  h.bind h.guest fun _ => h.bind (h.ofExcept _) fun x => h.callImportFunction hrun x ts

/-- A body looks at the state, makes cells, or calls; what it calls is related by hypothesis. -/
theorem performBody (h : Calling R) (hrun : RelatedRunners R run run') (b : Body HostValue GuestExpr)
    (this : HostValue) (args : List HostValue) :
    R (BridgeM.performBody run b this args) (BridgeM.performBody run' b this args) := by
  cases b with
  | undefined | this | argument | argumentCount | const | sum => exact h.pure _
  | join => exact h.bind (h.mapM h.display _) fun _ => h.allocString _
  | fail text => exact h.throw _
  | get key =>
    cases this with
    | object i => exact h.getProperty hrun i key
    | _ => exact h.bind (h.kindOf _) fun _ => h.throw _
  | make keys => exact h.bind (h.allocObject ObjectKind.loose_plain _) fun _ => h.pure _
  | load cell => exact h.bind h.get fun _ => h.pure _
  | save cell => exact h.bind (h.outside fun _ => rfl) fun _ => h.pure _
  | apply => exact h.callFunction hrun _ _
  | callImport name exprs =>
    exact h.bind (h.mapM h.guestExpr exprs) fun ts =>
      h.bind (h.callImport hrun _ name ts) fun r => h.hostOfResult r

/-- **Behaviours** are related at one depth more than their calls. -/
theorem perform (h : Calling R) (hrun : RelatedRunners R run run') :
    RelatedRunners R (BridgeM.perform run) (BridgeM.perform run') := by
  intro b this args
  cases b with
  | body b => exact h.performBody hrun b this args
  | forward e => exact h.performBody hrun e.body .undefined (this :: args)
  | global g => exact h.apply g args
  | bound receiver property => exact h.callProperty hrun receiver property args

/-- So behaviours are related to themselves, at any depth. -/
theorem ofDepth (h : Calling R) (n : Nat) : RelatedRunners R (.ofDepth n) (.ofDepth n) := by
  induction n with
  | zero => exact fun _ _ _ => h.throw _
  | succ n ih => exact h.perform ih

end Congruence.Calling

end Calling

end BridgeM

end GuestBridge
