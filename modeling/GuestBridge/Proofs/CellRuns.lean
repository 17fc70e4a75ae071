import GuestBridge.Proofs.Cells
import GuestBridge.Proofs.Identity

/-!
# What calls and sessions do to cells

A call may write properties, define members of classes and extract callables, and it may
call back. Its effect on the cells is still a run of changes, at any depth, and so is the
effect of a program, an action and a step of a session.

* `asFunction_run`: **what an extraction does.**
* `getProperty_run`, `setProperty_run`: **what a read and a write of a property do.**
* `alters_calling`, `runner_alters`: the effect of calls and of a behaviour.
* `World.Later.alters`: **the effect of the steps of a session is a run of changes.**
* `World.Reachable.run`: the cells of a reachable state are those of such a run.
-/

namespace GuestBridge

namespace BridgeM

/-! ## Calls -/

section Calls

variable {run : Runner} {v : HostValue} {args : List HostValue} {ts : List GuestValue} {i : HostId}

/-- The part of an extraction that makes a callable. -/
def makeBound (i : HostId) (p : String) : BridgeM HostId := do
  let f ← allocObject (.function { name := "bound " ++ p, behaviour := .bound i p })
  if let some o ← object? i then
    setObject i { o with methodCache := o.methodCache.insert p f }
  return f

/-- The callable is made first, and the object remembers it then. -/
theorem makeBound_run (i : HostId) (p : String) (held : List HostId) (w : World) :
    makeBound i p held w = .ok ⟨w.heap.next⟩ { w with heap := w.heap.extract i p } := by
  have halloc : allocObject (.function { name := "bound " ++ p, behaviour := .bound i p }) {} held w =
      .ok ⟨w.heap.next⟩ { w with heap := (w.heap.alloc (.object (.bound i p))).2 } := rfl
  unfold makeBound
  rw [bind_run, halloc]
  dsimp only
  rw [bind_run, object?_run]
  dsimp only [Heap.extract]
  cases (w.heap.alloc (.object (.bound i p))).2.object? i <;> rfl

/-- **What an extraction does**: it gives the callable extracted before, while that is alive, or a
new one, which the object remembers. -/
theorem asFunction_run (i : HostId) (p : String) (held : List HostId) (w : World) :
    asFunction (.object i) p held w =
      match (((w.settled (i :: held)).heap.cached? i p).filter
        (w.settled (i :: held)).heap.isAlive) with
      | some f => .ok f (w.settled (i :: held))
      | none => .ok ⟨w.heap.next⟩
        { w with heap := (w.settled (i :: held)).heap.extract i p } := by
  change (aliveNow >>= _) (i :: held) w = _
  rw [bind_run, aliveNow_run]
  dsimp only
  rw [bind_run, object?_run]
  dsimp only [Heap.cached?]
  -- the callable is looked for after the collection that asks what is alive
  cases hcached : ((((w.settled (i :: held)).heap.object? i).bind fun o =>
      o.methodCache.find? p).filter (w.settled (i :: held)).heap.isAlive) with
  | some f => rfl
  | none => exact makeBound_run i p (i :: held) (w.settled (i :: held))

theorem asFunction_alters (v : HostValue) (p : String) : Alters (asFunction v p) := by
  intro held w
  cases v with
  | object i =>
    -- What nothing holds is dropped first, so a callable that is found is alive.
    have hsettle : w.Alters (w.settled (i :: held)) := .settled w _
    rw [Leads, asFunction_run]
    cases hcached : ((w.settled (i :: held)).heap.cached? i p).filter
        (w.settled (i :: held)).heap.isAlive with
    | some f => exact ⟨hsettle, trivial⟩
    | none => exact ⟨hsettle.tail (.extract hcached) fun _ _ => Heap.evolves_extract _ _ _, trivial⟩
  | _ => exact Leads.observe (.kindOf _) fun _ _ => Leads.throw

/-- The effect of behaviours on the cells are runs of changes. -/
def RunnerAlters (run : Runner) : Prop := ∀ b this args, Alters (run b this args)

/-- As a relation of two runners that does not look at the second of them. -/
theorem RunnerAlters.related (hrun : RunnerAlters run) :
    RelatedRunners (fun act _ => Alters act) run run := hrun

/-- What a write does at an accessor: its setter runs, or there is none and the write fails. -/
def acceptWrite (run : Runner) (a : Accessor) (i : HostId) (name : String) (v : HostValue) :
    BridgeM Unit :=
  match a.setter with
  | some setter => holding a.holds do discard (invoke run setter [.object i, v])
  | none => throw (.readOnlyProperty name)

section Properties

variable {held : List HostId} {w : World} {o : HostObject}

/-- The definition of an object is the one of its class, if it is a wrapper instance. -/
theorem definitionOf_run (ho : w.heap.object? i = some o) (held : List HostId) :
    definitionOf o held w = .ok ((w.heap.instanceOf? i).bind w.heap.definition?) w := by
  unfold definitionOf Heap.instanceOf?
  rw [ho]
  obtain ⟨kind, properties, methodCache⟩ := o
  cases kind <;> rfl

/-- **What a read does**: an own property comes first, then the getter of an accessor runs, and
then there is a method. -/
theorem getProperty_run (run : Runner) (ho : w.heap.object? i = some o) (name : String)
    (held : List HostId) :
    getProperty run i name held w =
      match w.heap.own? i name, w.heap.accessor? i name with
      | some x, _ => .ok x w
      | none, some a => invoke run a.getter [.object i] held w
      | none, none => .ok ((w.heap.method? i name).elim .undefined .object) w := by
  unfold getProperty
  rw [bind_run, object?_run, ho, Heap.own?_of_object? ho, Heap.accessor?_eq, Heap.method?]
  dsimp only
  cases o.properties.find? name with
  | some x => rfl
  | none =>
    dsimp only
    rw [bind_run, definitionOf_run ho]
    cases (w.heap.instanceOf? i).bind w.heap.definition? with
    | none => rfl
    | some m =>
      dsimp only [Option.bind_some]
      cases m.accessors.find? name <;> rfl

/-- **What a write does**: an accessor comes first, and without one an own property is stored. -/
theorem setProperty_run (run : Runner) (ho : w.heap.object? i = some o) (name : String)
    (v : HostValue) (held : List HostId) :
    setProperty run i name v held w =
      match w.heap.accessor? i name with
      | some a => acceptWrite run a i name v held w
      | none => .ok () { w with heap := w.heap.setCell i (.object
          { o with properties := o.properties.insert name v }) } := by
  unfold setProperty
  rw [bind_run, object?_run, ho, Heap.accessor?_eq]
  dsimp only
  rw [bind_run, definitionOf_run ho]
  dsimp only
  cases ((w.heap.instanceOf? i).bind w.heap.definition?).bind
    fun m => m.accessors.find? name with
  | none => rfl
  | some a =>
    -- an accessor without a setter takes the write as well
    obtain ⟨getter, setter⟩ := a
    cases setter <;> rfl

end Properties

theorem acceptWrite_alters (hrun : RunnerAlters run) (a : Accessor) (i : HostId) (name : String)
    (v : HostValue) : Alters (acceptWrite run a i name v) := by
  unfold acceptWrite
  split
  · exact (alters.invoke hrun.related _ _).discard.holding _
  · exact .throw _

/-- A write that is not taken by an accessor changes the properties of one object. -/
theorem setProperty_alters (hrun : RunnerAlters run) (i : HostId) (name : String) (v : HostValue) :
    Alters (setProperty run i name v) := by
  intro held w
  cases ho : w.heap.object? i with
  | none => exact Leads.read ((object?_run i held w).trans (by rw [ho])) (Leads.pure trivial)
  | some o =>
    rw [Leads, setProperty_run run ho]
    cases ha : w.heap.accessor? i name with
    | some a => exact acceptWrite_alters hrun a i name v held w
    | none => exact ⟨.of_change (.write ho) (Heap.evolves_write ho ha v), trivial⟩

/-- The definition behind a class is found, where there is one. -/
theorem definitionBehind_observes (class_ : HostId) (held : List HostId) (w : World) :
    Leads Eq held w (definitionBehind class_) fun a _ =>
      w.heap.Grounded → w.heap.definition? a.1 = some a.2 := by
  refine Leads.read (get_run held w) ?_
  dsimp only
  split
  · next d hd =>
    refine Leads.pure fun hh => ?_
    obtain ⟨m, hm⟩ := hh.definition_of_class hd
    rw [hm, Option.getD_some]
  · exact Leads.throw

/-- A method is a new function that forwards to the guest, and a change of the definition. -/
theorem defineMethod_alters (class_ : HostId) (name : String) (entry : GuestEntry) :
    Alters (defineMethod class_ name entry) := by
  intro held w
  refine Leads.look (definitionBehind_observes class_ held w) fun (d, m) hm => ?_
  have hmake : Alters (allocObject (.function { name, behaviour := .forward entry })) :=
    .allocObject rfl rfl
  refine Leads.after (a := ⟨w.heap.next⟩) rfl ⟨?_, trivial⟩
  refine ((hmake held w).ok rfl).1.tail .define fun hh _ => ?_
  refine Heap.evolves_setDefinition (hh.definition?_alloc (hm hh) _) (fun _ ha => ha) fun p f hf => ?_
  rw [OrderedMap.find?_insert] at hf
  split_ifs at hf
  · -- the new method is the function that has been made
    exact .inr (Option.some.inj hf ▸ Heap.forwards_alloc w.heap name entry)
  · exact .inl hf

/-- An accessor is a change of the definition alone, and replaces the one of that name. -/
theorem defineProperty_alters (class_ : HostId) (name : String) (getter : GuestEntry)
    (setter : Option GuestEntry) : Alters (defineProperty class_ name getter setter) := by
  intro held w
  refine Leads.look (definitionBehind_observes class_ held w) fun (d, m) hm => ?_
  refine ⟨(World.Alters.of_same rfl).tail .define fun hh _ => ?_, trivial⟩
  refine Heap.evolves_setDefinition (hm hh) (fun p hp => ?_) fun _ _ hf => .inl hf
  rw [OrderedMap.find?_insert]
  split_ifs
  · rfl
  · exact hp

/-- **Whatever calls do to the cells are runs of changes**, if that is so of the behaviours that they
carry out. -/
theorem alters_calling : Congruence.Calling fun act _ => Alters act where
  toOutside := alters
  crossings := crossings_alters
  unwrap := unwrap_alters
  deref := alters_crossing.deref
  derefString := alters_crossing.derefString
  asFunction := asFunction_alters
  setProperty hrun := setProperty_alters hrun
  defineMethod := defineMethod_alters
  defineProperty := defineProperty_alters

/-- **The effect of a behaviour on the cells is a run of changes**, at any depth. -/
theorem runner_alters (n : ℕ) : RunnerAlters (.ofDepth n) := alters_calling.ofDepth n

/-- A guest that calls an import changes cells as the calls behind it do. -/
theorem callImport_alters (hrun : RunnerAlters run) (module name : String)
    (ts : List GuestValue) : Alters (callImport run module name ts) :=
  alters_calling.callImport hrun.related module name ts

end Calls

/-! ## Programs -/

section Programs

theorem printUnits_alters (units : List UInt16) : Alters (printUnits units) :=
  .forM (fun _ => (callImport_alters (runner_alters _) _ _ _).discard) _

theorem echo_alters (args : Handle) : Alters (echo args) := by
  refine (alters.askGuest _).bind fun items => Alters.forM (fun item => ?_) _
  cases item with
  | none => exact printUnits_alters _
  | some h => exact (alters.askGuest _).bind fun _ => printUnits_alters _

/-- The arguments of a call are held while it runs. -/
theorem performCall_alters (c : ProgramCall) : Alters (performCall c) := by
  refine (alters.mapM alters.guestExpr c.args).bind fun ts => Alters.holding ?_ _
  refine (callImport_alters (runner_alters _) _ _ _).bind fun r => ?_
  refine alters.get.bind fun w => ?_
  dsimp only
  split
  · exact Alters.bind (alters.outside fun _ => rfl) fun _ => .pure _
  · exact .pure _

theorem performCalls_alters (cs : List ProgramCall) : Alters (performCalls cs) := by
  induction cs with
  | nil => exact .pure _
  | cons c cs ih =>
    refine (performCall_alters c).attempt.bind fun r => ?_
    split
    · exact ih.bind fun _ => .pure _
    · exact .pure _

/-- A run of the guest, whatever its program is. -/
theorem callMain_alters (args : Handle) : Alters (callMain args) := by
  refine alters.guest.bind fun g => (alters.setGuest _).bind fun _ => ?_
  split
  · exact .pure _
  · exact .pure _
  · exact (echo_alters args).attempt.bind fun _ => .pure _
  · exact performCalls_alters _

theorem runMain_alters (texts : List String) : Alters (runMain texts) :=
  (alters.tryGuest _).bind fun args => callMain_alters args

end Programs

/-! ## Actions -/

section Actions

variable {α : Type}

theorem replyHost_alters (v : HostValue) : Alters (replyHost v) :=
  alters.get.bind fun _ => .pure _

/-- What is done with a value comes after the cells that were made for it. -/
theorem withHost_alters {act : HostValue → BridgeM α} (h : ∀ v, Alters (act v)) (e : HostExpr) :
    Alters (withHost e act) :=
  (alters.hostExpr e).bind fun v => (h v).holding _

theorem withHosts_alters {act : List HostValue → BridgeM α} (h : ∀ vs, Alters (act vs))
    (es : List HostExpr) : Alters (withHosts es act) :=
  (alters.mapM alters.hostExpr es).bind fun vs => (h vs).holding _

theorem withGuest_alters {act : GuestValue → BridgeM α} (h : ∀ t, Alters (act t)) (e : GuestExpr) :
    Alters (withGuest e act) :=
  (alters.guestExpr e).bind fun t => (h t).holding _

theorem withToken_alters {act : Option GuestValue → BridgeM α} (h : ∀ t, Alters (act t))
    (e : Option GuestExpr) : Alters (withToken e act) := by
  cases e with
  | none => exact h none
  | some e => exact withGuest_alters (fun t => h (some t)) e

theorem handleFrom_alters (e : GuestExpr) : Alters (handleFrom e) := by
  refine (alters.guestExpr e).bind fun t => (alters.ofExcept _).bind fun k => ?_
  split
  · exact .pure _
  · exact .throw _

/-- The guest is asked for objects of its own, for wrappers or for notices. -/
theorem performGuest_alters (a : GuestAction) : Alters (performGuest a) := by
  unfold performGuest
  cases a with
  | createStringArray | makeString | makeStringArray =>
    exact (alters.tryGuest _).bind fun _ => .pure _
  | createStringBuilder | allocString => exact (alters.changeGuest _).bind fun _ => .pure _
  | provides => exact alters.guest.bind fun _ => .pure _
  | appendChar builder | buildString builder =>
    exact (handleFrom_alters builder).bind fun _ => (alters.tryGuest _).bind fun _ => .pure _
  | setToStringArray array index value =>
    exact (handleFrom_alters array).bind fun _ => (handleFrom_alters value).bind fun _ =>
      (alters.tryGuest _).bind fun _ => .pure _
  | main args =>
    exact (handleFrom_alters args).bind fun k => (callMain_alters k).bind fun _ =>
      (alters.ofExcept _).bind fun _ => .pure _
  | createWrapper value =>
    refine withHost_alters (fun v => ?_) value
    exact (alters.createWrapper (fun v => (crossings_alters.wrap v).discard) v).bind fun _ =>
      .pure _
  | report channel token =>
    refine withGuest_alters (fun t => ?_) token
    exact (alters_crossing.report alters crossings_alters channel t).bind fun _ => .pure _
  | isLive handle =>
    exact (handleFrom_alters handle).bind fun _ => alters.guest.bind fun _ => .pure _
  | stringLength string | stringCharAt string | readString string | stringValue string
  | stringArray string =>
    exact (handleFrom_alters string).bind fun _ => (alters.askGuest _).bind fun _ => .pure _
  | wrappedValue wrapper =>
    exact (handleFrom_alters wrapper).bind fun _ => (alters.askGuest _).bind fun _ =>
      replyHost_alters _

/-- Properties are read and written, values called, and classes given members. -/
theorem performHost_alters (v : HostValue) (a : HostAction) : Alters (performHost v a) := by
  have hrun : RelatedRunners (fun act _ => Alters act) runner runner := runner_alters _
  have hobject : Alters (requireObject v) := (Observes.requireObject v).alters
  have hclass : Alters (requireClass v) := (Observes.requireClass v).alters
  unfold performHost
  cases a with
  | typeOf => exact (alters.kindOf v).bind fun _ => .pure _
  | display => exact (alters.display v).bind fun _ => .pure _
  | equals other => exact (alters.hostExpr other).bind fun _ => .pure _
  | get key =>
    exact hobject.bind fun i => (alters_calling.getProperty hrun i key).bind fun _ =>
      replyHost_alters _
  | getOwn key =>
    refine hobject.bind fun i => (alters.object? i).bind fun o => ?_
    split
    · exact replyHost_alters _
    · exact .pure _
  | set key value =>
    exact withHost_alters (fun x => hobject.bind fun i =>
      (alters_calling.setProperty hrun i key x).bind fun _ => .pure _) value
  | has key => exact hobject.bind fun i => (Observes.hasProperty i key).alters.bind fun _ => .pure _
  | keys => exact hobject.bind fun i => (alters.object? i).bind fun _ => .pure _
  | call this args =>
    refine withHost_alters (fun this => withHosts_alters (fun args => ?_) args) this
    cases v with
    | object f =>
      exact (alters_calling.callObject hrun f this args).bind fun _ => replyHost_alters _
    | _ => exact (alters.display _).bind fun _ => .throw _
  | construct args =>
    exact withHosts_alters (fun args => (alters_calling.construct hrun v args).bind fun _ =>
      replyHost_alters _) args
  | about => exact hobject.bind fun i => (Observes.aboutObject i).alters.bind fun _ => .pure _
  | defineMethod key entry =>
    exact withGuest_alters (fun t => hclass.bind fun c => (alters.ofExcept _).bind fun e =>
      (defineMethod_alters c key e).bind fun _ => .pure _) entry
  | defineProperty key getter setter =>
    exact withGuest_alters (fun t => withToken_alters (fun s =>
      (alters.option_mapM (fun _ => alters.ofExcept _) s).bind fun s => hclass.bind fun c =>
        (alters.ofExcept _).bind fun e => (defineProperty_alters c key e s).bind fun _ =>
          .pure _) setter) getter

/-- Crossings, weak references and extractions. -/
theorem performContext_alters (a : ContextAction) : Alters (performContext a) := by
  have hrun : RelatedRunners (fun act _ => Alters act) runner runner := runner_alters _
  unfold performContext
  cases a with
  | hasGuest | globals => exact alters.get.bind fun _ => .pure _
  | wrap value =>
    exact withHost_alters (fun v => (crossings_alters.wrap v).bind fun _ => .pure _) value
  | unwrap class_ handle =>
    exact withHost_alters (fun c => withGuest_alters (fun t => (alters.ofExcept _).bind fun k =>
      (Observes.requireClass c).alters.bind fun i => (unwrap_alters k i).bind fun _ =>
        replyHost_alters _) handle) class_
  | hash value =>
    exact withHost_alters (fun v => (crossings_alters.hash v).bind fun _ => .pure _) value
  | createWeakRef channel value token =>
    refine withHost_alters (fun v => withToken_alters (fun t => ?_) token) value
    cases channel <;>
      exact (crossings_alters.weakRef _ v t).bind fun _ => replyHost_alters _
  | deref channel value =>
    refine withHost_alters (fun v => ?_) value
    cases channel with
    | value => exact (alters_calling.deref v).bind fun _ => replyHost_alters _
    | string => exact (alters_calling.derefString v).bind fun _ => replyHost_alters _
  | callMethod value name args =>
    exact withHost_alters (fun v => withHosts_alters (fun vs =>
      (alters_calling.callMethod hrun v name vs).bind fun _ => replyHost_alters _) args) value
  | asFunction value name =>
    exact withHost_alters (fun v => (asFunction_alters v name).bind fun _ =>
      replyHost_alters _) value
  | functionAsObject value name =>
    exact withHost_alters (fun v => (alters_calling.functionAsObject v name).bind fun _ =>
      replyHost_alters _) value
  | flush => exact (alters.modifyContext _).bind fun _ => .pure _

/-- **The effect of an action on the cells is a run of changes.** -/
theorem performAction_alters (a : Action) : Alters (performAction a) := by
  unfold performAction
  cases a with
  | callImport module name args =>
    exact (alters.mapM alters.guestExpr args).bind fun ts =>
      ((callImport_alters (runner_alters _) module name ts).bind fun _ =>
        alters.get.bind fun _ => .pure _).holding _
  | drop name =>
    exact alters.get.bind fun _ => Alters.bind (alters.outside fun _ => rfl) fun _ => .pure _
  | free handle =>
    exact (handleFrom_alters handle).bind fun _ => (alters.changeGuest _).bind fun _ => .pure _
  | collect => exact collectGarbage_alters.bind fun _ => .pure _
  | stats => exact (Observes.get.bind fun _ => .pure _).alters.bind fun _ => .pure _
  | reports => exact alters.get.bind fun _ => alters.guest.bind fun _ => .pure _
  | setExport | setMode =>
    exact alters.guest.bind fun _ => (alters.setGuest _).bind fun _ => .pure _
  | guest action => exact performGuest_alters action
  | host target action => exact withHost_alters (fun v => performHost_alters v action) target
  | context action => exact performContext_alters action
  | console | describe => exact alters.get.bind fun _ => .pure _
  | unload => exact Alters.bind (alters.outside fun _ => rfl) fun _ => .pure _

end Actions

/-! ## Steps -/

section Steps

variable {α : Type}

theorem performInto_alters (a : Action) (target : Option String) :
    Alters (performInto a target) := by
  refine (performAction_alters a).bind fun r => ?_
  dsimp only
  split
  · exact Alters.bind (alters.outside fun _ => rfl) fun _ => .pure _
  · exact .pure _

theorem setAndShow_alters (name : String) (e : GuestExpr) : Alters (setAndShow name e) :=
  (alters.guestExpr e).bind fun _ => Alters.bind (alters.outside fun _ => rfl) fun _ =>
    alters.get.bind fun _ => .pure _

theorem mainStep_alters (args : List String) : Alters (mainStep args) := by
  refine (runMain_alters args).attempt.bind fun r => ?_
  split
  · exact (Alters.pure _).bind fun _ => Observes.mainArgTexts.alters.bind fun _ => .pure _
  · exact (Alters.pure _).bind fun _ => Observes.mainArgTexts.alters.bind fun _ => .pure _

/-- A step ends with a reclaim, which drops cells only. -/
theorem asStep_alters {act : BridgeM α} (h : Alters act) (w : World) :
    w.Alters (asStep act w).2 := by
  have hfinal : w.Alters (final act [] w) := (h [] w).final
  have hsettle : (final act [] w).Alters (asStep act w).2 := by
    unfold asStep
    rw [← outcome_snd]
    exact .of_change .reclaim (Heap.evolves_reclaim _)
  exact Trans.trans hfinal hsettle

end Steps

end BridgeM

mutual

/-- **The effect of a step on the cells is a run of changes.** -/
theorem Step.run_alters : ∀ (s : Step) (w : World), w.Alters (s.run w).2
  | .perform action target, w => by
    rw [Step.run]
    exact BridgeM.asStep_alters (BridgeM.performInto_alters action target) w
  | .set name e, w => by
    rw [Step.run]
    exact BridgeM.asStep_alters (BridgeM.setAndShow_alters name e) w
  | .main args, w => by
    have h := BridgeM.asStep_alters (BridgeM.mainStep_alters args) w
    rw [Step.run]
    split
    · next he => rw [he] at h; exact h
    · next he => rw [he] at h; exact h
  | .rounds count steps, w => by
    -- by induction on the number of rounds
    have hround : ∀ n : ℕ, w.Alters (n.repeat (fun r => runSteps steps r.2) ([], w)).2 := by
      intro n
      induction n with
      | zero => exact .of_same rfl
      | succ n ih => exact Trans.trans ih (runSteps_alters steps _)
    rw [Step.run]
    exact hround count

/-- Steps one after the other. -/
theorem runSteps_alters : ∀ (ss : List Step) (w : World), w.Alters (runSteps ss w).2
  | [], w => .of_same rfl
  | s :: ss, w => by
    rw [runSteps]
    exact Trans.trans (Step.run_alters s w) (runSteps_alters ss _)

end

/-- So is the effect of any steps. -/
theorem World.Later.alters {w w' : World} (h : w.Later w') : w.Alters w' := by
  induction h with
  | refl => exact .of_same rfl
  | step s _ ih => exact Trans.trans ih (s.run_alters _)

/-! ## Sessions -/

section Loading

variable {s : Setup} {environment : Environment} {o : Options} {w : World}

/-- Loading a bridge is a run of changes. -/
theorem World.load_alters (h : World.load s environment = (some o, .ok (), w)) :
    (World.initial environment).Alters w := by
  obtain ⟨w₀, program, hrun, -, rfl⟩ := World.load_run h
  have h₀ := ((BridgeM.alters.readOptions s [] (World.initial environment)).ok hrun).1
  exact h₀.trans (.of_same rfl)

/-- **The cells of every reachable state are those of a run of changes that starts from none.** -/
theorem World.Reachable.run (h : w.Reachable) : ∃ xs, ({} : Heap).Run xs w.heap := by
  obtain ⟨s, environment, o, w₀, hload, hlater⟩ := h
  exact (World.load_alters hload).trans hlater.alters |>.run

end Loading

end GuestBridge
