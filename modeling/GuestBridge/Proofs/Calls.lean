import GuestBridge.Call
import GuestBridge.Proofs.Crossings

/-!
# Calls are made of moves

A runner is sound (`Runner.Sound`) when carrying out a behaviour is made of moves and
gives a value that the heap has. Property access, calls and imports keep that up over
any sound runner, so that it holds of the runner of any depth.

* `callImport_leads`: **an import is made of moves.**
* `runner_sound`: **so is carrying out a behaviour, at any depth.**
-/

namespace GuestBridge

/-- The heap has what guest values refer to. -/
def Heap.BacksAll (h : Heap) (ts : List GuestValue) : Prop := ∀ t ∈ ts, ∀ p ∈ t.parts, h.Backs p

theorem Heap.BacksAll.isAlive {h : Heap} {ts : List GuestValue} (ht : h.BacksAll ts) :
    ∀ i ∈ ts.flatMap GuestValue.holds, h.isAlive i := by
  intro i hi
  obtain ⟨t, hm, hi⟩ := List.mem_flatMap.1 hi
  exact isAlive_of_guestValue (ht t hm) i hi

/-- Carrying out a behaviour is made of moves, and gives a value that the heap has. -/
def Runner.Sound (run : Runner) : Prop :=
  ∀ held w b this args, w.OK held → (∀ p ∈ b.parts, w.heap.Backs p) →
    w.heap.Backs (.value this) → (∀ a ∈ args, w.heap.Backs (.value a)) →
    BridgeM.Leads (Reaches .outer held) held w (run b this args) fun v w' =>
      w'.heap.Backs (.value v)

namespace BridgeM

variable {held : List HostId} {w w' : World} {v this : HostValue} {args : List HostValue}
  {run : Runner} {i f : HostId}

theorem isAlive_flatMap_holds {h : Heap} {vs : List HostValue}
    (hv : ∀ v ∈ vs, h.Backs (.value v)) : ∀ i ∈ vs.flatMap HostValue.holds, h.isAlive i := by
  intro i hi
  obtain ⟨v, hm, hi⟩ := List.mem_flatMap.1 hi
  exact (hv v hm).isAlive i hi

theorem object?_run (i : HostId) (held : List HostId) (w : World) :
    object? i held w = .ok (w.heap.object? i) w := rfl

theorem display_run (v : HostValue) (held : List HostId) (w : World) :
    display v held w = .ok (w.heap.display v) w := rfl

theorem Observes.display (v : HostValue) : Observes (display v) := observes.display v

theorem Observes.object? (i : HostId) : Observes (object? i) := observes.object? i

/-- The result of a global function. -/
theorem apply_leads (g : Global) (args : List HostValue) :
    Leads (Reaches .outer held) held w (g.apply args) fun v w' => w'.heap.Backs (.value v) := by
  unfold Global.apply
  cases g with
  | string => exact Leads.read (display_run ..) (allocString_leads _)
  | parseInt | parseFloat => exact Leads.read (display_run ..) (Leads.pure trivial)
  | _ => exact Leads.pure trivial

/-! ## Properties -/

section Properties

theorem cell?_of_object? {h : Heap} {o : HostObject} (ho : h.object? i = some o) :
    h.cell? i = some (.object o) := by
  unfold Heap.object? at ho
  split at ho
  · next hc => rw [hc, Option.some.inj ho]
  · cases ho

/-- The heap backs an object if it has its cell. -/
theorem isSome_object?_iff {h : Heap} : (h.object? i).isSome ↔ h.Backs (.value (.object i)) := by
  rw [Option.isSome_iff_exists]
  constructor
  · rintro ⟨o, ho⟩
    exact ⟨o, cell?_of_object? ho⟩
  · rintro ⟨o, ho⟩
    exact ⟨o, by rw [Heap.object?, ho]⟩

theorem cell?_of_definition? {h : Heap} {c : ClassDefinition} (hc : h.definition? i = some c) :
    h.cell? i = some (.definition c) := by
  unfold Heap.definition? at hc
  split at hc
  · next he => rw [he, Option.some.inj hc]
  · cases hc

/-- An own property is a value that the heap has. -/
theorem backs_property {h : Heap} (hh : h.OK) {o : HostObject} (ho : h.object? i = some o)
    (hv : v ∈ o.properties.values) : h.Backs (.value v) :=
  hh.parts i _ (cell?_of_object? ho) _ (List.mem_append_right _ (List.mem_map_of_mem hv))

/-- The heap has what an accessor refers to. -/
theorem backs_accessor {h : Heap} (hh : h.OK) {c : ClassDefinition} (hc : h.definition? i = some c)
    {a : Accessor} (ha : a ∈ c.accessors.values) : ∀ p ∈ a.parts, h.Backs p := fun p hp =>
  hh.parts i _ (cell?_of_definition? hc) p
    (List.mem_append_right _ (List.mem_flatMap.2 ⟨a, ha, hp⟩))

/-- Methods of a class are callables that the heap has. -/
theorem backs_method {h : Heap} (hh : h.OK) {c : ClassDefinition} (hc : h.definition? i = some c)
    {m : HostId} (hm : m ∈ c.methods.values) : h.Backs (.value (.object m)) :=
  hh.parts i _ (cell?_of_definition? hc) _
    (List.mem_append_left _ (List.mem_map.2 ⟨m, hm, rfl⟩))

/-- A guest function is run while what it refers to is held. -/
theorem invoke_leads (hrun : run.Sound) (hw : w.OK held) {entry : GuestEntry}
    (he : ∀ p ∈ entry.body.parts, w.heap.Backs p) (ha : ∀ a ∈ args, w.heap.Backs (.value a)) :
    Leads (Reaches .outer held) held w (invoke run entry args) fun v w' =>
      w'.heap.Backs (.value v) := by
  refine Leads.hold (fun hw => ?_) hw fun i hi => ?_
  · exact hrun _ w _ _ _ hw he trivial ha
  · rcases List.mem_append.1 hi with hi | hi
    · exact Heap.isAlive_of_parts he (Body.mem_holds.1 hi)
    · exact isAlive_flatMap_holds ha i hi

/-- The definition of a wrapper instance's class. -/
theorem definitionOf_looks (o : HostObject) : Leads Eq held w (definitionOf o) fun found _ =>
    ∀ c, found = some c → ∃ d, w.heap.definition? d = some c := by
  unfold definitionOf
  split
  · next d _ _ => exact Leads.read (get_run held w) (Leads.pure fun c hc => ⟨d, hc⟩)
  · exact Leads.pure nofun

/-- **The heap has the value of a property.** -/
theorem getProperty_leads (hrun : run.Sound) (hw : w.OK held) (name : String) :
    Leads (Reaches .outer held) held w (getProperty run i name) fun v w' =>
      w'.heap.Backs (.value v) := by
  refine Leads.read (object?_run i held w) ?_
  split
  · next o ho =>
    split
    · next v hv => exact Leads.pure (backs_property hw.heap ho (OrderedMap.mem_values_of_find? hv))
    · refine Leads.look (definitionOf_looks o) fun found hf => ?_
      split
      · next c =>
        obtain ⟨d, hd⟩ := hf c rfl
        split
        · next a ha =>
          have hp := backs_accessor hw.heap hd (OrderedMap.mem_values_of_find? ha)
          refine invoke_leads hrun hw (fun p h => hp p (List.mem_append_left _ h)) fun a ha => ?_
          exact List.mem_singleton.1 ha ▸ ⟨o, cell?_of_object? ho⟩
        · refine Leads.pure ?_
          cases hm : c.methods.find? name with
          | none => trivial
          | some m => exact backs_method hw.heap hd (OrderedMap.mem_values_of_find? hm)
      · exact Leads.pure trivial
  · exact Leads.pure trivial

/-- A cell that is an object gets other properties. What was backed stays so. -/
theorem setObject_leads (hw : w.OK held) {o o' : HostObject} (ho : w.heap.object? i = some o)
    (kind : o'.kind = o.kind) (hp : ∀ v ∈ o'.properties.values, w.heap.Backs (.value v))
    (hm : ∀ m ∈ o'.methodCache.values, w.heap.Knows (.object m)) :
    Leads (Reaches .outer held) held w (setObject i o') fun _ w' =>
      ∀ p, w.heap.Backs p → w'.heap.Backs p := by
  have hc := cell?_of_object? ho
  have hs : (Cell.object o').shape = (Cell.object o).shape := congrArg Shape.object kind
  refine Leads.modify (Reaches.outer (.setCell hc hs ?_ ?_)) fun p hp =>
    hp.of_keeps hw.heap (Heap.later_setCell hc hs) fun j hj => (Heap.isAlive_setCell hc _ j).2 hj
  · intro p hm
    rcases List.mem_append.1 hm with hm | hm
    · exact hw.heap.parts i _ hc p (List.mem_append_left _ (kind ▸ hm))
    · obtain ⟨v, hv, rfl⟩ := List.mem_map.1 hm
      exact hp v hv
  · intro r hr
    rcases List.mem_append.1 hr with hr | hr
    · exact hw.heap.weakLinks i _ hc r (List.mem_append_left _ (kind ▸ hr))
    · obtain ⟨m, hm', rfl⟩ := List.mem_map.1 hr
      exact hm m hm'

/-- What an object leads to without holding it is known. -/
theorem knows_method {h : Heap} (hh : h.OK) {o : HostObject} (ho : h.object? i = some o)
    {m : HostId} (hm : m ∈ o.methodCache.values) : h.Knows (.object m) :=
  hh.weakLinks i _ (cell?_of_object? ho) _
    (List.mem_append_right _ (List.mem_map.2 ⟨m, hm, rfl⟩))

/-- A property is written by moves. -/
theorem setProperty_leads (hrun : run.Sound) (hw : w.OK held) (name : String)
    (hv : w.heap.Backs (.value v)) :
    Leads (Reaches .outer held) held w (setProperty run i name v) fun _ _ => True := by
  refine Leads.read (object?_run i held w) ?_
  -- a setter comes before a property of the object itself
  split
  · next o ho =>
    refine Leads.look (definitionOf_looks o) fun found hf => ?_
    split
    · next a ha =>
      obtain ⟨c, hc, ha⟩ := Option.bind_eq_some_iff.1 ha
      obtain ⟨d, hd⟩ := hf c hc
      have hp := backs_accessor hw.heap hd (OrderedMap.mem_values_of_find? ha)
      split
      · next setter hs =>
        refine Leads.hold (fun hw => (invoke_leads hrun hw (fun p h => hp p
          (List.mem_append_right _ ?_)) fun a ha => ?_).discard fun _ _ _ _ => trivial) hw
          fun j hj => Heap.isAlive_of_parts hp (Accessor.mem_holds.1 hj)
        · rw [hs]; exact h
        · rcases List.mem_cons.1 ha with rfl | ha
          · exact ⟨o, cell?_of_object? ho⟩
          · exact List.mem_singleton.1 ha ▸ hv
      · exact Leads.throw
    · refine Leads.imp (setObject_leads hw ho rfl (fun x hx => ?_) fun m hm =>
        knows_method hw.heap ho hm) fun _ _ _ _ => trivial
      rcases OrderedMap.mem_values_insert hx with rfl | hx
      · exact hv
      · exact backs_property hw.heap ho hx
  · exact Leads.pure trivial

theorem Observes.definitionOf (o : HostObject) : Observes (definitionOf o) :=
  observes.definitionOf o

theorem Observes.hasProperty (i : HostId) (name : String) : Observes (hasProperty i name) := by
  refine (Observes.object? i).bind fun o => ?_
  split
  · split
    · exact .pure _
    · exact (Observes.definitionOf _).bind fun _ => .pure _
  · exact .pure _

end Properties

/-! ## Calling -/

section Calling

/-- The heap has what a callable refers to. -/
theorem backs_callable {h : Heap} (hh : h.OK) {c : Callable} (hc : h.callable? f = some c) :
    (∀ p ∈ c.behaviour.parts, h.Backs p) ∧
      ∀ b, c.construct = some b → ∀ p ∈ b.parts, h.Backs p := by
  unfold Heap.callable? at hc
  split at hc
  · next c' _ _ ho =>
    obtain rfl := Option.some.inj hc
    have hp := hh.parts f _ (cell?_of_object? ho)
    refine ⟨fun p hm => hp p (List.mem_append_left _ (List.mem_append_left _ hm)), fun b hb p hm =>
      hp p (List.mem_append_left _ (List.mem_append_right _ ?_))⟩
    rw [hb]; exact hm
  · cases hc

/-- **An object is called while it, `this` and the arguments are held.** -/
theorem callObject_leads (hrun : run.Sound) (hw : w.OK held) (hf : w.heap.isAlive f)
    (ht : w.heap.Backs (.value this)) (ha : ∀ a ∈ args, w.heap.Backs (.value a)) :
    Leads (Reaches .outer held) held w (callObject run f this args) fun v w' =>
      w'.heap.Backs (.value v) := by
  refine Leads.hold (fun hw => Leads.read (get_run _ w) ?_) hw fun i hi => ?_
  · dsimp only
    split
    · next c hc => exact hrun _ w _ _ _ hw (backs_callable hw.heap hc).1 ht ha
    · exact Leads.throw
    · exact Leads.throw
  · rcases List.mem_cons.1 hi with rfl | hi
    · exact hf
    · rcases List.mem_append.1 hi with hi | hi
      · exact ht.isAlive i hi
      · exact isAlive_flatMap_holds ha i hi

theorem isAlive_of_backs {h : Heap} (hi : h.Backs (.value (.object i))) : h.isAlive i :=
  hi.isAlive i (List.mem_singleton_self _)

/-- What is no object cannot be called. -/
theorem callFunction_leads (hrun : run.Sound) (hw : w.OK held) (hv : w.heap.Backs (.value v))
    (ha : ∀ a ∈ args, w.heap.Backs (.value a)) :
    Leads (Reaches .outer held) held w (callFunction run v args) fun v w' =>
      w'.heap.Backs (.value v) := by
  unfold callFunction
  split
  · exact callObject_leads hrun hw (isAlive_of_backs hv) trivial ha
  · exact Leads.read (display_run ..) Leads.throw

theorem construct_leads (hrun : run.Sound) (hw : w.OK held) (hv : w.heap.Backs (.value v))
    (ha : ∀ a ∈ args, w.heap.Backs (.value a)) :
    Leads (Reaches .outer held) held w (construct run v args) fun v w' =>
      w'.heap.Backs (.value v) := by
  refine Leads.hold (fun hw => Leads.read (get_run _ w) ?_) hw fun i hi => ?_
  · split
    · next b hb =>
      obtain ⟨c, hc, hb⟩ := Option.bind_eq_some_iff.1 hb
      obtain ⟨f, -, hf⟩ := Option.bind_eq_some_iff.1 hc
      exact hrun _ w _ _ _ hw ((backs_callable hw.heap hf).2 b hb) trivial ha
    · exact Leads.throw
  · rcases List.mem_append.1 hi with hi | hi
    · exact hv.isAlive i hi
    · exact isAlive_flatMap_holds ha i hi

/-- A property is looked up and called while the object and the arguments are held. -/
theorem callProperty_leads (hrun : run.Sound) (hw : w.OK held)
    (hi : w.heap.Backs (.value (.object i))) (ha : ∀ a ∈ args, w.heap.Backs (.value a))
    (name : String) :
    Leads (Reaches .outer held) held w (callProperty run i name args) fun v w' =>
      w'.heap.Backs (.value v) := by
  refine Leads.hold (fun hw => ?_) hw fun j hj => ?_
  · refine (getProperty_leads hrun hw name).bind fun f w' h' hf => ?_
    split
    · refine callObject_leads hrun (h'.ok hw) (isAlive_of_backs hf) ?_ fun a hm => ?_
      · refine h'.backs hw hi fun j hj => ?_
        rw [List.mem_singleton.1 hj]
        exact List.mem_append_left _ List.mem_cons_self
      · refine h'.backs hw (ha a hm) fun j hj => List.mem_append_left _ ?_
        exact List.mem_cons_of_mem _ (List.mem_flatMap.2 ⟨a, hm, hj⟩)
    · exact Leads.throw
  · rcases List.mem_cons.1 hj with rfl | hj
    · exact isAlive_of_backs hi
    · exact isAlive_flatMap_holds ha j hj

/-- Of host values only objects have properties and can be called. -/
theorem object?_eq_some_iff {v : HostValue} : v.object? = some i ↔ v = .object i := by
  cases v <;> simp [HostValue.object?]

theorem callGlobal_leads (hrun : run.Sound) (hw : w.OK held) (name : String)
    (ha : ∀ a ∈ args, w.heap.Backs (.value a)) :
    Leads (Reaches .outer held) held w (callGlobal run name args) fun v w' =>
      w'.heap.Backs (.value v) := by
  refine Leads.read (get_run held w) ?_
  split
  · exact Leads.throw
  · next v hv =>
    split
    · next f hf =>
      obtain rfl := object?_eq_some_iff.1 (Option.filter_eq_some_iff.1 hf).1
      have hg := hw.context.globals _ (OrderedMap.mem_values_of_find? hv)
      exact callObject_leads hrun hw (isAlive_of_backs hg) trivial ha
    · exact Leads.throw

/-- A method of null is a global function, and one of an object is looked for among its properties.
-/
theorem callMethod_leads (hrun : run.Sound) (hw : w.OK held) (hv : w.heap.Backs (.value v))
    (name : String) (ha : ∀ a ∈ args, w.heap.Backs (.value a)) :
    Leads (Reaches .outer held) held w (callMethod run v name args) fun v w' =>
      w'.heap.Backs (.value v) := by
  unfold callMethod
  split
  · exact callGlobal_leads hrun hw name ha
  · exact callProperty_leads hrun hw hv ha name
  · exact Leads.observe (.kindOf _) fun _ _ => Leads.throw

/-- **The heap has the callable given for a property.** -/
theorem asFunction_leads (hw : w.OK held) (hv : w.heap.Backs (.value v)) (property : String) :
    Leads (Reaches .outer held) held w (asFunction v property) fun f w' =>
      w'.heap.Backs (.value (.object f)) := by
  refine Leads.hold (fun hw => ?_) hw hv.isAlive
  split
  · next i =>
    have h := Reaches.settled (ℓ := .outer) nofun w ((HostValue.object i).holds ++ held)
    have hw₁ := h.ok hw
    have hi := h.backs hw hv fun j hj => List.mem_append_left _ hj
    refine Leads.bind (P := fun alive w' => alive = w'.heap.isAlive ∧ w' = w.settled _)
      (Leads.of_ok (aliveNow_run _ w) h ⟨rfl, rfl⟩) fun alive w₁ _ ⟨halive, hw₁'⟩ => ?_
    obtain rfl := halive
    obtain rfl := hw₁'
    refine Leads.read (object?_run i _ _) ?_
    dsimp only
    split
    -- the callable is remembered, and still alive
    · next f hf =>
      obtain ⟨hf, hlive⟩ := Option.filter_eq_some_iff.1 hf
      obtain ⟨o, ho, hf⟩ := Option.bind_eq_some_iff.1 hf
      have hk := knows_method hw₁.heap ho (OrderedMap.mem_values_of_find? hf)
      exact Leads.pure (hk.backs hlive)
    · refine (allocObject_leads ?_ ?_ ?_ rfl).bind fun f w₂ h₂ hf => ?_
      · intro p hp
        obtain rfl := List.mem_singleton.1 hp
        exact hi
      · simp [OrderedMap.values]
      · simp [ObjectKind.weakLinks]
      -- the new callable is remembered by its receiver, weakly
      · have hw₂ := h₂.ok hw₁
        refine Leads.read (object?_run i _ _) ?_
        split
        · next o ho =>
          have hm : ∀ m ∈ (o.methodCache.insert property f).values,
              w₂.heap.Knows (.object m) := by
            intro m hm
            rcases OrderedMap.mem_values_insert hm with rfl | hm
            · exact ⟨hw₂.heap.isAlive_lt (isAlive_of_backs hf), fun _ => hf⟩
            · exact knows_method hw₂.heap ho hm
          refine Leads.bind (setObject_leads hw₂ ho rfl (fun v hv =>
            backs_property hw₂.heap ho hv) hm) fun _ w₃ _ hk => ?_
          exact Leads.pure (hk _ hf)
        · exact Leads.pure hf
  · exact Leads.observe (.kindOf _) fun _ _ => Leads.throw

theorem Observes.originOf (f : HostId) : Observes (originOf f) := observes.originOf f

/-- The receiver of an extraction is given again, or an object is made. -/
theorem functionAsObject_leads (hw : w.OK held) (hv : w.heap.Backs (.value v)) (property : String) :
    Leads (Reaches .outer held) held w (functionAsObject v property) fun i w' =>
      w'.heap.Backs (.value (.object i)) := by
  refine Leads.hold (fun hw => ?_) hw hv.isAlive
  split
  · next f =>
    -- each way that does not lead back to a receiver ends with a new object
    have make : Leads (Reaches .outer ((HostValue.object f).holds ++ held))
        ((HostValue.object f).holds ++ held) w
        (allocObject .plain (.ofList [(property, .object f)])) fun i w' =>
          w'.heap.Backs (.value (.object i)) := by
      refine allocObject_leads (by simp [ObjectKind.parts]) (fun v hm => ?_)
        (by simp [ObjectKind.weakLinks]) rfl
      obtain ⟨k, hk⟩ := OrderedMap.mem_values_ofList hm
      obtain ⟨-, rfl⟩ := Prod.mk.inj (List.mem_singleton.1 hk)
      exact hv
    refine Leads.observe (.originOf f) fun origin _ => ?_
    split
    · dsimp only
      split
      · refine Leads.read (object?_run _ _ w) ?_
        split
        · next o ho =>
          split
          · exact Leads.pure ⟨o, cell?_of_object? ho⟩
          · exact make
        · exact make
      · exact make
    · exact make
  · exact Leads.read (display_run ..) Leads.throw

end Calling

/-! ## Classes -/

section Classes

/-- The definition behind a class is the one that the heap has. -/
theorem definitionBehind_looks (hw : w.OK held) (class_ : HostId) :
    Leads Eq held w (definitionBehind class_) fun a _ => w.heap.definition? a.1 = some a.2 := by
  refine Leads.read (get_run held w) ?_
  dsimp only
  split
  · next d hd =>
    obtain ⟨c, hc⟩ := hw.heap.backs_definition hd
    have hc : w.heap.definition? d = some c := by rw [Heap.definition?, hc]
    exact Leads.pure (by simp [hc])
  · exact Leads.throw

/-- A definition may be replaced by one of the same name whose members are there. -/
theorem setDefinition_leads {d : HostId} {c c' : ClassDefinition}
    (hc : w.heap.definition? d = some c) (name : c'.name = c.name)
    (hp : ∀ p ∈ (Cell.definition c').parts, w.heap.Backs p) :
    Leads (Reaches .outer held) held w (setDefinition d c') fun _ _ => True :=
  Leads.modify (Reaches.outer (.setCell (cell?_of_definition? hc) (congrArg Shape.definition name)
    hp (by simp [Cell.weakLinks]))) trivial

/-- The function that forwards to the guest is made before the class has it. -/
theorem defineMethod_leads (hw : w.OK held) (class_ : HostId) (name : String) {entry : GuestEntry}
    (he : ∀ p ∈ entry.body.parts, w.heap.Backs p) :
    Leads (Reaches .outer held) held w (defineMethod class_ name entry) fun _ _ => True := by
  refine Leads.look (definitionBehind_looks hw class_) fun (d, c) hc => ?_
  have hcell := cell?_of_definition? hc
  have make : Leads (Reaches .quiet held) held w
      (allocObject (.function { name, behaviour := .forward entry })) fun m w' =>
        w'.heap.Backs (.value (.object m)) := by
    refine allocObject_leads ?_ (by simp [OrderedMap.values]) (by simp [ObjectKind.weakLinks]) rfl
    simpa [ObjectKind.parts, Behaviour.parts] using he
  refine make.quietly.bind fun m w' h' ⟨hq, hm⟩ => ?_
  have hc' : w'.heap.definition? d = some c := by rw [Heap.definition?, hq.cell? hw hcell]
  refine setDefinition_leads hc' rfl fun p hp => ?_
  -- the definition now holds the new method, its old methods, and its accessors
  rcases List.mem_append.1 hp with hp | hp
  · obtain ⟨m', hm', rfl⟩ := List.mem_map.1 hp
    rcases OrderedMap.mem_values_insert hm' with rfl | hm'
    · exact hm
    · exact hq.backs_of_quiet hw (backs_method hw.heap hc hm')
  · exact hq.backs_of_quiet hw (hw.heap.parts d _ hcell p (List.mem_append_right _ hp))

theorem defineProperty_leads (hw : w.OK held) (class_ : HostId) (name : String)
    {getter : GuestEntry} {setter : Option GuestEntry}
    (hg : ∀ p ∈ getter.body.parts, w.heap.Backs p)
    (hs : ∀ e, setter = some e → ∀ p ∈ e.body.parts, w.heap.Backs p) :
    Leads (Reaches .outer held) held w (defineProperty class_ name getter setter)
      fun _ _ => True := by
  refine Leads.look (definitionBehind_looks hw class_) fun (d, c) hc => ?_
  refine setDefinition_leads hc rfl fun p hp => ?_
  have hcell := cell?_of_definition? hc
  rcases List.mem_append.1 hp with hp | hp
  · exact hw.heap.parts d _ hcell p (List.mem_append_left _ hp)
  · obtain ⟨a, ha, hp⟩ := List.mem_flatMap.1 hp
    rcases OrderedMap.mem_values_insert ha with rfl | ha
    · rcases List.mem_append.1 hp with hp | hp
      · exact hg p hp
      · cases setter with
        | none => simp at hp
        | some e => exact hs e rfl p hp
    · exact backs_accessor hw.heap hc ha p hp

end Classes

/-! ## Imports -/

section Imports

variable {ts : List GuestValue}

/-- An argument is one of those that were given. -/
theorem argument_looks (ts : List GuestValue) (n : Nat) :
    Leads Eq held w (argument ts n) fun t _ => t ∈ ts := by
  unfold argument
  split
  · next t ht => exact Leads.pure (List.mem_of_getElem? ht)
  · exact Leads.throw

theorem backs_of_toHost {h : Heap} {t : GuestValue} (ht : ∀ p ∈ t.parts, h.Backs p)
    (hv : t.toHost = .ok v) : h.Backs (.value v) := by
  cases t with
  | external x => cases hv; exact ht _ (List.mem_singleton_self _)
  | ref k => cases k <;> cases hv; trivial
  | entry => cases hv
  | _ => cases hv; trivial

/-- The heap backs an argument that is a host value, since it backs all arguments. -/
theorem externalArg_looks (ht : w.heap.BacksAll ts) (n : Nat) :
    Leads Eq held w (externalArg ts n) fun v _ => w.heap.Backs (.value v) := by
  refine Leads.look (argument_looks ts n) fun t hm => Leads.ofExcept fun v hv => ?_
  cases t with
  | external x => cases hv; exact ht _ hm _ (List.mem_singleton_self _)
  | _ => cases hv

theorem hostArg_looks (ht : w.heap.BacksAll ts) (n : Nat) :
    Leads Eq held w (hostArg ts n) fun v _ => w.heap.Backs (.value v) :=
  Leads.look (argument_looks ts n) fun t hm => Leads.ofExcept fun _ hv =>
    backs_of_toHost (ht t hm) hv

theorem entry_of_asEntry {h : Heap} {t : GuestValue} (ht : ∀ p ∈ t.parts, h.Backs p)
    {e : GuestEntry} (he : t.asEntry = .ok e) : ∀ p ∈ e.body.parts, h.Backs p := by
  cases t with
  | entry x => cases he; exact ht
  | _ => cases he

/-- An argument that is a guest function has a body that the heap backs. -/
theorem entryArg_looks (ht : w.heap.BacksAll ts) (n : Nat) :
    Leads Eq held w (entryArg ts n) fun e _ => ∀ p ∈ e.body.parts, w.heap.Backs p :=
  Leads.look (argument_looks ts n) fun t hm => Leads.ofExcept fun _ he =>
    entry_of_asEntry (ht t hm) he

/-- A setter that is given is one that the heap has. -/
theorem setter_looks {t? : Option GuestValue}
    (ht : ∀ t, t? = some t → ∀ p ∈ t.parts, w.heap.Backs p) :
    Leads Eq held w (t?.mapM fun t => ofExcept t.asEntry) fun s _ =>
      ∀ e, s = some e → ∀ p ∈ e.body.parts, w.heap.Backs p := by
  cases t? with
  | none => exact Leads.pure nofun
  | some t =>
    refine Leads.map (P := fun e _ => ∀ p ∈ e.body.parts, w.heap.Backs p) ?_
      fun e _ _ he _ h => Option.some.inj h ▸ he
    exact Leads.ofExcept fun e he => entry_of_asEntry (ht t rfl) he

theorem classArg_looks (ht : w.heap.BacksAll ts) (n : Nat) :
    Leads Eq held w (classArg ts n) fun i _ => w.heap.isAlive i := by
  refine Leads.look (externalArg_looks ht n) fun v hv => ?_
  split
  · exact Leads.pure (isAlive_of_backs hv)
  · exact Leads.observe (.kindOf _) fun _ _ => Leads.throw

theorem Observes.argument (ts : List GuestValue) (n : Nat) : Observes (argument ts n) :=
  observes.argument ts n

theorem Observes.objectArg (ts : List GuestValue) (n : Nat) : Observes (objectArg ts n) :=
  observes.objectArg ts n

theorem Observes.nameArg (ts : List GuestValue) (n : Nat) : Observes (nameArg ts n) :=
  observes.nameArg ts n

theorem Observes.numberArg (ts : List GuestValue) (n : Nat) : Observes (numberArg ts n) :=
  observes.numberArg ts n

theorem Observes.dateArgs (ts : List GuestValue) : Observes (dateArgs ts) := observes.dateArgs ts

/-- The heap backs the arguments from a position on. -/
theorem restArgs_looks (ht : w.heap.BacksAll ts) (n : Nat) :
    Leads Eq held w (restArgs ts n) fun vs _ => ∀ v ∈ vs, w.heap.Backs (.value v) := by
  refine (Leads.mapM (I := fun w' => w' = w) (P := fun v _ => w.heap.Backs (.value v)) rfl
    (fun t hm w' he => ?_) fun _ _ _ _ _ hv => hv).imp fun _ _ _ h => h.2
  subst he
  exact Leads.ofExcept fun v hv => ⟨rfl, backs_of_toHost (ht t (List.mem_of_mem_drop hm)) hv⟩

theorem optionalArg_mem {t : GuestValue} {n : Nat} (h : optionalArg ts n = some t) : t ∈ ts := by
  unfold optionalArg at h
  split at h
  · cases h
  · exact List.mem_of_getElem? h

/-- An import without a result refers to nothing. -/
theorem backs_none {h : Heap} : ∀ t, (none : Option GuestValue) = some t →
    ∀ p ∈ t.parts, h.Backs p := by
  intro t ht
  cases ht

/-- The result of an import, if it is a host value that the heap has. -/
theorem backs_external {h : Heap} (hv : h.Backs (.value v)) :
    ∀ t, some (GuestValue.external v) = some t → ∀ p ∈ t.parts, h.Backs p := by
  intro t ht p hp
  obtain rfl := Option.some.inj ht
  exact List.mem_singleton.1 hp ▸ hv

/-- **An interop import is made of moves**, and the heap has what its result refers to. -/
theorem callInterop_leads (hrun : run.Sound) (hw : w.OK held) (ht : w.heap.BacksAll ts)
    (x : Interop) :
    Leads (Reaches .outer held) held w (callInterop run x ts) fun r w' =>
      ∀ t, r = some t → ∀ p ∈ t.parts, w'.heap.Backs p := by
  have hℓ : Level.outer ≠ .quiet := by decide
  unfold callInterop
  cases x with
  | wrap =>
    refine Leads.look (hostArg_looks ht 0) fun v hv => ?_
    refine (wrap_leads hℓ held w v hw hv).bind fun h w' _ _ => Leads.pure ?_
    simp [GuestValue.parts]
  | unwrap =>
    refine Leads.observe (.argument ts 0) fun t _ => Leads.observe (.ofExcept _) fun k _ => ?_
    refine Leads.look (classArg_looks ht 1) fun c hc => ?_
    exact (unwrap_leads hℓ hw k hc).bind fun _ _ _ hv => Leads.pure (backs_external hv.1)
  | synthesizeClass =>
    refine Leads.observe (.nameArg ts 0) fun name _ => ?_
    exact (synthesizeClass_leads name).bind fun _ _ _ hi => Leads.pure (backs_external hi)
  | defineMethod =>
    refine Leads.observe (.nameArg ts 1) fun name _ => ?_
    refine Leads.look (classArg_looks ht 0) fun c _ => ?_
    refine Leads.look (entryArg_looks ht 2) fun e he => ?_
    exact (defineMethod_leads hw c name he).bind fun _ _ _ _ => Leads.pure backs_none
  | defineProperty =>
    refine Leads.observe (.nameArg ts 1) fun name _ => ?_
    refine Leads.look (setter_looks fun t h => ht t (optionalArg_mem h)) fun s hs => ?_
    refine Leads.look (classArg_looks ht 0) fun c _ => ?_
    refine Leads.look (entryArg_looks ht 2) fun e he => ?_
    exact (defineProperty_leads hw c name he hs).bind fun _ _ _ _ => Leads.pure backs_none
  | hashCode =>
    refine Leads.look (hostArg_looks ht 0) fun v hv => ?_
    refine (hashWith_leads (trackCrossing_tracks hℓ) held w v hw hv).bind
      fun _ _ _ _ => Leads.pure ?_
    simp [GuestValue.parts]
  | createWeakRef =>
    refine Leads.look (externalArg_looks ht 0) fun v hv => ?_
    exact (weakRefWith_leads (trackCrossing_tracks hℓ) .value hw hv fun t h =>
      ht t (optionalArg_mem h)).bind fun _ _ _ hi => Leads.pure (backs_external hi)
  | deref =>
    refine Leads.look (externalArg_looks ht 0) fun v hv => ?_
    exact (deref_leads hℓ hw hv).bind fun _ _ _ hv => Leads.pure (backs_external hv)
  | createStringWeakRef =>
    refine Leads.look (externalArg_looks ht 0) fun v hv => ?_
    exact (weakRefWith_leads (trackCrossing_tracks hℓ) .string hw hv fun t h =>
      ht t (optionalArg_mem h)).bind fun _ _ _ hi => Leads.pure (backs_external hi)
  | stringDeref =>
    refine Leads.look (externalArg_looks ht 0) fun v hv => ?_
    exact (derefString_leads hℓ hw hv).bind fun _ _ _ hv => Leads.pure (backs_external hv)
  | callFunction =>
    refine Leads.look (externalArg_looks ht 0) fun f hf => ?_
    refine Leads.look (restArgs_looks ht 1) fun rest hr => ?_
    exact (callFunction_leads hrun hw hf hr).bind fun _ _ _ hv => Leads.pure (backs_external hv)
  | construct =>
    refine Leads.look (externalArg_looks ht 0) fun f hf => ?_
    refine Leads.look (restArgs_looks ht 1) fun rest hr => ?_
    exact (construct_leads hrun hw hf hr).bind fun _ _ _ hv => Leads.pure (backs_external hv)
  | callMethod =>
    refine Leads.look (hostArg_looks ht 0) fun v hv => ?_
    refine Leads.observe (.nameArg ts 1) fun name _ => ?_
    refine Leads.look (restArgs_looks ht 2) fun rest hr => ?_
    exact (callMethod_leads hrun hw hv name hr).bind fun _ _ _ hv =>
      Leads.pure (backs_external hv)
  | asFunction =>
    refine Leads.observe (.nameArg ts 1) fun name _ => ?_
    refine Leads.look (externalArg_looks ht 0) fun v hv => ?_
    exact (asFunction_leads hw hv name).bind fun _ _ _ hf => Leads.pure (backs_external hf)
  | functionAsObject =>
    refine Leads.observe (.nameArg ts 1) fun name _ => ?_
    refine Leads.look (externalArg_looks ht 0) fun v hv => ?_
    exact (functionAsObject_leads hw hv name).bind fun _ _ _ hi => Leads.pure (backs_external hi)
  | getProperty =>
    refine Leads.observe (.objectArg ts 0) fun i _ => ?_
    refine Leads.observe (.nameArg ts 1) fun name _ => ?_
    exact (getProperty_leads hrun hw name).bind fun _ _ _ hv => Leads.pure (backs_external hv)
  | setProperty =>
    refine Leads.observe (.objectArg ts 0) fun i _ => ?_
    refine Leads.look (hostArg_looks ht 2) fun v hv => ?_
    refine Leads.observe (.nameArg ts 1) fun name _ => ?_
    exact (setProperty_leads hrun hw name hv).bind fun _ _ _ _ => Leads.pure backs_none
  | createObject =>
    refine (allocObject_leads ?_ ?_ ?_ rfl).bind fun _ _ _ hi => Leads.pure (backs_external hi)
    · simp [ObjectKind.parts]
    · simp [OrderedMap.values]
    · simp [ObjectKind.weakLinks]
  | typeOf =>
    refine Leads.look (externalArg_looks ht 0) fun v _ => Leads.read (kindOf_run v held w) ?_
    refine (tryGuest_leads fun _ _ _ h => Guest.makeString_edits h).bind fun _ _ _ _ =>
      Leads.pure ?_
    simp [GuestValue.parts]

/-- The result of an import that is a number. -/
theorem backs_number {h : Heap} (x : Double) :
    ∀ t, some (GuestValue.f64 x) = some t → ∀ p ∈ t.parts, h.Backs p := by
  intro t ht
  obtain rfl := Option.some.inj ht
  simp [GuestValue.parts]

/-- **An import is made of moves**, and the heap has what its result refers to. -/
theorem callImportFunction_leads (hrun : run.Sound) (hw : w.OK held) (ht : w.heap.BacksAll ts)
    (f : ImportFunction) :
    Leads (Reaches .outer held) held w (callImportFunction run f ts) fun r w' =>
      ∀ t, r = some t → ∀ p ∈ t.parts, w'.heap.Backs p := by
  refine Leads.hold (fun hw => ?_) hw ht.isAlive
  cases f with
  | putChar stream =>
    refine Leads.observe (.argument ts 0) fun t _ => Leads.observe (.ofExcept _) fun code _ => ?_
    exact Leads.bind (P := fun _ _ => True) (Leads.modify (Reaches.outer .print) trivial)
      fun _ _ _ _ => Leads.pure nofun
  | clock | random => exact Leads.read (get_run _ w) (Leads.pure (backs_number _))
  | composeDate zone =>
    exact Leads.observe (.dateArgs ts) fun _ _ => Leads.pure (backs_number _)
  | getDateField zone field =>
    exact Leads.observe (.numberArg ts 0) fun _ _ => Leads.pure (backs_number _)
  | setDateField zone field =>
    exact Leads.observe (.numberArg ts 0) fun _ _ => Leads.observe (.numberArg ts 1)
      fun _ _ => Leads.pure (backs_number _)
  | weekday | minutesBehind | unary =>
    exact Leads.observe (.numberArg ts 0) fun _ _ => Leads.pure (backs_number _)
  | binary f =>
    exact Leads.observe (.numberArg ts 0) fun _ _ => Leads.observe (.numberArg ts 1)
      fun _ _ => Leads.pure (backs_number _)
  | interop x => exact callInterop_leads hrun hw ht x
  | custom c =>
    cases c with
    | nothing => exact Leads.pure nofun
    | first => exact Leads.pure fun t h => ht t (List.mem_of_head? h)
    | argumentCount => exact Leads.pure fun t h => by cases h; simp [GuestValue.parts]
    | fail text => exact Leads.throw
    | value e =>
      exact (GuestExpr.read_quiet e hw).of_quiet.bind fun _ _ _ hv =>
        Leads.pure fun _ h => Option.some.inj h ▸ hv

theorem callImport_leads (hrun : run.Sound) (hw : w.OK held) (ht : w.heap.BacksAll ts)
    (module name : String) :
    Leads (Reaches .outer held) held w (callImport run module name ts) fun r w' =>
      ∀ t, r = some t → ∀ p ∈ t.parts, w'.heap.Backs p := by
  refine Leads.guest fun g _ => Leads.observe (.ofExcept _) fun f _ => ?_
  exact callImportFunction_leads hrun hw ht f

end Imports

/-! ## Bodies and behaviours -/

section Bodies

/-- The result of an import is a value that the heap backs; a reference is given as a text. -/
theorem hostOfResult_leads {r : Option GuestValue}
    (hr : ∀ t, r = some t → ∀ p ∈ t.parts, w.heap.Backs p) :
    Leads (Reaches .outer held) held w (hostOfResult r) fun v w' => w'.heap.Backs (.value v) := by
  unfold hostOfResult
  split
  · exact Leads.pure trivial
  · exact allocString_leads _
  · exact allocString_leads _
  · next t _ => exact Leads.ofExcept fun v hv => backs_of_toHost (hr _ rfl) hv

/-- **A body is carried out by moves**, and gives a value that the heap has. -/
theorem performBody_leads (hrun : run.Sound) (hw : w.OK held) {b : Body HostValue GuestExpr}
    (hb : ∀ p ∈ b.parts, w.heap.Backs p) (ht : w.heap.Backs (.value this))
    (ha : ∀ a ∈ args, w.heap.Backs (.value a)) :
    Leads (Reaches .outer held) held w (performBody run b this args) fun v w' =>
      w'.heap.Backs (.value v) := by
  have hat : ∀ n : Nat, w.heap.Backs (.value (args[n]?.getD .undefined)) := by
    intro n
    cases hn : args[n]? with
    | none => trivial
    | some a => exact ha a (List.mem_of_getElem? hn)
  unfold performBody
  cases b with
  | undefined | argumentCount | sum => exact Leads.pure trivial
  | this => exact Leads.pure ht
  | argument n => exact Leads.pure (hat n)
  | const v => exact Leads.pure (hb _ (List.mem_singleton_self _))
  | join =>
    exact Leads.observe (Observes.mapM .display _) fun _ _ => allocString_leads _
  | fail text => exact Leads.throw
  | get key =>
    cases this with
    | object i => exact getProperty_leads hrun hw key
    | _ => exact Leads.read (kindOf_run ..) Leads.throw
  | make keys =>
    refine Leads.bind (allocObject_leads ?_ ?_ ?_ rfl) fun _ _ _ hi => Leads.pure hi
    · simp [ObjectKind.parts]
    · intro v hv
      obtain ⟨k, hk⟩ := OrderedMap.mem_values_ofList hv
      obtain ⟨⟨key, n⟩, -, he⟩ := List.mem_map.1 hk
      obtain ⟨-, rfl⟩ := Prod.mk.inj he
      exact hat n
    · simp [ObjectKind.weakLinks]
  | load cell =>
    refine Leads.read (get_run held w) (Leads.pure ?_)
    cases hc : w.cells.find? cell with
    | none => trivial
    | some v => exact hw.cells v (OrderedMap.mem_values_of_find? hc)
  | save cell =>
    refine Leads.bind (P := fun _ _ => True) (Leads.modify (Reaches.outer (.save ?_)) trivial)
      fun _ _ _ _ => Leads.pure trivial
    cases hl : args.getLast? with
    | none => trivial
    | some a => exact ha a (List.mem_of_getLast? hl)
  | apply =>
    refine callFunction_leads hrun hw ?_ fun a hm => ha a (List.mem_of_mem_tail hm)
    cases args with
    | nil => trivial
    | cons a as => exact ha a List.mem_cons_self
  | callImport name exprs =>
    refine (mapM_read_quiet hw exprs).of_quiet.bind fun ts w' h' hts => ?_
    refine (callImport_leads hrun (h'.ok hw) hts _ name).bind fun r w'' _ hr => ?_
    exact hostOfResult_leads hr

/-- A behaviour is carried out by moves, if the behaviours that it calls are. -/
theorem perform_sound (hrun : run.Sound) : Runner.Sound (perform run) := by
  intro held w b this args hw hb ht ha
  cases b with
  | body b => exact performBody_leads hrun hw hb ht ha
  | forward e =>
    refine performBody_leads hrun hw hb trivial fun a hm => ?_
    rcases List.mem_cons.1 hm with rfl | hm
    · exact ht
    · exact ha a hm
  | global g => exact apply_leads g args
  | bound receiver property =>
    exact callProperty_leads hrun hw (hb _ (List.mem_singleton_self _)) ha property

end Bodies

end BridgeM

/-- **Carrying out a behaviour is made of moves, at any depth.** -/
theorem runner_sound (n : Nat) : (Runner.ofDepth n).Sound := by
  induction n with
  | zero => exact fun _ _ _ _ _ _ _ _ _ => BridgeM.Leads.throw
  | succ n ih => exact BridgeM.perform_sound ih

end GuestBridge
