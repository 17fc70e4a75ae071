import GuestBridge.Proofs.CellRuns

/-!
# Reads and writes of a property

A read of a property looks for an own property first, and a write for an accessor. So the two
come to the same member, unless an own property hides an accessor: then writes go to the
accessor, and reads never see what it has been given. A write never brings this about by itself,
as an accessor keeps it from the own properties. It takes an own property that was there before
the class got its accessor, and once it has come about it stays.

* `World.Resolves`, `resolves`: **where reads and writes go**, in any state.
* `World.Defines`, `defines`: what new members of a class change.
* `World.Settles`, `World.Alters.settles`: what is settled for all later states.
* `reads_follow_writes`: the three together, over whole runs.
-/

namespace GuestBridge

variable {w w' : World} {held : List HostId} {i d : HostId} {name : String} {a : Accessor}
  {v x : HostValue} {run : Runner}

/-! ## Where reads and writes go -/

/-- Reads of a property run the getter of an accessor, whoever carries it out. -/
def World.Reads (w : World) (i : HostId) (name : String) (a : Accessor) : Prop :=
  ∀ run held, BridgeM.getProperty run i name held w = BridgeM.invoke run a.getter [.object i] held w

/-- Writes of a property go to the setter of an accessor, or are rejected if it has none. -/
def World.Writes (w : World) (i : HostId) (name : String) (a : Accessor) : Prop :=
  ∀ run held v, BridgeM.setProperty run i name v held w = BridgeM.acceptWrite run a i name v held w

/-- Writes go to an accessor exactly when reads run the getter of that accessor. -/
def World.Agrees (w : World) (i : HostId) (name : String) : Prop :=
  (∃ a, w.Writes i name a) ↔ ∃ a, w.Writes i name a ∧ w.Reads i name a

/-- The getter gives what the setter was given last. -/
def Accessor.Reflects (a : Accessor) (run : Runner) (i : HostId) (name : String) : Prop :=
  ∀ held w v w', BridgeM.acceptWrite run a i name v held w = .ok () w' →
    ∀ held', ∃ w'', BridgeM.invoke run a.getter [.object i] held' w' = .ok v w''

/-- An own property has the name of an accessor. -/
def Heap.Hides (h : Heap) (i : HostId) (name : String) : Prop :=
  (h.own? i name).isSome ∧ (h.accessor? i name).isSome

/-- Where the reads and writes of a property of an object go. -/
structure World.Resolves (w : World) (i : HostId) (name : String) : Prop where
  /-- All writes go to the accessor, if there is one, and all reads unless an own property hides
  it. -/
  routed : ∀ a, w.heap.accessor? i name = some a →
    w.Writes i name a ∧ (w.Reads i name a ↔ w.heap.own? i name = none)
  /-- So they agree unless an own property hides an accessor. -/
  agrees : w.Agrees i name ↔ ¬ w.heap.Hides i name
  /-- Own properties are read. -/
  owned : ∀ x, w.heap.own? i name = some x → ∀ run held,
    BridgeM.getProperty run i name held w = .ok x w
  /-- A write that goes to no accessor stores an own property, which the next read gives, and
  changes no other member. -/
  stored : (∀ a, ¬ w.Writes i name a) → ∀ run held v, ∃ w',
    BridgeM.setProperty run i name v held w = .ok () w' ∧
      (∀ run held, BridgeM.getProperty run i name held w' = .ok v w') ∧
      (∀ j p, w'.heap.own? j p = if j = i ∧ p = name then some v else w.heap.own? j p) ∧
      ∀ j p, w'.heap.accessor? j p = w.heap.accessor? j p
  /-- After a successful write to an accessor that reflects what it is given, a read gives that,
  but an own property that hides the accessor is read as before. -/
  reflected : ∀ n held v w' a, w.heap.accessor? i name = some a → a.Reflects (.ofDepth n) i name →
    BridgeM.setProperty (.ofDepth n) i name v held w = .ok () w' →
    w'.heap.accessor? i name = some a → ∀ held',
      match w.heap.own? i name with
      | none => ∃ w'', BridgeM.getProperty (.ofDepth n) i name held' w' = .ok v w''
      | some x => BridgeM.getProperty (.ofDepth n) i name held' w' = .ok x w'

/-- What new members of a class change. -/
structure World.Defines (w : World) (held : List HostId) (class_ d : HostId) : Prop where
  /-- A method changes neither own properties nor accessors. -/
  method : ∀ name entry, ∃ w', BridgeM.defineMethod class_ name entry held w = .ok () w' ∧
    ∀ i p, w'.heap.own? i p = w.heap.own? i p ∧ w'.heap.accessor? i p = w.heap.accessor? i p
  /-- An accessor is there for all instances of the class, whatever they have of that name. -/
  accessor : ∀ name getter setter, ∃ w',
    BridgeM.defineProperty class_ name getter setter held w = .ok () w' ∧
      ∀ i p, w'.heap.own? i p = w.heap.own? i p ∧ w'.heap.accessor? i p =
        if w.heap.instanceOf? i = some d ∧ p = name then some ⟨getter, setter⟩
        else w.heap.accessor? i p

/-- What a state settles for a later one. -/
structure World.Settles (w w' : World) : Prop where
  /-- Once a class has an accessor for a name, it is settled for its instances, and also for those
  that are made later, what own property of that name they have, and whether reads and writes
  agree. -/
  accessor : ∀ i d name, w'.heap.instanceOf? i = some d → (w.heap.accessorOf? d name).isSome →
    (w'.heap.accessor? i name).isSome ∧ w'.heap.own? i name = w.heap.own? i name ∧
      (w'.Agrees i name ↔ w.heap.own? i name = none)
  /-- An instance keeps its own properties. -/
  own : ∀ i d name, w'.heap.instanceOf? i = some d → (w.heap.own? i name).isSome →
    (w'.heap.own? i name).isSome

namespace BridgeM

section Resolves

variable {o : HostObject}

theorem getProperty_run_of_own (hx : w.heap.own? i name = some x) (run : Runner)
    (held : List HostId) : getProperty run i name held w = .ok x w := by
  obtain ⟨o, ho, -⟩ := Option.bind_eq_some_iff.1 hx
  rw [getProperty_run run ho, hx]

theorem getProperty_run_of_accessor (ha : w.heap.accessor? i name = some a)
    (hx : w.heap.own? i name = none) (run : Runner) (held : List HostId) :
    getProperty run i name held w = invoke run a.getter [.object i] held w := by
  obtain ⟨d, hd, -⟩ := Option.bind_eq_some_iff.1 ha
  obtain ⟨o, -, ho, -⟩ := Heap.instanceOf?_eq_some_iff.1 hd
  rw [getProperty_run run ho, hx, ha]

theorem setProperty_run_of_accessor (ha : w.heap.accessor? i name = some a) (run : Runner)
    (v : HostValue) (held : List HostId) :
    setProperty run i name v held w = acceptWrite run a i name v held w := by
  obtain ⟨d, hd, -⟩ := Option.bind_eq_some_iff.1 ha
  obtain ⟨o, -, ho, -⟩ := Heap.instanceOf?_eq_some_iff.1 hd
  rw [setProperty_run run ho, ha]

/-- Where nothing can be called, no accessor takes a write. -/
theorem acceptWrite_ofDepth_zero (a : Accessor) (i : HostId) (name : String) (v : HostValue)
    (held : List HostId) (w : World) :
    ∃ e, acceptWrite (.ofDepth 0) a i name v held w = .error e w := by
  obtain ⟨getter, setter⟩ := a
  cases setter with
  | none => exact ⟨_, rfl⟩
  | some setter => exact ⟨_, rfl⟩

/-- Writes go to an accessor exactly when there is one. -/
theorem exists_writes_iff (ho : w.heap.object? i = some o) :
    (∃ a, w.Writes i name a) ↔ (w.heap.accessor? i name).isSome := by
  constructor
  · rintro ⟨a, ha⟩
    by_contra hnone
    rw [Option.not_isSome_iff_eq_none] at hnone
    -- Where nothing can be called, a write to an accessor fails, and a write of an own property
    -- does not.
    have hset := ha (.ofDepth 0) [] .undefined
    obtain ⟨e, he⟩ := acceptWrite_ofDepth_zero a i name .undefined [] w
    rw [setProperty_run _ ho, hnone, he] at hset
    cases hset
  · intro hsome
    obtain ⟨a, ha⟩ := Option.isSome_iff_exists.1 hsome
    exact ⟨a, fun run held v => setProperty_run_of_accessor ha run v held⟩

/-- An own property keeps reads from running a getter. -/
theorem reads_iff (ha : w.heap.accessor? i name = some a) :
    w.Reads i name a ↔ w.heap.own? i name = none := by
  constructor
  · intro hr
    cases hx : w.heap.own? i name with
    | none => rfl
    | some x =>
      have hget := hr (.ofDepth 0) []
      rw [getProperty_run_of_own hx] at hget
      cases hget
  · exact fun hx run held => getProperty_run_of_accessor ha hx run held

theorem agrees_iff (ho : w.heap.object? i = some o) :
    w.Agrees i name ↔ ¬ w.heap.Hides i name := by
  unfold World.Agrees
  rw [exists_writes_iff ho]
  constructor
  · rintro hiff ⟨hx, ha⟩
    obtain ⟨a, -, hr⟩ := hiff.1 ha
    obtain ⟨x, hx⟩ := Option.isSome_iff_exists.1 hx
    -- a hidden accessor is passed over by a read, so that the two differ
    have hget := hr (.ofDepth 0) []
    rw [getProperty_run_of_own hx] at hget
    cases hget
  · intro hhides
    constructor
    · intro hsome
      obtain ⟨a, ha⟩ := Option.isSome_iff_exists.1 hsome
      have hx : w.heap.own? i name = none := Option.not_isSome_iff_eq_none.1 fun hx =>
        hhides ⟨hx, hsome⟩
      exact ⟨a, fun run held v => setProperty_run_of_accessor ha run v held, (reads_iff ha).2 hx⟩
    · rintro ⟨a, ha, -⟩
      exact (exists_writes_iff ho).1 ⟨a, ha⟩

/-- A write that goes to no accessor stores an own property, and changes no other member. -/
theorem setProperty_stores (ho : w.heap.object? i = some o) (ha : w.heap.accessor? i name = none)
    (run : Runner) (held : List HostId) (v : HostValue) : ∃ w',
      setProperty run i name v held w = .ok () w' ∧
        (∀ run held, getProperty run i name held w' = .ok v w') ∧
        (∀ j p, w'.heap.own? j p = if j = i ∧ p = name then some v else w.heap.own? j p) ∧
        ∀ j p, w'.heap.accessor? j p = w.heap.accessor? j p := by
  have hset := setProperty_run run ho name v held
  rw [ha] at hset
  have hown := Heap.own?_write ho name v
  refine ⟨_, hset, fun run held => getProperty_run_of_own ?_ run held, hown,
    Heap.accessor?_write ho name v⟩
  exact (hown i name).trans (if_pos ⟨rfl, rfl⟩)

/-- After a successful write to an accessor, a read finds what the accessor reflects, unless an own
property hides it. -/
theorem getProperty_after_write (hh : w.heap.Grounded) (hrun : RunnerAlters run)
    (ha : w.heap.accessor? i name = some a) (hr : a.Reflects run i name)
    (hset : setProperty run i name v held w = .ok () w')
    (ha' : w'.heap.accessor? i name = some a) (held' : List HostId) :
    match w.heap.own? i name with
    | none => ∃ w'', getProperty run i name held' w' = .ok v w''
    | some x => getProperty run i name held' w' = .ok x w' := by
  obtain ⟨halters, -⟩ := (setProperty_alters hrun i name v held w).ok hset
  obtain ⟨-, hretains⟩ := halters.evolves hh
  -- The setter has not changed the own property, as the class has the accessor.
  obtain ⟨d, hd, hoffers⟩ := Option.bind_eq_some_iff.1 ha
  obtain ⟨d', hd', -⟩ := Option.bind_eq_some_iff.1 ha'
  have hlt : i.index < w.heap.next := by
    obtain ⟨o, -, ho, -⟩ := Heap.instanceOf?_eq_some_iff.1 hd
    exact hh.object_lt ho
  obtain rfl := Option.some.inj (hd.symm.trans (hretains.instanceOf? hlt hd'))
  have hown := hretains.frozen i d name hd' (by rw [hoffers, Option.isSome_some])
  cases hx : w.heap.own? i name with
  | some x => exact getProperty_run_of_own (hown.trans hx) run held'
  | none =>
    rw [setProperty_run_of_accessor ha] at hset
    obtain ⟨w'', hget⟩ := hr held w v w' hset held'
    refine ⟨w'', ?_⟩
    rw [getProperty_run_of_accessor ha' (hown.trans hx), hget]

/-- **Where the reads and writes of a property go**, in any state. -/
theorem resolves (hh : w.heap.Grounded) (ho : w.heap.object? i = some o) (name : String) :
    w.Resolves i name where
  routed a ha := ⟨fun _ _ _ => setProperty_run_of_accessor ha _ _ _, reads_iff ha⟩
  agrees := agrees_iff ho
  owned x hx run held := getProperty_run_of_own hx run held
  stored := by
    intro hnone run held v
    have ha : w.heap.accessor? i name = none := by
      rw [← Option.not_isSome_iff_eq_none, ← exists_writes_iff ho]
      exact fun ⟨a, ha⟩ => hnone a ha
    exact setProperty_stores ho ha run held v
  reflected n held v w' a ha hr hset ha' held' :=
    getProperty_after_write hh (runner_alters n) ha hr hset ha' held'

end Resolves

/-! ## What new members change -/

section Defines

variable {class_ : HostId} {m : ClassDefinition}

/-- The definition behind a class. -/
theorem definitionBehind_run (hh : w.heap.Grounded) (hd : w.heap.classDefinition? class_ = some d)
    (held : List HostId) :
    ∃ m, w.heap.definition? d = some m ∧ definitionBehind class_ held w = .ok (d, m) w := by
  obtain ⟨m, hm⟩ := hh.definition_of_class hd
  refine ⟨m, hm, ?_⟩
  unfold definitionBehind
  rw [bind_run, get_run]
  dsimp only
  rw [hd]
  dsimp only
  rw [hm]
  rfl

theorem defineMethod_run {m : ClassDefinition}
    (hm : definitionBehind class_ held w = .ok (d, m) w) (name : String) (entry : GuestEntry) :
    defineMethod class_ name entry held w = .ok () { w with
      heap := (w.heap.alloc
        (.object { kind := .function { name, behaviour := .forward entry } })).2.setCell d
          (.definition { m with methods := m.methods.insert name ⟨w.heap.next⟩ }) } := by
  unfold defineMethod
  rw [bind_run, hm]
  rfl

theorem defineProperty_run {m : ClassDefinition}
    (hm : definitionBehind class_ held w = .ok (d, m) w) (name : String) (getter : GuestEntry)
    (setter : Option GuestEntry) :
    defineProperty class_ name getter setter held w = .ok () { w with
      heap := w.heap.setCell d
        (.definition { m with accessors := m.accessors.insert name ⟨getter, setter⟩ }) } := by
  unfold defineProperty
  rw [bind_run, hm]
  rfl

/-- **What new members of a class change**: a method no other member, and an accessor only the
accessors of that name. -/
theorem defines (hh : w.heap.Grounded) (hd : w.heap.classDefinition? class_ = some d)
    (held : List HostId) : w.Defines held class_ d := by
  obtain ⟨m, hm, hbehind⟩ := definitionBehind_run hh hd held
  refine ⟨fun name entry => ?method, fun name getter setter => ?accessor⟩
  case method =>
    have halloc := hh.members_alloc { name, behaviour := .forward entry }
    have hkept := hh.definition?_alloc hm
      (.object { kind := .function { name, behaviour := .forward entry } })
    refine ⟨_, defineMethod_run hbehind name entry, fun i p => ⟨?_, ?_⟩⟩
    · exact (Heap.own?_congr (Heap.object?_setDefinition hkept _ i) p).trans (halloc i p).1
    · refine (Heap.accessor?_setDefinition hkept _ i p).trans ?_
      split_ifs with hi
      · rw [← (halloc i p).2, Heap.accessor?_of_instanceOf? hi hkept]
      · exact (halloc i p).2
  case accessor =>
    refine ⟨_, defineProperty_run hbehind name getter setter, fun i p => ⟨?_, ?_⟩⟩
    · exact Heap.own?_congr (Heap.object?_setDefinition hm _ i) p
    · refine (Heap.accessor?_setDefinition hm _ i p).trans ?_
      by_cases hi : w.heap.instanceOf? i = some d
      · rw [if_pos hi, OrderedMap.find?_insert, Heap.accessor?_of_instanceOf? hi hm]
        simp only [hi, true_and]
      · rw [if_neg hi, if_neg fun hip => hi hip.1]

end Defines

/-! ## What is settled -/

section Settles

/-- **What a state settles for those that come of it**, however members and properties are defined
and written in between. -/
theorem settles (hh : w.heap.Grounded) (ha : w.Alters w') : w.Settles w' := by
  obtain ⟨hh', hretains⟩ := ha.evolves hh
  refine ⟨fun i d name hi hoffers => ?accessor, fun i d name hi hx => ?own⟩
  case accessor =>
    obtain ⟨o', -, ho', -⟩ := Heap.instanceOf?_eq_some_iff.1 hi
    obtain ⟨m', hm'⟩ := hh'.definition_of_instanceOf? hi
    have hown := hretains.frozen i d name hi hoffers
    have haccessor : (w'.heap.accessor? i name).isSome := by
      rw [Heap.accessor?, hi, Option.bind_some]
      exact hretains.accessorOf? hh hoffers hm'
    refine ⟨haccessor, hown, ?_⟩
    rw [agrees_iff ho', Heap.Hides, hown]
    simp only [haccessor, and_true, Option.not_isSome_iff_eq_none]
  case own =>
    obtain ⟨o', -, ho', -⟩ := Heap.instanceOf?_eq_some_iff.1 hi
    exact hretains.own? hh ho' hx

end Settles

/-- **Reads of a property give what has been written, unless an own property hides an accessor.**

In a well-formed state, such as every reachable one and those in the midst of calls, writes of a
property of a wrapper instance go to an accessor exactly when reads run its getter, unless there is
an own property too. Otherwise a write stores an own property, which the next read gives. A read
after a successful write to an accessor that reflects what it is given gives just that; if an own
property hides the accessor, the read gives that property as before. New methods do not change
where reads and writes go, and new accessors only for their name. From then on, through all later
steps, imports and behaviours at any depth, no instance of the class, old or new, gets, loses or
changes an own property of that name. So reads and writes disagree just where an own property was
stored before the class got its accessor, and then for good. -/
theorem reads_follow_writes (hw : w.OK held) :
    (∀ i d, w.heap.instanceOf? i = some d → ∀ name, w.Resolves i name) ∧
      (∀ class_ d, w.heap.classDefinition? class_ = some d → w.Defines held class_ d) ∧
      (∀ w', w.Later w' → w.Settles w') ∧
      (∀ n module name ts,
        w.Settles (final (callImport (.ofDepth n) module name ts) held w)) ∧
      ∀ n b this args, w.Settles (final (Runner.ofDepth n b this args) held w) := by
  have hh : w.heap.Grounded := hw.heap.grounded
  refine ⟨fun i d hi name => ?_, fun class_ d hd => defines hh hd held,
    fun w' hlater => settles hh hlater.alters, fun n module name ts => ?_, fun n b this args => ?_⟩
  · obtain ⟨o, -, ho, -⟩ := Heap.instanceOf?_eq_some_iff.1 hi
    exact resolves hh ho name
  · exact settles hh (callImport_alters (runner_alters n) module name ts held w).final
  · exact settles hh (runner_alters n b this args held w).final

end BridgeM

/-- Whether the functions of an accessor load and save a variable. -/
def Accessor.isOver (a : Accessor) (variable_ : String) : Bool :=
  match a.getter.body, a.setter.map GuestEntry.body with
  | .load x, some (.save y) => x == variable_ && y == variable_
  | _, _ => false

theorem Accessor.isOver_iff {variable_ : String} : a.isOver variable_ ↔
    ∃ g s, a = ⟨⟨g, .load variable_⟩, some ⟨s, .save variable_⟩⟩ := by
  constructor
  · obtain ⟨⟨g, body⟩, setter⟩ := a
    intro ha
    simp only [isOver] at ha
    split at ha
    · next hsetter =>
      obtain ⟨⟨s, body'⟩, rfl, rfl⟩ := Option.map_eq_some_iff.1 hsetter
      simp only [Bool.and_eq_true, beq_iff_eq] at ha
      obtain ⟨rfl, rfl⟩ := ha
      exact ⟨g, s, rfl⟩
    · cases ha
  · rintro ⟨g, s, rfl⟩
    simp [isOver]

namespace BridgeM

/-- An accessor over a variable takes all writes, -/
theorem acceptWrite_of_isOver {variable_ : String} (ha : a.isOver variable_) (n : ℕ) (i : HostId)
    (name : String) (v : HostValue) (held : List HostId) (w : World) :
    acceptWrite (.ofDepth (n + 1)) a i name v held w =
      .ok () { w with cells := w.cells.insert variable_ v } := by
  obtain ⟨g, s, rfl⟩ := Accessor.isOver_iff.1 ha
  rfl

/-- and reflects what it is given. -/
theorem reflects_of_isOver {variable_ : String} (ha : a.isOver variable_) (n : ℕ) (i : HostId)
    (name : String) : a.Reflects (.ofDepth (n + 1)) i name := by
  intro held w v w' hset held'
  rw [acceptWrite_of_isOver ha] at hset
  cases hset
  obtain ⟨g, s, rfl⟩ := Accessor.isOver_iff.1 ha
  refine ⟨{ w with cells := w.cells.insert variable_ v }, ?_⟩
  change EStateM.Result.ok (((w.cells.insert variable_ v).find? variable_).getD .undefined) _ = _
  rw [OrderedMap.find?_insert_self, Option.getD_some]

/-- A session with an instance that has an own property from before its class got an accessor of
that name, and another accessor. -/
def guarded : World :=
  let property (name variable_ : String) : Step :=
    .perform (.host (.variable "class") (.defineProperty name
      (.entry "load" (.load variable_)) (some (.entry "save" (.save variable_))))) none
  let steps : List Step :=
    [.set "class" (.external (.class "C")), .perform (.guest (.allocString "a")) (some "handle"),
      .perform (.context (.unwrap (.variable "class") (.variable "handle"))) (some "object"),
      .perform (.host (.variable "object") (.set "early" (.bool false))) none,
      property "early" "x", property "late" "y"]
  (runSteps steps (World.load {} {}).2.2).2

/-- Writes of the one property are hidden from its reads, and the other one is read as written. -/
theorem guarded_hides_early :
    guarded.OK [] ∧ guarded.heap.instanceOf? ⟨2⟩ = some ⟨0⟩ ∧
      ¬ guarded.Agrees ⟨2⟩ "early" ∧ guarded.Agrees ⟨2⟩ "late" ∧
      (∃ w', setProperty (.ofDepth 1) ⟨2⟩ "early" (.bool true) [] guarded = .ok () w' ∧
        getProperty (.ofDepth 1) ⟨2⟩ "early" [] w' = .ok (.bool false) w') ∧
      ∃ w', setProperty (.ofDepth 1) ⟨2⟩ "late" (.bool true) [] guarded = .ok () w' ∧
        ∃ w'', getProperty (.ofDepth 1) ⟨2⟩ "late" [] w' = .ok (.bool true) w'' := by
  have hw : guarded.Reachable := ⟨{}, {}, _, _, rfl, World.later_runSteps _ _⟩
  have hinstance : guarded.heap.instanceOf? ⟨2⟩ = some ⟨0⟩ := by decide +kernel
  have hx : guarded.heap.own? ⟨2⟩ "early" = some (.bool false) := by decide +kernel
  have hx' : guarded.heap.own? ⟨2⟩ "late" = none := by decide +kernel
  obtain ⟨a, ha, hover⟩ : ∃ a, guarded.heap.accessor? ⟨2⟩ "early" = some a ∧ a.isOver "x" :=
    (Option.any_eq_true _ _).1 (by decide +kernel)
  obtain ⟨b, hb, hover'⟩ : ∃ b, guarded.heap.accessor? ⟨2⟩ "late" = some b ∧ b.isOver "y" :=
    (Option.any_eq_true _ _).1 (by decide +kernel)
  have hok := hw.ok
  obtain ⟨hresolves, -⟩ := reads_follow_writes hok
  clear hw
  -- The rest does not depend on how the session got there.
  generalize guarded = w at *
  have hearly := hresolves ⟨2⟩ ⟨0⟩ hinstance "early"
  have hlate := hresolves ⟨2⟩ ⟨0⟩ hinstance "late"
  have hset := (hearly.routed a ha).1 (.ofDepth 1) [] (.bool true)
  have hset' := (hlate.routed b hb).1 (.ofDepth 1) [] (.bool true)
  rw [acceptWrite_of_isOver hover] at hset
  rw [acceptWrite_of_isOver hover'] at hset'
  have hget := hearly.reflected 1 [] (.bool true) _ a ha (reflects_of_isOver hover 0 _ _) hset ha []
  have hget' := hlate.reflected 1 [] (.bool true) _ b hb (reflects_of_isOver hover' 0 _ _) hset' hb []
  rw [hx] at hget
  rw [hx'] at hget'
  refine ⟨hok, hinstance, fun hagrees => ?_, hlate.agrees.2 fun hhides => ?_, ⟨_, hset, hget⟩,
    ⟨_, hset', hget'⟩⟩
  · exact hearly.agrees.1 hagrees ⟨by rw [hx, Option.isSome_some], by rw [ha, Option.isSome_some]⟩
  · have hown := hhides.1
    rw [hx'] at hown
    cases hown

end BridgeM

end GuestBridge
