import GuestBridge.Proofs.Depth
import GuestBridge.Proofs.Extractions
import GuestBridge.Proofs.Properties

/-!
# Calls of extracted callables

A callable that has been extracted from a property of an object looks the property up when it is
called. Its call is a call of the method at that moment: whatever has been written to the object or
to its class since the extraction, and whatever the callee goes on to write.

The two ways differ in two respects. The callable is held during its own call; and it takes one call
more, so it runs out of depth one call earlier. Neither can be told by a caller that holds the
callable, unless calls nest without end.

* `callMethod_run`: **what a call of a method does**: the property is read, by its getter if it has
  one, and what it gives is called with the object.
* `callMethod_run_of_forward`: a method of a class passes the object and the arguments to the guest.
* `callFunction_run_of_origin`: what a call of an extracted callable does.
* `World.Recorded`: the states of a session, also in the midst of calls, with the callables
  extracted so far.
* `extracted_calls_method`: **a call of an extracted callable is a call of the method.**
-/

namespace GuestBridge

namespace Heap

/-- Instances of a class have its new method. -/
theorem Grounded.method?_define {h : Heap} {d : HostId} {c : ClassDefinition} (hh : h.Grounded)
    (hc : h.definition? d = some c) (o : HostObject) (name : String) {h' : Heap}
    (hh' : h' = (h.alloc (.object o)).2.setCell d
      (.definition { c with methods := c.methods.insert name ⟨h.next⟩ })) :
    h'.object? ⟨h.next⟩ = some o ∧
      ∀ i, h.instanceOf? i = some d → h'.method? i name = some ⟨h.next⟩ := by
  have hkept := hh.definition?_alloc hc (.object o)
  have hobject : ∀ j, h'.object? j = if j = ⟨h.next⟩ then some o else h.object? j := fun j => by
    rw [hh', object?_setDefinition hkept, object?_alloc]
  have hdefinition : h'.definition? d =
      some { c with methods := c.methods.insert name ⟨h.next⟩ } := by
    rw [hh', definition?_setDefinition, if_pos rfl]
  refine ⟨(hobject _).trans (if_pos rfl), fun i hi => ?_⟩
  -- an instance that is there is not the new method
  have hne : i ≠ ⟨h.next⟩ := by
    rintro rfl
    obtain ⟨_, _, ho, -⟩ := instanceOf?_eq_some_iff.1 hi
    obtain ⟨_, hcell⟩ := Option.isSome_iff_exists.1
      (BridgeM.isAlive_of_backs (BridgeM.isSome_object?_iff.1 (Option.isSome_of_eq_some ho)))
    exact absurd (hh.lt_next _ _ hcell) (lt_irrefl _)
  have hsame := (hobject i).trans (if_neg hne)
  rw [method?, instanceOf?_congr hsame, hi, Option.bind_some, hdefinition,
    Option.bind_some, OrderedMap.find?_insert_self]

/-- A method of an instance is there, and passes on to the guest. -/
theorem Forwarding.callable?_of_method? {h : Heap} (hf : h.Forwarding) (hh : h.OK) {i m : HostId}
    {p : String} (hm : h.method? i p = some m) :
    ∃ name entry, h.callable? m = some { name, behaviour := .forward entry } := by
  obtain ⟨c, hc, hfind⟩ := Option.bind_eq_some_iff.1 hm
  obtain ⟨d, -, hd⟩ := Option.bind_eq_some_iff.1 hc
  have hbacks := BridgeM.backs_method hh hd (OrderedMap.mem_values_of_find? hfind)
  obtain ⟨o, ho⟩ := Option.isSome_iff_exists.1 (BridgeM.isSome_object?_iff.2 hbacks)
  obtain ⟨name, entry, hk⟩ := (hf d c p m hd hfind).2 o ho
  obtain ⟨kind, properties, methodCache⟩ := o
  cases hk
  exact ⟨name, entry, by rw [callable?, ho]⟩

end Heap

namespace BridgeM

variable {run : Runner} {held : List HostId} {w : World} {i f m : HostId} {name p : String}
  {args : List HostValue}

/-! ## Calls of methods -/

/-- Calls what a property of an object has given, with the object as `this`. -/
def callFound (run : Runner) (i : HostId) (name : String) (args : List HostValue) :
    HostValue → BridgeM HostValue
  | .object f => callObject run f (.object i) args
  | _ => throw (.notCallable name)

theorem callFound_of_not_object {v : HostValue} (hv : v.object? = none) :
    callFound run i name args v = throw (.notCallable name) := by
  cases v <;> first | rfl | cases hv

theorem callProperty_eq (run : Runner) (i : HostId) (name : String) (args : List HostValue) :
    callProperty run i name args = holding (i :: args.flatMap HostValue.holds)
      (getProperty run i name >>= callFound run i name args) := rfl

/-- **What a call of a method does.** An own property comes first, then the getter of an accessor
runs, and then there is a method of the class. -/
theorem callMethod_run (run : Runner) {o : HostObject} (ho : w.heap.object? i = some o)
    (name : String) (args : List HostValue) (held : List HostId) :
    callMethod run (.object i) name args held w =
      holding (i :: args.flatMap HostValue.holds)
        (match w.heap.own? i name, w.heap.accessor? i name with
        | some v, _ => callFound run i name args v
        | none, some a => invoke run a.getter [.object i] >>= callFound run i name args
        | none, none =>
          callFound run i name args ((w.heap.method? i name).elim .undefined .object)) held w := by
  change (getProperty run i name >>= callFound run i name args)
    (i :: args.flatMap HostValue.holds ++ held) w = _
  rw [bind_run, getProperty_run run ho]
  -- the cases of the read, each followed by the call of what was found
  cases w.heap.own? i name with
  | some v => rfl
  | none =>
    cases w.heap.accessor? i name with
    | some a =>
      dsimp only
      exact (bind_run _ _ _ _).symm
    | none => rfl

/-- **What a call of a callable does**: it gets `this` and the arguments as they are. -/
theorem callObject_run {c : Callable} (hc : w.heap.callable? f = some c) (run : Runner)
    (this : HostValue) (args : List HostValue) (held : List HostId) :
    callObject run f this args held w =
      holding (f :: this.holds ++ args.flatMap HostValue.holds) (run c.behaviour this args)
        held w := by
  unfold callObject
  change ((get : BridgeM World) >>= _) (f :: this.holds ++ args.flatMap HostValue.holds ++ held) w = _
  rw [bind_run, get_run]
  dsimp only
  rw [hc]
  rfl

theorem callFound_indifferent (hrun : RelatedRunners (Follows Unexcused) run run) (i : HostId)
    (name : String) (args : List HostValue) (v : HostValue) :
    Indifferent (callFound run i name args v) := by
  cases v with
  | object f => exact (follows _).callObject hrun _ _ _
  | _ => exact (follows _).throw _

/-- **A method of a class passes the object and the arguments to the guest.** -/
theorem callMethod_run_of_forward {o : HostObject} (ho : w.heap.object? i = some o)
    (hown : w.heap.own? i name = none) (haccessor : w.heap.accessor? i name = none)
    (hm : w.heap.method? i name = some m) {p : String} {entry : GuestEntry}
    (hc : w.heap.callable? m = some { name := p, behaviour := .forward entry }) (n : ℕ)
    (args : List HostValue) (held : List HostId) :
    callMethod (.ofDepth (n + 1)) (.object i) name args held w =
      holding (m :: i :: args.flatMap HostValue.holds)
        (performBody (.ofDepth n) entry.body .undefined (.object i :: args)) held w := by
  have hrun := callObject_run hc (.ofDepth (n + 1)) (.object i) args
    (i :: args.flatMap HostValue.holds ++ held)
  rw [callMethod_run _ ho, hown, haccessor, hm]
  refine hrun.trans ?_
  refine Indifferent.run_eq ((follows_calling _).performBody (runner_indifferent n) _ _ _)
    (fun j => ?_) w
  -- the object and the arguments are held once more
  simp only [HostValue.holds, List.cons_append, List.mem_cons, List.mem_append, List.nil_append]
  tauto

/-! ## Calls of extracted callables -/

theorem callable?_of_origin? (hf : w.heap.origin? f = some (i, p)) :
    ∃ c, w.heap.callable? f = some c ∧ c.behaviour = .bound i p := by
  obtain ⟨o, ho, horigin⟩ := Option.bind_eq_some_iff.1 hf
  obtain ⟨kind, properties, methodCache⟩ := o
  cases kind with
  | function c =>
    obtain ⟨name, behaviour, construct⟩ := c
    cases behaviour with
    | bound i' p' =>
      cases horigin
      refine ⟨⟨name, .bound i p, construct⟩, ?_, rfl⟩
      unfold Heap.callable?
      rw [ho]
    | _ => cases horigin
  | _ => cases horigin

/-- **What a call of an extracted callable does**: it calls the method, and holds the callable. -/
theorem callFunction_run_of_origin (hf : w.heap.origin? f = some (i, p)) (n : ℕ)
    (args : List HostValue) (held : List HostId) :
    callFunction (.ofDepth (n + 1)) (.object f) args held w =
      holding [f] (callMethod (.ofDepth n) (.object i) p args) held w := by
  obtain ⟨c, hc, hbound⟩ := callable?_of_origin? hf
  refine (callObject_run hc (.ofDepth (n + 1)) .undefined args held).trans ?_
  rw [hbound]
  change callProperty (.ofDepth n) i p args (f :: args.flatMap HostValue.holds ++ held) w =
    callProperty (.ofDepth n) i p args (f :: held) w
  have hfound : Indifferent (getProperty (.ofDepth n) i p >>= callFound (.ofDepth n) i p args) :=
    Follows.bind ((follows _).getProperty (runner_indifferent n) i p) fun v =>
      callFound_indifferent (runner_indifferent n) i p args v
  rw [callProperty_eq]
  refine hfound.run_eq (fun j => ?_) w
  -- the arguments are held by both calls
  simp only [List.mem_append, List.mem_cons, List.cons_append]
  tauto

/-- A caller that holds the callable cannot tell the two calls apart. -/
theorem callFunction_run_of_held (hf : w.heap.origin? f = some (i, p)) (hheld : f ∈ held) (n : ℕ)
    (args : List HostValue) :
    callFunction (.ofDepth (n + 1)) (.object f) args held w =
      callMethod (.ofDepth n) (.object i) p args held w := by
  have hsame : SameHeld ([f] ++ held) held :=
    .of_subset fun j hj => List.mem_singleton.1 hj ▸ hheld
  have hmethod : Indifferent (callMethod (.ofDepth n) (.object i) p args) :=
    (follows _).callMethod (runner_indifferent n) _ _ _
  exact (callFunction_run_of_origin hf n args held).trans (hmethod.run_eq hsame w)

/-! ## Methods of classes -/

/-- **A method that is defined is one that passes on to the guest.** -/
theorem defineMethod_forwards {class_ d : HostId} (hh : w.heap.Grounded)
    (hd : w.heap.classDefinition? class_ = some d) (name : String) (entry : GuestEntry)
    (held : List HostId) :
    ∃ w' m, defineMethod class_ name entry held w = .ok () w' ∧
      w'.heap.callable? m = some { name, behaviour := .forward entry } ∧
      ∀ i, w.heap.instanceOf? i = some d → w'.heap.method? i name = some m := by
  obtain ⟨c, hc, hbehind⟩ := definitionBehind_run hh hd held
  obtain ⟨hobject, hmethod⟩ := hh.method?_define hc
    { kind := .function { name, behaviour := .forward entry } } name rfl
  refine ⟨_, _, defineMethod_run hbehind name entry, ?_, hmethod⟩
  unfold Heap.callable?
  rw [hobject]

end BridgeM

/-! ## Extracted callables at any time -/

open BridgeM

/-- What a call of an extracted callable does, in a state in which the callable is there. -/
structure World.CallsMethod (w : World) (held : List HostId) (x : Extraction)
    (args : List HostValue) : Prop where
  /-- It calls the method, one call deeper, and holds the callable meanwhile. -/
  holds : ∀ n, callFunction (.ofDepth (n + 1)) (.object x.callable) args held w =
    holding [x.callable] (callMethod (.ofDepth n) (.object x.receiver) x.property args) held w
  /-- For a caller that holds the callable, it is the call of the method. -/
  same : x.callable ∈ held → ∀ n,
    callFunction (.ofDepth (n + 1)) (.object x.callable) args held w =
      callMethod (.ofDepth n) (.object x.receiver) x.property args held w
  /-- A call that returns at one depth has the same outcome at any other that is enough. -/
  deeper : ∀ n m, n ≤ m →
    callMethod (.ofDepth n) (.object x.receiver) x.property args held w =
        callMethod (.ofDepth m) (.object x.receiver) x.property args held w ∨
      ∃ u, callMethod (.ofDepth n) (.object x.receiver) x.property args held w =
        .error .callDepthExceeded u
  /-- So the two calls have the same outcome, unless calls nest to the limit. -/
  bounded : x.callable ∈ held →
    callFunction runner (.object x.callable) args held w =
        callMethod runner (.object x.receiver) x.property args held w ∨
      ∃ u, callFunction runner (.object x.callable) args held w = .error .callDepthExceeded u
  /-- The property is read at the time of the call: an own property, or else a getter that is run
  once with the receiver, or else a method of the class, or else nothing. -/
  resolved : ∀ run, callMethod run (.object x.receiver) x.property args held w =
    holding (x.receiver :: args.flatMap HostValue.holds)
      (match w.heap.own? x.receiver x.property, w.heap.accessor? x.receiver x.property with
      | some v, _ => callFound run x.receiver x.property args v
      | none, some a =>
        invoke run a.getter [.object x.receiver] >>= callFound run x.receiver x.property args
      | none, none => callFound run x.receiver x.property args
        ((w.heap.method? x.receiver x.property).elim .undefined .object)) held w
  /-- A value that is no object cannot be called. -/
  refused : ∀ run v, v.object? = none →
    callFound run x.receiver x.property args v = throw (.notCallable x.property)
  /-- The callee gets the receiver and the arguments, in whatever state it has been found. -/
  passed : ∀ run u ids f c, u.heap.callable? f = some c →
    callFound run x.receiver x.property args (.object f) ids u =
      holding (f :: x.receiver :: args.flatMap HostValue.holds)
        (run c.behaviour (.object x.receiver) args) ids u
  /-- A method of the class runs its guest function with the receiver in front of the arguments. -/
  forwarded : ∀ m, w.heap.own? x.receiver x.property = none →
    w.heap.accessor? x.receiver x.property = none →
    w.heap.method? x.receiver x.property = some m →
    ∃ name entry, w.heap.callable? m = some { name, behaviour := .forward entry } ∧ ∀ n,
      callMethod (.ofDepth (n + 1)) (.object x.receiver) x.property args held w =
        holding (m :: x.receiver :: args.flatMap HostValue.holds)
          (performBody (.ofDepth n) entry.body .undefined (.object x.receiver :: args)) held w

/-- A state of a session, of which the callables `xs` have been extracted so far, and in which
methods of classes pass on to the guest. -/
structure World.Recorded (w : World) (xs : List Extraction) : Prop extends w.Traced xs where
  forwarding : w.heap.Forwarding

/-- What a call that holds `held` does to the record. -/
structure World.Continues (w : World) (held : List HostId) (xs : List Extraction) : Prop where
  /-- An extraction is added. -/
  extracts : ∀ i p, w.heap.Backs (.value (.object i)) →
    ∃ f w' ys, asFunction (.object i) p held w = .ok f w' ∧ w'.Recorded (xs ++ ys) ∧
      ⟨f, i, p⟩ ∈ xs ++ ys
  /-- A new method of a class passes on to the guest, for all instances. -/
  defines : ∀ class_ d name entry, w.heap.classDefinition? class_ = some d →
    ∃ w' m, defineMethod class_ name entry held w = .ok () w' ∧
      w'.heap.callable? m = some { name, behaviour := .forward entry } ∧
      ∀ i, w.heap.instanceOf? i = some d → w'.heap.method? i name = some m
  /-- Imports that a guest calls extend the record, -/
  imports : ∀ n module name ts, w.heap.BacksAll ts →
    ∃ ys, (final (callImport (.ofDepth n) module name ts) held w).Recorded (xs ++ ys)
  /-- and so do behaviours that are carried out. -/
  behaviours : ∀ n b this args, (∀ p ∈ b.parts, w.heap.Backs p) → w.heap.Backs (.value this) →
    (∀ a ∈ args, w.heap.Backs (.value a)) →
      ∃ ys, (final (Runner.ofDepth n b this args) held w).Recorded (xs ++ ys)

variable {w w' : World} {xs : List Extraction} {x : Extraction} {held : List HostId}

theorem World.Reachable.recorded (hw : w.Reachable) : ∃ xs, w.Recorded xs := by
  obtain ⟨xs, hrun⟩ := hw.run
  have ⟨_, environment, _, _, hload, hlater⟩ := hw
  -- there are no classes to begin with
  have halters := (World.load_alters hload).trans hlater.alters
  obtain ⟨-, hretains⟩ := halters.evolves (World.initial_ok environment).heap.grounded
  exact ⟨xs, ⟨⟨w, hw, .refl⟩, hrun⟩, hretains.forwarding nofun⟩

namespace World.Recorded

/-- Moves that are a run of changes lead to a state with a longer record. -/
theorem extend (hr : w.Recorded xs) (hmoves : Reaches .outer [] w w') (ha : w.Alters w') :
    ∃ ys, w'.Recorded (xs ++ ys) := by
  obtain ⟨ys, ht⟩ := hr.toTraced.extend hmoves ha
  obtain ⟨-, hretains⟩ := ha.evolves hr.ok.heap.grounded
  exact ⟨ys, ht, hretains.forwarding hr.forwarding⟩

theorem continues (hr : w.Recorded xs) (hheld : ∀ i ∈ held, w.heap.isAlive i) :
    w.Continues held xs := by
  have hok : w.OK held := hr.ok.rehold hheld
  refine {
    extracts := fun i p hi => ?extracts
    defines := fun class_ d name entry hd =>
      defineMethod_forwards hok.heap.grounded hd name entry held
    imports := fun n module name ts hts => ?imports
    behaviours := fun n b this args hb hthis hargs => ?behaviours }
  case extracts =>
    obtain ⟨f, w', ys, hrun, ht, hmem, -⟩ := asFunction_gives hr.toTraced hheld hi p
    obtain ⟨-, hretains⟩ := ((asFunction_alters _ p held w).ok hrun).1.evolves hok.heap.grounded
    exact ⟨f, w', ys, hrun, ⟨ht, hretains.forwarding hr.forwarding⟩, hmem⟩
  case imports =>
    have hmoves := callImport_leads (runner_sound n) hok hts module name
    exact hr.extend (hmoves.final.weaken nofun)
      (callImport_alters (runner_alters n) module name ts held w).final
  case behaviours =>
    have hmoves := runner_sound n held w b this args hok hb hthis hargs
    exact hr.extend (hmoves.final.weaken nofun) (runner_alters n b this args held w).final

/-- A callable of the record that is there calls the method. -/
theorem callsMethod (hr : w.Recorded xs) (hx : x ∈ xs)
    (hthere : w.heap.Backs (.value (.object x.callable))) (held : List HostId)
    (args : List HostValue) : w.CallsMethod held x args := by
  have horigin := hr.origin? hx hthere
  obtain ⟨o, ho⟩ := Option.isSome_iff_exists.1
    (isSome_object?_iff.2 (hr.ok.heap.backs_receiver horigin))
  have hdeeper : ∀ {n m : ℕ}, n ≤ m → Follows OutOfDepth
      (callMethod (.ofDepth n) (.object x.receiver) x.property args)
      (callMethod (.ofDepth m) (.object x.receiver) x.property args) :=
    fun h => (follows _).callMethod (runner_follows h) _ _ _
  have hsame := fun (hheld : x.callable ∈ held) n =>
    callFunction_run_of_held horigin hheld n args
  refine {
    holds := fun n => callFunction_run_of_origin horigin n args held
    same := hsame
    deeper := fun n m h => ?deeper
    bounded := fun hheld => ?bounded
    resolved := fun run => callMethod_run run ho x.property args held
    refused := fun run v hv => callFound_of_not_object hv
    passed := fun run u ids f c hc => callObject_run hc run _ args ids
    forwarded := fun m hown haccessor hm => ?forwarded }
  case deeper =>
    rcases hdeeper h held held w (.refl held) with heq | ⟨e, u, rfl, hrun⟩
    · exact .inl heq
    · exact .inr ⟨u, hrun⟩
  case bounded =>
    have hlimit := hsame hheld (callDepthLimit - 1)
    rcases hdeeper (Nat.sub_le callDepthLimit 1) held held w (.refl held) with
      heq | ⟨e, u, rfl, hrun⟩
    · exact .inl (hlimit.trans heq)
    · exact .inr ⟨u, hlimit.trans hrun⟩
  case forwarded =>
    obtain ⟨name, entry, hc⟩ := hr.forwarding.callable?_of_method? hr.ok.heap hm
    exact ⟨name, entry, hc, fun n => callMethod_run_of_forward ho hown haccessor hm hc n args held⟩

end World.Recorded

/-- **A call of an extracted callable is a call of the method**, at any time.

Every state of a session has a record of extractions, to which an extraction adds its callable,
and which later steps, the imports that a guest calls and the behaviours that are carried out only
extend. In each state, also in the midst of a call, a callable of the record that is there calls
the method as it is then. -/
theorem extracted_calls_method :
    (∀ w : World, w.Reachable → ∃ xs, w.Recorded xs) ∧
      ∀ (w : World) (xs : List Extraction), w.Recorded xs →
        (∀ w', w.Later w' → ∃ ys, w'.Recorded (xs ++ ys)) ∧
        (∀ held, (∀ i ∈ held, w.heap.isAlive i) → w.Continues held xs) ∧
        ∀ x ∈ xs, w.heap.Backs (.value (.object x.callable)) →
          ∀ held args, w.CallsMethod held x args := by
  refine ⟨fun w hw => hw.recorded, fun w xs hr => ⟨fun w' hlater => ?_, fun held hheld => ?_, ?_⟩⟩
  · exact hr.extend (hlater.reaches hr.ok) hlater.alters
  · exact hr.continues hheld
  · exact fun x hx hthere held args => hr.callsMethod hx hthere held args

/-- A session with an object that gets the property after the extraction of its callable. -/
def rebound : World :=
  let steps : List Step :=
    [.set "object" (.external (.object [])),
      .perform (.context (.asFunction (.variable "object") "start")) (some "function"),
      .perform (.host (.variable "object") (.set "start" (.function "greet" .join))) none]
  (runSteps steps (World.load {} {}).2.2).2

/-- The callable calls the function that has been written since, with the object as `this`. -/
theorem rebound_calls_greet :
    ∃ xs, rebound.Recorded xs ∧ ⟨⟨1⟩, ⟨0⟩, "start"⟩ ∈ xs ∧ ∀ n args,
      callFunction (.ofDepth (n + 2)) (.object ⟨1⟩) args [⟨1⟩] rebound =
          callMethod (.ofDepth (n + 1)) (.object ⟨0⟩) "start" args [⟨1⟩] rebound ∧
        ∃ ids, callFunction (.ofDepth (n + 2)) (.object ⟨1⟩) args [⟨1⟩] rebound =
          performBody (.ofDepth n) .join (.object ⟨0⟩) args ids rebound := by
  have hw : rebound.Reachable := ⟨{}, {}, _, _, rfl, World.later_runSteps _ _⟩
  obtain ⟨xs, hr⟩ := extracted_calls_method.1 rebound hw
  obtain ⟨-, -, hcalls⟩ := extracted_calls_method.2 rebound xs hr
  have hmem : ⟨⟨1⟩, ⟨0⟩, "start"⟩ ∈ xs := hr.heap.origins _ _ _ (by decide +kernel)
  have hthere : rebound.heap.Backs (.value (.object ⟨1⟩)) :=
    isSome_object?_iff.1 (by decide +kernel)
  have hown : rebound.heap.own? ⟨0⟩ "start" = some (.object ⟨2⟩) := by decide +kernel
  have hc : rebound.heap.callable? ⟨2⟩ = some { name := "greet", behaviour := .body .join } := rfl
  refine ⟨xs, hr, hmem, fun n args => ?_⟩
  have hcall := hcalls _ hmem hthere [⟨1⟩] args
  have hsame := hcall.same (List.mem_singleton_self _) (n + 1)
  have hresolved := hcall.resolved (.ofDepth (n + 1))
  rw [hown] at hresolved
  have hpassed := hcall.passed (.ofDepth (n + 1)) rebound
    (⟨0⟩ :: args.flatMap HostValue.holds ++ [⟨1⟩]) ⟨2⟩ _ hc
  exact ⟨hsame, _, hsame.trans (hresolved.trans hpassed)⟩

end GuestBridge
