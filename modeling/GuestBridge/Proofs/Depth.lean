import GuestBridge.Proofs.CellRuns
import GuestBridge.Proofs.Holding

/-!
# How deep calls may nest

Calls nest up to a depth. A call that does not reach it does not depend on it: with more depth it
has the same outcome. What is carried out by one runner is followed by what is carried out by
another, if that is so of the behaviours that they carry out; so the argument is made once for all
operations, and then by induction on the depth.

* `follows_calling`: operations follow each other as their runners do.
* `runner_indifferent`: **behaviours do the same wherever the same values are held**, at any depth.
* `runner_follows`: **more depth does not change the outcome of a call that has not run out of it.**
-/

namespace GuestBridge

namespace BridgeM

/-- A call has run out of depth. -/
def OutOfDepth : BridgeError → Prop := fun e => e = .callDepthExceeded

section Follows

variable {E : BridgeError → Prop} {run run' : Runner}

/-! ## Objects and classes -/

theorem asFunction_follows (v : HostValue) (p : String) :
    Follows E (asFunction v p) (asFunction v p) := by
  have h := follows_outside E
  refine h.holding ?_ _
  cases v with
  | object i =>
    refine h.bind .aliveNow fun alive => h.bind (h.object? i) fun o => ?_
    dsimp only
    split
    · exact h.pure _
    · refine h.bind (.of_heedless fun _ _ _ => rfl) fun f => h.bind (h.object? i) fun o => ?_
      split
      · exact h.bind (.setObject _ _) fun _ => h.pure _
      · exact h.pure _
  | _ => exact h.bind (h.kindOf _) fun _ => h.throw _

theorem setProperty_follows (hrun : RelatedRunners (Follows E) run run') (i : HostId) (name : String)
    (v : HostValue) : Follows E (setProperty run i name v) (setProperty run' i name v) := by
  have h := follows E
  refine h.bind (h.object? i) fun found => ?_
  split
  · refine h.bind (h.definitionOf _) fun definition => ?_
    split
    · split
      · exact h.holding (h.discard (h.invoke hrun _ _)) _
      · exact h.throw _
    · exact .setObject _ _
  · exact h.pure _

/-- **Calls follow each other as their runners do.** -/
theorem follows_calling (E : BridgeError → Prop) : Congruence.Calling (Follows E) where
  toOutside := follows_outside E
  crossings :=
    { wrap := fun v => Indifferent.follows (crossings_indifferent.wrap v)
      hash := fun v => Indifferent.follows (crossings_indifferent.hash v)
      weakRef := fun channel v token =>
        Indifferent.follows (crossings_indifferent.weakRef channel v token)
      collect := Indifferent.follows crossings_indifferent.collect }
  unwrap k class_ := (unwrap_indifferent k class_).follows
  deref v := Indifferent.follows (indifferent_crossing.deref v)
  derefString v := Indifferent.follows (indifferent_crossing.derefString v)
  asFunction := asFunction_follows
  setProperty := setProperty_follows
  defineMethod class_ _ _ := .bind ((follows E).definitionBehind class_) fun _ =>
    .of_heedless fun _ _ _ => rfl
  defineProperty class_ _ _ _ := .bind ((follows E).definitionBehind class_) fun _ =>
    .of_heedless fun _ _ _ => rfl

end Follows

/-! ## Runners -/

/-- **Behaviours do the same wherever the same values are held**, at any depth. -/
theorem runner_indifferent (n : ℕ) : RelatedRunners (Follows Unexcused) (.ofDepth n) (.ofDepth n) :=
  (follows_calling _).ofDepth n

/-- **More depth does not change the outcome of a call that has not run out of it.** -/
theorem runner_follows {n m : ℕ} (h : n ≤ m) :
    RelatedRunners (Follows OutOfDepth) (.ofDepth n) (.ofDepth m) := by
  induction n generalizing m with
  | zero => exact fun _ _ _ => .excuse rfl
  | succ n ih =>
    obtain ⟨m, rfl⟩ : ∃ k, m = k + 1 := ⟨m - 1, by omega⟩
    exact (follows_calling _).perform (ih (by omega))

end BridgeM

end GuestBridge
