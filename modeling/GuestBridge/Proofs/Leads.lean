import GuestBridge.Proofs.Congruence
import GuestBridge.Proofs.Move

/-!
# What an action leads to

An action that starts in one state may succeed or fail, and ends in another state either
way. `Leads R held w act Q` says that the state it ends in is in the relation `R` to the
first one, and that its result and that state satisfy `Q` if it succeeds. The rules follow
the ways in which actions are put together; an action that changes nothing is one that
leads along equality (`Observes`).

* `Leads.bind`: **one action after the other.**
* `Leads.holding`: a call that holds more.
* `Leads.attempt`: a failure as a value.
-/

namespace GuestBridge

namespace BridgeM

variable {α β : Type} {R R' : World → World → Prop} {held ids : List HostId} {w w' : World}
  {act : BridgeM α} {f : α → BridgeM β} {P P' : α → World → Prop} {Q : β → World → Prop}

/-- The action leads along `R`, and to a result with the property `P` where it succeeds. -/
def Leads (R : World → World → Prop) (held : List HostId) (w : World) (act : BridgeM α)
    (P : α → World → Prop) : Prop :=
  match act held w with
  | .ok a w' => R w w' ∧ P a w'
  | .error _ w' => R w w'

/-- The action changes nothing. -/
def Observes (act : BridgeM α) : Prop := ∀ held w, Leads Eq held w act fun _ _ => True

theorem bind_run (act : BridgeM α) (f : α → BridgeM β) (held : List HostId) (w : World) :
    (act >>= f) held w =
      match act held w with
      | .ok a w' => f a held w'
      | .error e w' => .error e w' := by
  change EStateM.bind (act held) (fun a => f a held) w = _
  unfold EStateM.bind
  cases act held w <;> rfl

theorem discard_run_of_ok {a : α} (ha : act held w = .ok a w') :
    discard act held w = .ok () w' := by
  change (act >>= fun _ => pure ()) held w = _
  rw [bind_run, ha]
  rfl

theorem get_run (held : List HostId) (w : World) : (get : BridgeM World) held w = .ok w w := rfl

theorem guest_run (held : List HostId) (w : World) :
    guest held w =
      match w.guest with
      | some g => .ok g w
      | none => .error .notInstantiated w := by
  simp only [guest, bind_run, get_run]
  cases w.guest <;> rfl

theorem guest_run_of_some {g : Guest} (hg : w.guest = some g) (held : List HostId) :
    guest held w = .ok g w := by
  rw [guest_run, hg]

theorem guest_run_of_none (hg : w.guest = none) (held : List HostId) :
    guest held w = .error .notInstantiated w := by
  rw [guest_run, hg]

/-- The guest that is there does something. -/
theorem changeGuest_run {g : Guest} (hg : w.guest = some g) (x : Guest → α × Guest)
    (held : List HostId) :
    changeGuest x held w = .ok (x g).1 { w with guest := some (x g).2 } := by
  unfold changeGuest
  rw [bind_run, guest_run_of_some hg]
  rfl

theorem isLiveNow_run (held : List HostId) (w : World) : isLiveNow held w = .ok w.isLive w := by
  simp only [isLiveNow, bind_run, get_run, World.isLive]
  cases w.guest <;> rfl

theorem Leads.of_ok {a : α} (ha : act held w = .ok a w') (hr : R w w') (hp : P a w') :
    Leads R held w act P := by
  rw [Leads, ha]; exact ⟨hr, hp⟩

theorem Leads.of_error {e : BridgeError} (he : act held w = .error e w') (hr : R w w') :
    Leads R held w act P := by
  rw [Leads, he]; exact hr

/-- Where the action succeeds, its result has the property. -/
theorem Leads.ok (h : Leads R held w act P) {a : α} (ha : act held w = .ok a w') :
    R w w' ∧ P a w' := by
  rwa [Leads, ha] at h

/-- The state that a failed action ends in. -/
theorem Leads.error (h : Leads R held w act P) {e : BridgeError} (he : act held w = .error e w') :
    R w w' := by
  rwa [Leads, he] at h

/-- What comes after an action whose outcome is known. -/
theorem Leads.after {a : α} (ha : act held w = .ok a w')
    (h : Leads (fun _ => R w) held w' (f a) Q) : Leads R held w (act >>= f) Q := by
  rw [Leads, bind_run, ha]; exact h

/-- What comes after an action that changes nothing and whose outcome is known. -/
theorem Leads.read {a : α} (ha : act held w = .ok a w) (h : Leads R held w (f a) Q) :
    Leads R held w (act >>= f) Q := by
  rw [Leads, bind_run, ha]; exact h

/-- The same with less said of the result. -/
theorem Leads.imp (h : Leads R held w act P) (hp : ∀ a w', R w w' → P a w' → P' a w') :
    Leads R held w act P' := by
  unfold Leads at h ⊢
  split at h
  · exact ⟨h.1, hp _ _ h.1 h.2⟩
  · exact h

theorem Leads.mono (h : Leads R held w act P) (hr : ∀ w', R w w' → R' w w') :
    Leads R' held w act P := by
  unfold Leads at h ⊢
  split at h
  · exact ⟨hr _ h.1, h.2⟩
  · exact hr _ h

/-- Two things that are known of an action. -/
theorem Leads.and (h : Leads R held w act P) (h' : Leads R' held w act P') :
    Leads R held w act fun a w' => P a w' ∧ R' w w' ∧ P' a w' := by
  unfold Leads at h h' ⊢
  cases ha : act held w with
  | ok a w' => rw [ha] at h h'; exact ⟨h.1, h.2, h'⟩
  | error e w' => rw [ha] at h; exact h

/-- A call that holds more. -/
theorem Leads.holding (h : Leads R (ids ++ held) w act P) : Leads R held w (holding ids act) P := h

/-- A failure as a value. -/
theorem Leads.attempt (h : Leads R held w act P) :
    Leads R held w (attempt act) fun r w' => ∀ a, r = .ok a → P a w' := by
  unfold Leads at h ⊢
  unfold BridgeM.attempt
  cases ha : act held w with
  | ok a w' => rw [ha] at h; exact ⟨h.1, fun b e => Except.ok.inj e ▸ h.2⟩
  | error e w' => rw [ha] at h; exact ⟨h, fun b e => by cases e⟩

/-- One action after the other, where the second one may retrace a part of the first. -/
theorem Leads.bind_from (h : Leads R held w act P)
    (hf : ∀ a w', R w w' → P a w' → Leads (fun _ => R w) held w' (f a) Q) :
    Leads R held w (act >>= f) Q := by
  unfold Leads at h ⊢
  rw [bind_run]
  cases ha : act held w with
  | error e w' => rw [ha] at h; exact h
  | ok a w' => rw [ha] at h; exact hf a w' h.1 h.2

section Preorder

variable [IsPreorder World R]

theorem Leads.pure {a : α} (ha : P a w) : Leads R held w (pure a) P := ⟨refl w, ha⟩

theorem Leads.throw {e : BridgeError} : Leads R held w (throw e) P :=
  show R w w from refl w

/-- What comes after a failure is left out. -/
theorem Leads.throw_bind {e : BridgeError} : Leads R held w (MonadExcept.throw e >>= f) Q :=
  show R w w from refl w

/-- **One action after the other.** -/
theorem Leads.bind (h : Leads R held w act P)
    (hf : ∀ a w', R w w' → P a w' → Leads R held w' (f a) Q) :
    Leads R held w (act >>= f) Q :=
  h.bind_from fun a w' hr ha => (hf a w' hr ha).mono fun _ hr' => Trans.trans hr hr'

theorem Leads.map {g : α → β} (h : Leads R held w act P)
    (hg : ∀ a w', R w w' → P a w' → Q (g a) w') : Leads R held w (g <$> act) Q :=
  h.bind fun a w' hr ha => ⟨refl w', hg a w' hr ha⟩

theorem Leads.discard {Q : Unit → World → Prop} (h : Leads R held w act P)
    (hq : ∀ a w', R w w' → P a w' → Q () w') : Leads R held w (discard act) Q :=
  h.map hq

/-- The result of a computation that may fail. -/
theorem Leads.ofExcept {x : Except BridgeError α} (hx : ∀ a, x = .ok a → P a w) :
    Leads R held w (ofExcept x) P := by
  cases x with
  | ok a => exact ⟨refl w, hx a rfl⟩
  | error e => exact Leads.throw

/-- Actions on the items of a list, one after the other. -/
theorem Leads.mapM {ι : Type} {g : ι → BridgeM α} {is : List ι} {I : World → Prop}
    (hi : I w) (hg : ∀ i ∈ is, ∀ w, I w → Leads R held w (g i) fun a w' => I w' ∧ P a w')
    (hp : ∀ a w w', I w → R w w' → P a w → P a w') :
    Leads R held w (is.mapM g) fun as w' => I w' ∧ ∀ a ∈ as, P a w' := by
  induction is generalizing w with
  | nil =>
    rw [List.mapM_nil]
    exact Leads.pure ⟨hi, by simp⟩
  | cons i is ih =>
    rw [List.mapM_cons]
    refine (hg i List.mem_cons_self w hi).bind fun a w' _ ⟨hi', ha⟩ => ?_
    refine (ih hi' fun j hj => hg j (List.mem_cons_of_mem _ hj)).bind fun as w'' hr ⟨hi'', has⟩ => ?_
    refine Leads.pure ⟨hi'', fun b hb => ?_⟩
    rcases List.mem_cons.1 hb with rfl | hb
    · exact hp _ _ _ hi' hr ha
    · exact has b hb

theorem Leads.forM {ι : Type} {g : ι → BridgeM Unit} {is : List ι} {I : World → Prop}
    (hi : I w) (hg : ∀ i ∈ is, ∀ w, I w → Leads R held w (g i) fun _ w' => I w') :
    Leads R held w (is.forM g) fun _ w' => I w' := by
  induction is generalizing w with
  | nil => exact Leads.pure hi
  | cons i is ih =>
    refine Leads.bind (hg i List.mem_cons_self w hi) fun _ w' _ hi' => ?_
    exact ih hi' fun j hj => hg j (List.mem_cons_of_mem _ hj)

theorem Leads.foldlM {ι σ : Type} {g : σ → ι → BridgeM σ} {is : List ι} {s : σ}
    {I : σ → World → Prop} (hi : I s w)
    (hg : ∀ i ∈ is, ∀ s w, I s w → Leads R held w (g s i) I) :
    Leads R held w (is.foldlM g s) I := by
  induction is generalizing w s with
  | nil => exact Leads.pure hi
  | cons i is ih =>
    rw [List.foldlM_cons]
    refine Leads.bind (hg i List.mem_cons_self s w hi) fun s' w' _ hi' => ?_
    exact ih hi' fun j hj => hg j (List.mem_cons_of_mem _ hj)

end Preorder

/-! ## Actions that change nothing -/

section Observes

theorem Observes.pure (a : α) : Observes (pure a : BridgeM α) := fun _ _ => ⟨rfl, trivial⟩

theorem Observes.throw (e : BridgeError) : Observes (throw e : BridgeM α) := fun _ _ => Eq.refl _

theorem Observes.get : Observes (get : BridgeM World) := fun _ _ => ⟨rfl, trivial⟩

theorem Observes.bind (h : Observes act) (hf : ∀ a, Observes (f a)) : Observes (act >>= f) :=
  fun held w => (h held w).bind fun a w' _ _ => hf a held w'

/-- So whatever is put together from looks changes nothing. -/
theorem observes : Congruence fun act _ => Observes act where
  pure := Observes.pure
  throw := Observes.throw
  get := Observes.get
  bind := Observes.bind
  holding h ids held w := h (ids ++ held) w

theorem Observes.ofExcept (x : Except BridgeError α) : Observes (ofExcept x : BridgeM α) :=
  observes.ofExcept x

theorem Observes.mapM {ι : Type} {g : ι → BridgeM α} (hg : ∀ i, Observes (g i)) (is : List ι) :
    Observes (is.mapM g) := observes.mapM hg is

theorem Observes.guest : Observes guest := observes.guest

theorem Observes.isLiveNow : Observes isLiveNow := observes.isLiveNow

theorem Observes.leads [IsPreorder World R] (h : Observes act) :
    Leads R held w act fun a w' => w' = w ∧ act held w = .ok a w := by
  have hw := h held w
  unfold Leads at hw ⊢
  cases ha : act held w with
  | ok a w' =>
    rw [ha] at hw
    obtain rfl := hw.1
    exact ⟨refl w, rfl, rfl⟩
  | error e w' =>
    rw [ha] at hw
    obtain rfl := hw
    exact refl w

/-- What comes after an action of which it is known that it changes nothing. -/
theorem Leads.look {P : α → Prop} [IsPreorder World R]
    (h : Leads Eq held w act fun a _ => P a) (hf : ∀ a, P a → Leads R held w (f a) Q) :
    Leads R held w (act >>= f) Q := by
  refine Leads.bind (P := fun a w' => w' = w ∧ P a) (R := R) ?_ fun a w' _ ⟨hw', ha⟩ => ?_
  · unfold Leads at h ⊢
    cases ha : act held w with
    | ok a w' => rw [ha] at h; obtain rfl := h.1; exact ⟨refl w, rfl, h.2⟩
    | error e w' => rw [ha] at h; obtain rfl := h; exact refl w
  · exact hw' ▸ hf a ha

/-- **An action that changes nothing, and what comes after it.** -/
theorem Leads.observe [IsPreorder World R] (h : Observes act)
    (hf : ∀ a, act held w = .ok a w → Leads R held w (f a) Q) : Leads R held w (act >>= f) Q := by
  refine (Observes.leads h).bind fun a w' _ ⟨hw', ha⟩ => ?_
  obtain rfl := hw'
  exact hf a ha

/-- What comes after the guest has been looked up. -/
theorem Leads.guest [IsPreorder World R] {k : Guest → BridgeM β}
    (h : ∀ g, w.guest = some g → Leads R held w (k g) Q) : Leads R held w (guest >>= k) Q := by
  refine Leads.observe Observes.guest fun g hg => h g ?_
  rw [guest_run] at hg
  cases he : w.guest with
  | some g' => rw [he] at hg; cases hg; rfl
  | none => rw [he] at hg; cases hg

/-- What comes after the guest has been asked. -/
theorem Leads.askGuest [IsPreorder World R] {x : Guest → Except BridgeError α}
    (h : ∀ g a, w.guest = some g → x g = .ok a → Leads R held w (f a) Q) :
    Leads R held w (askGuest x >>= f) Q := by
  rw [BridgeM.askGuest, bind_assoc]
  refine Leads.guest fun g hg => ?_
  cases hx : x g with
  | ok a => exact Leads.observe (Observes.pure a) fun b hb => h g b hg (by cases hb; exact hx)
  | error e => exact Leads.of_error rfl (refl w)

end Observes

end BridgeM

end GuestBridge
