import Mathlib.Logic.Function.Iterate
import GuestBridge.Proofs.Stale

/-!
# Crossings that fail

A wrap fails if the guest makes no wrapper, an unwrap if the class is none or the handle is
stale, a weak reference if its target is none, and the first two if there is no guest. By
then the crossing has been counted, and may have run a collection in its place, and the guest
may have crossed back, from the notices of that collection or before it refused the wrapper.
The crossing itself adds nothing to the books: what it does besides those callbacks only
drops links, hashes and watches of the dead.

* `Attempt.run_error`: where a crossing fails, and what it has done by then.
* `trackCrossing_course`: **the count of a crossing drops entries, or lets the guest cross back.**
* `Reaches.keptIn`: what a state links, a later one links while value and object are there.
* `failed_crossing_keeps`: **a failed crossing records nothing and loses nothing**;
  `failed_wrap_keeps` says so of the wrap that an embedder asks for.
-/

namespace GuestBridge

open Relation (ReflTransGen)

variable {held ids : List HostId} {w w' w'' w₀ : World} {v : HostValue} {k : Handle}
  {create : HostValue → BridgeM Handle}

/-! ## Dropping entries -/

/-- The books have lost entries at most, and no hash has been drawn. -/
structure World.Sheds (w w' : World) : Prop where
  hostLinks : w'.context.registry.hostLinks.entries.Sublist w.context.registry.hostLinks.entries
  guestLinks : w'.context.registry.guestLinks.entries.Sublist w.context.registry.guestLinks.entries
  primitives : w'.context.registry.primitives.entries.Sublist w.context.registry.primitives.entries
  hashes : w'.context.hasher.assigned.entries.Sublist w.context.hasher.assigned.entries
  sequence : w'.context.hasher.state = w.context.hasher.state
  watched : w'.context.watched.Sublist w.context.watched

/-- Nothing is lost where the books are as they were. -/
theorem World.Sheds.of_same (registry : w'.context.registry = w.context.registry)
    (hasher : w'.context.hasher = w.context.hasher)
    (watched : w'.context.watched = w.context.watched) : w.Sheds w' := by
  constructor <;> simp [registry, hasher, watched]

instance : IsPreorder World World.Sheds where
  refl _ := .of_same rfl rfl rfl
  trans _ _ _ h h' :=
    ⟨h'.hostLinks.trans h.hostLinks, h'.guestLinks.trans h.guestLinks,
      h'.primitives.trans h.primitives, h'.hashes.trans h.hashes, h'.sequence.trans h.sequence,
      h'.watched.trans h.watched⟩

theorem World.sheds_swept (w : World) (held : List HostId) : w.Sheds (w.swept held) where
  hostLinks := List.filter_sublist
  guestLinks := List.filter_sublist
  primitives := List.filter_sublist
  hashes := List.filter_sublist
  sequence := rfl
  watched := .refl _

/-! ## What stays linked -/

open BridgeM in
/-- What is linked in `w` is linked in `w'` while the value and the guest object are there, and
crossings answer as it says. -/
def World.KeptIn (w w' : World) : Prop :=
  ∀ v k, w.heap.Backs (.value v) → w.handle? v = some k → (∀ i ∈ v.holds, w'.heap.isAlive i) →
    w'.isLive k →
    w'.handle? v = some k ∧ ∀ ids, (∀ i ∈ ids, w'.heap.isAlive i) →
      ((final (wrap v) ids w').InRange → ∃ w'', wrap v ids w' = .ok (some k) w'') ∧
      ∀ class_ d, w'.heap.classDefinition? class_ = some d → (∀ i ∈ v.holds, i ∈ ids) →
        (final (unwrap (some k) class_) ids w').InRange →
        ∃ x w'', unwrap (some k) class_ ids w' = .ok x w'' ∧ v.sameValueZero x ∧
          (v.hasIdentity → x = v)

/-- **What a state links, a later one links** while the value and the guest object are there. -/
theorem Reaches.keptIn {ℓ : Level} (hr : Reaches ℓ held w w') (hw : w.OK held) (hl : w.Linked)
    (hin : w'.InRange) : w.KeptIn w' := by
  intro v k hv hh halive hk
  have hok := hr.ok hw
  have hl' := hr.linked hw hl
  have hv' : w'.heap.Backs (.value v) := hv.later hw.heap (hr.later hw) halive
  have hh' := hr.handle? hw hl hin hk hv halive hh
  have hs := (World.handle?_eq_some_iff hok hl' hin hv' hk).1 hh'
  refine ⟨hh', fun ids hids => ?_⟩
  have hok' : w'.OK ids := hok.rehold hids
  exact ⟨BridgeM.wrap_of_handle? hok' hl' hv' hh' hk, fun class_ d hd hheld =>
    BridgeM.unwrap_of_standsFor hok' hl' hv' hheld hs hk hd⟩

/-! ## Where crossings fail -/

/-- A crossing that may fail. -/
inductive Attempt where
  | wrap (v : HostValue)
  | unwrap (k : Option Handle) (class_ : HostId)
  | weakRef (channel : Channel) (v : HostValue) (token : Option GuestValue)

namespace Attempt

variable {c : Attempt}

/-- What the crossing holds. -/
def holds : Attempt → List HostId
  | wrap v => v.holds
  | unwrap _ class_ => [class_]
  | weakRef _ v token => v.holds ++ token.elim [] GuestValue.holds

/-- The heap has what the crossing is given. -/
def Backed (h : Heap) : Attempt → Prop
  | wrap v => h.Backs (.value v)
  | unwrap _ class_ => h.isAlive class_
  | weakRef _ v token =>
    h.Backs (.value v) ∧ ∀ t, token = some t → ∀ p ∈ t.parts, h.Backs p

/-- The crossing, with the way in which the guest makes wrappers. -/
def run (create : HostValue → BridgeM Handle) : Attempt → BridgeM Unit
  | wrap v => discard (BridgeM.wrapWith BridgeM.trackCrossing create v)
  | unwrap k class_ => discard (BridgeM.unwrap k class_)
  | weakRef channel v token => discard (BridgeM.weakRefWith BridgeM.trackCrossing channel v token)

/-- One thing that happens in a crossing that began in `w₀`. Each is made of moves, and either
drops entries at most, or is what the guest does with a notice of a watch whose target had died,
or what it does before it refuses a wrapper. -/
inductive Event (c : Attempt) (create : HostValue → BridgeM Handle) (ids : List HostId)
    (w₀ u u' : World) : Prop
  | sheds (moves : Reaches .crossing ids u u') (sheds : u.Sheds u')
  | notice {x : Watch} {g : Guest} {held : List HostId} (moves : Reaches .crossing ids u u')
      (watched : x ∈ w₀.context.watched) (dead : ¬(w₀.settled ids).heap.isAlive x.target.id)
      (guest : u.guest = some g)
      (run : u' = BridgeM.final (BridgeM.react BridgeM.crossingsInPass
        (g.mode.onReport x.channel x.token)) held u)
  | refusal {v : HostValue} {e : BridgeError} (moves : Reaches .crossing ids u u')
      (wraps : c = .wrap v) (run : create v ids u = .error e u')

/-- What happens in a crossing, one thing after the other. -/
abbrev Course (c : Attempt) (create : HostValue → BridgeM Handle) (ids : List HostId)
    (w₀ : World) : World → World → Prop :=
  ReflTransGen (c.Event create ids w₀)

theorem Event.moves {u u' : World} (h : c.Event create ids w₀ u u') : Reaches .crossing ids u u' := by
  cases h <;> assumption

theorem Course.moves {u u' : World} (h : c.Course create ids w₀ u u') :
    Reaches .crossing ids u u' := by
  induction h with
  | refl => exact .refl
  | tail _ e ih => exact ih.trans e.moves

/-- A part of the crossing that holds more may drop entries. -/
theorem Course.of_sheds {u u' : World} (hr : Reaches .crossing held u u')
    (hsub : ∀ i ∈ ids, i ∈ held) (hs : u.Sheds u') : c.Course create ids w₀ u u' :=
  .single (.sheds (hr.weaken hsub) hs)

theorem Backed.isAlive {h : Heap} (hc : c.Backed h) : ∀ i ∈ c.holds, h.isAlive i := by
  intro i hi
  cases c with
  | wrap v => exact Heap.Backs.isAlive hc i hi
  | unwrap k class_ => exact List.mem_singleton.1 hi ▸ hc
  | weakRef channel v token => exact Heap.isAlive_of_weakRef hc.1 hc.2 i hi

/-- The values that the crossing is given are there, and so is what the calls in progress hold. -/
theorem Backed.ok (hc : c.Backed w₀.heap) (hw : w₀.OK [])
    (hheld : ∀ i ∈ held, w₀.heap.isAlive i) : w₀.OK (c.holds ++ held) :=
  hw.rehold fun i hi => (List.mem_append.1 hi).elim (hc.isAlive i) (hheld i)

end Attempt

namespace BridgeM

section Errors

variable {α β : Type} {act : BridgeM α} {e : BridgeError}

/-- One of two actions in a row has failed. -/
theorem error_of_bind {f : α → BridgeM β} (he : (act >>= f) held w = .error e w') :
    act held w = .error e w' ∨ ∃ a w₁, act held w = .ok a w₁ ∧ f a held w₁ = .error e w' := by
  rw [bind_run] at he
  cases ha : act held w with
  | ok a w₁ => rw [ha] at he; exact .inr ⟨a, w₁, rfl, he⟩
  | error e₁ w₁ => rw [ha] at he; cases he; exact .inl rfl

theorem discard_error (he : discard act held w = .error e w') : act held w = .error e w' := by
  rcases error_of_bind (f := fun _ => pure ()) he with ha | ⟨a, w₁, -, hpure⟩
  · exact ha
  · cases hpure

theorem linkNew_succeeds (l : Lookup) (v : HostValue) (k : Handle) : Succeeds (linkNew l v k) := by
  intro held w
  cases hf : w.context.registry.find? w.isLive l with
  | some j => exact ⟨_, _, linkNew_run_of_linked held hf⟩
  | none => exact ⟨_, _, linkNew_run_of_none held hf⟩

/-- A handle is found or recorded, unless the guest makes no wrapper. -/
theorem create_of_handleOf_error (he : handleOf create v held w = .error e w') :
    create v held w = .error e w' := by
  cases hh : w.handle? v with
  | some k => rw [handleOf_run_of_handle? create held hh] at he; cases he
  | none =>
    cases hl : Lookup.of? v with
    | none => rw [handleOf_run_of_not_linked create held hl hh] at he; cases he
    | some l =>
      rw [handleOf_run_of_none create held hl hh] at he
      rcases error_of_bind he with hcreate | ⟨k, w₁, -, hlink⟩
      · exact hcreate
      · obtain ⟨r, w₂, hlinked⟩ := linkNew_succeeds l v k held w₁
        exact absurd (hlinked.symm.trans hlink) nofun

/-- What follows the question for the guest fails, or there is no guest. -/
theorem error_of_guest_bind {f : Guest → BridgeM α} (he : (guest >>= f) held w = .error e w') :
    w' = w ∨ ∃ g, f g held w = .error e w' := by
  rw [bind_run, guest_run] at he
  cases hg : w.guest with
  | none => rw [hg] at he; cases he; exact .inl rfl
  | some g => rw [hg] at he; exact .inr ⟨g, he⟩

/-- A wrap fails once the crossing has been counted: there is no guest, or it makes no wrapper. -/
theorem wrapWith_error (he : wrapWith trackCrossing create v held w = .error e w') :
    ∃ w₁, trackCrossing (v.holds ++ held) w = .ok () w₁ ∧
      (w' = w₁ ∨ create v (v.holds ++ held) w₁ = .error e w') := by
  obtain ⟨⟨⟩, w₁, htrack⟩ := trackCrossing_succeeds (v.holds ++ held) w
  refine ⟨w₁, htrack, ?_⟩
  unfold wrapWith holding at he
  rw [bind_run, htrack] at he
  rcases error_of_guest_bind he with rfl | ⟨g, he⟩
  · exact .inl rfl
  · exact .inr (create_of_handleOf_error he)

/-- The value of a handle is missing for want of a class, or of a guest object. -/
theorem valueOf_error {class_ : HostId} (he : valueOf k class_ held w = .error e w') :
    w' = w ∨ w' = w.settled held := by
  cases hd : w.heap.classDefinition? class_ with
  | none => rw [valueOf_run_of_not_class k held hd] at he; cases he; exact .inl rfl
  | some d =>
    obtain ⟨w₂, hw₂, hrun⟩ := valueOf_run k held hd
    rw [hrun] at he
    split at he
    · cases he
    · split at he
      · cases he
      · cases he
        exact hw₂

/-- An unwrap fails once the crossing has been counted. -/
theorem unwrap_error {class_ : HostId} {k : Option Handle}
    (he : unwrap k class_ held w = .error e w') :
    ∃ w₁, trackCrossing ([class_] ++ held) w = .ok () w₁ ∧
      (w' = w₁ ∨ w' = w₁.settled ([class_] ++ held)) := by
  obtain ⟨⟨⟩, w₁, htrack⟩ := trackCrossing_succeeds ([class_] ++ held) w
  refine ⟨w₁, htrack, ?_⟩
  unfold unwrap holding at he
  rw [bind_run, htrack] at he
  rcases error_of_guest_bind he with rfl | ⟨g, he⟩
  · exact .inl rfl
  · cases k with
    | none => cases he
    | some k => exact valueOf_error he

theorem makeWeakRef_succeeds (target : Referent) (token : Option GuestValue) (channel : Channel) :
    Succeeds (makeWeakRef target token channel) := by
  cases token with
  | none => exact fun held w => ⟨_, _, rfl⟩
  | some t => exact fun held w => ⟨_, _, rfl⟩

/-- A weak reference fails once the crossing has been counted, and that is all. -/
theorem weakRefWith_error {channel : Channel} {token : Option GuestValue}
    (he : weakRefWith trackCrossing channel v token held w = .error e w') :
    trackCrossing ((v.holds ++ token.elim [] GuestValue.holds) ++ held) w = .ok () w' := by
  obtain ⟨⟨⟩, w₁, htrack⟩ :=
    trackCrossing_succeeds ((v.holds ++ token.elim [] GuestValue.holds) ++ held) w
  unfold weakRefWith holding at he
  rw [bind_run, htrack] at he
  cases ht : weakTargetOf channel v with
  | none => rw [ht] at he; cases he; exact htrack
  | some target =>
    rw [ht] at he
    obtain ⟨i, w₂, hmake⟩ := makeWeakRef_succeeds target token channel
      ((v.holds ++ token.elim [] GuestValue.holds) ++ held) w₁
    exact absurd (hmake.symm.trans he) nofun

end Errors

end BridgeM

open BridgeM in
/-- **Where a crossing fails**: after it has been counted, and after the guest has refused to make a
wrapper if it was asked to. At most a reclaim comes after that. -/
theorem Attempt.run_error {c : Attempt} {e : BridgeError}
    (he : c.run create held w = .error e w') :
    ∃ w₁ u, trackCrossing (c.holds ++ held) w = .ok () w₁ ∧
      (u = w₁ ∨ ∃ v, c = .wrap v ∧ create v (c.holds ++ held) w₁ = .error e u) ∧
      (w' = u ∨ w' = u.settled (c.holds ++ held)) := by
  cases c with
  | wrap v =>
    obtain ⟨w₁, htrack, hw'⟩ := wrapWith_error (discard_error he)
    exact ⟨w₁, w', htrack, hw'.imp id fun hcreate => ⟨v, rfl, hcreate⟩, .inl rfl⟩
  | unwrap k class_ =>
    obtain ⟨w₁, htrack, hw'⟩ := unwrap_error (discard_error he)
    exact ⟨w₁, w₁, htrack, .inl rfl, hw'⟩
  | weakRef channel v token =>
    exact ⟨w', w', weakRefWith_error (discard_error he), .inl rfl, .inl rfl⟩

/-! ## What happens in a crossing -/

namespace BridgeM

section Course

variable {c : Attempt} {x : Watch} {xs : List Watch}

/-- What the guest does for itself leaves the books alone. -/
theorem tryGuest_sheds {α : Type} (f : Guest → Except BridgeError (α × Guest)) :
    Leads World.Sheds held w (tryGuest f) fun _ _ => True :=
  Leads.askGuest fun _ _ _ _ => ⟨.of_same rfl rfl rfl, trivial⟩

/-- A notice is given: the guest crosses back, and then takes the notice or rejects it. -/
theorem report_course (hsub : ∀ i ∈ ids, i ∈ held) (hw : w.OK held)
    (ht : ∀ p ∈ x.token.parts, w.heap.Backs p) (hx : x ∈ w₀.context.watched)
    (hdead : ¬(w₀.settled ids).heap.isAlive x.target.id) :
    Leads (c.Course create ids w₀) held w (report crossingsInPass x.channel x.token)
      fun _ _ => True := by
  have hw := hw.hold (Heap.isAlive_of_guestValue ht)
  have hsub : ∀ i ∈ ids, i ∈ x.token.holds ++ held := fun i hi =>
    List.mem_append_right _ (hsub i hi)
  have htake : ∀ w₁, (∀ p ∈ x.token.parts, w₁.heap.Backs p) →
      Leads (c.Course create ids w₀) (x.token.holds ++ held) w₁
        (tryGuest fun g => return ((), ← g.takeReport x.channel x.token)) fun _ _ => True := by
    intro w₁ ht₁
    have hmoves : Leads (Reaches .crossing (x.token.holds ++ held)) _ w₁ _ _ :=
      takeReport_leads (by decide) x.channel ht₁
    exact hmoves.of_final (.of_sheds hmoves.final hsub (tryGuest_sheds _).final)
  refine Leads.holding (Leads.guest fun g hg => ?_)
  dsimp only
  -- the guest crosses back first only where it has been told to react to the notice
  split
  · have hmoves := react_leads (crossingsInPass_moves (ℓ := .crossing))
      (g.mode.onReport x.channel x.token) _ w hw
    have hcourse : Leads (c.Course create ids w₀) _ w _ _ := hmoves.of_final
      (ReflTransGen.single (.notice (hmoves.final.weaken hsub) hx hdead hg rfl))
    refine (hcourse.and hmoves).bind fun _ w₁ _ ⟨_, h₁, _⟩ => htake w₁ fun p hp => ?_
    exact h₁.backs hw (ht p hp) fun i hi => List.mem_append_left _ (GuestValue.mem_holds.2 ⟨p, hp, hi⟩)
  · exact htake w ht

theorem deliver_course (hsub : ∀ i ∈ ids, i ∈ held) (r : CollectionReport) (hw : w.OK held)
    (ht : ∀ p ∈ x.token.parts, w.heap.Backs p) (hx : x ∈ w₀.context.watched)
    (hdead : ¬(w₀.settled ids).heap.isAlive x.target.id) :
    Leads (c.Course create ids w₀) held w (deliver r x) fun _ _ => True := by
  refine Leads.observe Observes.get fun w₁ _ => ?_
  split
  · exact Leads.pure trivial
  · split
    · exact Leads.pure trivial
    · refine (report_course hsub hw ht hx hdead).attempt.bind fun result w' _ _ => ?_
      split <;> exact Leads.pure trivial

/-- Notices are given one after the other. -/
theorem deliverAll_course (r : CollectionReport) (hw : w.OK ids)
    (ht : ∀ x ∈ xs, ∀ p ∈ x.token.parts, w.heap.Backs p) (hx : ∀ x ∈ xs, x ∈ w₀.context.watched)
    (hdead : ∀ x ∈ xs, ¬(w₀.settled ids).heap.isAlive x.target.id) :
    Leads (c.Course create ids w₀) ids w (deliverAll r xs) fun _ _ => True := by
  induction xs generalizing r w with
  | nil => exact Leads.pure trivial
  | cons x xs ih =>
    have hheld := hw.hold (isAlive_of_tokens ht)
    have hturn : Leads (c.Course create ids w₀) ids w _ fun _ _ => True :=
      (deliver_course (fun i hi => List.mem_append_right _ hi) r hheld
        (ht x List.mem_cons_self) (hx x List.mem_cons_self) (hdead x List.mem_cons_self)).holding
    have hmoves := turn_leads (ℓ := .crossing) (by decide) r hw ht
    refine (hturn.and hmoves).bind fun r' w' _ ⟨_, h', ht'⟩ => ?_
    exact ih r' (h'.ok hw) ht' (fun y hy => hx y (List.mem_cons_of_mem x hy)) fun y hy =>
      hdead y (List.mem_cons_of_mem x hy)

/-- **A collection drops entries, or lets the guest cross back** with the notices that it gives. -/
theorem collectGarbage_course (hw : w₀.OK ids) :
    Leads (c.Course create ids w₀) ids w₀ collectGarbage fun _ _ => True := by
  have hsame : ∀ i ∈ ids, i ∈ ids := fun _ => id
  refine Leads.observe Observes.get fun w₁ _ => ?_
  split
  · exact Leads.pure trivial
  · have hphase : Reaches .crossing ids w₀
        { w₀ with context := { w₀.context with collecting := true, crossings := 0 } } :=
      Reaches.cross (by decide) .phase
    have hw₁ := hphase.ok hw
    refine Leads.bind (P := fun _ w₁ => w₁ = _) (Leads.modify (.of_sheds hphase hsame
      (.of_same rfl rfl rfl)) rfl) fun _ w₁ _ he => ?_
    subst he
    -- the watches whose targets have died leave the list
    obtain ⟨hpoll, ht⟩ := (poll_leads (ℓ := .crossing) (by decide) hw₁).ok (poll_run ids _)
    have hpolled : c.Course create ids w₀ _ _ := .of_sheds hpoll hsame
      { World.Sheds.of_same rfl rfl rfl with watched := List.filter_sublist }
    refine Leads.after (poll_run ids _) (Leads.mono ?_ fun _ h => hpolled.trans h)
    have hdelivered : Leads (c.Course create ids w₀) ids _ _ fun _ _ => True :=
      deliverAll_course {} (hpoll.ok hw₁) ht (fun x hx => (List.mem_filter.1 hx).1) fun x hx => by
        have hx : !(w₀.settled ids).heap.isAlive x.target.id := (List.mem_filter.1 hx).2
        simpa using hx
    refine hdelivered.bind fun r w₃ _ _ => ?_
    -- the sweep drops links and hashes
    obtain ⟨r', hsweep, -⟩ := sweep_run r ids w₃
    have hmoves := ((sweep_leads (ℓ := .crossing) (by decide) r).ok hsweep).1
    refine Leads.bind (P := fun _ _ => True) (Leads.of_ok hsweep (.of_sheds hmoves hsame
      (w₃.sheds_swept ids)) trivial) fun r₄ w₄ _ _ => ?_
    refine Leads.bind (P := fun _ _ => True) (Leads.modify (.of_sheds (Reaches.cross (by decide)
      .phase) hsame (.of_same rfl rfl rfl)) trivial) fun _ _ _ _ => Leads.pure trivial

/-- **The count of a crossing drops entries, or lets the guest cross back.** -/
theorem trackCrossing_course (hw : w₀.OK ids) :
    Leads (c.Course create ids w₀) ids w₀ trackCrossing fun _ _ => True := by
  refine Leads.observe Observes.get fun w₁ _ => ?_
  dsimp only
  split
  · exact Leads.of_ok (tally_run ids w₀) (.of_sheds (Reaches.quiet .tally) (fun _ => id)
      (.of_same rfl rfl rfl)) trivial
  · exact (collectGarbage_course hw).discard fun _ _ _ _ => trivial

end Course

/-- The guest makes its wrappers by moves: it crosses back, and makes objects of its own. -/
def Creates (create : HostValue → BridgeM Handle) : Prop :=
  ∀ held w v, w.OK held → w.heap.Backs (.value v) → (∀ i ∈ v.holds, i ∈ held) →
    Leads (Reaches .crossing held) held w (create v) fun _ _ => True

/-- How a wrapper is made in `wrap`. -/
def createOnce : HostValue → BridgeM Handle :=
  createWrapper fun v => discard (wrapWith trackCrossing (createWrapper fun _ => pure ()) v)

theorem run_createOnce (v : HostValue) : (Attempt.wrap v).run createOnce = discard (wrap v) := rfl

theorem createOnce_creates : Creates createOnce := by
  intro held w v hw hv hh
  have hrewrap := (wrapWith_leads (trackCrossing_tracks (ℓ := .crossing) (by decide))
    takes_pure).discard
  exact (createWrapper_leads hw hv hh hrewrap).imp fun _ _ _ _ => trivial

/-- A guest that reacts to each value in a way of its own before it makes its wrapper. -/
def createAfter (plan : HostValue → Reaction) (v : HostValue) : BridgeM Handle := do
  react crossings (plan v)
  changeGuest fun g => g.alloc (.wrapper v)

theorem createAfter_creates (plan : HostValue → Reaction) : Creates (createAfter plan) := by
  intro held w v hw hv hh
  refine (react_leads (crossings_moves (by decide)) (plan v) held w hw).bind fun _ w₁ h₁ _ => ?_
  refine (changeGuest_alloc_leads (o := .wrapper v) ?_).imp fun _ _ _ _ => trivial
  simpa [GuestObject.parts] using h₁.backs hw hv hh

section Failures

variable {c : Attempt} {e : BridgeError}

/-- **What happens in a crossing that fails.** -/
theorem course_of_error (hcreate : Creates create) (hok : w₀.OK (c.holds ++ held))
    (hc : c.Backed w₀.heap) (he : c.run create held w₀ = .error e w') :
    c.Course create (c.holds ++ held) w₀ w₀ w' := by
  obtain ⟨w₁, u, htrack, hu, hw'⟩ := Attempt.run_error he
  have hcount : c.Course create (c.holds ++ held) w₀ w₀ w₁ :=
    ((trackCrossing_course hok).ok htrack).1
  have hsame : ∀ i ∈ c.holds ++ held, i ∈ c.holds ++ held := fun _ => id
  have hrefused : c.Course create (c.holds ++ held) w₀ w₀ u := by
    rcases hu with rfl | ⟨v, rfl, hv⟩
    · exact hcount
    · have hv₁ := hcount.moves.backs hok (p := .value v) hc fun i hi => List.mem_append_left _ hi
      have hmoves := (hcreate _ w₁ v (hcount.moves.ok hok) hv₁ fun i hi =>
        List.mem_append_left _ hi).error hv
      exact hcount.tail (.refusal hmoves rfl hv)
  rcases hw' with rfl | rfl
  · exact hrefused
  · exact hrefused.trans (Attempt.Course.of_sheds (Reaches.settled (by decide) u _) hsame
      (.of_same rfl rfl rfl))

/-- **A failed crossing records nothing and loses nothing**, in every state that a reachable one
leads to, in the middle of calls too, whatever else the calls in progress hold. The guest may make
its wrappers in any way that is made of moves, and may do anything with notices.

* What some state of the crossing links, the one that it ends in links while the value and the guest
  object are there, and later crossings answer so. The first state is such a state, and so is every
  one that the guest's own crossings lead to.
* The crossing comes down to what the guest does with notices of watches whose targets had died, what
  it does before it refuses the wrapper, and steps that add nothing to the books.
* Without a collection it is counted, and the guest is asked for a wrapper at most. The books are
  what the guest leaves. -/
theorem failed_crossing_keeps (hcreate : Creates create) (hw : w.Reachable)
    (hr : Reaches .outer [] w w₀) (hheld : ∀ i ∈ held, w₀.heap.isAlive i) (hc : c.Backed w₀.heap)
    (he : c.run create held w₀ = .error e w') :
    (w'.InRange → ∀ u, Reaches .crossing (c.holds ++ held) w₀ u →
      Reaches .crossing (c.holds ++ held) u w' → u.KeptIn w') ∧
    c.Course create (c.holds ++ held) w₀ w₀ w' ∧
    ((w₀.context.crossings + 1 < collectInterval ∨ w₀.context.collecting = true) →
      ∃ u, (u = w₀.counted ∨
          ∃ v, c = .wrap v ∧ create v (c.holds ++ held) w₀.counted = .error e u) ∧
        (w' = u ∨ w' = u.settled (c.holds ++ held))) := by
  have hok := Attempt.Backed.ok hc (hr.ok hw.ok) hheld
  have hl := hr.linked hw.ok hw.linked
  refine ⟨fun hin u hu hlast => ?_, course_of_error hcreate hok hc he, fun hfree => ?_⟩
  · exact hlast.keptIn (hu.ok hok) (hu.linked hok hl) hin
  · obtain ⟨w₁, u, htrack, hu, hw'⟩ := Attempt.run_error he
    rw [trackCrossing_run_of_lt _ hfree] at htrack
    cases htrack
    exact ⟨u, hu, hw'⟩

/-- **A wrap that fails records nothing and loses nothing.** The guest makes wrappers in the way that
`wrap` asks for: it may cross back once. Without a collection the wrap is counted and that is all, but
for what the guest does. -/
theorem failed_wrap_keeps (hw : w.Reachable) (hr : Reaches .outer [] w w₀)
    (hheld : ∀ i ∈ held, w₀.heap.isAlive i) (hv : w₀.heap.Backs (.value v))
    (he : wrap v held w₀ = .error e w') :
    (w'.InRange → ∀ u, Reaches .crossing (v.holds ++ held) w₀ u →
      Reaches .crossing (v.holds ++ held) u w' → u.KeptIn w') ∧
    (Attempt.wrap v).Course createOnce (v.holds ++ held) w₀ w₀ w' ∧
    ((w₀.context.crossings + 1 < collectInterval ∨ w₀.context.collecting = true) →
      w' = w₀.counted ∨ createOnce v (v.holds ++ held) w₀.counted = .error e w') := by
  have hc : (Attempt.wrap v).Backed w₀.heap := hv
  have hok := Attempt.Backed.ok hc (hr.ok hw.ok) hheld
  have hl := hr.linked hw.ok hw.linked
  have hrun : (Attempt.wrap v).run createOnce held w₀ = .error e w' := by
    rw [run_createOnce]
    show (wrap v >>= fun _ => pure ()) held w₀ = _
    rw [bind_run, he]
  refine ⟨fun hin u hu hlast => ?_, course_of_error createOnce_creates hok hc hrun,
    fun hfree => ?_⟩
  · exact hlast.keptIn (hu.ok hok) (hu.linked hok hl) hin
  · have he : wrapWith trackCrossing createOnce v held w₀ = .error e w' := he
    obtain ⟨w₁, htrack, hw'⟩ := wrapWith_error he
    rw [trackCrossing_run_of_lt _ hfree] at htrack
    cases htrack
    exact hw'

/-- A session with three values, of which the first is linked, and with a watch whose target is
dead. The guest wraps the second value when it is given notice. -/
def strained : World :=
  let steps : List Step :=
    [.set "first" (.external (.object [])), .set "second" (.external (.object [])),
      .set "third" (.external (.object [])),
      .perform (.setMode { onReport := fun _ _ => .wrap (.variable "second") fun _ => .accept }) none,
      .perform (.context (.createWeakRef .value (.object []) (some (.i32 7)))) none,
      .perform (.context (.wrap (.variable "first"))) none]
  (runSteps steps (World.load {} {}).2.2).2

/-- A guest that hashes the second value, and then refuses to make a wrapper. -/
def createRefused : HostValue → BridgeM Handle :=
  createAfter fun _ => .hash (.variable "second") fun _ => .reject (.guest "out of guest memory")

/-- The same session after 997 more crossings: the next one runs a collection. -/
def exhausted : World := World.counted^[997] strained

theorem reaches_counted {ℓ : Level} (n : ℕ) (w : World) : Reaches ℓ held w (World.counted^[n] w) := by
  induction n with
  | zero => exact .refl
  | succ n ih =>
    rw [Function.iterate_succ_apply']
    exact ih.tail (.quiet .tally)

/-- A wrap of the third value. -/
def thirdWrap : Attempt := .wrap (.object ⟨2⟩)

/-- The third value is refused in a crossing that runs a collection. The first one keeps its handle,
and so does the second, which got its own meanwhile. -/
theorem exhausted_keeps_first_and_second :
    ∃ e w', thirdWrap.run createRefused [] exhausted = .error e w' ∧
      thirdWrap.Course createRefused [⟨2⟩] exhausted exhausted w' ∧
      w'.context.hasher.assigned.keys = [⟨1⟩] ∧ w'.handle? (.object ⟨1⟩) = some ⟨1, 0⟩ ∧
      ∃ w'', wrap (.object ⟨0⟩) [] w' = .ok (some ⟨0, 0⟩) w'' := by
  have hw : strained.Reachable := ⟨{}, {}, _, _, rfl, World.later_runSteps _ _⟩
  have hnone : ∀ i ∈ ([] : List HostId), exhausted.heap.isAlive i := nofun
  have hreach : Reaches .outer [] strained exhausted := reaches_counted 997 strained
  have hbacked : thirdWrap.Backed exhausted.heap := isSome_object?_iff.1 (by decide +kernel)
  have hfails : ((thirdWrap.run createRefused).outcome exhausted).1.isOk = false := by decide +kernel
  cases he : thirdWrap.run createRefused [] exhausted with
  | ok a w' => rw [outcome_fst_of_ok he] at hfails; cases hfails
  | error e w' =>
    obtain rfl : final (thirdWrap.run createRefused) [] exhausted = w' := by rw [final, he]
    obtain ⟨hkept, hcourse, -⟩ :=
      failed_crossing_keeps (createAfter_creates _) hw hreach hnone hbacked he
    obtain ⟨-, hanswers⟩ := hkept (by decide +kernel) _ .refl hcourse.moves (.object ⟨0⟩) ⟨0, 0⟩
      (isSome_object?_iff.1 (by decide +kernel)) (by decide +kernel) (by decide +kernel) (by decide +kernel)
    exact ⟨e, _, rfl, hcourse, by decide +kernel, by decide +kernel,
      (hanswers [] nofun).1 (by decide +kernel)⟩

end Failures

end BridgeM

end GuestBridge
