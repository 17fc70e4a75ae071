import GuestBridge.Proofs.Alike
import GuestBridge.Proofs.Growth

/-!
# Actions that agree

An action is run twice, in two states. The runs agree (`Agrees`) when both succeed with the
same result, or both fail with the same error and leave states that are alike. Agreement is
put together as actions are; what is known of one run alone (`Leads`) may be used on the way.

* `Agrees.bind`: **one action after the other.**
* `Agrees.twins`: states that are alike are well formed after the runs, if they were before.
* `HostExpr.read_agrees`, `GuestExpr.read_agrees`: **reading a description makes the same
  value in states that are alike.**
* `tryGuest_agrees`, `changeGuest_agrees`: so does what the guest does for itself.
-/

namespace GuestBridge

/-- Two states that are alike, both of which are well formed. -/
structure World.Twin (held : List HostId) (w w' : World) : Prop where
  ok : w.OK held
  ok' : w'.OK held
  linked : w.Linked
  linked' : w'.Linked
  alike : World.Alike held w w'

theorem World.Twin.mono {held ids : List HostId} {w w' : World} (h : World.Twin ids w w')
    (hsub : ∀ i ∈ held, i ∈ ids) : World.Twin held w w' :=
  ⟨h.ok.release hsub, h.ok'.release hsub, h.linked, h.linked', h.alike.mono hsub⟩

/-- Moves lead to states that are well formed. -/
theorem World.Twin.reaches {held : List HostId} {ℓ : Level} {w w' u u' : World}
    (h : World.Twin held w w') (hr : Reaches ℓ held w u) (hr' : Reaches ℓ held w' u')
    (halike : World.Alike held u u') : World.Twin held u u' :=
  ⟨hr.ok h.ok, hr'.ok h.ok', hr.linked h.ok h.linked, hr'.linked h.ok' h.linked', halike⟩

/-! ## What a guest holds -/

section Holds

variable {held : List HostId} {w w' : World} {g g' : Guest} {i : HostId}

theorem Guest.mem_holds : i ∈ g.holds ↔
    (∃ o, g.heap.Stores o ∧ i ∈ o.holds) ∨ ∃ x ∈ g.reports, i ∈ x.2.holds := by
  simp only [Guest.holds, List.mem_append, List.mem_flatMap, Array.mem_toList_iff]
  refine or_congr ⟨?_, ?_⟩ Iff.rfl
  · rintro ⟨e, he, hi⟩
    exact ⟨e.2, HandleTable.stores_iff.2 ⟨e.1, he⟩, hi⟩
  · rintro ⟨o, ho, hi⟩
    obtain ⟨k, hk⟩ := HandleTable.stores_iff.1 ho
    exact ⟨(k, o), hk, hi⟩

/-- A guest whose objects are among those of another, but for some, holds no more than these do. -/
theorem Guest.holds_of_stores {o : GuestObject} (hi : i ∈ g'.holds) (hreports : g'.reports = g.reports)
    (hstores : ∀ x, g'.heap.Stores x → x = o ∨ g.heap.Stores x) : i ∈ o.holds ∨ i ∈ g.holds := by
  rcases Guest.mem_holds.1 hi with ⟨x, hx, hi⟩ | ⟨x, hx, hi⟩
  · rcases hstores x hx with rfl | hx
    · exact .inl hi
    · exact .inr (Guest.mem_holds.2 (.inl ⟨x, hx, hi⟩))
  · exact .inr (Guest.mem_holds.2 (.inr ⟨x, hreports ▸ hx, hi⟩))

theorem Guest.holds_alloc {o : GuestObject} (hi : i ∈ (g.alloc o).2.holds) :
    i ∈ o.holds ∨ i ∈ g.holds :=
  Guest.holds_of_stores hi rfl fun _ => HandleTable.Stores.of_insert

theorem Guest.holds_free {k : Handle} (hi : i ∈ (g.free k).2.holds) : i ∈ g.holds := by
  rcases Guest.mem_holds.1 hi with ⟨x, hx, hi⟩ | ⟨x, hx, hi⟩
  · exact Guest.mem_holds.2 (.inl ⟨x, HandleTable.Stores.of_remove hx, hi⟩)
  · exact Guest.mem_holds.2 (.inr ⟨x, hx, hi⟩)

/-- What a guest does for itself makes it hold nothing more. -/
theorem Guest.Edits.holds (he : g.Edits g') (hi : i ∈ g'.holds) : i ∈ g.holds := by
  have hplain : ∀ {o : GuestObject}, o.parts = [] → i ∉ o.holds := by
    intro o ho hi
    obtain ⟨p, hp, -⟩ := GuestObject.mem_holds.1 hi
    simp [ho] at hp
  induction he with
  | refl => exact hi
  | @tail g₁ _ _ e ih =>
    refine ih ?_
    cases e with
    | alloc plain => exact (Guest.holds_alloc hi).resolve_left (hplain plain)
    | @write k o _ old plain plain₀ =>
      have hholds := Guest.holds_of_stores (g := g₁) (o := o) hi rfl fun _ =>
        HandleTable.Stores.of_set
      exact hholds.resolve_left (hplain plain)

/-- **States stay alike when their guests change in the same way**, hold nothing new, and no handle
that was issued becomes live. -/
theorem World.Twin.withGuest (ht : World.Twin held w w') (hg : w.guest = some g)
    (hholds : ∀ i ∈ g'.holds, i ∈ held ∨ i ∈ g.holds) (hlater : g'.heap.InRange → g.Later g') :
    World.Alike held { w with guest := some g' } { w' with guest := some g' } := by
  have h := ht.alike
  have hsame : ({ w' with guest := some g' } : World) =
      { w' with guest := some g', bindings := w.bindings } := by
    rw [← h.bindings]
  rw [hsame]
  refine h.rebind (g := some g') (b := w.bindings) (fun i hi => ?_) fun hin => ?_
  · rcases List.mem_append.1 hi with hi | hi
    · exact List.mem_append_left _ hi
    · rcases List.mem_append.1 hi with hi | hi
      · exact List.mem_append_right _ (List.mem_append_left _ hi)
      · rcases hholds i hi with hi | hi
        · exact List.mem_append_left _ hi
        · exact List.mem_append_right _ (World.holds_guest (w := w.unlinked) hg hi)
  · have hl := hlater (hin g' rfl)
    have hin₀ : w.InRange := fun g₀ hg₀ => Option.some.inj (hg.symm.trans hg₀) ▸ hl.inRange
    refine ⟨hin₀, fun k hk hlive => ?_⟩
    -- links mention handles that were issued, and none of those has come to life
    have hissued : g.heap.Issued k := by
      rcases hk with hk | hk
      · exact (ht.linked g hg hl.inRange).issued hk
      · exact (ht.linked' g (h.guest.trans hg) hl.inRange).issued hk
    rw [World.isLive_of_guest hg]
    exact hl.live k hissued hlive

end Holds

namespace BridgeM

variable {α β : Type} {held ids : List HostId} {ℓ : Level} {w w' u u' : World} {act : BridgeM α}
  {f : α → BridgeM β} {P : α → World → Prop} {Q Q' : α → World → World → Prop}
  {S : β → World → World → Prop} {v : HostValue} {g g' : Guest}

/-! ## Rules -/

/-- **The runs of an action in two states agree.** -/
inductive Agrees (held : List HostId) (w w' : World) (act : BridgeM α)
    (Q : α → World → World → Prop) : Prop
  | ok {a : α} {u u' : World} (run : act held w = .ok a u) (run' : act held w' = .ok a u')
      (post : Q a u u')
  | error {e : BridgeError} {u u' : World} (run : act held w = .error e u)
      (run' : act held w' = .error e u') (alike : World.Alike held u u')

section Rules

/-- The same with less said of the results. -/
theorem Agrees.imp (h : Agrees held w w' act Q)
    (hq : ∀ a u u', act held w = .ok a u → act held w' = .ok a u' → Q a u u' → Q' a u u') :
    Agrees held w w' act Q' := by
  cases h with
  | ok run run' post => exact .ok run run' (hq _ _ _ run run' post)
  | error run run' alike => exact .error run run' alike

/-- Actions that run as others do. -/
theorem Agrees.of_run {act' : BridgeM α} (h : Agrees held u u' act' Q)
    (hrun : act held w = act' held u) (hrun' : act held w' = act' held u') :
    Agrees held w w' act Q := by
  cases h with
  | ok run run' post => exact .ok (hrun.trans run) (hrun'.trans run') post
  | error run run' alike => exact .error (hrun.trans run) (hrun'.trans run') alike

/-- **One action after the other.** -/
theorem Agrees.bind (h : Agrees held w w' act Q)
    (hf : ∀ a u u', act held w = .ok a u → act held w' = .ok a u' → Q a u u' →
      Agrees held u u' (f a) S) :
    Agrees held w w' (act >>= f) S := by
  cases h with
  | @ok a u u' run run' post =>
    have hrest : (act >>= f) held w = f a held u := by rw [bind_run, run]
    have hrest' : (act >>= f) held w' = f a held u' := by rw [bind_run, run']
    cases hf a u u' run run' post with
    | ok next next' post => exact .ok (hrest.trans next) (hrest'.trans next') post
    | error next next' alike => exact .error (hrest.trans next) (hrest'.trans next') alike
  | error run run' alike =>
    exact .error (by rw [bind_run, run]) (by rw [bind_run, run']) alike

/-- What comes after an action whose outcomes are known. -/
theorem Agrees.after {a : α} (run : act held w = .ok a u) (run' : act held w' = .ok a u')
    (h : Agrees held u u' (f a) S) : Agrees held w w' (act >>= f) S :=
  h.of_run (by rw [bind_run, run]) (by rw [bind_run, run'])

theorem Agrees.pure {a : α} (hq : Q a w w') : Agrees held w w' (pure a) Q := .ok rfl rfl hq

theorem Agrees.throw {e : BridgeError} (h : World.Alike held w w') :
    Agrees held w w' (throw e) Q :=
  .error rfl rfl h

theorem Agrees.ofExcept {x : Except BridgeError α} (h : World.Alike held w w')
    (hq : ∀ a, x = .ok a → Q a w w') : Agrees held w w' (ofExcept x) Q := by
  cases x with
  | ok a => exact Agrees.pure (hq a rfl)
  | error e => exact Agrees.throw h

theorem Agrees.discard {S : Unit → World → World → Prop} (h : Agrees held w w' act Q)
    (hs : ∀ a u u', Q a u u' → S () u u') : Agrees held w w' (discard act) S :=
  h.bind fun a u u' _ _ hq => Agrees.pure (hs a u u' hq)

/-- A call that holds more. -/
theorem Agrees.holding (h : Agrees (ids ++ held) w w' act Q) :
    Agrees held w w' (holding ids act) Q := by
  cases h with
  | ok run run' post => exact .ok run run' post
  | error run run' alike =>
    exact .error run run' (alike.mono fun _ => List.mem_append_right _)

/-- Looking at the guest, which is the same. -/
theorem Agrees.guest {f : Guest → BridgeM β} (h : World.Alike held w w')
    (hf : ∀ g, w.guest = some g → Agrees held w w' (f g) S) :
    Agrees held w w' (guest >>= f) S := by
  cases hg : w.guest with
  | some g =>
    have hlook : Agrees held w w' BridgeM.guest fun a u u' => a = g ∧ u = w ∧ u' = w' :=
      .ok (guest_run_of_some hg held) (guest_run_of_some (h.guest.trans hg) held) ⟨rfl, rfl, rfl⟩
    refine hlook.bind ?_
    rintro a u u' - - ⟨rfl, rfl, rfl⟩
    exact hf a hg
  | none =>
    have hfail : Agrees held w w' BridgeM.guest fun _ _ _ => False :=
      .error (guest_run_of_none hg held) (guest_run_of_none (h.guest.trans hg) held) h
    exact hfail.bind fun _ _ _ _ _ => False.elim

/-- Asking the guest, which is the same. -/
theorem Agrees.askGuest {x : Guest → Except BridgeError α} (h : World.Alike held w w')
    (hf : ∀ g a, w.guest = some g → x g = .ok a → Agrees held w w' (f a) S) :
    Agrees held w w' (askGuest x >>= f) S := by
  rw [BridgeM.askGuest, bind_assoc]
  refine Agrees.guest h fun g hg => ?_
  have hlook : Agrees held w w' (MonadExcept.ofExcept (x g)) fun a u u' =>
      x g = .ok a ∧ u = w ∧ u' = w' := Agrees.ofExcept h fun a ha => ⟨ha, rfl, rfl⟩
  refine hlook.bind ?_
  rintro a u u' - - ⟨ha, rfl, rfl⟩
  exact hf g a hg ha

/-- What is known of each run alone. -/
theorem Agrees.along {R : World → World → Prop} {P' : α → World → Prop} (h : Agrees held w w' act Q)
    (hl : Leads R held w act P) (hl' : Leads R held w' act P') :
    Agrees held w w' act fun a u u' => Q a u u' ∧ (R w u ∧ P a u) ∧ R w' u' ∧ P' a u' :=
  h.imp fun _ _ _ run run' hq => ⟨hq, hl.ok run, hl'.ok run'⟩

/-- **The states after an action made of moves are well formed**, if they are alike to a call that
holds what the action gives. -/
theorem Agrees.twins (result : α → List HostId) {P' : α → World → Prop}
    (ht : World.Twin held w w')
    (h : Agrees held w w' act fun a u u' => World.Alike (result a ++ held) u u')
    (hl : Leads (Reaches ℓ held) held w act P) (hl' : Leads (Reaches ℓ held) held w' act P')
    (halive : ∀ a u, P a u → ∀ i ∈ result a, u.heap.isAlive i)
    (halive' : ∀ a u, P' a u → ∀ i ∈ result a, u.heap.isAlive i) :
    Agrees held w w' act fun a u u' => World.Twin (result a ++ held) u u' ∧ P a u ∧ P' a u' := by
  refine (h.along hl hl').imp fun a u u' _ _ ⟨halike, ⟨hr, hp⟩, hr', hp'⟩ => ⟨?_, hp, hp'⟩
  have ht := ht.reaches hr hr' (halike.mono fun _ => List.mem_append_right _)
  exact ⟨ht.ok.hold (halive a u hp), ht.ok'.hold (halive' a u' hp'), ht.linked, ht.linked', halike⟩

/-- The same of an action whose result is not held. -/
theorem Agrees.twin {P' : α → World → Prop} (ht : World.Twin held w w')
    (h : Agrees held w w' act fun _ u u' => World.Alike held u u')
    (hl : Leads (Reaches ℓ held) held w act P) (hl' : Leads (Reaches ℓ held) held w' act P') :
    Agrees held w w' act fun a u u' => World.Twin held u u' ∧ P a u ∧ P' a u' :=
  Agrees.twins (fun _ => []) ht h hl hl' (fun _ _ _ => nofun) fun _ _ _ => nofun

end Rules

/-! ## What the guest does for itself -/

section Guests

/-- The guest does something that cannot fail. -/
theorem changeGuest_agrees {x : Guest → α × Guest} (ht : World.Twin held w w')
    (hholds : ∀ g, w.guest = some g → ∀ i ∈ (x g).2.holds, i ∈ held ∨ i ∈ g.holds)
    (hlater : ∀ g, w.guest = some g → (x g).2.heap.InRange → g.Later (x g).2) :
    Agrees held w w' (changeGuest x) fun _ u u' => World.Alike held u u' := by
  refine Agrees.guest ht.alike fun g hg => ?_
  exact .ok rfl rfl (ht.withGuest hg (hholds g hg) (hlater g hg))

/-- The guest makes an object that holds what the call holds. -/
theorem changeGuest_alloc_agrees {o : GuestObject} (ht : World.Twin held w w')
    (ho : ∀ i ∈ o.holds, i ∈ held) :
    Agrees held w w' (changeGuest fun g => g.alloc o) fun _ u u' => World.Alike held u u' := by
  refine changeGuest_agrees ht (fun g _ i hi => ?_) fun g hg hin => ?_
  · exact (Guest.holds_alloc hi).imp (ho i) id
  · exact Guest.later_alloc (ht.ok.guest g hg).table o hin

/-- **The guest does something for itself**, or fails. -/
theorem tryGuest_agrees {x : Guest → Except BridgeError (α × Guest)} (ht : World.Twin held w w')
    (hx : ∀ g a g', x g = .ok (a, g') → g.Edits g') :
    Agrees held w w' (tryGuest x) fun _ u u' => World.Alike held u u' := by
  refine Agrees.askGuest ht.alike fun g a hg ha => ?_
  obtain ⟨a, g'⟩ := a
  have he := hx g a g' ha
  have hlater : g'.heap.InRange → g.Later g' := by
    intro hin
    have hr : Reaches .outer held w { w with guest := some g' } := he.reaches hg
    obtain ⟨g₀, hg₀, hl⟩ := hr.guest_later ht.ok rfl hin
    exact Option.some.inj (hg.symm.trans hg₀) ▸ hl
  exact .ok rfl rfl (ht.withGuest hg (fun i hi => .inr (he.holds hi)) hlater)

end Guests

/-! ## Making values -/

section Cells

theorem allocCell_agrees {c : Cell} (h : World.Alike ids w w') (hw : w.OK held) (hw' : w'.OK held)
    (hc : ∀ j ∈ c.holds, j ∈ ids) :
    Agrees held w w' (allocCell c) fun i u u' => World.Alike (i :: ids) u u' := by
  have hrun' : allocCell c held w' =
      .ok ⟨w.heap.next⟩ { w' with heap := (w'.heap.alloc c).2 } := by
    rw [← h.next]
    rfl
  exact .ok rfl hrun' (h.alloc hw hw' hc)

theorem allocObject_agrees {k : ObjectKind} {properties : OrderedMap String HostValue}
    (h : World.Alike ids w w') (hw : w.OK held) (hw' : w'.OK held) (hk : ∀ j ∈ k.holds, j ∈ ids)
    (hp : ∀ v ∈ properties.values, ∀ j ∈ v.holds, j ∈ ids) :
    Agrees held w w' (allocObject k properties) fun i u u' => World.Alike (i :: ids) u u' := by
  refine allocCell_agrees h hw hw' fun j hj => ?_
  rcases List.mem_append.1 hj with hj | hj
  · exact hk j hj
  · obtain ⟨v, hv, hj⟩ := List.mem_flatMap.1 hj
    exact hp v hv j hj

/-- An object that is the value made. What it was made from need not be held any more. -/
theorem allocObject_value_agrees {k : ObjectKind} {properties : OrderedMap String HostValue}
    (parts : List HostId) (h : World.Alike (parts ++ ids) w w') (hw : w.OK held) (hw' : w'.OK held)
    (hk : ∀ j ∈ k.holds, j ∈ parts) (hp : ∀ v ∈ properties.values, ∀ j ∈ v.holds, j ∈ parts) :
    Agrees held w w' (do return HostValue.object (← allocObject k properties)) fun v u u' =>
      World.Alike (v.holds ++ ids) u u' := by
  refine (allocObject_agrees h hw hw' (fun j hj => List.mem_append_left _ (hk j hj))
    fun v hv j hj => List.mem_append_left _ (hp v hv j hj)).bind fun i _ _ _ _ halike => ?_
  refine Agrees.pure (halike.mono fun j hj => ?_)
  rcases List.mem_append.1 hj with hj | hj
  · exact List.mem_singleton.1 hj ▸ List.mem_cons_self
  · exact List.mem_cons_of_mem _ (List.mem_append_right _ hj)

theorem holds_shown {t : GuestValue} {i : HostId} (hi : i ∈ t.shown.holds) :
    i ∈ t.holds := by
  cases t with
  | external v => exact hi
  | ref k => cases k <;> cases hi
  | _ => cases hi

theorem variableValue_agrees (h : World.Alike ids w w') (name : String) :
    Agrees held w w' (variableValue name) fun t u u' => World.Alike (t.holds ++ ids) u u' := by
  have hrun' : variableValue name held w' =
      .ok ((w.bindings.find? name).getD (.external .undefined)) w' := by
    rw [← h.bindings]
    rfl
  refine .ok rfl hrun' (h.grow fun i hi => World.anchored_of_holds ?_)
  cases hf : w.bindings.find? name with
  | none => rw [hf] at hi; cases hi
  | some t =>
    rw [hf] at hi
    exact World.holds_binding (w := w.unlinked) (OrderedMap.mem_values_of_find? hf) hi

end Cells

end BridgeM

open BridgeM

section Read

variable {held ids : List HostId} {w w' : World}

mutual

/-- **Reading a description makes the same value in states that are alike.** -/
theorem HostExpr.read_agrees : ∀ (e : HostExpr) {ids : List HostId} {w w' : World},
    World.Alike ids w w' → w.OK held → w'.OK held →
    Agrees held w w' e.read fun v u u' => World.Alike (v.holds ++ ids) u u'
  | .undefined, _, _, _, h, _, _ | .null, _, _, _, h, _, _ | .bool _, _, _, _, h, _, _
  | .number _, _, _, _, h, _, _ | .bigint _, _, _, _, h, _, _ => Agrees.pure h
  | .string s, _, _, _, h, hw, hw' =>
    (allocCell_agrees h hw hw' (by simp [Cell.holds])).bind fun _ _ _ _ _ halike => Agrees.pure halike
  | .symbol d, _, _, _, h, hw, hw' =>
    (allocCell_agrees h hw hw' (by simp [Cell.holds])).bind fun _ _ _ _ _ halike => Agrees.pure halike
  | .object fields, _, _, _, h, hw, hw' => by
    rw [HostExpr.read]
    refine ((readFields_agrees fields h hw hw').along (readFields_quiet fields hw)
      (readFields_quiet fields hw')).bind ?_
    rintro properties u u' - - ⟨halike, ⟨hr, -⟩, hr', -⟩
    refine allocObject_value_agrees _ halike (hr.ok hw) (hr'.ok hw') (by simp [ObjectKind.holds]) ?_
    intro v hv j hj
    obtain ⟨key, hm⟩ := OrderedMap.mem_values_ofList hv
    exact List.mem_flatMap.2 ⟨_, hm, hj⟩
  | .function name body, _, _, _, h, hw, hw' => by
    rw [HostExpr.read]
    refine ((readBody_agrees body h hw hw').along (readBody_quiet body hw)
      (readBody_quiet body hw')).bind ?_
    rintro b u u' - - ⟨halike, ⟨hr, -⟩, hr', -⟩
    refine allocObject_value_agrees _ halike (hr.ok hw) (hr'.ok hw') ?_ (by simp [OrderedMap.values])
    simp [ObjectKind.holds, Behaviour.holds]
  | .constructor name call construct, _, _, _, h, hw, hw' => by
    rw [HostExpr.read]
    refine ((readBody_agrees call h hw hw').along (readBody_quiet call hw)
      (readBody_quiet call hw')).bind ?_
    rintro b u u' - - ⟨halike, ⟨hr, -⟩, hr', -⟩
    have hu := hr.ok hw
    have hu' := hr'.ok hw'
    refine ((readBody_agrees construct halike hu hu').along (readBody_quiet construct hu)
      (readBody_quiet construct hu')).bind ?_
    rintro c x x' - - ⟨halike, ⟨hr, -⟩, hr', -⟩
    rw [← List.append_assoc] at halike
    refine allocObject_value_agrees _ halike (hr.ok hu) (hr'.ok hu') ?_ (by simp [OrderedMap.values])
    intro j hj
    exact List.mem_append.2 (List.mem_append.1 hj).symm
  | .class name, ids, w, w', h, hw, hw' => by
    rw [HostExpr.read, synthesizeClass, bind_assoc]
    have hdefinition : ∀ j ∈ (Cell.definition { name := identifierOf name }).holds, j ∈ ids := by
      simp [Cell.holds, OrderedMap.values]
    have hmake : ∀ x : World, Leads (Reaches .quiet held) held x
        (allocCell (.definition { name := identifierOf name })) fun _ _ => True := fun x =>
      (allocCell_leads (by simp [Cell.parts, OrderedMap.values]) (by simp [Cell.weakLinks]) rfl).imp
        fun _ _ _ _ => trivial
    refine ((allocCell_agrees h hw hw' hdefinition).along (hmake w) (hmake w')).bind ?_
    rintro d u u' - - ⟨halike, ⟨hr, -⟩, hr', -⟩
    exact allocObject_value_agrees [d] halike (hr.ok hw) (hr'.ok hw')
      (by simp [ObjectKind.holds]) (by simp [OrderedMap.values])
  | .variable name, _, _, _, h, _, _ =>
    (variableValue_agrees h name).bind fun t _ _ _ _ halike => Agrees.pure <|
      halike.mono fun j hj => (List.mem_append.1 hj).elim
        (fun hj => List.mem_append_left _ (holds_shown hj)) (List.mem_append_right _)

theorem readFields_agrees : ∀ (fields : List (String × HostExpr)) {ids : List HostId}
    {w w' : World}, World.Alike ids w w' → w.OK held → w'.OK held →
    Agrees held w w' (readFields fields) fun ps u u' =>
      World.Alike ((ps.flatMap fun p => p.2.holds) ++ ids) u u'
  | [], _, _, _, h, _, _ => Agrees.pure h
  | field :: fields, _, _, _, h, hw, hw' => by
    rw [readFields]
    refine ((readField_agrees field h hw hw').along (readField_quiet field hw)
      (readField_quiet field hw')).bind ?_
    rintro p u u' - - ⟨halike, ⟨hr, -⟩, hr', -⟩
    refine (readFields_agrees fields halike (hr.ok hw) (hr'.ok hw')).bind ?_
    rintro ps x x' - - halike
    refine Agrees.pure (halike.mono fun j hj => ?_)
    simp only [List.flatMap_cons, List.mem_append] at hj ⊢
    tauto

theorem readField_agrees : ∀ (field : String × HostExpr) {ids : List HostId} {w w' : World},
    World.Alike ids w w' → w.OK held → w'.OK held →
    Agrees held w w' (readField field) fun p u u' => World.Alike (p.2.holds ++ ids) u u'
  | (_, e), _, _, _, h, hw, hw' =>
    (HostExpr.read_agrees e h hw hw').bind fun _ _ _ _ _ halike => Agrees.pure halike

theorem readBody_agrees : ∀ (body : Body HostExpr GuestExpr) {ids : List HostId} {w w' : World},
    World.Alike ids w w' → w.OK held → w'.OK held →
    Agrees held w w' (readBody body) fun b u u' => World.Alike (b.holds ++ ids) u u'
  | .const e, _, _, _, h, hw, hw' =>
    (HostExpr.read_agrees e h hw hw').bind fun _ _ _ _ _ halike => Agrees.pure halike
  | .undefined, _, _, _, h, _, _ | .this, _, _, _, h, _, _ | .argument _, _, _, _, h, _, _
  | .argumentCount, _, _, _, h, _, _ | .join, _, _, _, h, _, _ | .sum, _, _, _, h, _, _
  | .fail _, _, _, _, h, _, _ | .get _, _, _, _, h, _, _ | .make _, _, _, _, h, _, _
  | .load _, _, _, _, h, _, _ | .save _, _, _, _, h, _, _ | .apply, _, _, _, h, _, _
  | .callImport _ _, _, _, _, h, _, _ => Agrees.pure h

end

/-- Reading a description makes a value that a call may hold. -/
theorem HostExpr.read_twins (e : HostExpr) (ht : World.Twin held w w') :
    Agrees held w w' e.read fun v u u' => World.Twin (v.holds ++ held) u u' ∧
      u.heap.Backs (.value v) ∧ u'.heap.Backs (.value v) :=
  Agrees.twins HostValue.holds ht (e.read_agrees ht.alike ht.ok ht.ok') (e.read_quiet ht.ok)
    (e.read_quiet ht.ok') (fun _ _ => Heap.Backs.isAlive) fun _ _ => Heap.Backs.isAlive

/-- **Reading a guest value's description makes the same value in states that are alike.** -/
theorem GuestExpr.read_twins (e : GuestExpr) (ht : World.Twin held w w') :
    Agrees held w w' e.read fun t u u' => World.Twin (t.holds ++ held) u u' ∧
      (∀ p ∈ t.parts, u.heap.Backs p) ∧ ∀ p ∈ t.parts, u'.heap.Backs p := by
  have h := ht.alike
  refine Agrees.twins GuestValue.holds ht ?_ (e.read_quiet ht.ok) (e.read_quiet ht.ok')
    (fun _ _ => Heap.isAlive_of_guestValue) fun _ _ => Heap.isAlive_of_guestValue
  cases e with
  | external e =>
    exact (e.read_agrees h ht.ok ht.ok').bind fun _ _ _ _ _ halike => Agrees.pure halike
  | entry name body =>
    exact (readBody_agrees body h ht.ok ht.ok').bind fun _ _ _ _ _ halike => Agrees.pure halike
  | «variable» name => exact variableValue_agrees h name
  | text s =>
    have halloc := changeGuest_alloc_agrees (o := .string (Text.encode s).toArray) ht
      (by simp [GuestObject.holds])
    exact halloc.bind fun _ _ _ _ _ halike => Agrees.pure halike
  | _ => exact Agrees.pure h

namespace BridgeM

variable {α : Type} {S : α → World → World → Prop}

/-- A host value is read, and held during what is done with it. -/
theorem withHost_agrees {e : HostExpr} {act : HostValue → BridgeM α} (ht : World.Twin held w w')
    (hact : ∀ v u u', e.read held w = .ok v u → World.Twin (v.holds ++ held) u u' →
      u.heap.Backs (.value v) → u'.heap.Backs (.value v) → Agrees (v.holds ++ held) u u' (act v) S) :
    Agrees held w w' (withHost e act) S :=
  (e.read_twins ht).bind fun v u u' run _ ⟨hu, hv, hv'⟩ =>
    Agrees.holding (hact v u u' run hu hv hv')

/-- A guest value is read, and held during what is done with it. -/
theorem withGuest_agrees {e : GuestExpr} {act : GuestValue → BridgeM α} (ht : World.Twin held w w')
    (hact : ∀ t u u', e.read held w = .ok t u → World.Twin (t.holds ++ held) u u' →
      Agrees (t.holds ++ held) u u' (act t) S) :
    Agrees held w w' (withGuest e act) S :=
  (e.read_twins ht).bind fun t u u' run _ ⟨hu, _⟩ => Agrees.holding (hact t u u' run hu)

theorem handleFrom_agrees (ht : World.Twin held w w') (e : GuestExpr) :
    Agrees held w w' (handleFrom e) fun _ u u' => World.Twin held u u' := by
  refine (e.read_twins ht).bind fun t u u' _ _ ⟨hu, _⟩ => ?_
  have hu := hu.mono fun _ => List.mem_append_right _
  refine (Agrees.ofExcept (Q := fun _ => World.Twin held) hu.alike fun _ _ => hu).bind
    fun k x x' _ _ hx => ?_
  split
  · exact Agrees.pure hx
  · exact Agrees.throw hx.alike

end BridgeM

end Read

end GuestBridge
