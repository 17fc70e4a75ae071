import GuestBridge.Proofs.Agrees

/-!
# Crossings do not see collections

A crossing looks up links and hashes of values that are held, and of handles that are live,
and states that are alike agree about these. It also counts, and may start a collection, and
a collection leaves a state that is alike. So a crossing is *blind* (`Blind`): its runs in
states that are alike agree.

* `collectGarbage_alike`: **a collection that has nothing to give notice of** leaves a state
  that is alike.
* `wrap_blind`, `hashCode_blind`: **wraps and hashes are blind.**
* `unwrap_agrees`: **so are unwraps of live handles.**
-/

namespace GuestBridge

namespace World

variable {held : List HostId} {w w' u : World} {v : HostValue} {l : Lookup} {k : Handle}

/-- The range of the guest's table is a matter of the guest. -/
theorem InRange.of_guest (hin : u.InRange) (hg : u.guest = w.guest) : w.InRange :=
  fun g h => hin g (hg.trans h)

/-- The guest goes on to cross back in both states. -/
theorem Twin.woken (ht : Twin held w w') {g : Guest} (hg : w.guest = some g) :
    Twin held w.woken w'.woken := by
  have hg' := ht.alike.guest.trans hg
  rw [woken_of_guest hg, woken_of_guest hg']
  exact ht.reaches (ℓ := .quiet) (Reaches.quiet (.reenter hg)) (Reaches.quiet (.reenter hg'))
    (ht.withGuest hg (fun i hi => .inr hi) (Guest.later_of_same rfl))

/-! ## What is looked up -/

section Lookups

/-- **The handle recorded for a value that is held is the same.** -/
theorem Alike.find?_eq (h : Alike held w w') (hw : w.OK held) (hin : w.InRange)
    (hl : Lookup.of? v = some l) (hv : ∀ i ∈ v.holds, i ∈ held) :
    w'.context.registry.find? w'.isLive l = w.context.registry.find? w.isLive l := by
  rw [h.isLive]
  refine (h.links hin).find?_eq ?_
  rintro x rfl
  obtain ⟨rfl, -⟩ := Lookup.eq_toValue hl
  have hx := hv _ x.id_mem_holds
  exact isAlive_firm_of_held h.nodup hx (hw.held _ hx)

/-- **The handle of a value that is held is the same.** -/
theorem Alike.handle?_eq (h : Alike held w w') (hw : w.OK held) (hin : w.InRange)
    (hv : ∀ i ∈ v.holds, i ∈ held) : w'.handle? v = w.handle? v := by
  have hinstance : v.object?.bind w'.heap.wrappedHandle? = v.object?.bind w.heap.wrappedHandle? := by
    cases hi : v.object? with
    | none => rfl
    | some i =>
      have hcell := h.cell?_eq (anchored_of_mem (hv i (HostValue.id_mem_holds hi)))
      rw [Option.bind_some, Option.bind_some, Heap.wrappedHandle?_eq, Heap.wrappedHandle?_eq, hcell]
  have hlinked : (Lookup.of? v).bind (w'.context.registry.find? w'.isLive) =
      (Lookup.of? v).bind (w.context.registry.find? w.isLive) := by
    cases hl : Lookup.of? v with
    | none => rfl
    | some l => exact h.find?_eq hw hin hl hv
  rw [World.handle?, World.handle?, hinstance, hlinked]

/-- A handle resolves to what is firm. -/
theorem resolve?_firm (hw : w.OK held) (k : Handle) :
    w.context.registry.resolve? (w.settled held).heap.isAlive k =
      w.context.registry.resolve? (w.firm held).isAlive k := by
  unfold Registry.resolve?
  cases hb : w.context.registry.guestLinks.find? k with
  | none => rfl
  | some b =>
    cases b with
    | primitive x => rfl
    | weak x =>
      have hx := hw.context.registry.backlinks _ (OrderedMap.mem_values_of_find? hb)
      have hiff := isAlive_firm_iff hw hx.1 hx.2
      have halive : (w.settled held).heap.isAlive x.id = (w.firm held).isAlive x.id :=
        Bool.eq_iff_iff.2 hiff.symm
      simp only [halive]

/-- **A live handle resolves to the same value.** -/
theorem Alike.resolve?_eq (h : Alike held w w') (hw : w.OK held) (hw' : w'.OK held)
    (hin : w.InRange) (hk : w.isLive k) :
    w'.context.registry.resolve? (w'.settled held).heap.isAlive k =
      w.context.registry.resolve? (w.settled held).heap.isAlive k := by
  rw [resolve?_firm hw, resolve?_firm hw', h.isAlive]
  exact (h.links hin).resolve?_eq hk

/-- What a live handle resolves to is firm, or the guest holds it. -/
theorem anchored_of_resolve? (hw : w.OK held) (hl : w.Linked) (hin : w.InRange) (hk : w.isLive k)
    (hv : w.context.registry.resolve? (w.settled held).heap.isAlive k = some v) :
    ∀ i ∈ v.holds, w.Anchored held i := by
  intro i hi
  rw [resolve?_firm hw, Registry.resolve?] at hv
  cases hb : w.context.registry.guestLinks.find? k with
  | none => rw [hb] at hv; cases hv
  | some b =>
    rw [hb] at hv
    -- a weak link leads to something only while it is firm; a content is held by its guest object
    cases b with
    | weak x =>
      dsimp only at hv
      split_ifs at hv with hx
      obtain rfl := Option.some.inj hv
      obtain rfl : i = x.id := by cases x <;> exact List.mem_singleton.1 hi
      exact anchored_of_isAlive hw.heap.nodup hx
    | primitive x =>
      obtain rfl := Option.some.inj hv
      obtain ⟨g, hg, ho⟩ := hl.stores hin hk hb
      have hholds := Guest.holds_object (HandleTable.stores_of_get? ho) hi
      exact anchored_of_holds (World.holds_guest (w := w.unlinked) hg hholds)

end Lookups

end World

namespace BridgeM

variable {α β : Type} {held : List HostId} {w w' : World} {v : HostValue} {l : Lookup} {k : Handle}
  {act : BridgeM α} {f : α → BridgeM β} {rewrap : HostValue → BridgeM Unit}

/-! ## Where an action ends -/

section Ends

/-- An action ends in range if what comes after it does, and cannot bring the table back in
range. -/
theorem inRange_of_final_bind (hin : (final (act >>= f) held w).InRange)
    (hf : ∀ a u, act held w = .ok a u → (final (f a) held u).InRange → u.InRange) :
    (final act held w).InRange := by
  cases ha : act held w with
  | ok a u =>
    rw [final_bind ha] at hin
    rw [final_of_ok ha]
    exact hf a u ha hin
  | error e u =>
    unfold final at hin ⊢
    rw [bind_run, ha] at hin
    rw [ha]
    exact hin

theorem final_discard (act : BridgeM α) (held : List HostId) (w : World) :
    final (discard act) held w = final act held w := by
  change final (act >>= fun _ => pure ()) held w = _
  unfold final
  rw [bind_run]
  cases act held w <;> rfl

theorem final_linkNew_guest (l : Lookup) (v : HostValue) (k : Handle) (held : List HostId)
    (w : World) : (final (linkNew l v k) held w).guest = w.guest := by
  cases hf : w.context.registry.find? w.isLive l with
  | some j => rw [final_of_ok (linkNew_run_of_linked held hf)]
  | none => rw [final_of_ok (linkNew_run_of_none held hf)]

end Ends

/-! ## Counting a crossing -/

section Track

/-- **A collection that has nothing to give notice of leaves a state that is alike.** -/
theorem collectGarbage_alike (hw : w.OK held) (hi : w.Idle) :
    ∃ r u, collectGarbage held w = .ok r u ∧ World.Alike held w u := by
  have hnone : w.context.watched.filter
      (fun x => !(w.settled held).heap.isAlive x.target.id) = [] := by
    rw [hi.watched, List.filter_nil]
  have hdeliver : deliverAll {} (w.context.watched.filter fun x =>
      !(w.settled held).heap.isAlive x.target.id) held (w.polled held) =
        .ok {} (w.polled held) := by
    rw [hnone]
    rfl
  obtain ⟨r, hrun, -⟩ := collectGarbage_run_of_deliver hi.collecting hdeliver
  exact ⟨r, _, hrun, World.alike_pass hw hi⟩

/-- **Counting a crossing leaves a state that is alike**, whether it starts a collection or not. -/
theorem trackCrossing_alike (hw : w.OK held) (hi : w.Idle) :
    ∃ u, trackCrossing held w = .ok () u ∧ World.Alike held w u := by
  by_cases hlt : w.context.crossings + 1 < collectInterval
  · exact ⟨_, trackCrossing_run_of_lt held (.inl hlt), World.alike_recount hi hw.heap.nodup _ held⟩
  · obtain ⟨r, u, hrun, halike⟩ := collectGarbage_alike hw hi
    refine ⟨u, ?_, halike⟩
    unfold trackCrossing
    rw [bind_run, get_run]
    dsimp only
    rw [if_neg (by simp [hlt, hi.collecting])]
    exact discard_run_of_ok hrun

/-- A crossing may start a collection in one state and none in the other. -/
theorem trackCrossing_twins (ht : World.Twin held w w') :
    ∃ u u', trackCrossing held w = .ok () u ∧ trackCrossing held w' = .ok () u' ∧
      Reaches .crossing held w u ∧ Reaches .crossing held w' u' ∧ World.Twin held u u' ∧
      u.guest = w.guest := by
  obtain ⟨u, hrun, hu⟩ := trackCrossing_alike ht.ok ht.alike.idle
  obtain ⟨u', hrun', hu'⟩ := trackCrossing_alike ht.ok' ht.alike.idle'
  have htracks := trackCrossing_tracks (ℓ := .crossing) (by decide)
  have hmoves := ((htracks held w ht.ok).ok hrun).1
  have hmoves' := ((htracks held w' ht.ok').ok hrun').1
  have halike := (hu.symm.trans ht.alike).trans hu'
  exact ⟨u, u', hrun, hrun', hmoves, hmoves', ht.reaches hmoves hmoves' halike, hu.guest⟩

end Track

/-! ## Wraps -/

section Wraps

/-- **An action on a value that is held is blind**: in states that are alike its runs agree, as long
as the guest's table is in range after it. -/
def Blind (act : HostValue → BridgeM α) : Prop :=
  ∀ held w w' v, World.Twin held w w' → w.heap.Backs (.value v) → w'.heap.Backs (.value v) →
    (∀ i ∈ v.holds, i ∈ held) → (final (act v) held w).InRange →
    Agrees held w w' (act v) fun _ u u' => World.Alike held u u'

theorem Blind.discard {act : HostValue → BridgeM α} (h : Blind act) :
    Blind fun v => discard (act v) := by
  intro held w w' v ht hv hv' hheld hin
  rw [final_discard] at hin
  exact (h held w w' v ht hv hv' hheld hin).discard fun _ _ _ => id

theorem blind_pure : Blind fun _ => (pure () : BridgeM Unit) :=
  fun _ _ _ _ ht _ _ _ _ => Agrees.pure ht.alike

/-- The last step of a wrap finds the same link, or makes it. -/
theorem linkNew_agrees (h : World.Alike held w w') (hw : w.OK held) (hin : w.InRange)
    (hl : Lookup.of? v = some l) (hv : ∀ i ∈ v.holds, i ∈ held) :
    Agrees held w w' (linkNew l v k) fun _ u u' => World.Alike held u u' := by
  have hfind := h.find?_eq hw hin hl hv
  cases hf : w.context.registry.find? w.isLive l with
  | some j =>
    exact .ok (linkNew_run_of_linked held hf) (linkNew_run_of_linked held (hfind.trans hf)) h
  | none =>
    exact .ok (linkNew_run_of_none held hf) (linkNew_run_of_none held (hfind.trans hf))
      (h.relink fun hin => (h.links hin).record l v k)

/-- The guest crosses back before it makes the wrapper. -/
theorem crossBack_agrees (hr : Takes .crossing rewrap) (hblind : Blind rewrap)
    (ht : World.Twin held w w') (hv : w.heap.Backs (.value v)) (hv' : w'.heap.Backs (.value v))
    (hheld : ∀ i ∈ v.holds, i ∈ held)
    (hin : (final (rewrap v >>= fun _ => changeGuest fun g => g.alloc (.wrapper v)) held w).InRange) :
    Agrees held w w' (rewrap v >>= fun _ => changeGuest fun g => g.alloc (.wrapper v))
      fun _ u u' => World.Alike held u u' := by
  have hmoves := hr held w v ht.ok hv
  -- the table only grows, so it is in range already when the guest has crossed back
  have hback : (final (rewrap v) held w).InRange := by
    refine inRange_of_final_bind hin fun _ u run hin => ?_
    have hu := (hmoves.ok run).1
    have hlast : Leads (Reaches .crossing held) held u
        (changeGuest fun g => g.alloc (.wrapper v)) _ :=
      changeGuest_alloc_leads (by simpa [GuestObject.parts] using hu.backs ht.ok hv hheld)
    exact hlast.final.inRange_of_crossing (hu.ok ht.ok) hin
  refine (Agrees.twin ht (hblind held _ _ v ht hv hv' hheld hback) hmoves
    (hr held w' v ht.ok' hv')).bind fun _ _ _ _ _ h => ?_
  exact changeGuest_alloc_agrees h.1 hheld

/-- The guest makes the same wrapper, whether it crosses back or not. -/
theorem createWrapper_agrees (hr : Takes .crossing rewrap) (hblind : Blind rewrap)
    (ht : World.Twin held w w') (hv : w.heap.Backs (.value v)) (hv' : w'.heap.Backs (.value v))
    (hheld : ∀ i ∈ v.holds, i ∈ held) (hin : (final (createWrapper rewrap v) held w).InRange) :
    Agrees held w w' (createWrapper rewrap v) fun _ u u' => World.Alike held u u' := by
  cases hg : w.guest with
  | none =>
    have hg' := ht.alike.guest.trans hg
    exact .error (createWrapper_run_of_no_guest rewrap held hg)
      (createWrapper_run_of_no_guest rewrap held hg') ht.alike
  | some g =>
    have hg' := ht.alike.guest.trans hg
    -- the guest is the same, and so is what its mode makes it do
    cases hrefuse : g.mode.refuse with
    | true =>
      exact .error (createWrapper_run_of_refuse _ held hg hrefuse)
        (createWrapper_run_of_refuse _ held hg' hrefuse) ht.alike
    | false =>
      cases hreenter : g.mode.reenter with
      | false =>
        have hlater : (g.alloc (.wrapper v)).2.heap.InRange → g.Later (g.alloc (.wrapper v)).2 :=
          Guest.later_alloc (ht.ok.guest g hg).table _
        exact .ok (createWrapper_run _ held hg hrefuse hreenter)
          (createWrapper_run _ held hg' hrefuse hreenter)
          (ht.withGuest hg (fun i hi => (Guest.holds_alloc hi).imp (hheld i) id) hlater)
      | true =>
        have hrun := createWrapper_run_crossingBack (v := v) rewrap held hg hrefuse hreenter
        have hrun' := createWrapper_run_crossingBack (v := v) rewrap held hg' hrefuse hreenter
        rw [final, hrun] at hin
        exact (crossBack_agrees hr hblind (ht.woken hg) hv hv' hheld hin).of_run hrun hrun'

/-- **The handle of a value is the same**, whether it has one or is given one. -/
theorem handleOf_agrees (hr : Takes .crossing rewrap) (hblind : Blind rewrap)
    (ht : World.Twin held w w') (hv : w.heap.Backs (.value v)) (hv' : w'.heap.Backs (.value v))
    (hheld : ∀ i ∈ v.holds, i ∈ held)
    (hin : (final (handleOf (createWrapper rewrap) v) held w).InRange) :
    Agrees held w w' (handleOf (createWrapper rewrap) v) fun _ u u' => World.Alike held u u' := by
  have hin₀ := (handleOf_leads ht.ok hv hheld hr).final.inRange_of_crossing ht.ok hin
  have hsame := ht.alike.handle?_eq ht.ok hin₀ hheld
  cases hk : w.handle? v with
  | some k =>
    exact .ok (handleOf_run_of_handle? _ held hk) (handleOf_run_of_handle? _ held (hsame.trans hk))
      ht.alike
  | none =>
    have hk' := hsame.trans hk
    cases hl : Lookup.of? v with
    | none =>
      exact .ok (handleOf_run_of_not_linked _ held hl hk) (handleOf_run_of_not_linked _ held hl hk')
        ht.alike
    | some l =>
      have hrun := handleOf_run_of_none (createWrapper rewrap) held hl hk
      refine Agrees.of_run ?_ hrun (handleOf_run_of_none _ held hl hk')
      -- a link is no matter of the guest, so the table is in range before it is made
      have hin₁ : (final (createWrapper rewrap v) held w).InRange := by
        have hin' : (final (createWrapper rewrap v >>= linkNew l v) held w).InRange := by
          rw [final, ← hrun]
          exact hin
        exact inRange_of_final_bind hin' fun k u _ hin =>
          hin.of_guest (final_linkNew_guest l v k held u)
      refine (Agrees.twin ht (createWrapper_agrees hr hblind ht hv hv' hheld hin₁)
        (createWrapper_leads ht.ok hv hheld hr) (createWrapper_leads ht.ok' hv' hheld hr)).bind
        fun k u u' run _ h => ?_
      rw [final_of_ok run] at hin₁
      exact linkNew_agrees h.1.alike h.1.ok hin₁ hl hheld

/-- A wrap is blind if what the guest does when it crosses back is. -/
theorem wrapWith_blind (hr : Takes .crossing rewrap) (hblind : Blind rewrap) :
    Blind (wrapWith trackCrossing (createWrapper rewrap)) := by
  intro held w w' v ht hv hv' hheld hin
  have hsub : ∀ i ∈ v.holds ++ held, i ∈ held := fun i hi => (List.mem_append.1 hi).elim (hheld i) id
  have hheld' : ∀ i ∈ v.holds, i ∈ v.holds ++ held := fun i hi => List.mem_append_left _ hi
  have ht := ht.mono hsub
  -- the count may start a collection in either state: the rest goes from the states after it
  obtain ⟨u, u', run, run', hmoves, hmoves', hu, -⟩ := trackCrossing_twins ht
  refine Agrees.holding (Agrees.after run run' (Agrees.guest hu.alike fun g hg => ?_))
  have hhandle := handleOf_agrees hr hblind hu (hmoves.backs ht.ok hv hheld')
    (hmoves'.backs ht.ok' hv' hheld') hheld' ?_
  · exact hhandle.imp fun _ _ _ _ _ halike => halike.mono fun _ => List.mem_append_right _
  · have hend : final (wrapWith trackCrossing (createWrapper rewrap) v) held w =
        final (handleOf (createWrapper rewrap) v) (v.holds ++ held) u :=
      (final_bind run).trans (final_bind (guest_run_of_some hg _))
    rwa [← hend]

/-- **Wraps are blind**, those of a guest that crosses back included. -/
theorem wrap_blind : Blind wrap := by
  have htrack := trackCrossing_tracks (ℓ := .crossing) (by decide)
  have hagain := wrapWith_blind takes_pure blind_pure
  exact wrapWith_blind (wrapWith_leads htrack takes_pure).discard hagain.discard

end Wraps

/-! ## Hashes -/

section Hashes

/-- **Hashes are blind.** -/
theorem hashCode_blind : Blind hashCode := by
  intro held w w' v ht hv hv' hheld _
  cases hr : v.identity? with
  | none =>
    have hprimitive : (w'.context.hasher.hash v).1 = (w.context.hasher.hash v).1 := by
      cases v <;> first | rfl | cases hr
    have hrun' := hashCode_run_of_primitive hr held w'
    rw [hprimitive] at hrun'
    exact .ok (hashCode_run_of_primitive hr held w) hrun' ht.alike
  | some r =>
    have hsub : ∀ i ∈ v.holds ++ held, i ∈ held := fun i hi => (List.mem_append.1 hi).elim (hheld i) id
    have hid : r.id ∈ v.holds ++ held := by
      cases v <;> cases hr <;> exact List.mem_cons_self
    obtain ⟨u, u', run, run', -, -, hu, -⟩ := trackCrossing_twins (ht.mono hsub)
    -- hashes agree about what is firm, and the call holds the value
    have hfirm := World.isAlive_firm_of_held hu.alike.nodup hid (hu.ok.held _ hid)
    obtain ⟨hcode, halike⟩ := hu.alike.rehash hfirm
    have hrun' := hashCode_run_of_identity hr run'
    rw [hcode] at hrun'
    exact .ok (hashCode_run_of_identity hr run) hrun' (halike.mono fun _ => List.mem_append_right _)

end Hashes

/-! ## Unwraps -/

section Unwraps

variable {class_ d : HostId}

/-- What the class that a call holds holds. -/
theorem anchored_of_classDefinition? (hn : w.heap.cells.keys.Nodup) (hc : class_ ∈ held)
    (hd : w.heap.classDefinition? class_ = some d) : w.Anchored held d := by
  obtain ⟨o, ho, hkind⟩ := Heap.classDefinition?_eq_some_iff.1 hd
  have hfirm := (World.anchored_of_mem (w := w) hc).firm hn ho
  refine .inr ⟨class_, _, hfirm, List.mem_append_left _ ?_⟩
  rw [hkind]
  exact List.mem_singleton_self _

/-- A look-up that may have reclaimed leaves a state that is alike. -/
theorem alike_of_read {u : World} (hw : w.OK held) (hi : w.Idle) (hu : u = w ∨ u = w.settled held) :
    World.Alike held w u ∧ u.OK held := by
  rcases hu with rfl | rfl
  · exact ⟨.refl hi hw.heap.nodup held, hw⟩
  · exact ⟨World.alike_settled hi hw.heap.nodup held,
      (Reaches.settled (ℓ := .crossing) (by decide) w held).ok hw⟩

/-- **The value of a live handle is the same**: the one that it has, or a new wrapper instance. -/
theorem valueOf_agrees (ht : World.Twin held w w') (hin : w.InRange) (hk : w.isLive k)
    (hc : class_ ∈ held) :
    Agrees held w w' (valueOf k class_) fun v u u' => World.Alike (v.holds ++ held) u u' := by
  have hcell := ht.alike.cell?_eq (World.anchored_of_mem hc)
  have hclass : w'.heap.classDefinition? class_ = w.heap.classDefinition? class_ := by
    simp only [Heap.classDefinition?, Heap.object?, hcell]
  cases hd : w.heap.classDefinition? class_ with
  | none =>
    have hrun' := valueOf_run_of_not_class k held (hclass.trans hd)
    have hkind : w'.heap.kind (.object class_) = w.heap.kind (.object class_) := by
      simp only [Heap.kind, Heap.object?, hcell]
    rw [hkind] at hrun'
    exact .error (valueOf_run_of_not_class k held hd) hrun' ht.alike
  | some d =>
    obtain ⟨u, hu, hrun⟩ := valueOf_run k held hd
    obtain ⟨u', hu', hrun'⟩ := valueOf_run k held (hclass.trans hd)
    obtain ⟨hwu, huok⟩ := alike_of_read ht.ok ht.alike.idle hu
    obtain ⟨hwu', huok'⟩ := alike_of_read ht.ok' ht.alike.idle' hu'
    have halike := (hwu.symm.trans ht.alike).trans hwu'
    rw [ht.alike.resolve?_eq ht.ok ht.ok' hin hk, ht.alike.isLive, halike.next] at hrun'
    cases hv : w.context.registry.resolve? (w.settled held).heap.isAlive k with
    | some v =>
      rw [hv] at hrun hrun'
      have hanchored := World.anchored_of_resolve? ht.ok ht.linked hin hk hv
      exact .ok hrun hrun' (halike.grow fun i hi => hwu.anchored (hanchored i hi))
    | none =>
      rw [hv] at hrun hrun'
      dsimp only at hrun hrun'
      rw [if_pos hk] at hrun hrun'
      -- the definition is held by the class, and so need not be held by the call
      have hdefinition := hwu.anchored (anchored_of_classDefinition? ht.ok.heap.nodup hc hd)
      have hgrown : World.Alike ([d] ++ held) u u' :=
        halike.grow fun i hi => List.mem_singleton.1 hi ▸ hdefinition
      have hmade := hgrown.alloc (c := .object { kind := .wrapper d k }) huok huok'
        (by simp [Cell.holds, ObjectKind.holds, OrderedMap.values])
      have hlinked := hmade.relink fun hin => (hmade.links hin).recordWrapper k ⟨u.heap.next⟩
      refine .ok hrun hrun' (hlinked.mono fun i hi => ?_)
      rcases List.mem_append.1 hi with hi | hi
      · exact List.mem_singleton.1 hi ▸ List.mem_cons_self
      · exact List.mem_cons_of_mem _ (List.mem_append_right _ hi)

/-- **The unwrap of a live handle gives the same value** in states that are alike, as long as the
guest's table is in range after it. -/
theorem unwrap_agrees (ht : World.Twin held w w') (hc : class_ ∈ held) {k : Option Handle}
    (hk : ∀ h, k = some h → w.isLive h) (hin : (final (unwrap k class_) held w).InRange) :
    Agrees held w w' (unwrap k class_) fun v u u' => World.Alike (v.holds ++ held) u u' := by
  have hsub : ∀ i ∈ [class_] ++ held, i ∈ held := fun i hi =>
    (List.mem_append.1 hi).elim (fun hi => List.mem_singleton.1 hi ▸ hc) id
  obtain ⟨u, u', run, run', -, -, hu, hguest⟩ := trackCrossing_twins (ht.mono hsub)
  refine Agrees.holding (Agrees.after run run' (Agrees.guest hu.alike fun g hg => ?_))
  cases k with
  | none => exact Agrees.pure (hu.alike.mono fun _ => List.mem_append_right _)
  | some h =>
    have hlive : u.isLive h := by
      rw [World.isLive, hguest]
      exact hk h rfl
    have hend : final (unwrap (some h) class_) held w = final (valueOf h class_) ([class_] ++ held) u :=
      (final_bind run).trans (final_bind (guest_run_of_some hg _))
    have hmoves := valueOf_leads (ℓ := .crossing) (by decide) hu.ok h List.mem_cons_self
    have hin₁ : u.InRange := hmoves.final.inRange_of_crossing hu.ok (hend ▸ hin)
    refine (valueOf_agrees hu hin₁ hlive List.mem_cons_self).imp fun v _ _ _ _ halike => ?_
    refine halike.mono fun i hi => ?_
    rcases List.mem_append.1 hi with hi | hi
    · exact List.mem_append_left _ hi
    · exact List.mem_append_right _ (List.mem_append_right _ hi)

end Unwraps

end BridgeM

end GuestBridge
