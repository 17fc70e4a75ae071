import GuestBridge.Proofs.Sessions

/-!
# What a collection does with the watches

A collection gives one notice for every watch whose target is dead when it polls, in the
order of the watch list, and counts what became of each. What the guest does meanwhile may
add watches and takes none away.

* `collectGarbage_succeeds`, `trackCrossing_succeeds`: a collection does not fail, and neither
  does the count of a crossing.
* `Reaches.told`: what a guest does while it takes a notice leaves the watches, the
  notices taken and the exports as they are, but for new watches.
* `report_crossings`: while a collection is going on, the guest's crossings are the ordinary
  ones: those find the collection going on and start no other.
* `collectGarbage_delivers`: **every dead target is given notice of exactly once.**
-/

namespace GuestBridge

/-- A notice: its channel and its token. -/
abbrev Notice := Channel × GuestValue

/-- The guest has taken the notices. Besides, watches may have been added. -/
structure World.Told (notices : List Notice) (w w' : World) : Prop where
  collecting : w'.context.collecting = w.context.collecting
  watched : w.context.watched <+: w'.context.watched
  guest : ∀ g, w.guest = some g → ∃ g', w'.guest = some g' ∧
    g'.reports.toList = g.reports.toList ++ notices ∧ ∀ e, g'.provides e = g.provides e

/-- The state after a sweep in a call that holds `held`. -/
def World.swept (w : World) (held : List HostId) : World :=
  { w.settled held with
    context := { w.context with
      registry := w.context.registry.sweep (w.settled held).heap.isAlive w.isLive
      hasher := w.context.hasher.sweep (w.settled held).heap.isAlive } }

/-- A collection begins: the watches whose target is dead are taken off the list. -/
def World.polled (w : World) (held : List HostId) : World :=
  { w.settled held with
    context := { w.context with
      collecting := true
      crossings := 0
      watched := w.context.watched.filter fun x => (w.settled held).heap.isAlive x.target.id } }

variable {held : List HostId} {w w' w'' : World} {notices notices' : List Notice}

theorem World.Told.refl (w : World) : w.Told [] w :=
  ⟨rfl, List.prefix_refl _, fun g hg => ⟨g, hg, (List.append_nil _).symm, fun _ => rfl⟩⟩

theorem World.Told.trans (h : w.Told notices w') (h' : w'.Told notices' w'') :
    w.Told (notices ++ notices') w'' where
  collecting := h'.collecting.trans h.collecting
  watched := h.watched.trans h'.watched
  guest g hg := by
    obtain ⟨g', hg', hr, he⟩ := h.guest g hg
    obtain ⟨g'', hg'', hr', he'⟩ := h'.guest g' hg'
    exact ⟨g'', hg'', by rw [hr', hr, List.append_assoc], fun e => (he' e).trans (he e)⟩

theorem Quiet.told (m : Quiet w w') : w.Told [] w' := by
  have same : ∀ {g g' : Guest}, w.guest = some g → g'.reports = g.reports →
      (∀ e, g'.provides e = g.provides e) → ∀ g₀, w.guest = some g₀ → ∃ g₁, some g' = some g₁ ∧
        g₁.reports.toList = g₀.reports.toList ++ [] ∧ ∀ e, g₁.provides e = g₀.provides e := by
    intro g g' hg hr he g₀ hg₀
    obtain rfl := Option.some.inj (hg.symm.trans hg₀)
    exact ⟨g', rfl, by rw [hr, List.append_nil], he⟩
  have hrefl := World.Told.refl w
  cases m with
  | alloc guest | link guest | reenter guest =>
    exact ⟨rfl, List.prefix_refl _, same guest rfl fun _ => rfl⟩
  | watch => exact ⟨rfl, List.prefix_append _ _, hrefl.guest⟩
  | _ => exact ⟨rfl, List.prefix_refl _, hrefl.guest⟩

/-- **What a guest does while it takes a notice** adds watches at most. -/
theorem Reaches.told (hr : Reaches .quiet held w w') : w.Told [] w' := by
  induction hr with
  | refl => exact .refl _
  | tail _ m ih =>
    cases m with
    | quiet m => exact ih.trans m.told
    | cross hℓ => exact absurd rfl hℓ

/-- A watch leaves the watch list only when its target has died. -/
theorem Move.watched {ℓ : Level} (m : Move held ℓ w w') {x : Watch} (hx : x ∈ w.context.watched)
    (ha : w'.heap.isAlive x.target.id) : x ∈ w'.context.watched := by
  cases m with
  | quiet m =>
    cases m with
    | watch => exact List.mem_append_left _ hx
    | _ => exact hx
  | cross _ m =>
    cases m with
    | poll => exact List.mem_filter.2 ⟨hx, ha⟩
    | _ => exact hx
  | outer m => cases m <;> exact hx

/-- **A watch stays on the watch list while its target is alive.** -/
theorem Reaches.watched {ℓ : Level} (hr : Reaches ℓ held w w') (hw : w.OK held) {x : Watch}
    (hx : x ∈ w.context.watched) (ha : w'.heap.isAlive x.target.id) : x ∈ w'.context.watched := by
  induction hr with
  | refl => exact hx
  | tail hr m ih =>
    have hk := Reaches.knows hr hw (hw.context.targets x hx)
    have hlater := m.later (Reaches.ok hr hw).heap
    exact m.watched (ih (hlater.isAlive_of_isAlive hk.lt_next ha)) ha

namespace BridgeM

variable {α β : Type} {act : BridgeM α} {f f' : α → BridgeM β} {v : HostValue}

/-! ## Actions that do not fail -/

section Succeeds

/-- The action succeeds, whatever state it starts in. -/
def Succeeds (act : BridgeM α) : Prop := ∀ held w, ∃ a w', act held w = .ok a w'

theorem Succeeds.pure (a : α) : Succeeds (pure a : BridgeM α) := fun _ w => ⟨a, w, rfl⟩

theorem Succeeds.get : Succeeds (get : BridgeM World) := fun _ w => ⟨w, w, rfl⟩

theorem Succeeds.modify (f : World → World) : Succeeds (modify f : BridgeM Unit) :=
  fun _ w => ⟨(), f w, rfl⟩

theorem Succeeds.holding (h : Succeeds act) (ids : List HostId) : Succeeds (holding ids act) :=
  fun held w => h (ids ++ held) w

theorem Succeeds.attempt (act : BridgeM α) : Succeeds (attempt act) := by
  intro held w
  unfold BridgeM.attempt
  cases act held w with
  | ok a w' => exact ⟨_, _, rfl⟩
  | error e w' => exact ⟨_, _, rfl⟩

theorem Succeeds.bind (h : Succeeds act) (hf : ∀ a, Succeeds (f a)) : Succeeds (act >>= f) := by
  intro held w
  obtain ⟨a, w', ha⟩ := h held w
  rw [bind_run, ha]
  exact hf a held w'

theorem poll_succeeds : Succeeds poll := fun held w => ⟨_, _, poll_run held w⟩

theorem deliver_succeeds (r : CollectionReport) (x : Watch) : Succeeds (deliver r x) := by
  refine Succeeds.get.bind fun w => ?_
  split
  · exact .pure _
  · split
    · exact .pure _
    · refine (Succeeds.attempt _).bind fun result => ?_
      split <;> exact .pure _

theorem deliverAll_succeeds (r : CollectionReport) (xs : List Watch) :
    Succeeds (deliverAll r xs) := by
  induction xs generalizing r with
  | nil => exact .pure _
  | cons x xs ih => exact ((deliver_succeeds r x).holding _).bind fun r => ih r

/-- A sweep reports how many links and hashes it has removed. -/
theorem sweep_run_eq (r : CollectionReport) (held : List HostId) (w : World) :
    sweep r held w =
      let before := w.context.registry.counts
      let after := (w.swept held).context.registry.counts
      .ok { r with
          registry :=
            { hostLinks := before.hostLinks - after.hostLinks
              guestLinks := before.guestLinks - after.guestLinks
              primitives := before.primitives - after.primitives }
          hashes := w.context.hasher.assigned.size - (w.swept held).context.hasher.assigned.size }
        (w.swept held) := by
  unfold sweep
  rw [bind_run, aliveNow_run]
  dsimp only
  rw [bind_run, isLiveNow_run]
  rfl

theorem sweep_succeeds (r : CollectionReport) : Succeeds (sweep r) := fun held w =>
  ⟨_, _, sweep_run_eq r held w⟩

/-- **A collection does not fail.** -/
theorem collectGarbage_succeeds : Succeeds collectGarbage := by
  refine Succeeds.get.bind fun w => ?_
  split
  · exact .pure _
  · refine (Succeeds.modify _).bind fun _ => poll_succeeds.bind fun dead => ?_
    refine (deliverAll_succeeds _ dead).bind fun r => (sweep_succeeds r).bind fun r => ?_
    exact (Succeeds.modify _).bind fun _ => .pure _

/-- **The count of a crossing does not fail.** -/
theorem trackCrossing_succeeds : Succeeds trackCrossing := by
  refine Succeeds.get.bind fun w => ?_
  dsimp only
  split
  · exact .modify _
  · exact collectGarbage_succeeds.bind fun _ => .pure _

end Succeeds

/-! ## Crossings while a collection is going on -/

section Inside

/-- **A collection within a collection** does nothing. -/
theorem collectGarbage_run_of_collecting (held : List HostId) (hc : w.context.collecting = true) :
    collectGarbage held w = .ok {} w := by
  unfold collectGarbage
  rw [bind_run, get_run]
  dsimp only
  rw [if_pos hc]
  rfl

/-- A crossing within a collection is counted, and starts no other. -/
theorem trackCrossing_run_of_collecting (held : List HostId) (hc : w.context.collecting = true) :
    trackCrossing held w = tally held w := by
  unfold trackCrossing
  rw [bind_run, get_run]
  dsimp only
  rw [if_pos (.inr hc)]

/-- Actions on a value that are the same while a collection is going on. -/
def SameInside (act act' : HostValue → BridgeM α) : Prop :=
  ∀ held w v, w.OK held → w.heap.Backs (.value v) → w.context.collecting = true →
    act v held w = act' v held w

theorem bind_congr_run {act' : BridgeM α} (h : act held w = act' held w)
    (hf : ∀ a w', act held w = .ok a w' → f a held w' = f' a held w') :
    (act >>= f) held w = (act' >>= f') held w := by
  rw [bind_run, bind_run, ← h]
  cases ha : act held w with
  | ok a w' => exact hf a w' ha
  | error e w' => rfl

theorem attempt_congr_run {act' : BridgeM α} (h : act held w = act' held w) :
    attempt act held w = attempt act' held w := by
  rw [attempt, attempt, h]

theorem discard_congr_run {act' : BridgeM α} (h : act held w = act' held w) :
    discard act held w = discard act' held w := by
  change (act >>= fun _ => Pure.pure ()) held w = (act' >>= fun _ => Pure.pure ()) held w
  exact bind_congr_run h fun _ _ _ => rfl

theorem createWrapper_congr {rewrap rewrap' : HostValue → BridgeM Unit}
    (hr : SameInside rewrap rewrap') : SameInside (createWrapper rewrap) (createWrapper rewrap') := by
  intro held w v hw hv hc
  refine bind_congr_run rfl fun g w' hrun => ?_
  obtain ⟨rfl, hg⟩ : w = w' ∧ w.guest = some g := by
    rw [guest_run] at hrun
    cases he : w.guest <;> rw [he] at hrun <;> cases hrun
    exact ⟨rfl, rfl⟩
  dsimp only
  split
  · rfl
  · split
    · refine bind_congr_run rfl fun _ w₁ h₁ => ?_
      cases h₁
      exact bind_congr_run (hr held _ v ((Quiet.reenter hg).ok hw) hv hc) fun _ _ _ => rfl
    · rfl

theorem handleOf_congr {create create' : HostValue → BridgeM Handle}
    (h : create v held w = create' v held w) :
    handleOf create v held w = handleOf create' v held w := by
  unfold handleOf
  refine bind_congr_run rfl fun w₀ w₁ h₁ => ?_
  cases h₁
  cases v.object?.bind w.heap.wrappedHandle? with
  | some k => rfl
  | none =>
    dsimp only
    cases Lookup.of? v with
    | none => rfl
    | some l =>
      refine bind_congr_run rfl fun found w₁ h₁ => ?_
      rw [recordedHandle_run] at h₁
      cases h₁
      cases w.context.registry.find? w.isLive l with
      | some k => rfl
      | none => exact bind_congr_run h fun _ _ _ => rfl

theorem wrapWith_congr {create create' : HostValue → BridgeM Handle}
    (h : SameInside create create') :
    SameInside (wrapWith tally create) (wrapWith trackCrossing create') := by
  intro held w v hw hv hc
  have hw' := hw.hold hv.isAlive
  refine bind_congr_run (trackCrossing_run_of_collecting _ hc).symm fun _ w₁ h₁ => ?_
  cases h₁
  refine bind_congr_run rfl fun g w₂ h₂ => ?_
  obtain rfl : _ = w₂ := by
    have := Observes.guest (v.holds ++ held) { w with context.crossings := w.context.crossings + 1 }
    exact (this.ok h₂).1
  exact handleOf_congr (h _ _ v (Quiet.tally.ok hw') hv hc)

/-- **While a collection is going on** a wrap is the one of a guest that takes a notice. -/
theorem wrap_congr : SameInside wrapInPass wrap := by
  refine wrapWith_congr (createWrapper_congr fun held w v hw hv hc => ?_)
  exact discard_congr_run (wrapWith_congr (fun _ _ _ _ _ _ => rfl) held w v hw hv hc)

theorem hash_congr : SameInside (hashWith tally) hashCode := by
  intro held w v hw hv hc
  have ht := trackCrossing_run_of_collecting (v.holds ++ held) hc
  unfold hashCode hashWith holding
  dsimp only
  split
  · exact bind_congr_run ht.symm fun _ _ _ => rfl
  · rfl

theorem weakRef_congr (channel : Channel) (token : Option GuestValue) :
    SameInside (weakRefWith tally channel · token) (weakRefWith trackCrossing channel · token) := by
  intro held w v _ _ hc
  unfold weakRefWith holding
  exact bind_congr_run (trackCrossing_run_of_collecting _ hc).symm fun _ _ _ => rfl

/-- A value is read before it crosses, and the collection goes on meanwhile. -/
theorem read_congr_run {α : Type} {e : HostExpr} {f f' : HostValue → BridgeM α} (hw : w.OK held)
    (hc : w.context.collecting = true)
    (h : ∀ v w₁, w₁.OK held → w₁.context.collecting = true → w₁.heap.Backs (.value v) →
      f v held w₁ = f' v held w₁) : (e.read >>= f) held w = (e.read >>= f') held w := by
  refine bind_congr_run rfl fun v w₁ h₁ => ?_
  obtain ⟨h₁, hv⟩ := (HostExpr.read_quiet e hw).ok h₁
  exact h v w₁ (h₁.ok hw) (h₁.told.collecting.trans hc) hv

/-- **While a collection is going on**, what a guest does with a notice comes to the same with
the ordinary crossings. -/
theorem react_crossings (r : Reaction) (hw : w.OK held) (hc : w.context.collecting = true) :
    react crossingsInPass r held w = react crossings r held w := by
  have hx := crossingsInPass_moves (ℓ := .quiet)
  induction r generalizing w with
  | accept | reject => rw [react, react]
  | hash e next ih =>
    rw [react, react]
    refine read_congr_run hw hc fun v w₁ hw₁ hc₁ hv => ?_
    refine bind_congr_run (hash_congr held w₁ v hw₁ hv hc₁) fun code w₂ h₂ => ?_
    obtain ⟨h₂, -⟩ := (hx.hash held w₁ v hw₁ hv).ok h₂
    exact ih code (h₂.ok hw₁) (h₂.told.collecting.trans hc₁)
  | wrap e next ih =>
    rw [react, react]
    refine read_congr_run hw hc fun v w₁ hw₁ hc₁ hv => ?_
    refine bind_congr_run (attempt_congr_run (wrap_congr held w₁ v hw₁ hv hc₁))
      fun result w₂ h₂ => ?_
    obtain ⟨h₂, -⟩ := (hx.wrap held w₁ v hw₁ hv).attempt.ok h₂
    exact ih result (h₂.ok hw₁) (h₂.told.collecting.trans hc₁)
  | weakRef channel e token next ih =>
    rw [react, react]
    refine read_congr_run hw hc fun v w₁ hw₁ hc₁ hv => ?_
    refine bind_congr_run rfl fun t w₂ h₂ => ?_
    obtain ⟨h₂, ht⟩ := (option_mapM_read_quiet hw₁ token).ok h₂
    have hw₂ := h₂.ok hw₁
    have hc₂ := h₂.told.collecting.trans hc₁
    have hv₂ := h₂.backs_of_quiet hw₁ hv
    have same := weakRef_congr channel t held w₂ v hw₂ hv₂ hc₂
    refine bind_congr_run (attempt_congr_run (discard_congr_run same)) fun result w₃ h₃ => ?_
    have hmoves := (hx.weakRef held w₂ channel v t hw₂ hv₂ ht).discard (Q := fun _ _ => True)
      fun _ _ _ _ => trivial
    obtain ⟨h₃, -⟩ := hmoves.attempt.ok h₃
    exact ih result (h₃.ok hw₂) (h₃.told.collecting.trans hc₂)
  | collect next ih =>
    have same : discard collectGarbage held w = .ok () w := by
      exact discard_run_of_ok (collectGarbage_run_of_collecting held hc)
    rw [react, react]
    refine bind_congr_run (f := fun _ => react crossingsInPass next) same.symm fun _ w₁ h₁ => ?_
    cases h₁
    exact ih hw hc

/-- While a collection is going on, notices are given the same way with the ordinary crossings. -/
theorem report_crossings (channel : Channel) {token : GuestValue} (hw : w.OK held)
    (hc : w.context.collecting = true) (ht : ∀ p ∈ token.parts, w.heap.Backs p) :
    report crossingsInPass channel token held w = report crossings channel token held w := by
  have hheld := hw.hold (Heap.isAlive_of_guestValue ht)
  unfold report holding
  refine bind_congr_run rfl fun g w₁ h₁ => ?_
  obtain rfl : w = w₁ := ((Observes.guest (token.holds ++ held) w).ok h₁).1
  dsimp only
  split
  · exact bind_congr_run (react_crossings _ hheld hc) fun _ _ _ => rfl
  · rfl

end Inside

/-! ## Notices -/

section Notices

theorem tryGuest_run {x : Guest → Except BridgeError (α × Guest)} {g : Guest}
    (hg : w.guest = some g) (held : List HostId) :
    tryGuest x held w =
      match x g with
      | .ok (a, g') => .ok a { w with guest := some g' }
      | .error e => .error e w := by
  rw [tryGuest, bind_run, askGuest, bind_run, guest_run, hg]
  dsimp only
  cases x g <;> rfl

/-- **A guest takes a notice or rejects it.** -/
theorem report_cases (channel : Channel) {token : GuestValue} {g : Guest} (hw : w.OK held)
    (hg : w.guest = some g) (ht : ∀ p ∈ token.parts, w.heap.Backs p) :
    (∃ w', report crossingsInPass channel token held w = .ok () w' ∧
        w.Told [(channel, token)] w') ∨
      ∃ e w', report crossingsInPass channel token held w = .error e w' ∧ w.Told [] w' := by
  have hheld := hw.hold (Heap.isAlive_of_guestValue ht)
  -- whatever the guest did before, it takes the notice now or fails
  have last : ∀ w₁, w.Told [] w₁ →
      (∃ w', tryGuest (fun g => return ((), ← g.takeReport channel token)) (token.holds ++ held) w₁
        = .ok () w' ∧ w.Told [(channel, token)] w') ∨
      ∃ e w', tryGuest (fun g => return ((), ← g.takeReport channel token)) (token.holds ++ held) w₁
        = .error e w' ∧ w.Told [] w' := by
    intro w₁ h₁
    obtain ⟨g₁, hg₁, -⟩ := h₁.guest g hg
    rw [tryGuest_run hg₁, Guest.takeReport, Guest.require]
    split_ifs
    · refine .inl ⟨_, rfl, h₁.trans ⟨rfl, List.prefix_refl _, fun g₂ hg₂ => ?_⟩⟩
      obtain rfl := Option.some.inj (hg₁.symm.trans hg₂)
      exact ⟨_, rfl, Array.toList_push, fun _ => rfl⟩
    · exact .inr ⟨_, _, rfl, h₁⟩
  have hreact := react_leads (crossingsInPass_moves (ℓ := .quiet)) (g.mode.onReport channel token)
    (token.holds ++ held) w hheld
  unfold report holding
  rw [bind_run, guest_run, hg]
  dsimp only
  split
  · rw [bind_run]
    cases hrun : react crossingsInPass (g.mode.onReport channel token) (token.holds ++ held) w with
    | ok a w₁ => exact last w₁ (hreact.ok hrun).1.told
    | error e w₁ => exact .inr ⟨e, w₁, rfl, (hreact.error hrun).told⟩
  · exact last w (.refl w)

end Notices

end BridgeM

/-! ## A pass over the dead -/

/-- What became of a notice. -/
inductive Fate where
  | taken
  | skipped
  | failed
  deriving DecidableEq

/-- A report that counts one more notice. -/
def CollectionReport.count (r : CollectionReport) (x : Watch) : Fate → CollectionReport
  | .taken =>
    match x.channel with
    | .value => { r with values := r.values + 1 }
    | .string => { r with strings := r.strings + 1 }
  | .skipped => { r with skipped := r.skipped + 1 }
  | .failed => { r with failed := r.failed + 1 }

/-- The notices that were taken. -/
def noticesOf (fates : List (Watch × Fate)) : List Notice :=
  (fates.filter fun p => p.2 = .taken).map fun p => (p.1.channel, p.1.token)

open BridgeM in
/-- Notices are given one after the other, each once, and this becomes of them. A notice is given
by a call of the guest's export, from which the guest may cross back; only a notice of the value
channel is not given, to a guest without the export for it. The tokens whose turn is yet to come
are held. -/
inductive Delivered (held : List HostId) : List (Watch × Fate) → World → World → Prop
  | done {w : World} : Delivered held [] w w
  | skipped {w w' : World} {g : Guest} {x : Watch} {fates : List (Watch × Fate)}
      (guest : w.guest = some g) (channel : x.channel = .value)
      (missing : g.provides .reportValue = false) (rest : Delivered held fates w w') :
      Delivered held ((x, .skipped) :: fates) w w'
  | taken {w w₁ w' : World} {g : Guest} {x : Watch} {fates : List (Watch × Fate)}
      (guest : w.guest = some g) (wanted : x.channel = .value → g.provides .reportValue)
      (collecting : w.context.collecting)
      (report : report crossings x.channel x.token
        ((x :: fates.map Prod.fst).flatMap (fun y => y.token.holds) ++ held) w = .ok () w₁)
      (rest : Delivered held fates w₁ w') : Delivered held ((x, .taken) :: fates) w w'
  | failed {w w₁ w' : World} {g : Guest} {x : Watch} {fates : List (Watch × Fate)} {e : BridgeError}
      (guest : w.guest = some g) (wanted : x.channel = .value → g.provides .reportValue)
      (collecting : w.context.collecting)
      (report : report crossings x.channel x.token
        ((x :: fates.map Prod.fst).flatMap (fun y => y.token.holds) ++ held) w = .error e w₁)
      (rest : Delivered held fates w₁ w') : Delivered held ((x, .failed) :: fates) w w'

section Fates

variable {fates : List (Watch × Fate)} {r : CollectionReport}

/-- The counts of notices by what became of them. -/
structure CollectionReport.Counts (r : CollectionReport) (fates : List (Watch × Fate)) : Prop where
  values : r.values = fates.countP fun p => p.2 = .taken ∧ p.1.channel = .value
  strings : r.strings = fates.countP fun p => p.2 = .taken ∧ p.1.channel = .string
  skipped : r.skipped = fates.countP fun p => p.2 = .skipped
  failed : r.failed = fates.countP fun p => p.2 = .failed

theorem noticesOf_append (fates fates' : List (Watch × Fate)) :
    noticesOf (fates ++ fates') = noticesOf fates ++ noticesOf fates' := by
  rw [noticesOf, List.filter_append, List.map_append, noticesOf, noticesOf]

theorem CollectionReport.counts_nil : ({} : CollectionReport).Counts [] := ⟨rfl, rfl, rfl, rfl⟩

theorem CollectionReport.counts_snoc (h : r.Counts fates) (x : Watch) (fate : Fate) :
    (r.count x fate).Counts (fates ++ [(x, fate)]) := by
  obtain ⟨hv, hs, hk, hf⟩ := h
  cases hx : x.channel <;> cases fate <;> constructor <;>
    simp [count, List.countP_append, hv, hs, hk, hf, hx]

/-- **Every notice is counted once.** -/
theorem CollectionReport.Counts.total (h : r.Counts fates) :
    r.values + r.strings + r.skipped + r.failed = fates.length := by
  rw [h.values, h.strings, h.skipped, h.failed]
  clear h
  induction fates with
  | nil => rfl
  | cons p fates ih =>
    obtain ⟨⟨-, -, channel⟩, fate⟩ := p
    cases fate <;> cases channel <;> simp at ih ⊢ <;> omega

end Fates

namespace BridgeM

section Pass

variable {fates done : List (Watch × Fate)} {r : CollectionReport} {g : Guest}

/-- **One notice.** -/
theorem deliver_run (r : CollectionReport) {x : Watch} (hw : w.OK held) (hg : w.guest = some g)
    (ht : ∀ p ∈ x.token.parts, w.heap.Backs p) :
    ∃ fate w', deliver r x held w = .ok (r.count x fate) w' ∧
      w.Told (noticesOf [(x, fate)]) w' ∧
      match fate with
      | .skipped => w' = w ∧ x.channel = .value ∧ g.provides .reportValue = false
      | .taken => (x.channel = .value → g.provides .reportValue) ∧
          report crossingsInPass x.channel x.token held w = .ok () w'
      | .failed => (x.channel = .value → g.provides .reportValue) ∧
          ∃ e, report crossingsInPass x.channel x.token held w = .error e w' := by
  unfold deliver
  rw [bind_run, get_run]
  dsimp only
  rw [hg]
  dsimp only
  split
  · next hskip =>
    exact ⟨.skipped, w, rfl, .refl w, rfl, hskip.1, by simpa using hskip.2⟩
  · next hgive =>
    have wanted : x.channel = .value → g.provides .reportValue := by simpa using hgive
    rcases report_cases x.channel hw hg ht with ⟨w', hrun, htold⟩ | ⟨e, w', hrun, htold⟩
    · refine ⟨.taken, w', ?_, htold, wanted, hrun⟩
      rw [bind_run, attempt, hrun]
      cases hx : x.channel <;> simp [CollectionReport.count, hx] <;> rfl
    · refine ⟨.failed, w', ?_, htold, wanted, e, hrun⟩
      rw [bind_run, attempt, hrun]
      rfl

/-- **All notices**, one after the other. -/
theorem deliverAll_run {xs : List Watch} (hw : w.OK held) (hc : w.context.collecting = true)
    (hg : w.guest = some g) (hr : r.Counts done)
    (ht : ∀ x ∈ xs, ∀ p ∈ x.token.parts, w.heap.Backs p) :
    ∃ fates r' w', deliverAll r xs held w = .ok r' w' ∧ fates.map Prod.fst = xs ∧
      Delivered held fates w w' ∧ r'.Counts (done ++ fates) ∧ w.Told (noticesOf fates) w' := by
  -- on the watches whose turn is still to come, from what has been counted so far
  induction xs generalizing r w g done with
  | nil => exact ⟨[], r, w, rfl, rfl, .done, by simpa using hr, .refl w⟩
  | cons x xs ih =>
    have hheld := hw.hold (isAlive_of_tokens ht)
    have hx := ht x List.mem_cons_self
    obtain ⟨fate, w₁, hrun, htold, hfate⟩ := deliver_run r hheld hg hx
    have hturn := turn_leads (ℓ := .crossing) (by decide) r hw ht
    obtain ⟨h₁, ht₁⟩ := hturn.ok hrun
    obtain ⟨g₁, hg₁, -⟩ := htold.guest g hg
    obtain ⟨fates, r', w', hrest, rfl, hdel, hcount, htold'⟩ := ih (h₁.ok hw)
      (htold.collecting.trans hc) hg₁ (CollectionReport.counts_snoc hr x fate) ht₁
    have hreport := report_crossings x.channel hheld hc hx
    refine ⟨(x, fate) :: fates, r', w', ?_, rfl, ?_, by simpa using hcount, ?_⟩
    · rw [deliverAll, bind_run, show holding _ (deliver r x) held w = _ from hrun]
      exact hrest
    · cases fate with
      | skipped =>
        obtain ⟨rfl, hchannel, hmissing⟩ := hfate
        exact .skipped hg hchannel hmissing hdel
      | taken => exact .taken hg hfate.1 hc (hreport ▸ hfate.2) hdel
      | failed =>
        obtain ⟨wanted, e, he⟩ := hfate
        exact .failed hg wanted hc (hreport ▸ he) hdel
    · have := htold.trans htold'
      rwa [← noticesOf_append] at this

theorem sweep_run (r : CollectionReport) (held : List HostId) (w : World) :
    ∃ r', sweep r held w = .ok r' (w.swept held) ∧
      r'.values = r.values ∧ r'.strings = r.strings ∧ r'.skipped = r.skipped ∧
        r'.failed = r.failed :=
  ⟨_, sweep_run_eq r held w, rfl, rfl, rfl, rfl⟩

/-- A poll is made of moves, and what it takes off the list has tokens that the heap has. -/
theorem polled_leads (hw : w.OK held) : Reaches .crossing held w (w.polled held) ∧
    ∀ x ∈ w.context.watched.filter (fun x => !(w.settled held).heap.isAlive x.target.id),
      ∀ p ∈ x.token.parts, (w.polled held).heap.Backs p := by
  have hphase : Reaches .crossing held w
      { w with context := { w.context with collecting := true, crossings := 0 } } :=
    Reaches.cross (by decide) .phase
  obtain ⟨hpoll, ht⟩ := (poll_leads (ℓ := .crossing) (by decide) (hphase.ok hw)).ok (poll_run _ _)
  exact ⟨hphase.trans hpoll, ht⟩

/-- A collection polls, gives the notices, and sweeps. -/
theorem collectGarbage_run_of_deliver {r : CollectionReport} {w₁ : World}
    (hc : w.context.collecting = false)
    (hrun : deliverAll {} (w.context.watched.filter fun x =>
      !(w.settled held).heap.isAlive x.target.id) held (w.polled held) = .ok r w₁) :
    ∃ r', collectGarbage held w = .ok r' { w₁.swept held with context.collecting := false } ∧
      r'.values = r.values ∧ r'.strings = r.strings ∧ r'.skipped = r.skipped ∧
        r'.failed = r.failed := by
  obtain ⟨r', hsweep, hcounts⟩ := sweep_run r held w₁
  have hpoll : poll held { w with context := { w.context with collecting := true, crossings := 0 } } =
      .ok (w.context.watched.filter fun x => !(w.settled held).heap.isAlive x.target.id)
        (w.polled held) := poll_run _ _
  refine ⟨r', ?_, hcounts⟩
  unfold collectGarbage
  rw [bind_run, get_run]
  dsimp only
  rw [if_neg (by simp [hc]), bind_run]
  change (poll >>= _) held _ = _
  rw [bind_run, hpoll]
  dsimp only
  rw [bind_run, hrun]
  dsimp only
  rw [bind_run, hsweep]
  rfl

/-- A collection ends with a sweep, of a state that it has reached by moves. -/
theorem collectGarbage_ends (hw : w.OK held) (hc : w.context.collecting = false) :
    ∃ r w₁, Reaches .crossing held w w₁ ∧
      collectGarbage held w = .ok r { w₁.swept held with context.collecting := false } := by
  obtain ⟨hpoll, ht⟩ := polled_leads hw
  obtain ⟨r₁, w₁, hdeliver⟩ := deliverAll_succeeds {} _ held (w.polled held)
  obtain ⟨r, hrun, -⟩ := collectGarbage_run_of_deliver hc hdeliver
  have hmoves := (deliverAll_leads (ℓ := .crossing) (by decide) {} (hpoll.ok hw) ht).ok hdeliver
  exact ⟨r, w₁, hpoll.trans hmoves.1, hrun⟩

/-- **A collection** gives notice of every watch whose target is dead. -/
theorem collectGarbage_run {g : Guest} (hw : w.OK held) (hg : w.guest = some g)
    (hc : w.context.collecting = false) :
    ∃ fates r w₁, collectGarbage held w = .ok r
        { w₁.swept held with context.collecting := false } ∧
      fates.map Prod.fst = w.context.watched.filter
        (fun x => !(w.settled held).heap.isAlive x.target.id) ∧
      Delivered held fates (w.polled held) w₁ ∧ r.Counts fates ∧
      (w.polled held).Told (noticesOf fates) w₁ := by
  obtain ⟨hpoll, ht⟩ := polled_leads hw
  obtain ⟨fates, r, w₁, hdeliver, hfates, hdel, hcount, htold⟩ :=
    deliverAll_run (hpoll.ok hw) rfl hg CollectionReport.counts_nil ht
  obtain ⟨r', hrun, hv, hs, hk, hf⟩ := collectGarbage_run_of_deliver hc hdeliver
  have hcount' : r'.Counts fates := ⟨hv.trans hcount.values, hs.trans hcount.strings,
    hk.trans hcount.skipped, hf.trans hcount.failed⟩
  exact ⟨fates, r', w₁, hrun, hfates, hdel, hcount', htold⟩

/-- **Every dead target is given notice of exactly once**, in a collection of a call that holds
`held`, on any reachable state and whatever the guest does with a notice.

* The collection gives a report. It gives notice of the watches whose target is dead when it polls
  and of no others, of each once and in order, as `Delivered` says, and counts each once.
* The notices that were taken are the new ones of the guest. Those watches leave the watch list;
  the others stay, and so do the ones that were added meanwhile.
* While a collection is going on, another one changes nothing and reports nothing, and a crossing
  is counted and changes nothing else.
* In all runs, a watch stays on the list while its target is alive. -/
theorem collectGarbage_delivers {g : Guest} (hw : w.Reachable)
    (hheld : ∀ i ∈ held, w.heap.isAlive i) (hg : w.guest = some g)
    (hc : w.context.collecting = false) :
    (∃ fates r w₁ w' g',
      collectGarbage held w = .ok r w' ∧
      fates.map Prod.fst =
        w.context.watched.filter (fun x => !(w.settled held).heap.isAlive x.target.id) ∧
      Delivered held fates (w.polled held) w₁ ∧
      r.Counts fates ∧ r.values + r.strings + r.skipped + r.failed = fates.length ∧
      w'.guest = some g' ∧ g'.reports.toList = g.reports.toList ++ noticesOf fates ∧
      (∃ new, w'.context.watched =
        w.context.watched.filter (fun x => (w.settled held).heap.isAlive x.target.id) ++ new) ∧
      w'.context.collecting = false) ∧
    (∀ (held : List HostId) (w : World), w.context.collecting = true →
      collectGarbage held w = .ok {} w ∧
      trackCrossing held w = .ok () { w with context.crossings := w.context.crossings + 1 }) ∧
    ∀ w', w.Later w' → ∀ x ∈ w.context.watched, w'.heap.isAlive x.target.id →
      x ∈ w'.context.watched := by
  have hok := hw.ok
  refine ⟨?_, fun held w hc => ⟨collectGarbage_run_of_collecting held hc, ?_⟩,
    fun w' hl x hx ha => (hl.reaches hok).watched hok hx ha⟩
  · have hheldOK : w.OK held := by simpa using hok.hold hheld
    obtain ⟨fates, r, w₁, hrun, hfates, hdel, hcount, htold⟩ := collectGarbage_run hheldOK hg hc
    obtain ⟨g', hg', hreports, -⟩ := htold.guest g hg
    obtain ⟨new, hnew⟩ := htold.watched
    exact ⟨fates, r, w₁, _, g', hrun, hfates, hdel, hcount, hcount.total, hg', hreports,
      ⟨new, hnew.symm⟩, rfl⟩
  · rw [trackCrossing_run_of_collecting held hc, tally_run]

/-- A session whose guest watches another value when it takes a notice, and asks for another
collection. The target of its one watch is dead. -/
def lapsed : World :=
  let watchAnother : Reaction := .weakRef .value (.object []) (some (.i32 8)) fun _ => .collect .accept
  let steps : List Step :=
    [.perform (.setMode { onReport := fun _ _ => watchAnother }) none,
      .perform (.context (.createWeakRef .value (.object []) (some (.i32 7)))) none]
  (runSteps steps (World.load {} {}).2.2).2

theorem lapsed_is_given_notice_of_once :
    ∃ r w' g', collectGarbage [] lapsed = .ok r w' ∧ w'.guest = some g' ∧
      r.values + r.strings + r.skipped + r.failed = 1 ∧ w'.context.collecting = false := by
  have hw : lapsed.Reachable := ⟨{}, {}, _, _, rfl, World.later_runSteps _ _⟩
  have hnone : ∀ i ∈ ([] : List HostId), lapsed.heap.isAlive i := nofun
  obtain ⟨⟨fates, r, w₁, w', g', hrun, hfates, -, -, htotal, hg', -, -, hc⟩, -⟩ :=
    collectGarbage_delivers hw hnone rfl rfl
  have hone : fates.length = 1 := by
    rw [← List.length_map Prod.fst, hfates]
    rfl
  exact ⟨r, w', g', hrun, hg', htotal.trans hone, hc⟩

end Pass

end BridgeM

end GuestBridge
