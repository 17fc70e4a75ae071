import GuestBridge.Proofs.Reads

/-!
# Crossings are made of moves

* `react_leads`: **what a guest does with a notice is made of moves.**
* `collectGarbage_leads`: a collection is made of moves.
* `wrap_leads`, `unwrap_leads`, `weakRefWith_leads`, `hashWith_leads`: so are crossings,
  and the heap backs the values that they give.
-/

namespace GuestBridge

/-- The state after a reclaim in a call that holds `held`. -/
def World.settled (w : World) (held : List HostId) : World :=
  { w with heap := w.heap.reclaim (held ++ w.holds) }

theorem Reaches.settled {ℓ : Level} (hℓ : ℓ ≠ .quiet) (w : World) (held : List HostId) :
    Reaches ℓ held w (w.settled held) :=
  .cross hℓ (.reclaim fun _ hi => hi)

/-- The handle that a value has: a wrapper instance has the one that it stands for, others have
the one that they are linked to, as long as the guest has its object. -/
def World.handle? (w : World) (v : HostValue) : Option Handle :=
  (v.object?.bind w.heap.wrappedHandle?).or
    ((Lookup.of? v).bind (w.context.registry.find? w.isLive))

/-- A link leads to a value, or to a primitive of the same content. -/
def Backlink.LeadsTo : Backlink → HostValue → Prop
  | weak r, v => r.toValue = v
  | primitive x, v => PrimitiveKey.of? x = PrimitiveKey.of? v

/-- The handle is linked to a value, or to a primitive of the same content. -/
def World.StandsFor (w : World) (k : Handle) (v : HostValue) : Prop :=
  ∃ b, w.context.registry.guestLinks.find? k = some b ∧ b.LeadsTo v

theorem World.handle?_of_plain {w : World} {v : HostValue} (hp : w.Plain v) :
    w.handle? v = (Lookup.of? v).bind (w.context.registry.find? w.isLive) := by
  rw [World.handle?, hp, Option.none_or]

namespace BridgeM

variable {held : List HostId} {ℓ : Level} {w w' : World} {v : HostValue} {track : BridgeM Unit}

/-- The action is made of moves of a level, whatever state it starts in. -/
def Tracks (ℓ : Level) (act : BridgeM Unit) : Prop :=
  ∀ held w, w.OK held → Leads (Reaches ℓ held) held w act fun _ _ => True

/-- The action on a value is made of moves of a level, as long as the heap has the value. -/
def Takes {α : Type} (ℓ : Level) (act : HostValue → BridgeM α) : Prop :=
  ∀ held w v, w.OK held → w.heap.Backs (.value v) →
    Leads (Reaches ℓ held) held w (act v) fun _ _ => True

/-- A call that holds more makes the same moves. -/
theorem Leads.hold {α : Type} {act : BridgeM α} {P : α → World → Prop} {ids : List HostId}
    (h : w.OK (ids ++ held) → Leads (Reaches ℓ (ids ++ held)) (ids ++ held) w act P)
    (hw : w.OK held) (hi : ∀ i ∈ ids, w.heap.isAlive i) :
    Leads (Reaches ℓ held) held w (BridgeM.holding ids act) P :=
  Leads.holding ((h (hw.hold hi)).mono fun _ hr => hr.weaken fun _ => List.mem_append_right _)

theorem aliveNow_run (held : List HostId) (w : World) :
    aliveNow held w = .ok (w.settled held).heap.isAlive (w.settled held) := rfl

theorem kindOf_run (v : HostValue) (held : List HostId) (w : World) :
    kindOf v held w = .ok (w.heap.kind v) w := rfl

theorem recordedHandle_run (l : Lookup) (held : List HostId) (w : World) :
    recordedHandle l held w = .ok (w.context.registry.find? w.isLive l) w := by
  simp only [recordedHandle, bind_run, get_run, isLiveNow_run]
  rfl

theorem Observes.kindOf (v : HostValue) : Observes (kindOf v) := observes.kindOf v

theorem Observes.recordedHandle (l : Lookup) : Observes (recordedHandle l) :=
  observes.recordedHandle l

/-! ## Values and handles -/

/-- A wrapper is the last that the guest makes. -/
theorem createWrapper_leads {rewrap : HostValue → BridgeM Unit} (hw : w.OK held)
    (hv : w.heap.Backs (.value v)) (hh : ∀ i ∈ v.holds, i ∈ held) (hr : Takes ℓ rewrap) :
    Leads (Reaches ℓ held) held w (createWrapper rewrap v) fun h w' =>
      ∃ w₁ g, Reaches ℓ held w w₁ ∧ w₁.guest = some g ∧ h = (g.alloc (.wrapper v)).1 ∧
        w' = { w₁ with guest := some (g.alloc (.wrapper v)).2 } := by
  -- the guest may cross back before; to make the wrapper is the last move
  have last : ∀ w₁, Reaches ℓ held w w₁ →
      Leads (Reaches ℓ held) held w₁ (changeGuest fun g => g.alloc (.wrapper v)) fun h w' =>
        ∃ w₁ g, Reaches ℓ held w w₁ ∧ w₁.guest = some g ∧ h = (g.alloc (.wrapper v)).1 ∧
          w' = { w₁ with guest := some (g.alloc (.wrapper v)).2 } := by
    intro w₁ h₁
    have hv₁ := h₁.backs hw hv hh
    refine (changeGuest_alloc_leads (o := .wrapper v) ?_).imp ?_
    · simpa [GuestObject.parts] using hv₁
    · rintro h w' - ⟨g, hg, rfl, rfl⟩
      exact ⟨w₁, g, h₁, hg, rfl, rfl⟩
  unfold createWrapper
  refine Leads.guest fun g hg => ?_
  dsimp only
  split
  · exact Leads.throw_bind
  · split
    · refine Leads.bind (P := fun _ w' => w' = { w with guest := some _ })
        ⟨.quiet (.reenter hg), rfl⟩ fun _ w₁ h₁ _ => ?_
      refine (hr held w₁ v (h₁.ok hw) (h₁.backs hw hv hh)).bind fun _ w₂ h₂ _ => ?_
      exact last w₂ (h₁.trans h₂)
    · exact last w .refl

/-- The handle of a value is made of moves, its link is made together with its object, and it is
the handle that the value has then. -/
theorem handleOf_leads {rewrap : HostValue → BridgeM Unit} (hw : w.OK held)
    (hv : w.heap.Backs (.value v)) (hh : ∀ i ∈ v.holds, i ∈ held) (hr : Takes ℓ rewrap) :
    Leads (Reaches ℓ held) held w (handleOf (createWrapper rewrap) v) fun r w' =>
      w'.InRange → w'.handle? v = r := by
  unfold handleOf
  refine Leads.observe Observes.get fun w₀ hw₀ => ?_
  obtain rfl : w = w₀ := by cases hw₀; rfl
  split
  · next k hk =>
    refine Leads.pure fun _ => ?_
    rw [World.handle?, hk, Option.some_or]
  · next hplain =>
    have hp : w.Plain v := Option.eq_none_iff_forall_ne_some.2 hplain
    split
    · next hl => exact Leads.pure fun _ => by rw [World.handle?_of_plain hp, hl, Option.bind_none]
    · next l hl =>
      refine Leads.observe (.recordedHandle l) fun found hfound => ?_
      obtain rfl : w.context.registry.find? w.isLive l = found := by
        rw [recordedHandle_run] at hfound
        cases hfound
        rfl
      split
      · next k hk =>
        exact Leads.pure fun _ => by rw [World.handle?_of_plain hp, hl, Option.bind_some, hk]
      · refine (createWrapper_leads hw hv hh hr).bind_from ?_
        -- the guest may have wrapped the value while it crossed back, so its link is looked up
        -- again
        rintro k w₂ h₂ ⟨w₁, g, h₁, hg, rfl, rfl⟩
        refine Leads.after (recordedHandle_run ..) ?_
        have hp₁ : w₁.Plain v := hp.later hw.heap hv (h₁.later hw)
        split
        · next k' hk' =>
          refine Leads.of_ok rfl h₂ fun _ => ?_
          refine (World.handle?_of_plain ?_).trans ?_
          · exact hp₁
          · rw [hl, Option.bind_some, hk']
        · next hnew =>
          have hlink := Quiet.link hg (h₁.backs hw hv hh) hl hp₁
            (Option.eq_none_iff_forall_ne_some.2 hnew)
          refine Leads.of_ok rfl (h₁.trans (Reaches.quiet hlink)) fun hin => ?_
          have hlive := HandleTable.isLive_insert_self ((h₁.ok hw).guest g hg).table
            (hin _ rfl).size_le
          refine (World.handle?_of_plain ?_).trans ?_
          · exact hp₁
          · rw [hl, Option.bind_some]
            exact Registry.find?_record hlive

/-- **A crossing gives the handle that the value has then.** -/
theorem wrapWith_finds {rewrap : HostValue → BridgeM Unit} (ht : Tracks ℓ track)
    (hr : Takes ℓ rewrap) (hw : w.OK held) (hv : w.heap.Backs (.value v)) :
    Leads (Reaches ℓ held) held w (wrapWith track (createWrapper rewrap) v) fun r w' =>
      w'.InRange → w'.handle? v = r := by
  refine Leads.hold (fun hw => ?_) hw hv.isAlive
  refine (ht _ w hw).bind fun _ w' h' _ => Leads.guest fun g _ => ?_
  have hh : ∀ i ∈ v.holds, i ∈ v.holds ++ held := fun i hi => List.mem_append_left _ hi
  exact handleOf_leads (h'.ok hw) (h'.backs hw hv hh) hh hr

theorem wrapWith_leads {rewrap : HostValue → BridgeM Unit} (ht : Tracks ℓ track)
    (hr : Takes ℓ rewrap) : Takes ℓ (wrapWith track (createWrapper rewrap)) :=
  fun _ _ _ hw hv => (wrapWith_finds ht hr hw hv).imp fun _ _ _ _ => trivial

theorem hashWith_leads (ht : Tracks ℓ track) : Takes ℓ (hashWith track) := by
  intro held w v hw hv
  refine Leads.hold (fun hw => ?_) hw hv.isAlive
  have hh : ∀ i ∈ v.holds, i ∈ v.holds ++ held := fun i hi => List.mem_append_left _ hi
  have last : ∀ w', w'.heap.Backs (.value v) →
      Leads (Reaches ℓ (v.holds ++ held)) (v.holds ++ held) w' (modifyGet fun w =>
        ((w.context.hasher.hash v).1,
          { w with context.hasher := (w.context.hasher.hash v).2 })) fun _ _ => True :=
    fun w' hv' => Leads.of_ok rfl (Reaches.quiet (.hash hv')) trivial
  dsimp only
  split
  · exact (ht _ w hw).bind fun _ w' h' _ => last w' (h'.backs hw hv hh)
  · exact last w hv

theorem tally_tracks : Tracks ℓ tally := fun _ _ _ => ⟨Reaches.quiet .tally, trivial⟩

/-- The heap knows what a value leads to. -/
theorem knows_weakTargetOf {h : Heap} {channel : Channel} {target : Referent} (hh : h.OK)
    (hv : h.Backs (.value v)) (ht : weakTargetOf channel v = some target) : h.Knows target := by
  obtain rfl : v = target.toValue := by
    cases channel <;> cases v <;> cases ht <;> rfl
  refine ⟨hh.isAlive_lt (hv.isAlive _ ?_), fun _ => hv⟩
  cases target <;> exact List.mem_singleton_self _

/-- **A weak reference is made by moves**, and the heap has it. -/
theorem weakRefWith_leads (ht : Tracks ℓ track) (channel : Channel) {token : Option GuestValue}
    (hw : w.OK held) (hv : w.heap.Backs (.value v))
    (htoken : ∀ t, token = some t → ∀ p ∈ t.parts, w.heap.Backs p) :
    Leads (Reaches ℓ held) held w (weakRefWith track channel v token) fun i w' =>
      w'.heap.Backs (.value (.object i)) := by
  refine Leads.hold (fun hw => ?_) hw (Heap.isAlive_of_weakRef hv htoken)
  refine (ht _ w hw).bind fun _ w' h' _ => ?_
  have hv' := h'.backs hw hv fun i hi => List.mem_append_left _ (List.mem_append_left _ hi)
  split
  · next target htarget =>
    have hk := knows_weakTargetOf (h'.ok hw).heap hv' htarget
    -- a target with a token is watched first; the reference is made after that
    have last : ∀ w'', w''.heap.Knows target →
        Leads (Reaches ℓ ((v.holds ++ token.elim [] GuestValue.holds) ++ held))
          ((v.holds ++ token.elim [] GuestValue.holds) ++ held) w'' (allocObject (.weakRef target))
          fun i w' => w'.heap.Backs (.value (.object i)) := by
      intro w'' hk
      refine allocObject_leads (by simp [ObjectKind.parts]) (by simp [OrderedMap.values]) ?_ rfl
      intro r hr
      exact List.mem_singleton.1 hr ▸ hk
    unfold makeWeakRef
    cases token with
    | none => exact last w' hk
    | some t =>
      refine Leads.bind (P := fun _ w'' => w''.heap = w'.heap)
        (Leads.modify (Reaches.quiet (.watch hk fun p hp => ?_)) rfl) fun _ w'' _ he => ?_
      · refine h'.backs hw (htoken t rfl p hp) fun i hi => ?_
        exact List.mem_append_left _ (List.mem_append_right _ (GuestValue.mem_holds.2 ⟨p, hp, hi⟩))
      · exact last w'' (he ▸ hk)
  · exact Leads.observe (.kindOf v) fun _ _ => Leads.throw

/-! ## Notices -/

/-- The crossings of a guest are made of moves of a level. -/
structure Moves (ℓ : Level) (x : Crossings) : Prop where
  wrap : Takes ℓ x.wrap
  hash : Takes ℓ x.hash
  weakRef : ∀ (held : List HostId) (w : World) (channel : Channel) (v : HostValue)
    (token : Option GuestValue), w.OK held → w.heap.Backs (.value v) →
    (∀ t, token = some t → ∀ p ∈ t.parts, w.heap.Backs p) →
    Leads (Reaches ℓ held) held w (x.weakRef channel v token) fun _ _ => True
  collect : Tracks ℓ x.collect

theorem Takes.discard {α : Type} {act : HostValue → BridgeM α} (h : Takes ℓ act) :
    Takes ℓ fun v => discard (act v) :=
  fun held w v hw hv => (h held w v hw hv).discard fun _ _ _ _ => trivial

theorem takes_pure : Takes ℓ fun _ => (pure () : BridgeM Unit) :=
  fun _ _ _ _ _ => Leads.pure trivial

theorem crossingsInPass_moves : Moves ℓ crossingsInPass where
  wrap := wrapWith_leads tally_tracks (wrapWith_leads tally_tracks takes_pure).discard
  hash := hashWith_leads tally_tracks
  weakRef _ _ channel _ _ hw hv ht :=
    (weakRefWith_leads tally_tracks channel hw hv ht).imp fun _ _ _ _ => trivial
  collect _ _ _ := Leads.pure trivial

/-- **What a guest does with a notice is made of moves** of the level of its crossings. -/
theorem react_leads {x : Crossings} (hx : Moves ℓ x) (r : Reaction) :
    Tracks ℓ (react x r) := by
  -- on the rest of the reaction, from any state that the crossings lead to
  induction r with
  | accept => exact fun _ _ _ => Leads.pure trivial
  | reject e => exact fun _ _ _ => Leads.throw
  | hash e next ih =>
    intro held w hw
    refine (HostExpr.read_quiet e hw).of_quiet.bind fun v w' h' hv => ?_
    refine (hx.hash _ w' v (h'.ok hw) hv).bind fun code w'' h'' _ => ?_
    exact ih code _ w'' (h''.ok (h'.ok hw))
  | wrap e next ih =>
    intro held w hw
    refine (HostExpr.read_quiet e hw).of_quiet.bind fun v w' h' hv => ?_
    refine (hx.wrap _ w' v (h'.ok hw) hv).attempt.bind fun result w'' h'' _ => ?_
    exact ih result _ w'' (h''.ok (h'.ok hw))
  | weakRef channel e token next ih =>
    intro held w hw
    refine (HostExpr.read_quiet e hw).of_quiet.bind fun v w' h' hv => ?_
    refine (option_mapM_read_quiet (h'.ok hw) token).quietly.bind fun token w'' h'' ht => ?_
    have hv' := ht.1.backs_of_quiet (h'.ok hw) hv
    have hw'' := h''.ok (h'.ok hw)
    refine (hx.weakRef _ w'' channel v token hw'' hv' ht.2).discard (Q := fun _ _ => True)
      (fun _ _ _ _ => trivial) |>.attempt.bind fun result w₃ h₃ _ => ?_
    exact ih result _ w₃ (h₃.ok hw'')
  | collect next ih =>
    intro held w hw
    exact (hx.collect _ w hw).bind fun _ w' h' _ => ih _ w' (h'.ok hw)

/-! ## Collections -/

/-- A guest takes a notice by a move. -/
theorem takeReport_leads (hℓ : ℓ ≠ .quiet) (channel : Channel) {token : GuestValue}
    (ht : ∀ p ∈ token.parts, w.heap.Backs p) :
    Leads (Reaches ℓ held) held w (tryGuest fun g => return ((), ← g.takeReport channel token))
      fun _ _ => True := by
  refine Leads.askGuest fun g a hg ha => ?_
  obtain ⟨g', hg', ha⟩ := exists_of_bind_eq_ok ha
  obtain ⟨-, -, hg'⟩ := exists_of_bind_eq_ok hg'
  cases ha
  cases hg'
  exact ⟨Reaches.cross hℓ (.notice hg ht), trivial⟩

/-- A notice is given by moves. -/
theorem report_leads {x : Crossings} (hℓ : ℓ ≠ .quiet) (hx : Moves ℓ x) (channel : Channel)
    {token : GuestValue} (hw : w.OK held) (ht : ∀ p ∈ token.parts, w.heap.Backs p) :
    Leads (Reaches ℓ held) held w (report x channel token) fun _ _ => True := by
  refine Leads.hold (fun hw => Leads.guest fun g _ => ?_) hw (Heap.isAlive_of_guestValue ht)
  dsimp only
  split
  · refine (react_leads hx _ _ w hw).bind fun _ w' h' _ => ?_
    refine takeReport_leads hℓ channel fun p hp => h'.backs hw (ht p hp) fun i hi => ?_
    exact List.mem_append_left _ (GuestValue.mem_holds.2 ⟨p, hp, hi⟩)
  · exact takeReport_leads hℓ channel ht

/-- The watches whose target is dead are taken off the list. -/
theorem poll_run (held : List HostId) (w : World) :
    poll held w =
      .ok (w.context.watched.filter fun x => !(w.settled held).heap.isAlive x.target.id)
        { w.settled held with
          context.watched :=
            w.context.watched.filter fun x => (w.settled held).heap.isAlive x.target.id } := by
  let alive (x : Watch) : Bool := (w.settled held).heap.isAlive x.target.id
  change EStateM.Result.ok (w.context.watched.partition alive).2
    { w.settled held with context := { (w.settled held).context with
        watched := (w.context.watched.partition alive).1 } } = _
  rw [List.partition_eq_filter_filter]
  rfl

/-- The watches taken off the list have tokens that the heap has. -/
theorem poll_leads (hℓ : ℓ ≠ .quiet) (hw : w.OK held) :
    Leads (Reaches ℓ held) held w poll fun dead w' =>
      ∀ x ∈ dead, ∀ p ∈ x.token.parts, w'.heap.Backs p := by
  have h := Reaches.settled hℓ w held
  refine Leads.of_ok (poll_run held w) (h.trans (Reaches.cross hℓ .poll)) fun x hx => ?_
  exact (h.ok hw).context.tokens x (List.mem_filter.1 hx).1

theorem deliver_leads (hℓ : ℓ ≠ .quiet) (r : CollectionReport) {x : Watch} (hw : w.OK held)
    (ht : ∀ p ∈ x.token.parts, w.heap.Backs p) :
    Leads (Reaches ℓ held) held w (deliver r x) fun _ _ => True := by
  refine Leads.observe Observes.get fun w₀ _ => ?_
  split
  · exact Leads.pure trivial
  · split
    · exact Leads.pure trivial
    · refine (report_leads hℓ crossingsInPass_moves x.channel hw ht).attempt.bind
        fun result w' _ _ => ?_
      split <;> exact Leads.pure trivial

/-- What the tokens of some notices hold is alive. -/
theorem isAlive_of_tokens {xs : List Watch} (ht : ∀ y ∈ xs, ∀ p ∈ y.token.parts, w.heap.Backs p) :
    ∀ i ∈ xs.flatMap fun y => y.token.holds, w.heap.isAlive i := by
  intro i hi
  obtain ⟨y, hy, hi⟩ := List.mem_flatMap.1 hi
  exact Heap.isAlive_of_guestValue (ht y hy) i hi

/-- The tokens of the other notices are held during a turn, so that they are there for theirs. -/
theorem turn_leads (hℓ : ℓ ≠ .quiet) (r : CollectionReport) {x : Watch} {xs : List Watch}
    (hw : w.OK held) (ht : ∀ y ∈ x :: xs, ∀ p ∈ y.token.parts, w.heap.Backs p) :
    Leads (Reaches ℓ held) held w
      (holding ((x :: xs).flatMap fun y => y.token.holds) (deliver r x)) fun _ w' =>
        ∀ y ∈ xs, ∀ p ∈ y.token.parts, w'.heap.Backs p := by
  refine Leads.hold (fun hw => ?_) hw (isAlive_of_tokens ht)
  refine (deliver_leads hℓ r hw (ht x List.mem_cons_self)).imp fun _ w' h' _ y hy p hp => ?_
  have hy := List.mem_cons_of_mem x hy
  refine h'.backs hw (ht y hy p hp) fun i hi => List.mem_append_left _ ?_
  exact List.mem_flatMap.2 ⟨y, hy, GuestValue.mem_holds.2 ⟨p, hp, hi⟩⟩

theorem deliverAll_leads (hℓ : ℓ ≠ .quiet) (r : CollectionReport) {xs : List Watch}
    (hw : w.OK held) (ht : ∀ x ∈ xs, ∀ p ∈ x.token.parts, w.heap.Backs p) :
    Leads (Reaches ℓ held) held w (deliverAll r xs) fun _ _ => True := by
  induction xs generalizing r w with
  | nil => exact Leads.pure trivial
  | cons x xs ih => exact (turn_leads hℓ r hw ht).bind fun r' w' h' ht' => ih r' (h'.ok hw) ht'

theorem sweep_leads (hℓ : ℓ ≠ .quiet) (r : CollectionReport) :
    Leads (Reaches ℓ held) held w (sweep r) fun _ _ => True := by
  unfold sweep
  refine Leads.after (aliveNow_run held w) (Leads.after (isLiveNow_run held _) ?_)
  exact Leads.of_ok rfl ((Reaches.settled hℓ w held).trans (Reaches.cross hℓ .sweep)) trivial

/-- **A collection is made of moves.** -/
theorem collectGarbage_leads (hℓ : ℓ ≠ .quiet) (hw : w.OK held) :
    Leads (Reaches ℓ held) held w collectGarbage fun _ _ => True := by
  refine Leads.observe Observes.get fun w₀ _ => ?_
  split
  · exact Leads.pure trivial
  · refine Leads.bind (P := fun _ _ => True) (Leads.modify (Reaches.cross hℓ .phase) trivial)
      fun _ w₁ h₁ _ => ?_
    have hw₁ := h₁.ok hw
    refine (poll_leads hℓ hw₁).bind fun dead w₂ h₂ ht => ?_
    have hw₂ := h₂.ok hw₁
    refine (deliverAll_leads hℓ {} hw₂ ht).bind fun r w₃ h₃ _ => ?_
    refine (sweep_leads hℓ r).bind fun r w₄ h₄ _ => ?_
    refine Leads.bind (P := fun _ _ => True) (Leads.modify (Reaches.cross hℓ .phase) trivial)
      fun _ _ _ _ => Leads.pure trivial

/-! ## Outside of a collection -/

theorem trackCrossing_tracks (hℓ : ℓ ≠ .quiet) : Tracks ℓ trackCrossing := by
  intro held w hw
  refine Leads.observe Observes.get fun w₀ _ => ?_
  dsimp only
  split
  · exact tally_tracks held w hw
  · exact (collectGarbage_leads hℓ hw).discard fun _ _ _ _ => trivial

theorem wrap_leads (hℓ : ℓ ≠ .quiet) : Takes ℓ wrap :=
  wrapWith_leads (trackCrossing_tracks hℓ)
    (wrapWith_leads (trackCrossing_tracks hℓ) takes_pure).discard

theorem crossings_moves (hℓ : ℓ ≠ .quiet) : Moves ℓ crossings where
  wrap := wrap_leads hℓ
  hash := hashWith_leads (trackCrossing_tracks hℓ)
  weakRef _ _ channel _ _ hw hv ht :=
    (weakRefWith_leads (trackCrossing_tracks hℓ) channel hw hv ht).imp fun _ _ _ _ => trivial
  collect _ _ hw := (collectGarbage_leads hℓ hw).discard fun _ _ _ _ => trivial

/-- **A wrap gives the handle that the value has then.** -/
theorem wrap_finds (hℓ : ℓ ≠ .quiet) (hw : w.OK held) (hv : w.heap.Backs (.value v)) :
    Leads (Reaches ℓ held) held w (wrap v) fun r w' => w'.InRange → w'.handle? v = r :=
  wrapWith_finds (trackCrossing_tracks hℓ)
    (wrapWith_leads (trackCrossing_tracks hℓ) takes_pure).discard hw hv

/-- The heap has the value that stands for a handle. -/
theorem backs_of_resolve? {r : Registry} {h : Heap} (hr : r.OK h) {k : Handle}
    (hv : r.resolve? h.isAlive k = some v) : h.Backs (.value v) := by
  unfold Registry.resolve? at hv
  split at hv
  · next x hx =>
    split at hv
    · next ha =>
      obtain rfl := Option.some.inj hv
      exact (hr.backlinks _ (OrderedMap.mem_values_of_find? hx)).1.backs ha
    · cases hv
  · next x hx =>
    obtain rfl := Option.some.inj hv
    exact (hr.backlinks _ (OrderedMap.mem_values_of_find? hx)).1
  · cases hv

/-- A handle stands for what it resolves to. -/
theorem standsFor_of_resolve? {k : Handle} {alive : HostId → Bool}
    (hv : w.context.registry.resolve? alive k = some v) : w.StandsFor k v := by
  unfold Registry.resolve? at hv
  split at hv
  · next x hx =>
    split at hv
    · exact ⟨_, hx, Option.some.inj hv⟩
    · cases hv
  · next x hx =>
    obtain rfl := Option.some.inj hv
    exact ⟨_, hx, rfl⟩
  · cases hv

/-- The heap has what a handle resolves to, and the handle stands for it; otherwise nothing alive
stands for the handle. -/
theorem resolve_leads (hℓ : ℓ ≠ .quiet) (hw : w.OK held) (k : Handle) :
    Leads (Reaches ℓ held) held w (resolve k) fun found w' =>
      (∀ v, found = some v → w'.heap.Backs (.value v) ∧ w'.StandsFor k v) ∧
        (found = none → w'.context.registry.resolve? w'.heap.isAlive k = none) := by
  refine Leads.after (get_run held w) ?_
  split
  · next hn =>
    refine Leads.of_ok rfl .refl ⟨fun v hv => ?_, fun _ => by simp [Registry.resolve?, hn]⟩
    cases hv
  · next x hx =>
    refine Leads.of_ok rfl .refl ⟨fun v hv => ?_, fun hnone => ?_⟩
    · obtain rfl := Option.some.inj hv
      exact ⟨(hw.context.registry.backlinks _ (OrderedMap.mem_values_of_find? hx)).1, _, hx, rfl⟩
    · cases hnone
  · have h := Reaches.settled hℓ w held
    refine Leads.after (aliveNow_run held w) (Leads.of_ok rfl h ⟨fun v hv => ?_, id⟩)
    exact ⟨backs_of_resolve? (h.ok hw).context.registry hv, standsFor_of_resolve? hv⟩

/-- The value of a handle comes from its link, or is a new wrapper instance. -/
theorem valueOf_leads (hℓ : ℓ ≠ .quiet) (hw : w.OK held) (k : Handle) {class_ : HostId}
    (hc : class_ ∈ held) :
    Leads (Reaches ℓ held) held w (valueOf k class_) fun v w' =>
      w'.heap.Backs (.value v) ∧ w'.StandsFor k v := by
  refine Leads.observe Observes.get fun w₀ hw₀ => ?_
  obtain rfl : w = w₀ := by cases hw₀; rfl
  split
  · exact Leads.observe (.kindOf _) fun _ _ => Leads.throw
  · next d hd =>
    refine (resolve_leads hℓ hw k).bind fun found w' h' hf => ?_
    have hw' := h'.ok hw
    have hd' := (h'.later hw).classDefinition? hw.heap hd (hw'.held class_ hc)
    split
    · exact Leads.pure (hf.1 _ rfl)
    · next hnone =>
      refine Leads.after (isLiveNow_run held w') ?_
      dsimp only
      split
      · exact Leads.of_error rfl .refl
      · next hlive =>
        -- nothing alive stands for the live handle, so it gets a new instance
        obtain ⟨g, hg, hlive⟩ := World.isLive_iff.1 (by simpa using hlive)
        have hlost := hf.2 (Option.eq_none_iff_forall_ne_some.2 hnone)
        have hstand : Cross held w' _ :=
          Cross.stand hg hlive (hw'.heap.backs_definition hd') hlost
        exact Leads.of_ok rfl (Reaches.cross hℓ hstand)
          ⟨⟨_, OrderedMap.find?_insert_self ..⟩, _, OrderedMap.find?_insert_self .., rfl⟩

/-- **A handle crosses by moves**, the heap has its value, and the handle stands for the value. -/
theorem unwrap_leads (hℓ : ℓ ≠ .quiet) (hw : w.OK held) (k : Option Handle) {class_ : HostId}
    (hc : w.heap.isAlive class_) :
    Leads (Reaches ℓ held) held w (unwrap k class_) fun v w' =>
      w'.heap.Backs (.value v) ∧ ∀ h, k = some h → w'.StandsFor h v := by
  have hids : ∀ i ∈ [class_], w.heap.isAlive i := fun i hi => List.mem_singleton.1 hi ▸ hc
  refine Leads.hold (fun hw => ?_) hw hids
  refine (trackCrossing_tracks hℓ _ w hw).bind fun _ w' h' _ => Leads.guest fun g _ => ?_
  split
  · exact Leads.pure ⟨trivial, nofun⟩
  · refine (valueOf_leads hℓ (h'.ok hw) _ (List.mem_append_left _ (List.mem_singleton_self _))).imp
      fun v w' _ ⟨hv, hs⟩ => ⟨hv, fun h he => ?_⟩
    exact Option.some.inj he ▸ hs

/-! ## Weak references -/

/-- The heap knows the target of a weak reference. -/
theorem knows_of_weakTarget? {h : Heap} (hh : h.OK) {i : HostId} {target : Referent}
    (ht : h.weakTarget? i = some target) : h.Knows target := by
  simp only [Heap.weakTarget?, Heap.object?] at ht
  cases hc : h.cell? i with
  | none => simp [hc] at ht
  | some c =>
    rw [hc] at ht
    refine hh.weakLinks i c hc target ?_
    cases c with
    | object o =>
      obtain ⟨kind, _, _⟩ := o
      cases kind with
      | weakRef r =>
        obtain rfl := Option.some.inj ht
        exact List.mem_append_left _ (List.mem_singleton_self _)
      | _ => cases ht
    | _ => cases ht

theorem weakTarget_leads (hw : w.OK held) (v : HostValue) :
    Leads (Reaches ℓ held) held w (weakTarget v) fun target w' => w'.heap.Knows target := by
  refine Leads.observe Observes.get fun w₀ hw₀ => ?_
  obtain rfl : w = w₀ := by cases hw₀; rfl
  split
  · next target ht =>
    obtain ⟨i, -, hi⟩ := Option.bind_eq_some_iff.1 ht
    exact Leads.pure (knows_of_weakTarget? hw.heap hi)
  · exact Leads.observe (.kindOf v) fun _ _ => Leads.throw

theorem followTarget_leads (hℓ : ℓ ≠ .quiet) (hw : w.OK held) {target : Referent}
    (ht : w.heap.Knows target) :
    Leads (Reaches ℓ held) held w (followTarget target) fun v w' => w'.heap.Backs (.value v) := by
  have h := Reaches.settled hℓ w held
  refine Leads.after (aliveNow_run held w) (Leads.of_ok rfl h ?_)
  split
  · next ha => exact (h.knows hw ht).backs ha
  · trivial

/-- The heap has what a weak reference leads to. -/
theorem deref_leads (hℓ : ℓ ≠ .quiet) (hw : w.OK held) (hv : w.heap.Backs (.value v)) :
    Leads (Reaches ℓ held) held w (deref v) fun x w' => w'.heap.Backs (.value x) := by
  refine Leads.hold (fun hw => ?_) hw hv.isAlive
  exact (weakTarget_leads hw v).bind fun target w' h' ht => followTarget_leads hℓ (h'.ok hw) ht

theorem derefString_leads (hℓ : ℓ ≠ .quiet) (hw : w.OK held) (hv : w.heap.Backs (.value v)) :
    Leads (Reaches ℓ held) held w (derefString v) fun x w' => w'.heap.Backs (.value x) := by
  refine Leads.hold (fun hw => ?_) hw hv.isAlive
  refine (weakTarget_leads hw v).bind fun target w' h' ht => ?_
  dsimp only
  split
  · exact Leads.throw_bind
  · exact followTarget_leads hℓ (h'.ok hw) ht

end BridgeM

end GuestBridge
