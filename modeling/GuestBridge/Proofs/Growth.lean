import GuestBridge.Proofs.Hashing

/-!
# What a bridge keeps between collections

Each crossing adds at most one hash, one watch and one link of a kind to what the bridge
keeps, and is counted before it does, unless it starts a collection. The crossing that
starts a collection adds its own after it, and is not counted; the ones that a guest makes
during a collection are counted from zero on. So what a bridge keeps is never more than
`collectInterval` above what the last collection has left.

* `Tight`, `Room`: how much there is between crossings, and just after a crossing has been
  counted.
* `Tight.track`: **counting a crossing makes room for one more.**
* `wrap_steps`: a guest that crosses back while it makes a wrapper counts twice and adds once.
* `growth_bounded`: **collections bound what is kept**, in every run.
-/

namespace GuestBridge

/-- What a bridge keeps until a collection. -/
inductive Kept where
  | hashes
  | watched
  | hostLinks
  | guestLinks
  | primitives

/-- How much there is of a kind. -/
def World.count (w : World) : Kept → ℕ
  | .hashes => w.context.hasher.assigned.size
  | .watched => w.context.watched.length
  | .hostLinks => w.context.registry.hostLinks.size
  | .guestLinks => w.context.registry.guestLinks.size
  | .primitives => w.context.registry.primitives.size

/-- The guest has not run out of slots. -/
def World.Fits (w : World) : Prop := ∀ g, w.guest = some g → g.heap.slots.size ≤ 2 ^ 32

instance (w : World) : Decidable w.Fits :=
  match hg : w.guest with
  | some g => decidable_of_iff (g.heap.slots.size ≤ 2 ^ 32)
      ⟨fun h g' hg' => Option.some.inj (hg.symm.trans hg') ▸ h, fun h => h g hg⟩
  | none => .isTrue fun g hg' => by simp [hg] at hg'

/-- Whether the guest crosses back when the value is wrapped: it is asked for a wrapper, and does not
refuse one. -/
def World.crossesBack (w : World) (v : HostValue) : Bool :=
  (w.handle? v).isNone && (Lookup.of? v).isSome &&
    w.guest.any fun g => !g.mode.refuse && g.mode.reenter

theorem World.crossesBack_iff {w : World} {v : HostValue} :
    w.crossesBack v = true ↔ w.handle? v = none ∧ (∃ l, Lookup.of? v = some l) ∧
      ∃ g, w.guest = some g ∧ g.mode.refuse = false ∧ g.mode.reenter = true := by
  cases hg : w.guest <;> simp [crossesBack, hg, Option.isSome_iff_exists, and_assoc]

/-- The guest does not cross back for the next wrapper. -/
def World.woken (w : World) : World :=
  { w with guest := w.guest.map fun g => { g with mode.reenter := false } }

theorem World.woken_of_guest {w : World} {g : Guest} (hg : w.guest = some g) :
    w.woken = { w with guest := some { g with mode.reenter := false } } := by
  rw [woken, hg]
  rfl

/-- At most `n` of each kind have been added, and no crossing has been counted. -/
structure World.Adds (n : ℕ) (w w' : World) : Prop where
  count : ∀ s, w'.count s ≤ w.count s + n
  crossings : w'.context.crossings = w.context.crossings
  collecting : w'.context.collecting = w.context.collecting

variable {held ids : List HostId} {w w' w'' w₁ : World} {v : HostValue} {r : Referent} {k : Handle}
  {l : Lookup} {m n : ℕ} {base : Kept → ℕ}

/-! ## What is added -/

section Adds

theorem OrderedMap.size_insert_le {κ ν : Type} [DecidableEq κ] (m : OrderedMap κ ν) (k : κ) (x : ν) :
    (m.insert k x).size ≤ m.size + 1 := by
  have key : ∀ es : List (κ × ν), (insertIn k x es).length ≤ es.length + 1 := by
    intro es
    induction es with
    | nil => exact le_rfl
    | cons e es ih =>
      rw [insertIn]
      split_ifs
      · exact Nat.le_succ _
      · exact Nat.succ_le_succ ih
  exact key m.entries

theorem World.Adds.of_context (h : w'.context = w.context) : w.Adds n w' where
  count s := by
    have hcount : w'.count s = w.count s := by
      cases s <;> simp only [World.count, h]
    omega
  crossings := by rw [h]
  collecting := by rw [h]

theorem World.Adds.after (h : w.Adds n w') (hc : w''.context = w'.context) : w.Adds n w'' where
  count s := by
    have hcount := (World.Adds.of_context (n := 0) hc).count s
    have := h.count s
    omega
  crossings := by rw [hc, h.crossings]
  collecting := by rw [hc, h.collecting]

theorem World.Adds.before (hc : w'.context = w.context) (h : w'.Adds n w'') : w.Adds n w'' where
  count s := by
    have hcount := (World.Adds.of_context (n := 0) hc).count s
    have := h.count s
    omega
  crossings := by rw [h.crossings, hc]
  collecting := by rw [h.collecting, hc]

/-- A link adds one to each map that it is in. -/
theorem World.adds_record (w : World) (l : Lookup) (v : HostValue) (k : Handle) :
    w.Adds 1 { w with context.registry := w.context.registry.record l v k } where
  count s := by
    have hguest := OrderedMap.size_insert_le w.context.registry.guestLinks k
    cases l with
    | identity r =>
      have hhost := OrderedMap.size_insert_le w.context.registry.hostLinks r.id k
      cases s with
      | hostLinks => exact hhost
      | guestLinks => exact hguest _
      | _ => exact Nat.le_succ _
    | primitive key =>
      have hprimitives := OrderedMap.size_insert_le w.context.registry.primitives key
      cases s with
      | primitives => exact hprimitives _
      | guestLinks => exact hguest _
      | _ => exact Nat.le_succ _
  crossings := rfl
  collecting := rfl

theorem World.adds_recordWrapper (w : World) (k : Handle) (i : HostId) (h : Heap) :
    w.Adds 1 { w with heap := h, context.registry := w.context.registry.recordWrapper k i } where
  count s := by
    have hguest := OrderedMap.size_insert_le w.context.registry.guestLinks k (.weak (.object i))
    cases s with
    | guestLinks => exact hguest
    | _ => exact Nat.le_succ _
  crossings := rfl
  collecting := rfl

theorem World.adds_hash (w : World) (i : HostId) :
    w.Adds 1 { w with context.hasher := (w.context.hasher.hashIdentity i).2 } where
  count s := by
    cases s with
    | hashes =>
      show (w.context.hasher.hashIdentity i).2.assigned.size ≤ _
      rw [Hasher.hashIdentity]
      split
      · exact Nat.le_succ _
      · exact OrderedMap.size_insert_le ..
    | _ => exact Nat.le_succ _
  crossings := rfl
  collecting := rfl

end Adds

namespace BridgeM

/-! ## What crossings add once they have been counted -/

section Bodies

/-- The last step of a wrap adds one link, or finds one. -/
theorem linkNew_adds (held : List HostId) (w : World) :
    Leads (World.Adds 1) held w (linkNew l v k) fun _ w' => w'.guest = w.guest ∧
      (w.isLive k → ∃ j, w'.context.registry.find? w'.isLive l = some j) := by
  cases hf : w.context.registry.find? w.isLive l with
  | some j =>
    exact Leads.of_ok (linkNew_run_of_linked held hf) (.of_context rfl) ⟨rfl, fun _ => ⟨j, hf⟩⟩
  | none =>
    exact Leads.of_ok (linkNew_run_of_none held hf) (w.adds_record l v k)
      ⟨rfl, fun hk => ⟨k, Registry.find?_record hk⟩⟩

/-- A guest that does not cross back makes one object. -/
theorem createWrapper_once (held : List HostId) (w : World) (v : HostValue) :
    Leads (fun w w' => w'.context = w.context) held w (createWrapper (fun _ => pure ()) v)
      fun k w' => ∃ g g' : Guest, w.guest = some g ∧ g'.heap = g.heap ∧ k = (g'.alloc (.wrapper v)).1 ∧
        w' = { w with guest := some (g'.alloc (.wrapper v)).2 } := by
  cases hg : w.guest with
  | none => exact Leads.of_error (createWrapper_run_of_no_guest _ held hg) rfl
  | some g =>
    cases hrefuse : g.mode.refuse with
    | true => exact Leads.of_error (createWrapper_run_of_refuse _ held hg hrefuse) rfl
    | false =>
      cases hreenter : g.mode.reenter with
      | false =>
        exact Leads.of_ok (createWrapper_run _ held hg hrefuse hreenter) rfl ⟨g, g, rfl, rfl, rfl, rfl⟩
      | true =>
        exact Leads.of_ok (createWrapper_run_of_reenter hg hrefuse hreenter rfl rfl) rfl
          ⟨g, { g with mode.reenter := false }, rfl, rfl, rfl, rfl⟩

/-- **A wrap whose guest does not cross back adds one link at most**, and the value is linked then. -/
theorem handleOf_once (hok : w.OK held) (hl : Lookup.of? v = some l) :
    Leads (World.Adds 1) held w (handleOf (createWrapper fun _ => pure ()) v) fun _ w' =>
      w.Plain v → w'.Fits → ∃ j, w'.context.registry.find? w'.isLive l = some j := by
  -- a value with a live handle is linked already; any other is linked to the object made for it
  cases hh : w.handle? v with
  | some j =>
    refine Leads.of_ok (handleOf_run_of_handle? _ held hh) (.of_context rfl) fun hp _ => ⟨j, ?_⟩
    rwa [World.handle?_of_plain hp, hl, Option.bind_some] at hh
  | none =>
    have hcreate := createWrapper_once held w v
    unfold Leads
    rw [handleOf_run_of_none _ held hl hh, bind_run]
    cases hc : createWrapper (fun _ => pure ()) v held w with
    | error e w₁ => exact .of_context (hcreate.error hc)
    | ok k w₁ =>
      obtain ⟨hcontext, g, g', hg, hheap, rfl, hw₁⟩ := hcreate.ok hc
      have hlink := linkNew_adds (l := l) (v := v) (k := (g'.alloc (.wrapper v)).1) held w₁
      dsimp only
      cases hr : linkNew l v (g'.alloc (.wrapper v)).1 held w₁ with
      | error e w₂ => exact .before hcontext (hlink.error hr)
      | ok a w₂ =>
        obtain ⟨hadds, hguest, hlinked⟩ := hlink.ok hr
        refine ⟨.before hcontext hadds, fun _ hfits => hlinked ?_⟩
        have htable : g'.heap.OK := hheap ▸ (hok.guest g hg).table
        have hsize : (g'.alloc (.wrapper v)).2.heap.slots.size ≤ 2 ^ 32 :=
          hfits _ (by rw [hguest, hw₁])
        rw [hw₁]
        exact HandleTable.isLive_insert_self htable hsize

/-- What a guest is asked for adds nothing if there is none. -/
theorem guest_adds {α : Type} {P : α → World → Prop} {f : Guest → BridgeM α} {n : ℕ}
    (h : ∀ g, w.guest = some g → Leads (fun _ => w.Adds n) held w (f g) P) :
    Leads (fun _ => w.Adds n) held w (guest >>= f) P := by
  cases hg : w.guest with
  | none =>
    unfold Leads
    rw [bind_run, guest_run_of_none hg]
    exact World.Adds.of_context rfl
  | some g => exact Leads.after (guest_run_of_some hg held) (h g hg)

/-- An unwrap adds one link at most. -/
theorem valueOf_adds (held : List HostId) (w : World) (k : Handle) (class_ : HostId) :
    Leads (World.Adds 1) held w (valueOf k class_) fun _ _ => True := by
  cases hd : w.heap.classDefinition? class_ with
  | none =>
    exact Leads.of_error (valueOf_run_of_not_class k held hd) (.of_context rfl)
  | some d =>
    obtain ⟨w', hw', hrun⟩ := valueOf_run k held hd
    have hcontext : w'.context = w.context := by rcases hw' with rfl | rfl <;> rfl
    unfold Leads
    rw [hrun]
    cases w.context.registry.resolve? (w.settled held).heap.isAlive k with
    | some v => exact ⟨.of_context hcontext, trivial⟩
    | none =>
      cases w.isLive k with
      | true => exact ⟨.before hcontext (w'.adds_recordWrapper k _ _), trivial⟩
      | false => exact .of_context hcontext

/-- A weak reference adds one watch at most. -/
theorem makeWeakRef_adds (held : List HostId) (w : World) (target : Referent)
    (token : Option GuestValue) (channel : Channel) :
    Leads (World.Adds 1) held w (makeWeakRef target token channel) fun _ _ => True := by
  cases token with
  | none => exact Leads.of_ok rfl (.of_context rfl) trivial
  | some t =>
    refine Leads.of_ok rfl ⟨fun s => ?_, rfl, rfl⟩ trivial
    cases s with
    | watched =>
      show (w.context.watched ++ [_]).length ≤ w.context.watched.length + 1
      rw [List.length_append, List.length_singleton]
    | _ => exact Nat.le_succ _

end Bodies

/-! ## Counting -/

section Tracks

/-- The state at the end of the collection that counting a crossing starts, if it starts one. -/
def passOf (held : List HostId) (w : World) : Option World :=
  if w.context.crossings + 1 < collectInterval ∨ w.context.collecting = true then none
  else some (final collectGarbage held w)

/-- What there was at the end of the collection, or before, if there was none. -/
def leftBy (pass : Option World) (base : Kept → ℕ) : Kept → ℕ := pass.elim base World.count

theorem leftBy_or (pass pass' : Option World) (base : Kept → ℕ) :
    leftBy (pass'.or pass) base = leftBy pass' (leftBy pass base) := by
  cases pass' <;> rfl

/-- Between crossings: there is one more than crossings have been counted, at most. -/
structure Tight (base : Kept → ℕ) (w : World) : Prop where
  idle : w.context.collecting = false
  count : ∀ s, w.count s ≤ base s + 1 + min w.context.crossings (collectInterval - 1)

/-- After a crossing has been counted: there are no more than crossings have been counted. -/
structure Room (base : Kept → ℕ) (w : World) : Prop where
  idle : w.context.collecting = false
  count : ∀ s, w.count s ≤ base s + min w.context.crossings (collectInterval - 1)

/-- What a crossing has done that is counted, with the last collection in it. -/
structure Stepped (base : Kept → ℕ) (pass : Option World) (w w' : World) : Prop where
  tight : Tight (leftBy pass base) w'
  counted : pass = none →
    w.context.crossings + 1 < collectInterval ∧ w.context.crossings + 1 ≤ w'.context.crossings

/-- A crossing that has been counted may add one of each kind. -/
theorem Room.adds (h : Room base w) (ha : w.Adds 1 w') : Tight base w' where
  idle := ha.collecting.trans h.idle
  count s := by
    have hadds := ha.count s
    have hroom := h.count s
    rw [ha.crossings]
    omega

theorem Room.tight (h : Room base w) : Tight base w := h.adds (.of_context rfl)

/-- What is not of the context does not matter. -/
theorem Tight.of_context (h : Tight base w) (hc : w'.context = w.context) : Tight base w' where
  idle := by rw [hc, h.idle]
  count s := by
    have hcount := (World.Adds.of_context (n := 0) hc).count s
    have := h.count s
    rw [hc]
    omega

/-- **After a collection none is going on.** -/
theorem collectGarbage_idle (held : List HostId) (hc : w.context.collecting = false) :
    ∃ r w', collectGarbage held w = .ok r w' ∧ w'.context.collecting = false := by
  obtain ⟨r₁, w₁, hdeliver⟩ := deliverAll_succeeds {} _ held (w.polled held)
  obtain ⟨r, hrun, -⟩ := collectGarbage_run_of_deliver hc hdeliver
  exact ⟨r, _, hrun, rfl⟩

/-- **Counting a crossing makes room for one more of each kind**: it is counted as long as the
interval is not full, and starts a collection otherwise. -/
theorem Tight.track (h : Tight base w) (held : List HostId) :
    ∃ w₁, trackCrossing held w = .ok () w₁ ∧ Room (leftBy (passOf held w) base) w₁ ∧
      (passOf held w = none →
        w.context.crossings + 1 < collectInterval ∧
          w₁.context.crossings = w.context.crossings + 1) := by
  -- the two ways to count: one crossing more, or a pass, after which the bound starts anew
  by_cases hlt : w.context.crossings + 1 < collectInterval
  · have hpass : passOf held w = none := if_pos (.inl hlt)
    refine ⟨w.counted, trackCrossing_run_of_lt held (.inl hlt), ⟨h.idle, fun s => ?_⟩,
      fun _ => ⟨hlt, rfl⟩⟩
    have hcount := h.count s
    show w.count s ≤ leftBy (passOf held w) base s +
      min (w.context.crossings + 1) (collectInterval - 1)
    rw [hpass]
    show w.count s ≤ base s + _
    omega
  · have hfull : ¬(w.context.crossings + 1 < collectInterval ∨ w.context.collecting = true) := by
      simp [hlt, h.idle]
    obtain ⟨r, w', hrun, hidle⟩ := collectGarbage_idle held h.idle
    have hpass : passOf held w = some w' := by
      rw [passOf, if_neg hfull, final_of_ok hrun]
    refine ⟨w', ?_, ⟨hidle, fun s => ?_⟩, fun hnone => ?_⟩
    · unfold trackCrossing
      rw [bind_run, get_run]
      dsimp only
      rw [if_neg hfull]
      exact discard_run_of_ok hrun
    · rw [hpass]
      exact Nat.le_add_right _ _
    · rw [hpass] at hnone
      cases hnone

/-- The end of an action that goes on after a first one. -/
theorem final_bind {α β : Type} {act : BridgeM α} {f : α → BridgeM β} {a : α}
    (ha : act held w = .ok a w₁) : final (act >>= f) held w = final (f a) held w₁ := by
  unfold final
  rw [bind_run, ha]

/-- **A counted crossing that adds one of each kind at most.** -/
theorem Tight.stepped {α : Type} {body : BridgeM α} {P : World → α → World → Prop}
    (h : Tight base w) (hbody : ∀ w₁, Leads (World.Adds 1) (ids ++ held) w₁ body (P w₁)) :
    Stepped base (passOf (ids ++ held) w) w
      (final (holding ids (trackCrossing >>= fun _ => body)) held w) := by
  obtain ⟨w₁, hrun, hroom, hcounted⟩ := h.track (ids ++ held)
  have hadds : w₁.Adds 1 (final body (ids ++ held) w₁) := (hbody w₁).final
  have hend : final (holding ids (trackCrossing >>= fun _ => body)) held w =
      final body (ids ++ held) w₁ := final_bind hrun
  rw [hend]
  refine ⟨hroom.adds hadds, fun hnone => ?_⟩
  obtain ⟨hlt, he⟩ := hcounted hnone
  exact ⟨hlt, by rw [hadds.crossings, he]⟩

theorem hash_steps (h : Tight base w) (hr : v.identity? = some r) :
    Stepped base (passOf (v.holds ++ held) w) w (final (hashCode v) held w) := by
  obtain ⟨w₁, hrun, hroom, hcounted⟩ := h.track (v.holds ++ held)
  rw [final_of_ok (hashCode_run_of_identity hr hrun)]
  refine ⟨hroom.adds (w₁.adds_hash r.id), fun hnone => ?_⟩
  obtain ⟨hlt, he⟩ := hcounted hnone
  exact ⟨hlt, he.ge⟩

theorem unwrap_steps (h : Tight base w) (k : Option Handle) (class_ : HostId) :
    Stepped base (passOf ([class_] ++ held) w) w (final (unwrap k class_) held w) := by
  refine h.stepped (P := fun _ _ _ => True) fun w₁ => guest_adds fun g _ => ?_
  cases k with
  | none => exact Leads.of_ok rfl (.of_context rfl) trivial
  | some k => exact valueOf_adds _ w₁ k class_

theorem weakRef_steps (h : Tight base w) (channel : Channel) (v : HostValue)
    (token : Option GuestValue) :
    Stepped base (passOf ((v.holds ++ token.elim [] GuestValue.holds) ++ held) w) w
      (final (weakRefWith trackCrossing channel v token) held w) := by
  refine h.stepped (P := fun _ _ _ => True) fun w₁ => ?_
  cases weakTargetOf channel v with
  | some target => exact makeWeakRef_adds _ w₁ target token channel
  | none =>
    exact show World.Adds 1 w₁ w₁ from .of_context rfl

end Tracks

/-! ## Wraps whose guest crosses back -/

section Wrap

/-- The wrap that a guest makes when it crosses back. -/
def wrapAgain (v : HostValue) : BridgeM (Option Handle) :=
  wrapWith trackCrossing (createWrapper fun _ => pure ()) v

/-- The state at the end of the last collection within a wrap, if there is one: the crossing of a
guest that crosses back comes after the crossing itself. -/
def wrapPass (held : List HostId) (w : World) (v : HostValue) : Option World :=
  let w₁ := final trackCrossing (v.holds ++ held) w
  (if w₁.crossesBack v then passOf (v.holds ++ (v.holds ++ held)) w₁.woken else none).or
    (passOf (v.holds ++ held) w)

/-- A guest that crosses back has the flag cleared, crosses back, and makes its wrapper. -/
theorem createWrapper_run_crossingBack {g : Guest} (rewrap : HostValue → BridgeM Unit)
    (held : List HostId) (hg : w.guest = some g) (hrefuse : g.mode.refuse = false)
    (hreenter : g.mode.reenter = true) :
    createWrapper rewrap v held w =
      (rewrap v >>= fun _ => changeGuest fun g => g.alloc (.wrapper v)) held w.woken := by
  unfold createWrapper
  rw [bind_run, guest_run_of_some hg]
  dsimp only
  rw [if_neg (by simp [hrefuse]), if_pos hreenter, World.woken_of_guest hg]
  rfl

/-- **The crossing of a guest that crosses back** adds one link at most once it has been counted, and
the value is linked then. -/
theorem wrapAgain_adds (hw : w.OK held) (hv : w.heap.Backs (.value v)) (hp : w.Plain v)
    (hl : Lookup.of? v = some l) (htrack : trackCrossing (v.holds ++ held) w = .ok () w₁) :
    Leads (fun _ => w₁.Adds 1) held w (wrapAgain v) fun _ w' =>
      w'.OK held ∧ (w'.Fits → ∃ j, w'.context.registry.find? w'.isLive l = some j) := by
  have hheld := hw.hold hv.isAlive
  have hmoves := ((trackCrossing_tracks (ℓ := .crossing) nofun _ w hheld).ok htrack).1
  have hw₁ := hmoves.ok hheld
  have hp₁ : w₁.Plain v := hp.later hw.heap hv (hmoves.later hheld)
  have hrun : wrapAgain v held w =
      (guest >>= fun _ => handleOf (createWrapper fun _ => pure ()) v) (v.holds ++ held) w₁ := by
    show (trackCrossing >>= fun _ => _) (v.holds ++ held) w = _
    rw [bind_run, htrack]
  have hleads : Leads (Reaches .crossing held) held w (wrapAgain v) fun _ _ => True :=
    wrapWith_leads (trackCrossing_tracks (by decide)) takes_pure held w v hw hv
  unfold Leads at hleads ⊢
  rw [hrun] at hleads ⊢
  cases hg : w₁.guest with
  | none =>
    rw [bind_run, guest_run_of_none hg]
    exact World.Adds.of_context rfl
  | some g =>
    rw [bind_run, guest_run_of_some hg] at hleads ⊢
    have honce := handleOf_once hw₁ hl
    dsimp only at hleads ⊢
    cases hr : handleOf (createWrapper fun _ => pure ()) v (v.holds ++ held) w₁ with
    | error e w₂ => exact honce.error hr
    | ok a w₂ =>
      rw [hr] at hleads
      obtain ⟨hadds, hlinked⟩ := honce.ok hr
      exact ⟨hadds, hleads.1.ok hw, hlinked hp₁⟩

/-- A link that is found is still found after the guest has made an object. -/
theorem find?_alloc {g : Guest} {o : GuestObject} {j : Handle} (hg : w.guest = some g)
    (ht : g.heap.OK) (hsize : (g.alloc o).2.heap.slots.size ≤ 2 ^ 32)
    (hj : w.context.registry.find? w.isLive l = some j) :
    w.context.registry.find? (g.alloc o).2.heap.isLive l = some j := by
  have hlive : w.isLive j := by
    obtain ⟨recorded, hrec⟩ := Registry.find?_eq_filter w.context.registry l
    rw [hrec] at hj
    exact (Option.filter_eq_some_iff.1 hj).2
  rw [World.isLive_of_guest hg] at hlive
  exact Registry.find?_of_find? hj (HandleTable.isLive_insert ht hsize hlive)

/-- The wrap finds the link that the guest's own crossing has made, and adds none. -/
theorem handleOf_again_adds {g : Guest} (hg : w.guest = some g) (hrefuse : g.mode.refuse = false)
    (hreenter : g.mode.reenter = true) (hl : Lookup.of? v = some l) (hnone : w.handle? v = none)
    (hagain : Leads (fun _ => w₁.Adds 1) held w.woken (wrapAgain v) fun _ w' =>
      w'.OK held ∧ (w'.Fits → ∃ j, w'.context.registry.find? w'.isLive l = some j))
    (hfits : (final (handleOf (createWrapper fun v => discard (wrapAgain v)) v) held w).Fits) :
    w₁.Adds 1 (final (handleOf (createWrapper fun v => discard (wrapAgain v)) v) held w) := by
  have hcreate := createWrapper_run_crossingBack (v := v) (fun v => discard (wrapAgain v)) held hg
    hrefuse hreenter
  unfold final at hfits ⊢
  rw [handleOf_run_of_none _ held hl hnone, bind_run, hcreate, bind_run] at hfits ⊢
  cases hr : wrapAgain v held w.woken with
  | error e w₂ =>
    have hfail : discard (wrapAgain v) held w.woken = .error e w₂ := by
      show (wrapAgain v >>= fun _ => pure ()) held w.woken = _
      rw [bind_run, hr]
    rw [hfail]
    exact hagain.error hr
  | ok a w₂ =>
    rw [discard_run_of_ok hr] at hfits ⊢
    obtain ⟨hadds, hok, hlinked⟩ := hagain.ok hr
    dsimp only at hfits ⊢
    cases hg₂ : w₂.guest with
    | none =>
      unfold changeGuest
      rw [bind_run, guest_run_of_none hg₂]
      exact hadds
    | some g₂ =>
      rw [changeGuest_run hg₂] at hfits ⊢
      dsimp only at hfits ⊢
      cases hf : w₂.context.registry.find? (g₂.alloc (.wrapper v)).2.heap.isLive l with
      | some j =>
        rw [linkNew_run_of_linked held hf]
        exact hadds.after rfl
      | none =>
        -- the guest's own crossing has made a link, so this cannot be
        rw [linkNew_run_of_none held hf] at hfits
        have hsize : (g₂.alloc (.wrapper v)).2.heap.slots.size ≤ 2 ^ 32 := hfits _ rfl
        obtain ⟨j, hj⟩ := hlinked fun g' hg' => by
          obtain rfl := Option.some.inj (hg₂.symm.trans hg')
          exact le_trans (HandleTable.size_insert _) hsize
        have hstill := find?_alloc hg₂ (hok.guest g₂ hg₂).table hsize hj
        rw [hf] at hstill
        cases hstill

/-- A wrap whose guest does not cross back adds one link at most. -/
theorem handleOf_adds (rewrap : HostValue → BridgeM Unit) (held : List HostId) (w : World)
    (hcross : w.crossesBack v = false) :
    w.Adds 1 (final (guest >>= fun _ => handleOf (createWrapper rewrap) v) held w) := by
  refine Leads.final (P := fun _ _ => True) (guest_adds fun g hg => ?_)
  cases hh : w.handle? v with
  | some k => exact Leads.of_ok (handleOf_run_of_handle? _ held hh) (.of_context rfl) trivial
  | none =>
    cases hl : Lookup.of? v with
    | none => exact Leads.of_ok (handleOf_run_of_not_linked _ held hl hh) (.of_context rfl) trivial
    | some l =>
      unfold Leads
      rw [handleOf_run_of_none _ held hl hh, bind_run]
      cases hrefuse : g.mode.refuse with
      | true =>
        rw [createWrapper_run_of_refuse _ held hg hrefuse]
        exact .of_context rfl
      | false =>
        -- the guest does make an object here, so it cannot be one that crosses back
        have hreenter : g.mode.reenter = false := by
          simpa [World.crossesBack, hh, hl, hg, hrefuse] using hcross
        rw [createWrapper_run _ held hg hrefuse hreenter]
        have hlink := linkNew_adds (l := l) (v := v) (k := (g.alloc (.wrapper v)).1) held
          { w with guest := some (g.alloc (.wrapper v)).2 }
        have hcontext : ({ w with guest := some (g.alloc (.wrapper v)).2 } : World).context =
            w.context := rfl
        have hadds : Leads (fun _ => w.Adds 1) held { w with guest := some (g.alloc (.wrapper v)).2 }
            (linkNew l v (g.alloc (.wrapper v)).1) fun _ _ => True :=
          Leads.imp (Leads.mono hlink fun _ h => World.Adds.before hcontext h) fun _ _ _ _ => trivial
        exact hadds

/-- **A wrap counts for what it adds**, whether the guest crosses back or not. -/
theorem wrap_steps (h : Tight base w) (hw : w.OK held) (hv : w.heap.Backs (.value v))
    (hfits : (final (wrap v) held w).Fits) :
    Stepped base (wrapPass held w v) w (final (wrap v) held w) := by
  obtain ⟨w₁, htrack, hroom, hcounted⟩ := h.track (v.holds ++ held)
  have hend : final (wrap v) held w =
      final (guest >>= fun _ => handleOf (createWrapper fun v => discard (wrapAgain v)) v)
        (v.holds ++ held) w₁ := final_bind htrack
  rw [hend] at hfits ⊢
  unfold wrapPass
  rw [final_of_ok htrack]
  dsimp only
  cases hcross : w₁.crossesBack v with
  | false =>
    rw [if_neg Bool.false_ne_true, Option.none_or]
    have hadds := handleOf_adds (v := v) (fun v => discard (wrapAgain v)) (v.holds ++ held) w₁ hcross
    refine ⟨hroom.adds hadds, fun hnone => ?_⟩
    obtain ⟨hlt, he⟩ := hcounted hnone
    exact ⟨hlt, by rw [hadds.crossings, he]⟩
  | true =>
    rw [if_pos rfl]
    obtain ⟨hnone, ⟨l, hl⟩, g, hg, hrefuse, hreenter⟩ := World.crossesBack_iff.1 hcross
    have hheld := hw.hold hv.isAlive
    have hmoves := ((trackCrossing_tracks (ℓ := .crossing) (by decide) _ w hheld).ok htrack).1
    have hv₁ := hmoves.backs hheld hv fun i hi => List.mem_append_left _ hi
    have hw₂ : w₁.woken.OK (v.holds ++ held) := by
      rw [World.woken_of_guest hg]
      exact (Quiet.reenter hg).ok (hmoves.ok hheld)
    have hp : w₁.woken.Plain v := (Option.or_eq_none_iff.1 hnone).1
    -- the crossing of the guest is counted after the wrap itself
    have htight : Tight (leftBy (passOf (v.holds ++ held) w) base) w₁.woken :=
      hroom.tight.of_context rfl
    obtain ⟨w₂, htrack₂, hroom₂, hcounted₂⟩ := htight.track (v.holds ++ (v.holds ++ held))
    have hagain := wrapAgain_adds hw₂ hv₁ hp hl htrack₂
    have hadds : w₂.Adds 1 (final (handleOf (createWrapper fun v => discard (wrapAgain v)) v)
        (v.holds ++ held) w₁) := by
      refine handleOf_again_adds hg hrefuse hreenter hl hnone hagain ?_
      rwa [final_bind (guest_run_of_some hg _)] at hfits
    rw [final_bind (guest_run_of_some hg _)]
    refine ⟨?_, fun hpass => ?_⟩
    · rw [leftBy_or]
      exact hroom₂.adds hadds
    · obtain ⟨hpass₂, hpass₁⟩ := Option.or_eq_none_iff.1 hpass
      obtain ⟨hlt, he⟩ := hcounted hpass₁
      obtain ⟨-, he₂⟩ := hcounted₂ hpass₂
      have hsame : w₁.woken.context.crossings = w₁.context.crossings := rfl
      exact ⟨hlt, by rw [hadds.crossings, he₂, hsame, he]; omega⟩

end Wrap

end BridgeM

open BridgeM

/-! ## Runs -/

section Runs

/-- What the embedder asks of a context. -/
inductive ContextCall where
  | wrap (value : HostValue)
  | unwrap (handle : Option Handle) (class_ : HostId)
  | hash (value : HostValue)
  | weakRef (channel : Channel) (value : HostValue) (token : Option GuestValue)

namespace ContextCall

/-- The heap has what the call is given. -/
def Backed (h : Heap) : ContextCall → Prop
  | wrap v => h.Backs (.value v)
  | unwrap _ c => h.isAlive c
  | hash v => h.Backs (.value v)
  | weakRef _ v token => h.Backs (.value v) ∧ ∀ t, token = some t → ∀ p ∈ t.parts, h.Backs p

/-- The state after the call, whether it fails or not. -/
def after (held : List HostId) (w : World) : ContextCall → World
  | wrap v => final (BridgeM.wrap v) held w
  | unwrap k c => final (BridgeM.unwrap k c) held w
  | hash v => final (hashCode v) held w
  | weakRef channel v token => final (weakRefWith trackCrossing channel v token) held w

/-- Whether the call is counted: to hash a primitive is not. -/
def isCounted : ContextCall → Bool
  | hash v => v.hasIdentity
  | _ => true

/-- The state at the end of the last collection within the call, if there is one. -/
def pass (held : List HostId) (w : World) : ContextCall → Option World
  | wrap v => wrapPass held w v
  | unwrap _ c => passOf ([c] ++ held) w
  | hash v => if v.hasIdentity then passOf (v.holds ++ held) w else none
  | weakRef _ v token => passOf ((v.holds ++ token.elim [] GuestValue.holds) ++ held) w

end ContextCall

/-- What a context keeps to itself is as it was: its links, hashes and watches, and its count of
crossings. -/
structure World.SameBooks (w w' : World) : Prop where
  registry : w'.context.registry = w.context.registry
  hasher : w'.context.hasher = w.context.hasher
  watched : w'.context.watched = w.context.watched
  crossings : w'.context.crossings = w.context.crossings
  collecting : w'.context.collecting = w.context.collecting

/-- A run of calls, with what the host and the guest do between them, that leads to a state: what
there was at the end of the last collection, and how many counted calls there have been since the
last call with a collection. -/
inductive CallRun : (Kept → ℕ) → ℕ → World → Prop
  /-- A context that has not been used. -/
  | start {w : World} (ok : w.OK []) (empty : ∀ s, w.count s = 0)
      (crossings : w.context.crossings = 0) (idle : w.context.collecting = false) :
      CallRun (fun _ => 0) 0 w
  /-- Whatever happens to the host's values and to the guest. -/
  | between {w w' : World} {base : Kept → ℕ} {n : ℕ} (h : CallRun base n w) (ok : w'.OK [])
      (same : w.SameBooks w') : CallRun base n w'
  /-- A call, unless the guest runs out of slots in it. -/
  | call {w : World} {base : Kept → ℕ} {n : ℕ} (h : CallRun base n w) (c : ContextCall)
      (held : List HostId) (ok : w.OK held) (backed : c.Backed w.heap)
      (fits : (c.after held w).Fits) :
      CallRun (leftBy (c.pass held w) base)
        (if c.isCounted = false then n else if (c.pass held w).isSome then 0 else n + 1)
        (c.after held w)
  /-- A collection that the embedder asks for. -/
  | collect {w : World} {base : Kept → ℕ} {n : ℕ} (h : CallRun base n w) (held : List HostId)
      (ok : w.OK held) :
      CallRun (final collectGarbage held w).count 0 (final collectGarbage held w)

/-- What calls and collections keep. -/
structure World.Paced (base : Kept → ℕ) (n : ℕ) (w : World) : Prop where
  ok : w.OK []
  tight : Tight base w
  streak_lt : n < collectInterval
  streak_le : n ≤ w.context.crossings

theorem ContextCall.after_ok {c : ContextCall} (hw : w.OK held) (hc : c.Backed w.heap) :
    (c.after held w).OK held := by
  have hcross : Level.crossing ≠ .quiet := by decide
  cases c with
  | wrap v => exact (wrap_leads hcross held w v hw hc).final.ok hw
  | unwrap k c => exact (unwrap_leads hcross hw k hc).final.ok hw
  | hash v => exact (hashWith_leads (trackCrossing_tracks hcross) held w v hw hc).final.ok hw
  | weakRef channel v token =>
    exact (weakRefWith_leads (trackCrossing_tracks hcross) channel hw hc.1 hc.2).final.ok hw

/-- **A counted call adds one of each kind at most**, unless it collects. -/
theorem ContextCall.stepped {c : ContextCall} (h : Tight base w) (hw : w.OK held)
    (hc : c.Backed w.heap) (hfits : (c.after held w).Fits) (hcounted : c.isCounted = true) :
    Stepped base (c.pass held w) w (c.after held w) := by
  cases c with
  | wrap v => exact wrap_steps h hw hc hfits
  | unwrap k c => exact unwrap_steps h k c
  | hash v =>
    obtain ⟨r, hr⟩ := Option.isSome_iff_exists.1 hcounted
    have hpass : ContextCall.pass held w (.hash v) = passOf (v.holds ++ held) w := if_pos hcounted
    rw [hpass]
    exact hash_steps h hr
  | weakRef channel v token => exact weakRef_steps h channel v token

/-- To hash a primitive changes nothing, and is not counted. -/
theorem ContextCall.after_of_not_counted {c : ContextCall} (held : List HostId) (w : World)
    (hc : c.isCounted = false) : c.after held w = w ∧ c.pass held w = none := by
  cases c with
  | hash v =>
    have hv : v.identity? = none := Option.isSome_eq_false_iff.1 hc |> Option.isNone_iff_eq_none.1
    exact ⟨final_of_ok (hashCode_run_of_primitive hv held w), if_neg (by simpa [isCounted] using hc)⟩
  | _ => cases hc

theorem World.OK.release_all (hw : w.OK held) : w.OK [] := { hw with held := nofun }

/-- **A run stays in pace with its collections.** -/
theorem CallRun.paced (h : CallRun base n w) : World.Paced base n w := by
  -- on the run: the bound and the streak are carried together, since a pass resets both
  induction h with
  | start ok empty crossings idle =>
    exact ⟨ok, ⟨idle, fun s => by rw [empty s]; exact Nat.zero_le _⟩, by decide, Nat.zero_le _⟩
  | @between w w' base n h ok same ih =>
    refine ⟨ok, ⟨same.collecting.trans ih.tight.idle, fun s => ?_⟩, ih.streak_lt, ?_⟩
    · have hcount : w'.count s = w.count s := by
        cases s <;> simp only [World.count, same.registry, same.hasher, same.watched]
      rw [hcount, same.crossings]
      exact ih.tight.count s
    · rw [same.crossings]
      exact ih.streak_le
  | @call w base n h c held ok backed fits ih =>
    cases hcounted : c.isCounted with
    | false =>
      obtain ⟨hafter, hpass⟩ := c.after_of_not_counted held w hcounted
      rw [hafter, hpass, if_pos rfl]
      exact ih
    | true =>
      obtain ⟨htight, hstreak⟩ := ContextCall.stepped ih.tight ok backed fits hcounted
      refine ⟨(ContextCall.after_ok ok backed).release_all, htight, ?_, ?_⟩
      · cases hpass : c.pass held w with
        | some w' => exact Nat.succ_pos 999
        | none =>
          have := (hstreak hpass).1
          have := ih.streak_le
          simp only [Bool.true_eq_false, if_false, Option.isSome_none, Bool.false_eq_true]
          omega
      · cases hpass : c.pass held w with
        | some w' => exact Nat.zero_le _
        | none =>
          have := (hstreak hpass).2
          have := ih.streak_le
          simp only [Bool.true_eq_false, if_false, Option.isSome_none, Bool.false_eq_true]
          omega
  | @collect w base n h held ok ih =>
    obtain ⟨r, w', hrun, hidle⟩ := collectGarbage_idle held ih.tight.idle
    have hw' := ((collectGarbage_leads (ℓ := .crossing) (by decide) ok).ok hrun).1.ok ok
    rw [final_of_ok hrun]
    exact ⟨hw'.release_all, ⟨hidle, fun s => by omega⟩, by decide, Nat.zero_le _⟩

/-- A bridge that has been loaded has an unused context. -/
theorem World.load_context {s : Setup} {environment : Environment} {o : Options}
    (h : World.load s environment = (some o, .ok (), w)) :
    w.context = { hasher := .ofSeed o.hashSeed, globals := o.globals } := by
  obtain ⟨w₀, program, hrun, -, rfl⟩ := World.load_run h
  have hsame := ((withdrawn.readOptions s [] (World.initial environment)).ok hrun).1.context
  show { w₀.context with globals := o.globals, hasher := .ofSeed o.hashSeed } = _
  rw [hsame]
  rfl

/-- **A run begins with a bridge that has been loaded.** -/
theorem CallRun.load {s : Setup} {environment : Environment} {o : Options}
    (h : World.load s environment = (some o, .ok (), w)) : CallRun (fun _ => 0) 0 w := by
  have hcontext := World.load_context h
  refine .start (World.load_ok h) (fun s => ?_) (by rw [hcontext]) (by rw [hcontext])
  cases s <;> simp only [World.count, hcontext, Hasher.assigned_ofSeed] <;> rfl

/-- **Collections bound what is kept.** In every state between the calls of a run there is at most
`collectInterval` more of each kind than at the end of the last collection, there have been fewer
than `collectInterval` counted calls since the last one with a collection, and to hash a primitive
changes nothing. -/
theorem growth_bounded (h : CallRun base n w) :
    (∀ s, w.count s ≤ base s + collectInterval) ∧ n < collectInterval ∧
      ∀ held v, v.identity? = none → hashCode v held w = .ok (w.context.hasher.hash v).1 w := by
  have hpaced := h.paced
  refine ⟨fun s => ?_, hpaced.streak_lt, fun held v hv => hashCode_run_of_primitive hv held w⟩
  have hcount := hpaced.tight.count s
  have hinterval : collectInterval = 1000 := rfl
  omega

/-! ### A run with a collection -/

/-- The guest frees an object of its own. -/
def World.freed (k : Handle) (w : World) : World :=
  { w with guest := w.guest.map fun g => (g.free k).2 }

/-- A call that collects nothing leaves the bound and is counted. -/
theorem CallRun.call_of_no_pass (h : CallRun base n w) (c : ContextCall) (held : List HostId)
    (hw : w.OK held) (hc : c.Backed w.heap) (hfits : (c.after held w).Fits)
    (hcounted : c.isCounted = true) (hpass : c.pass held w = none) : CallRun base (n + 1) (c.after held w) := by
  simpa [hpass, hcounted, leftBy] using h.call c held hw hc hfits

/-- A call that collects sets a new bound, and the count starts anew. -/
theorem CallRun.call_of_pass (h : CallRun base n w) (c : ContextCall) (held : List HostId)
    (hw : w.OK held) (hc : c.Backed w.heap) (hfits : (c.after held w).Fits)
    (hcounted : c.isCounted = true) (hpass : c.pass held w = some w₁) :
    CallRun w₁.count 0 (c.after held w) := by
  simpa [hpass, hcounted, leftBy] using h.call c held hw hc hfits

theorem CallRun.freed (h : CallRun base n w) (k : Handle) : CallRun base n (w.freed k) := by
  refine h.between ?_ ⟨rfl, rfl, rfl, rfl, rfl⟩
  have hw := h.paced.ok
  cases hg : w.guest with
  | none => rwa [World.freed, hg, Option.map_none, ← hg]
  | some g =>
    have hmoves : Reaches .outer [] w { w with guest := some (g.free k).2 } :=
      Reaches.outer (.free hg)
    rw [World.freed, hg, Option.map_some]
    exact hmoves.ok hw

/-- **Crossings that add nothing** are counted until the interval is full: here, unwraps of no
handle. -/
theorem CallRun.counted (h : CallRun base n w) (class_ : HostId) (m : ℕ)
    (hclass : w.heap.isAlive class_) (hg : w.guest.isSome) (hfits : w.Fits)
    (hfree : w.context.crossings + m < collectInterval) :
    CallRun base (n + m) (World.counted^[m] w) := by
  induction m generalizing n w with
  | zero => exact h
  | succ m ih =>
    have hlt : w.context.crossings + 1 < collectInterval := by omega
    obtain ⟨g, hg'⟩ : ∃ g, w.counted.guest = some g := Option.isSome_iff_exists.1 hg
    have hrun : unwrap none class_ [] w = .ok .null w.counted := by
      unfold unwrap holding
      rw [bind_run, trackCrossing_run_of_lt _ (.inl hlt)]
      dsimp only
      rw [bind_run, guest_run_of_some hg']
      rfl
    have hafter : (ContextCall.unwrap none class_).after [] w = w.counted := final_of_ok hrun
    have hstep : CallRun base (n + 1) w.counted := by
      have hcall := h.call_of_no_pass (.unwrap none class_) [] h.paced.ok hclass
        (by rwa [hafter]) rfl (if_pos (.inl hlt))
      rwa [hafter] at hcall
    have hrest : w.counted.context.crossings + m < collectInterval := by
      show w.context.crossings + 1 + m < collectInterval
      omega
    rw [Function.iterate_succ_apply, Nat.add_comm m 1, ← Nat.add_assoc]
    exact ih hstep hclass hg hfits hrest

/-- A bridge of two objects. The second one has been hashed and wrapped, and the guest has freed its
wrapper. -/
def spent : World :=
  let hashed := (ContextCall.hash (.object ⟨1⟩)).after [] twoGlobals
  ((ContextCall.wrap (.object ⟨1⟩)).after [] hashed).freed ⟨0, 0⟩

/-- The same bridge after 997 more crossings: the next one runs a collection. -/
def full : World := World.counted^[997] spent

/-- The same bridge when the first object has been wrapped and hashed then. -/
def renewed : World :=
  (ContextCall.hash (.object ⟨0⟩)).after [] ((ContextCall.wrap (.object ⟨0⟩)).after [] full)

/-- The thousandth crossing collects: it drops the link of the freed wrapper and makes its own, the
count starts anew, and the hash of the second object stays beside that of the first one. -/
theorem renewed_keeps_bound :
    (∃ base, CallRun base 999 full) ∧ full.count .guestLinks = 1 ∧
      ∃ base, CallRun base 1 renewed ∧ base .guestLinks = 0 ∧ renewed.count .guestLinks = 1 ∧
        base .hashes = 1 ∧ renewed.count .hashes = 2 ∧
        ∀ s, renewed.count s ≤ base s + 1000 := by
  have hload : World.load { seed := some 0, bound := [("a", .object []), ("b", .object [])] } {} =
      (some _, .ok (), twoGlobals) := rfl
  have hstart : CallRun (fun _ => 0) 0 twoGlobals := .load hload
  -- the second object is hashed and wrapped, and its wrapper freed
  have hhashed := hstart.call_of_no_pass (.hash (.object ⟨1⟩)) [] hstart.paced.ok
    ⟨_, rfl⟩ (by decide +kernel) rfl (Option.isNone_iff_eq_none.1 (by decide +kernel))
  have hwrapped := hhashed.call_of_no_pass (.wrap (.object ⟨1⟩)) [] hhashed.paced.ok
    ⟨_, rfl⟩ (by decide +kernel) rfl (Option.isNone_iff_eq_none.1 (by decide +kernel))
  have hspent : CallRun (fun _ => 0) 2 spent := hwrapped.freed ⟨0, 0⟩
  -- crossings that add nothing fill the interval
  have hfull : CallRun (fun _ => 0) 999 full :=
    hspent.counted ⟨0⟩ 997 (by decide +kernel) (by decide +kernel)
      (by decide +kernel) (by decide +kernel)
  -- the next one collects
  obtain ⟨w₁, hpass⟩ : ∃ w₁, (ContextCall.wrap (.object ⟨0⟩)).pass [] full = some w₁ :=
    Option.isSome_iff_exists.1 (by decide +kernel)
  have hleft : w₁.count = leftBy ((ContextCall.wrap (.object ⟨0⟩)).pass [] full) fun _ => 0 := by
    rw [hpass]
    rfl
  have hcollected := hfull.call_of_pass (.wrap (.object ⟨0⟩)) [] hfull.paced.ok
    (isSome_object?_iff.1 (by decide +kernel)) (by decide +kernel) rfl hpass
  have hrun : CallRun _ 1 renewed := hcollected.call_of_no_pass (.hash (.object ⟨0⟩)) []
    hcollected.paced.ok (isSome_object?_iff.1 (by decide +kernel)) (by decide +kernel) rfl
    (Option.isNone_iff_eq_none.1 (by decide +kernel))
  rw [hleft] at hrun
  exact ⟨⟨_, hfull⟩, by decide +kernel, _, hrun, by decide +kernel, by decide +kernel,
    by decide +kernel, by decide +kernel, (growth_bounded hrun).1⟩

end Runs

end GuestBridge
