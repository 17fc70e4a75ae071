import GuestBridge.Proofs.Identity

/-!
# Links whose guest object is gone

A link may outlive the guest object that its handle was for, until the next sweep. A wrap
ignores such a link: it gives the handle of an object that is there, or a new one. An
unwrap does not: it gives the host value that the handle is still linked to, and says that
the handle is stale only when there is none.

* `World.swept_handle?`, `World.swept_resolve?`: what a sweep leaves.
* `wrap_outcome`: what a wrap gives that starts no collection.
* `unwrap_of_not_isLive`: **what a dead handle is unwrapped as**, and when it is stale.
-/

namespace GuestBridge

variable {h : Heap} {held : List HostId} {w w' : World} {k : Handle} {v x : HostValue} {g : Guest}

/-! ## What a sweep leaves -/

section Sweep

theorem Heap.wrappedHandle?_reclaim {roots : List HostId} {i : HostId} (hh : h.OK)
    (hi : (h.reclaim roots).isAlive i) :
    (h.reclaim roots).wrappedHandle? i = h.wrappedHandle? i := by
  obtain ⟨c, hc⟩ := Heap.isAlive_iff.1 hi
  rw [Heap.wrappedHandle?_eq, Heap.wrappedHandle?_eq, hc, Heap.cell?_of_reclaim hh.nodup hc]

theorem HostValue.id_mem_holds {i : HostId} (hi : v.object? = some i) : i ∈ v.holds := by
  cases v <;> cases hi
  exact List.mem_singleton_self _

/-- What is held is alive after a reclaim. -/
theorem World.OK.isAlive_settled (hw : w.OK held) {i : HostId} (hi : i ∈ held) :
    (w.settled held).heap.isAlive i :=
  ((Reaches.settled (ℓ := .crossing) (by decide) w held).ok hw).held i hi

/-- **A sweep does not change which handle a value has**, if the value is held. -/
theorem World.swept_handle? (hw : w.OK held) (hv : ∀ i ∈ v.holds, i ∈ held) :
    (w.swept held).handle? v = w.handle? v := by
  have hr := hw.context.registry
  have hinstance : v.object?.bind (w.swept held).heap.wrappedHandle? =
      v.object?.bind w.heap.wrappedHandle? := by
    cases hi : v.object? with
    | none => rfl
    | some i =>
      have halive := hw.isAlive_settled (hv i (HostValue.id_mem_holds hi))
      exact Heap.wrappedHandle?_reclaim hw.heap halive
  have hlinked : (Lookup.of? v).bind ((w.swept held).context.registry.find? w.isLive) =
      (Lookup.of? v).bind (w.context.registry.find? w.isLive) := by
    cases hl : Lookup.of? v with
    | none => rfl
    | some l =>
      change ((w.context.registry.sweep (w.settled held).heap.isAlive w.isLive).find? w.isLive l) =
        w.context.registry.find? w.isLive l
      cases l with
      | identity r =>
        obtain ⟨rfl, -⟩ := Lookup.eq_toValue hl
        have halive := hw.isAlive_settled (hv r.id r.id_mem_holds)
        simp only [Registry.find?, Registry.sweep, OrderedMap.find?_filter hr.nodup_host]
        cases w.context.registry.hostLinks.find? r.id with
        | none => rfl
        | some j => by_cases hj : w.isLive j <;> simp [Option.filter, halive, hj]
      | primitive key =>
        simp only [Registry.find?, Registry.sweep, OrderedMap.find?_filter hr.nodup_primitives]
        cases w.context.registry.primitives.find? key with
        | none => rfl
        | some l => by_cases hj : w.isLive l.handle <;> simp [Option.filter, hj]
  exact congrArg₂ Option.or hinstance hlinked

/-- A sweep leaves no link of a dead handle. -/
theorem World.swept_guestLinks_of_not_isLive (hk : ¬w.isLive k) :
    (w.swept held).context.registry.guestLinks.find? k = none := by
  rw [Option.eq_none_iff_forall_ne_some]
  intro b hb
  have hkeep := (List.mem_filter.1 (OrderedMap.mem_entries_of_find? hb)).2
  simp_all

/-- A dead handle resolves to nothing after a sweep. -/
theorem World.swept_resolve?_of_not_isLive (hk : ¬w.isLive k) (alive : HostId → Bool) :
    (w.swept held).context.registry.resolve? alive k = none := by
  rw [Registry.resolve?, World.swept_guestLinks_of_not_isLive hk]

/-- What a registry keeps alive are strings. -/
theorem Heap.Admits.string_of_mem_holds {i : HostId} (hb : h.Admits (.primitive v))
    (hi : i ∈ v.holds) : ∃ t, h.cell? i = some (.string t) := by
  obtain ⟨hbacks, hkey⟩ := hb
  cases v with
  | string s => exact List.mem_singleton.1 hi ▸ ⟨_, hbacks⟩
  | symbol | object => cases hkey
  | _ => cases hi

theorem Registry.OK.string_of_mem_holds {r : Registry} (hr : r.OK h) {i : HostId}
    (hi : i ∈ r.holds) : ∃ t, h.cell? i = some (.string t) := by
  simp only [Registry.holds, List.mem_append, List.mem_flatMap] at hi
  rcases hi with ⟨l, hl, hi⟩ | ⟨b, hb, hi⟩
  · exact (hr.keys l hl).string_of_mem_holds hi
  · cases b with
    | weak r => simp at hi
    | primitive v => exact Heap.Admits.string_of_mem_holds (hr.backlinks _ hb) hi

/-- A weak link leads to an object or a symbol. -/
theorem Heap.Admits.ne_string {r : Referent} {c : Cell} (hb : h.Admits (.weak r))
    (hc : h.cell? r.id = some c) (t : String) : c ≠ .string t := by
  rintro rfl
  obtain ⟨hknows, hstring⟩ := hb
  have hbacks := hknows.backs (Heap.isAlive_of_cell? hc)
  cases r <;> simp_all [Heap.Backs, Referent.toValue, Referent.id, Referent.isString]

/-- What a state holds is held after a sweep as well, except for strings. -/
theorem World.mem_holds_swept (hw : w.OK held) {i : HostId} (hi : i ∈ w.holds) :
    i ∈ (w.swept held).holds ∨ ∃ t, w.heap.cell? i = some (.string t) := by
  simp only [World.holds, Context.holds, List.mem_append] at hi ⊢
  rcases hi with (hi | ((hi | hi) | hi)) | hi
  · exact .inl (.inl (.inl hi))
  · exact .inr (hw.context.registry.string_of_mem_holds hi)
  · exact .inl (.inl (.inr (.inl (.inr hi))))
  · exact .inl (.inl (.inr (.inr hi)))
  · exact .inl (.inr hi)

/-- Cells that are carried over stay alive when only strings are no longer roots, except for
strings: these hold nothing. -/
theorem Heap.cell?_reclaim_of_strings {h' : Heap} {roots roots' : List HostId} {i : HostId}
    {c : Cell} (hn : h.cells.keys.Nodup) (hn' : h'.cells.keys.Nodup)
    (hcells : ∀ j d, (h.reclaim roots).cell? j = some d → h'.cell? j = some d)
    (hroots : ∀ j ∈ roots, j ∈ roots' ∨ ∃ t, h.cell? j = some (.string t))
    (hc : (h.reclaim roots).cell? i = some c) (hstring : ∀ t, c ≠ .string t) :
    (h'.reclaim roots').cell? i = some c := by
  refine cell?_reclaim_of_closed (P := fun j => ∃ d, (h.reclaim roots).cell? j = some d ∧
    ∀ t, d ≠ .string t) hn' ?_ ⟨c, hc, hstring⟩ (hcells i c hc)
  -- a cell that is no string is kept by such a cell or by a root that is none either
  rintro j ⟨d, hd, hplain⟩
  obtain ⟨hd₀, hroot⟩ := (cell?_reclaim_iff hn).1 hd
  rcases hroot with hroot | ⟨l, c', hc', hj⟩
  · rcases hroots j hroot with hj | ⟨t, ht⟩
    · exact .inl hj
    · exact absurd (Option.some.inj (hd₀.symm.trans ht)) (hplain t)
  · refine .inr ⟨l, c', ⟨c', hc', ?_⟩, hcells l c' hc', hj⟩
    rintro t rfl
    cases hj

/-- **What is alive stays alive after a sweep**, except for strings. -/
theorem World.isAlive_settled_swept (hw : w.OK held) {i : HostId} {c : Cell}
    (hc : (w.settled held).heap.cell? i = some c) (hstring : ∀ t, c ≠ .string t) :
    ((w.swept held).settled held).heap.isAlive i := by
  have hn := hw.heap.nodup
  refine Heap.isAlive_of_cell? (Heap.cell?_reclaim_of_strings (h := w.heap) hn
    (Heap.nodup_reclaim hn _) (fun _ _ => id) (fun j hj => ?_) hc hstring)
  rcases List.mem_append.1 hj with hj | hj
  · exact .inl (List.mem_append_left _ hj)
  · exact (World.mem_holds_swept hw hj).imp (List.mem_append_right _) id

/-- **A sweep does not change what a live handle resolves to.** -/
theorem World.swept_resolve? (hw : w.OK held) (hk : w.isLive k) :
    (w.swept held).context.registry.resolve? ((w.swept held).settled held).heap.isAlive k =
      w.context.registry.resolve? (w.settled held).heap.isAlive k := by
  have hfind : (w.swept held).context.registry.guestLinks.find? k =
      (w.context.registry.guestLinks.find? k).filter fun b =>
        Registry.keepsBacklink (w.settled held).heap.isAlive b && w.isLive k :=
    OrderedMap.find?_filter hw.context.registry.nodup_guest _ k
  unfold Registry.resolve?
  rw [hfind]
  cases hb : w.context.registry.guestLinks.find? k with
  | none => rfl
  | some b =>
    cases b with
    | primitive y => simp [Option.filter, Registry.keepsBacklink, hk]
    | weak r =>
      by_cases ha : (w.settled held).heap.isAlive r.id
      -- weak links lead to no strings, and the other cells outlast another collection
      · obtain ⟨c, hc⟩ := Heap.isAlive_iff.1 ha
        have hsettled := (Reaches.settled (ℓ := .crossing) (by decide) w held).ok hw
        have hplain := (hsettled.context.registry.backlinks _
          (OrderedMap.mem_values_of_find? hb)).ne_string hc
        simp [Option.filter, Registry.keepsBacklink, hk, ha, World.isAlive_settled_swept hw hc hplain]
      · simp [Option.filter, Registry.keepsBacklink, ha]

end Sweep

/-- The state after a crossing has been counted. -/
def World.counted (w : World) : World :=
  { w with context.crossings := w.context.crossings + 1 }

theorem World.handle?_counted (w : World) (v : HostValue) : w.counted.handle? v = w.handle? v := rfl

/-! ## What is linked -/

section Links

/-- The value that a content is stored with when `v` is linked: the one stored first. -/
def Registry.keyFor (r : Registry) (key : PrimitiveKey) (v : HostValue) : HostValue :=
  ((r.primitives.find? key).map PrimitiveLink.key).getD v

/-- What a value is linked to does not depend on what is live. -/
theorem Registry.find?_eq_filter (r : Registry) (l : Lookup) :
    ∃ recorded : Option Handle, ∀ isLive, r.find? isLive l = recorded.filter isLive := by
  cases l <;> exact ⟨_, fun _ => rfl⟩

theorem Registry.find?_of_find? {r : Registry} {l : Lookup} {p q : Handle → Bool}
    (hk : r.find? p l = some k) (hq : q k) : r.find? q l = some k := by
  obtain ⟨recorded, hr⟩ := Registry.find?_eq_filter r l
  rw [hr] at hk ⊢
  exact Option.filter_eq_some_iff.2 ⟨(Option.filter_eq_some_iff.1 hk).1, hq⟩

/-- A value has been linked to a handle, and a primitive's content is stored with the value that it
was stored with before, if any. -/
structure Registry.Gains (r r' : Registry) (isLive : Handle → Bool) (l : Lookup) (v : HostValue)
    (k : Handle) : Prop where
  find : r'.find? isLive l = some k
  key : ∀ key, l = .primitive key → r'.primitives.find? key = some ⟨r.keyFor key v, k⟩

end Links

namespace BridgeM

/-! ## Crossings that start no collection -/

section Answers

/-- A crossing before the interval is full is counted, and that is all. -/
theorem trackCrossing_run_of_lt (held : List HostId)
    (hfree : w.context.crossings + 1 < collectInterval ∨ w.context.collecting = true) :
    trackCrossing held w = .ok () w.counted := by
  unfold trackCrossing
  rw [bind_run, get_run]
  dsimp only
  rw [if_pos hfree, tally_run]
  rfl

/-- What a handle is unwrapped as: the value that it resolves to, or else a new wrapper instance, if
the guest has the object. -/
def unwrapAnswer (w : World) (class_ : HostId) (k : Handle) : Except BridgeError HostValue :=
  match w.context.registry.resolve? (w.settled [class_]).heap.isAlive k with
  | some v => .ok v
  | none => if w.isLive k then .ok (.object ⟨w.heap.next⟩) else .error (.staleHandle k)

theorem unwrapAnswer_of_not_isLive (class_ : HostId) (hk : ¬w.isLive k) :
    unwrapAnswer w class_ k =
      match w.context.registry.resolve? (w.settled [class_]).heap.isAlive k with
      | some v => .ok v
      | none => .error (.staleHandle k) := by
  rw [unwrapAnswer, if_neg hk]

/-- **What an unwrap gives**, once the crossing has been counted. -/
theorem unwrap_outcome {class_ d : HostId} {w₁ : World}
    (htrack : trackCrossing [class_] w = .ok () w₁) (hg : w₁.guest = some g)
    (hd : w₁.heap.classDefinition? class_ = some d) :
    ((unwrap (some k) class_).outcome w).1 = unwrapAnswer w₁ class_ k := by
  obtain ⟨w', hw', hvalue⟩ := valueOf_run k [class_] hd
  have hnext : w'.heap.next = w₁.heap.next := by rcases hw' with rfl | rfl <;> rfl
  have hrun : unwrap (some k) class_ [] w = valueOf k class_ [class_] w₁ := by
    unfold unwrap holding
    rw [bind_run, show trackCrossing ([class_] ++ []) w = _ from htrack]
    dsimp only
    rw [bind_run, guest_run_of_some hg]
    rfl
  rw [outcome, hrun, hvalue, hnext, unwrapAnswer]
  cases w₁.context.registry.resolve? (w₁.settled [class_]).heap.isAlive k with
  | some v => rfl
  | none => cases w₁.isLive k <;> rfl

/-- **What an unwrap gives** that starts no collection. -/
theorem unwrap_outcome_of_lt {class_ d : HostId} (hg : w.guest = some g)
    (hd : w.heap.classDefinition? class_ = some d)
    (hfree : w.context.crossings + 1 < collectInterval ∨ w.context.collecting = true) :
    ((unwrap (some k) class_).outcome w).1 = unwrapAnswer w class_ k := by
  rw [unwrap_outcome (trackCrossing_run_of_lt [class_] hfree) hg hd]
  rfl

/-- A new object brings back no link but one to its own handle. -/
theorem eq_of_find?_alloc {l : Lookup} {o : GuestObject} {r : Registry} {j : Handle}
    (hg : g.heap.OK) (hn : (g.alloc o).2.heap.slots.size ≤ 2 ^ 32)
    (hnone : r.find? g.heap.isLive l = none) (hj : r.find? (g.alloc o).2.heap.isLive l = some j) :
    j = (g.alloc o).1 := by
  have hlive : (g.alloc o).2.heap.isLive j := by
    obtain ⟨recorded, hr⟩ := Registry.find?_eq_filter r l
    rw [hr] at hj
    exact (Option.filter_eq_some_iff.1 hj).2
  obtain ⟨x, hx⟩ := HandleTable.isLive_iff.1 hlive
  rw [show (g.alloc o).2.heap = (g.heap.insert o).2 from rfl, HandleTable.get?_insert hg hn] at hx
  split_ifs at hx with he
  · exact he
  · have := Registry.find?_of_find? hj (HandleTable.isLive_of_get? hx)
    simp [hnone] at this

/-- The last step of a wrap: the new handle is linked, unless there is a link by then. -/
def linkNew (l : Lookup) (v : HostValue) (k : Handle) : BridgeM (Option Handle) := do
  if let some existing ← recordedHandle l then return some existing
  modifyContext fun c => { c with registry := c.registry.record l v k }
  return some k

theorem linkNew_run_of_linked {l : Lookup} {j : Handle} (held : List HostId)
    (hj : w.context.registry.find? w.isLive l = some j) :
    linkNew l v k held w = .ok (some j) w := by
  unfold linkNew
  rw [bind_run, recordedHandle_run, hj]
  rfl

theorem linkNew_run_of_none {l : Lookup} (held : List HostId)
    (hf : w.context.registry.find? w.isLive l = none) :
    linkNew l v k held w =
      .ok (some k) { w with context.registry := w.context.registry.record l v k } := by
  unfold linkNew
  rw [bind_run, recordedHandle_run, hf]
  rfl

theorem linkNew_run {l : Lookup} (held : List HostId) (hk : w.isLive k)
    (hfind : ∀ j, w.context.registry.find? w.isLive l = some j → j = k) :
    ∃ r, linkNew l v k held w = .ok (some k) { w with context.registry := r } ∧
      Registry.Gains w.context.registry r w.isLive l v k := by
  cases hf : w.context.registry.find? w.isLive l with
  | some j =>
    obtain rfl := hfind j hf
    refine ⟨_, linkNew_run_of_linked held hf, hf, ?_⟩
    rintro key rfl
    obtain ⟨x, hx, rfl⟩ := Option.map_eq_some_iff.1 (Option.filter_eq_some_iff.1 hf).1
    rw [Registry.keyFor, hx]
    rfl
  | none =>
    refine ⟨_, linkNew_run_of_none held hf, Registry.find?_record hk, ?_⟩
    rintro key rfl
    exact OrderedMap.find?_insert_self w.context.registry.primitives key _

/-- A value without a handle has a wrapper made, and is linked to it. -/
theorem handleOf_run_of_none {l : Lookup} (create : HostValue → BridgeM Handle)
    (held : List HostId) (hl : Lookup.of? v = some l) (hnone : w.handle? v = none) :
    handleOf create v held w = (create v >>= linkNew l v) held w := by
  obtain ⟨hplain, hfind⟩ := Option.or_eq_none_iff.1 hnone
  rw [hl, Option.bind_some] at hfind
  unfold handleOf
  rw [bind_run, get_run]
  dsimp only
  rw [hplain]
  dsimp only
  rw [hl]
  dsimp only
  rw [bind_run, recordedHandle_run, hfind]
  rfl

/-- A guest that does not cross back makes a wrapper. -/
theorem createWrapper_run (rewrap : HostValue → BridgeM Unit) (held : List HostId)
    (hg : w.guest = some g) (hrefuse : g.mode.refuse = false) (hreenter : g.mode.reenter = false) :
    createWrapper rewrap v held w =
      .ok (g.alloc (.wrapper v)).1 { w with guest := some (g.alloc (.wrapper v)).2 } := by
  unfold createWrapper
  rw [bind_run, guest_run_of_some hg]
  dsimp only
  rw [if_neg (by simp [hrefuse]), if_neg (by simp [hreenter])]
  exact changeGuest_run hg _ held

/-- A guest that crosses back makes a wrapper after that. -/
theorem createWrapper_run_of_reenter {rewrap : HostValue → BridgeM Unit} {w₁ : World} {g₁ : Guest}
    (hg : w.guest = some g) (hrefuse : g.mode.refuse = false) (hreenter : g.mode.reenter = true)
    (hrun : rewrap v held { w with guest := some { g with mode.reenter := false } } = .ok () w₁)
    (hg₁ : w₁.guest = some g₁) :
    createWrapper rewrap v held w =
      .ok (g₁.alloc (.wrapper v)).1 { w₁ with guest := some (g₁.alloc (.wrapper v)).2 } := by
  unfold createWrapper
  rw [bind_run, guest_run_of_some hg]
  dsimp only
  rw [if_neg (by simp [hrefuse]), if_pos hreenter, bind_run]
  change (rewrap v >>= _) held _ = _
  rw [bind_run, hrun]
  exact changeGuest_run hg₁ _ held

/-- There is no wrapper without a guest. -/
theorem createWrapper_run_of_no_guest (rewrap : HostValue → BridgeM Unit) (held : List HostId)
    (hg : w.guest = none) : createWrapper rewrap v held w = .error .notInstantiated w := by
  unfold createWrapper
  rw [bind_run, guest_run_of_none hg]

/-- A guest that refuses makes no wrapper. -/
theorem createWrapper_run_of_refuse (rewrap : HostValue → BridgeM Unit) (held : List HostId)
    (hg : w.guest = some g) (hrefuse : g.mode.refuse = true) :
    createWrapper rewrap v held w = .error (.guest "out of guest memory") w := by
  unfold createWrapper
  rw [bind_run, guest_run_of_some hg]
  dsimp only
  rw [if_pos hrefuse]
  rfl

theorem handleOf_run_of_not_linked (create : HostValue → BridgeM Handle) (held : List HostId)
    (hl : Lookup.of? v = none) (hnone : w.handle? v = none) :
    handleOf create v held w = .ok none w := by
  obtain ⟨hplain, -⟩ := Option.or_eq_none_iff.1 hnone
  unfold handleOf
  rw [bind_run, get_run]
  dsimp only
  rw [hplain]
  dsimp only
  rw [hl]
  rfl

/-- **A value without a handle gets a new one** from a guest that does not cross back. -/
theorem handleOf_run_of_new {l : Lookup} (rewrap : HostValue → BridgeM Unit) (held : List HostId)
    (hg : w.guest = some g) (ht : g.heap.OK)
    (hn : (g.alloc (.wrapper v)).2.heap.slots.size ≤ 2 ^ 32) (hl : Lookup.of? v = some l)
    (hnone : w.handle? v = none) (hrefuse : g.mode.refuse = false)
    (hreenter : g.mode.reenter = false) :
    ∃ r, handleOf (createWrapper rewrap) v held w = .ok (some (g.alloc (.wrapper v)).1)
        { w with guest := some (g.alloc (.wrapper v)).2, context.registry := r } ∧
      Registry.Gains w.context.registry r (g.alloc (.wrapper v)).2.heap.isLive l v
        (g.alloc (.wrapper v)).1 := by
  have hfind := (Option.or_eq_none_iff.1 hnone).2
  rw [hl, Option.bind_some, World.isLive_of_guest hg] at hfind
  obtain ⟨r, hrun, hr⟩ := linkNew_run (v := v) (w := { w with guest := some (g.alloc (.wrapper v)).2 })
    held (HandleTable.isLive_insert_self ht hn) fun j hj => eq_of_find?_alloc ht hn hfind hj
  refine ⟨r, ?_, hr⟩
  rw [handleOf_run_of_none _ held hl hnone, bind_run, createWrapper_run _ held hg hrefuse hreenter]
  exact hrun

/-- **A guest that crosses back gives the value its handle meanwhile**, and that one stays. -/
theorem handleOf_run_of_reenter {l : Lookup} (held : List HostId) (hg : w.guest = some g)
    (ht : g.heap.OK)
    (hn : ((g.alloc (.wrapper v)).2.alloc (.wrapper v)).2.heap.slots.size ≤ 2 ^ 32)
    (hl : Lookup.of? v = some l) (hnone : w.handle? v = none) (hrefuse : g.mode.refuse = false)
    (hreenter : g.mode.reenter = true)
    (hfree : w.context.crossings + 1 < collectInterval ∨ w.context.collecting = true) :
    ∃ w', handleOf (createWrapper fun v => discard (wrapWith trackCrossing
        (createWrapper fun _ => pure ()) v)) v held w = .ok (some (g.alloc (.wrapper v)).1) w' ∧
      Registry.Gains w.context.registry w'.context.registry w'.isLive l v (g.alloc (.wrapper v)).1 := by
  let k := (g.alloc (.wrapper v)).1
  let g₀ : Guest := { g with mode.reenter := false }
  let w₁ : World := { w with guest := some g₀ }
  let w₂ := w₁.counted
  have hnone₂ : w₂.handle? v = none := by
    have hlive : w₂.isLive = w.isLive := (World.isLive_of_guest hg).symm
    rw [← hnone, World.handle?, World.handle?, hlive]
    rfl
  have hn₀ : (g₀.alloc (.wrapper v)).2.heap.slots.size ≤ 2 ^ 32 :=
    le_trans (HandleTable.size_insert _) hn
  obtain ⟨r, hcross, hr⟩ := handleOf_run_of_new (w := w₂) (g := g₀) (fun _ => Pure.pure ())
    (v.holds ++ held) rfl ht hn₀ hl hnone₂ hrefuse rfl
  let g₁ : Guest := (g₀.alloc (.wrapper v)).2
  let w₃ : World := { w₂ with guest := some g₁, context.registry := r }
  have hnested : wrapWith trackCrossing (createWrapper fun _ => Pure.pure ()) v held w₁ =
      .ok (some k) w₃ := by
    unfold wrapWith holding
    rw [bind_run, show trackCrossing (v.holds ++ held) w₁ = .ok () w₂ from
      trackCrossing_run_of_lt _ hfree]
    exact hcross
  have hcreate : createWrapper (fun v => discard (wrapWith trackCrossing
      (createWrapper fun _ => Pure.pure ()) v)) v held w =
        .ok (g₁.alloc (.wrapper v)).1 { w₃ with guest := some (g₁.alloc (.wrapper v)).2 } :=
    createWrapper_run_of_reenter hg hrefuse hreenter (discard_run_of_ok hnested) rfl
  -- the guest makes a second object, which is not linked
  have hlive : (g₁.alloc (.wrapper v)).2.heap.isLive k :=
    HandleTable.isLive_insert (HandleTable.insert_ok ht _) hn
      (HandleTable.isLive_insert_self ht hn₀)
  have hfind := Registry.find?_of_find? hr.find hlive
  rw [handleOf_run_of_none _ held hl hnone, bind_run, hcreate]
  exact ⟨_, linkNew_run_of_linked held hfind, hfind, hr.key⟩

/-- A wrap that starts no collection is counted, and gives the value its handle. -/
theorem wrap_run_of_lt (hg : w.guest = some g)
    (hfree : w.context.crossings + 1 < collectInterval ∨ w.context.collecting = true) :
    wrap v [] w = handleOf (createWrapper fun v => discard (wrapWith trackCrossing
      (createWrapper fun _ => pure ()) v)) v (v.holds ++ []) w.counted := by
  unfold wrap wrapWith holding
  rw [bind_run, show trackCrossing (v.holds ++ []) w = _ from trackCrossing_run_of_lt _ hfree]
  dsimp only
  rw [bind_run, guest_run_of_some (show w.counted.guest = some g from hg)]

/-- **A value without a handle gets a new one**, and is linked to it, in a wrap that starts no
collection. -/
theorem wrap_run_of_none {l : Lookup} (hg : w.guest = some g) (ht : g.heap.OK)
    (hn : ((g.alloc (.wrapper v)).2.alloc (.wrapper v)).2.heap.slots.size ≤ 2 ^ 32)
    (hfree : w.context.crossings + 1 + g.mode.reenter.toNat < collectInterval ∨
      w.context.collecting = true)
    (hl : Lookup.of? v = some l) (hnone : w.handle? v = none) (hrefuse : g.mode.refuse = false) :
    ∃ w', wrap v [] w = .ok (some (g.alloc (.wrapper v)).1) w' ∧
      Registry.Gains w.context.registry w'.context.registry w'.isLive l v
        (g.alloc (.wrapper v)).1 := by
  rw [wrap_run_of_lt hg (hfree.imp (fun h => by omega) id)]
  cases hreenter : g.mode.reenter with
  | false =>
    obtain ⟨r, hnew, hr⟩ := handleOf_run_of_new (w := w.counted) (fun v => discard (wrapWith
      trackCrossing (createWrapper fun _ => Pure.pure ()) v)) (v.holds ++ []) hg ht
      (le_trans (HandleTable.size_insert _) hn) hl hnone hrefuse hreenter
    exact ⟨_, hnew, hr⟩
  | true =>
    rw [hreenter] at hfree
    exact handleOf_run_of_reenter (w := w.counted) (v.holds ++ []) hg ht hn hl hnone hrefuse
      hreenter hfree

/-- A guest that refuses fails the wrap of a value without a handle. -/
theorem wrap_run_of_refuse {l : Lookup} (hg : w.guest = some g)
    (hfree : w.context.crossings + 1 < collectInterval ∨ w.context.collecting = true)
    (hl : Lookup.of? v = some l) (hnone : w.handle? v = none) (hrefuse : g.mode.refuse = true) :
    ∃ w', wrap v [] w = .error (.guest "out of guest memory") w' := by
  rw [← World.handle?_counted] at hnone
  rw [wrap_run_of_lt hg hfree, handleOf_run_of_none _ _ hl hnone, bind_run,
    createWrapper_run_of_refuse (w := w.counted) _ _ hg hrefuse]
  exact ⟨_, rfl⟩

/-- What a guest's answer to a wrap is: the handle that the value has, or a new one. -/
def wrapAnswer (g : Guest) (known : Option Handle) (v : HostValue) :
    Except BridgeError (Option Handle) :=
  match known, Lookup.of? v with
  | some k, _ => .ok (some k)
  | none, none => .ok none
  | none, some _ =>
    if g.mode.refuse then .error (.guest "out of guest memory")
    else .ok (some (g.alloc (.wrapper v)).1)

/-- **What a wrap gives** that starts no collection: it depends on the links through the handle that
the value has and on nothing else. -/
theorem wrap_outcome (hg : w.guest = some g) (ht : g.heap.OK)
    (hn : ((g.alloc (.wrapper v)).2.alloc (.wrapper v)).2.heap.slots.size ≤ 2 ^ 32)
    (hfree : w.context.crossings + 1 + g.mode.reenter.toNat < collectInterval ∨
      w.context.collecting = true) :
    ((wrap v).outcome w).1 = wrapAnswer g (w.handle? v) v := by
  have hfree₁ : w.context.crossings + 1 < collectInterval ∨ w.context.collecting = true :=
    hfree.imp (fun h => by omega) id
  unfold wrapAnswer outcome
  cases hh : w.handle? v with
  | some k => rw [wrap_run_of_lt hg hfree₁, handleOf_run_of_handle? (w := w.counted) _ _ hh]
  | none =>
    cases hl : Lookup.of? v with
    | none => rw [wrap_run_of_lt hg hfree₁, handleOf_run_of_not_linked (w := w.counted) _ _ hl hh]
    | some l =>
      dsimp only
      cases hrefuse : g.mode.refuse with
      | true =>
        obtain ⟨w', hrun⟩ := wrap_run_of_refuse hg hfree₁ hl hh hrefuse
        rw [hrun, if_pos rfl]
      | false =>
        obtain ⟨w', hrun, -⟩ := wrap_run_of_none hg ht hn hfree hl hh hrefuse
        rw [hrun, if_neg Bool.false_ne_true]

end Answers

/-! ## Dead handles -/

section Dead

variable {class_ d : HostId}

/-- A crossing that fills the interval ends with a sweep. -/
theorem trackCrossing_run_of_full (hw : w.OK held) (hg : w.guest = some g)
    (hfull : ¬(w.context.crossings + 1 < collectInterval ∨ w.context.collecting = true)) :
    ∃ w₀ w₁ : World, trackCrossing held w = .ok () w₁ ∧
      w₁ = { w₀.swept held with context.collecting := false } := by
  have hc : w.context.collecting = false := by
    simpa using fun hc => hfull (.inr hc)
  obtain ⟨fates, r, w₀, hrun, -⟩ := collectGarbage_run hw hg hc
  refine ⟨w₀, _, ?_, rfl⟩
  unfold trackCrossing
  rw [bind_run, get_run]
  dsimp only
  rw [if_neg hfull]
  exact discard_run_of_ok hrun

/-- A dead handle is stale in a crossing that starts a collection. -/
theorem unwrap_outcome_of_full (hw : w.OK []) (hg : w.guest = some g)
    (hd : w.heap.classDefinition? class_ = some d)
    (hfull : ¬(w.context.crossings + 1 < collectInterval ∨ w.context.collecting = true)) :
    ∃ w₁, trackCrossing [class_] w = .ok () w₁ ∧
      ∀ k, ¬w₁.isLive k → ((unwrap (some k) class_).outcome w).1 = .error (.staleHandle k) := by
  have hok : w.OK ([class_] ++ []) := hw.hold fun i hi =>
    List.mem_singleton.1 hi ▸ isAlive_of_classDefinition? hd
  obtain ⟨w₀, w₁, htrack, hw₁⟩ := trackCrossing_run_of_full hok hg hfull
  have hmoves := trackCrossing_tracks (ℓ := .crossing) (by decide) _ w hok
  obtain ⟨h₁, -⟩ := hmoves.ok htrack
  obtain ⟨g₁, hg₁, -⟩ := h₁.guest_kept hok hg
  have hc₁ := (h₁.ok hok).held class_ (List.mem_singleton_self _)
  have hd₁ := (h₁.later hok).classDefinition? hw.heap hd hc₁
  refine ⟨w₁, htrack, fun k hk => ?_⟩
  have hlinks : w₁.context.registry.guestLinks.find? k = none := by
    rw [hw₁] at hk ⊢
    exact World.swept_guestLinks_of_not_isLive hk
  rw [unwrap_outcome htrack hg₁ hd₁, unwrapAnswer_of_not_isLive class_ hk, Registry.resolve?, hlinks]

/-- **What a sweep changes about an unwrap** that starts no collection: a dead handle is stale. -/
theorem unwrap_outcome_swept (hw : w.OK [class_]) (hg : w.guest = some g)
    (hd : w.heap.classDefinition? class_ = some d)
    (hfree : w.context.crossings + 1 < collectInterval ∨ w.context.collecting = true)
    (k : Handle) :
    ((unwrap (some k) class_).outcome (w.swept [class_])).1 =
      if w.isLive k then ((unwrap (some k) class_).outcome w).1 else .error (.staleHandle k) := by
  have hsettled := Reaches.settled (ℓ := .crossing) (by decide) w [class_]
  have hd' : (w.swept [class_]).heap.classDefinition? class_ = some d :=
    (hsettled.later hw).classDefinition? hw.heap hd (hw.isAlive_settled (List.mem_singleton_self _))
  rw [unwrap_outcome_of_lt (w := w.swept [class_]) hg hd' hfree, unwrap_outcome_of_lt hg hd hfree]
  split_ifs with hk
  · have hlive : (w.swept [class_]).isLive k = w.isLive k := rfl
    -- a new wrapper instance has the same identity after a sweep
    have hnext : (w.swept [class_]).heap.next = w.heap.next := rfl
    rw [unwrapAnswer, unwrapAnswer, World.swept_resolve? hw hk, hlive, hnext]
  · have hdead : ¬(w.swept [class_]).isLive k := hk
    rw [unwrapAnswer_of_not_isLive class_ hdead, World.swept_resolve?_of_not_isLive hk]

/-- **A sweep changes nothing about a wrap** that starts no collection. -/
theorem wrap_outcome_swept (hw : w.OK v.holds) (hg : w.guest = some g)
    (hn : ((g.alloc (.wrapper v)).2.alloc (.wrapper v)).2.heap.slots.size ≤ 2 ^ 32)
    (hfree : w.context.crossings + 1 + g.mode.reenter.toNat < collectInterval ∨
      w.context.collecting = true) :
    ((wrap v).outcome (w.swept v.holds)).1 = ((wrap v).outcome w).1 := by
  have ht := (hw.guest g hg).table
  rw [wrap_outcome (w := w.swept v.holds) hg ht hn hfree, wrap_outcome hg ht hn hfree,
    World.swept_handle? hw fun _ => id]

/-- **What a dead handle is unwrapped as**, in every reachable state and through any class.

* A crossing that starts no collection gives the value that the handle is still linked to, while
  that is alive. Only without one is the handle stale.
* In a crossing that starts a collection the handle is stale.
* A sweep changes nothing about the crossings that start no collection, but that dead handles are
  stale. Wraps are the same as long as the guest does not run out of handles. -/
theorem unwrap_of_not_isLive {g : Guest} {class_ d : HostId} (hw : w.Reachable)
    (hg : w.guest = some g) (hd : w.heap.classDefinition? class_ = some d) :
    ((w.context.crossings + 1 < collectInterval ∨ w.context.collecting = true) →
      (∀ k, ¬w.isLive k → ((unwrap (some k) class_).outcome w).1 =
        match w.context.registry.resolve? (w.settled [class_]).heap.isAlive k with
        | some v => .ok v
        | none => .error (.staleHandle k)) ∧
      ∃ r w', sweep {} [class_] w = .ok r w' ∧ ∀ k,
        ((unwrap (some k) class_).outcome w').1 =
          if w.isLive k then ((unwrap (some k) class_).outcome w).1 else .error (.staleHandle k)) ∧
    (¬(w.context.crossings + 1 < collectInterval ∨ w.context.collecting = true) →
      ∃ w₁, trackCrossing [class_] w = .ok () w₁ ∧
        ∀ k, ¬w₁.isLive k → ((unwrap (some k) class_).outcome w).1 = .error (.staleHandle k)) ∧
    ∀ v, w.heap.Backs (.value v) →
      ((g.alloc (.wrapper v)).2.alloc (.wrapper v)).2.heap.slots.size ≤ 2 ^ 32 →
      (w.context.crossings + 1 + g.mode.reenter.toNat < collectInterval ∨
        w.context.collecting = true) →
      ∃ r w', sweep {} v.holds w = .ok r w' ∧ ((wrap v).outcome w').1 = ((wrap v).outcome w).1 := by
  have hok := hw.ok
  have hclass : w.OK [class_] := by
    simpa using hok.hold fun i (hi : i ∈ [class_]) =>
      List.mem_singleton.1 hi ▸ isAlive_of_classDefinition? hd
  refine ⟨fun hfree => ⟨fun k hk => ?_, ?_⟩, unwrap_outcome_of_full hok hg hd,
    fun v hv hn hfree => ?_⟩
  · rw [unwrap_outcome_of_lt hg hd hfree, unwrapAnswer_of_not_isLive class_ hk]
  · obtain ⟨r, hsweep, -⟩ := sweep_run {} [class_] w
    exact ⟨r, _, hsweep, unwrap_outcome_swept hclass hg hd hfree⟩
  · obtain ⟨r, hsweep, -⟩ := sweep_run {} v.holds w
    have hvalue : w.OK (v.holds ++ []) := hok.hold hv.isAlive
    rw [List.append_nil] at hvalue
    exact ⟨r, _, hsweep, wrap_outcome_swept hvalue hg hn hfree⟩

/-- A session whose object has been wrapped. The guest has freed the wrapper. -/
def freed : World :=
  let steps : List Step :=
    [.set "class" (.external (.class "C")), .set "object" (.external (.object [])),
      .perform (.context (.wrap (.variable "object"))) "handle",
      .perform (.free (.variable "handle")) none]
  (runSteps steps (World.load {} {}).2.2).2

theorem freed_is_unwrapped_until_swept :
    ((unwrap (some ⟨0, 0⟩) ⟨1⟩).outcome freed).1 = .ok (.object ⟨2⟩) ∧
      ∃ r w', sweep {} [⟨1⟩] freed = .ok r w' ∧
        ((unwrap (some ⟨0, 0⟩) ⟨1⟩).outcome w').1 = .error (.staleHandle ⟨0, 0⟩) := by
  have hw : freed.Reachable := ⟨{}, {}, _, _, rfl, World.later_runSteps _ _⟩
  obtain ⟨g, hg⟩ : ∃ g, freed.guest = some g := Option.isSome_iff_exists.1 (by decide +kernel)
  have hd : freed.heap.classDefinition? ⟨1⟩ = some ⟨0⟩ := by decide +kernel
  have hdead : ¬freed.isLive ⟨0, 0⟩ := by decide +kernel
  have hlinked : freed.context.registry.resolve? (freed.settled [⟨1⟩]).heap.isAlive ⟨0, 0⟩ =
      some (.object ⟨2⟩) := by decide +kernel
  obtain ⟨hunwrap, r, w', hsweep, hswept⟩ :=
    (unwrap_of_not_isLive hw hg hd).1 (.inl (by decide +kernel))
  refine ⟨?_, r, w', hsweep, ?_⟩
  · rw [hunwrap ⟨0, 0⟩ hdead, hlinked]
  · rw [hswept, if_neg hdead]

end Dead

end BridgeM

end GuestBridge
