import GuestBridge.Proofs.Stale

/-!
# What the registry keeps alive

The registry holds primitives only, and of these only the strings are alive or dead. It
holds a string as what a handle leads back to, or as the key of a content. After a
collection the first is the string that the guest's wrapper was made for. The second
need not be: a content keeps the key that was stored with it first, even when that
key's own guest object is gone, as long as no collection has come in between.

* `World.isAlive_settled_iff`: **the registry keeps its keys alive, and nothing else**.
* `collectGarbage_unlinks`: after a collection every link has its guest object.
* `wrap_gains`: with which value a content is stored.
* `collectGarbage_keeps_keys`: **what outlives its guest object**, over whole runs.
-/

namespace GuestBridge

variable {held : List HostId} {ℓ : Level} {w w' : World} {k : Handle} {v : HostValue} {g : Guest}

/-- The state without its registry. -/
def World.unlinked (w : World) : World := { w with context.registry := {} }

/-- The guest object behind the handle was made for the value. -/
def World.Stores (w : World) (k : Handle) (v : HostValue) : Prop :=
  ∃ g, w.guest = some g ∧ g.heap.get? k = some (.wrapper v)

/-- Some content is stored with a value of that identity. -/
def Registry.HasKey (r : Registry) (i : HostId) : Prop :=
  ∃ key l, r.primitives.find? key = some l ∧ i ∈ l.key.holds

/-! ## What would be alive without the registry -/

section Unlinked

theorem World.mem_holds_iff {i : HostId} :
    i ∈ w.holds ↔ i ∈ w.context.registry.holds ∨ i ∈ w.unlinked.holds := by
  have hempty : ({} : Registry).holds = [] := rfl
  simp only [World.holds, World.unlinked, Context.holds, hempty, List.mem_append]
  simp only [List.not_mem_nil, false_or]
  tauto

/-- What the registry holds is a key, or is held by a guest object as well. -/
theorem World.hasKey_of_mem_holds (hw : w.OK held)
    (hback : ∀ k v, w.context.registry.guestLinks.find? k = some (.primitive v) → w.Stores k v)
    {i : HostId} (hi : i ∈ w.context.registry.holds) :
    w.context.registry.HasKey i ∨ i ∈ w.unlinked.holds := by
  have hr := hw.context.registry
  simp only [Registry.holds, List.mem_append, List.mem_flatMap] at hi
  rcases hi with ⟨l, hl, hi⟩ | ⟨b, hb, hi⟩
  · obtain ⟨⟨key, l⟩, he, rfl⟩ := List.mem_map.1 hl
    exact .inl ⟨key, l, (OrderedMap.find?_eq_some_iff hr.nodup_primitives).2 he, hi⟩
  · obtain ⟨⟨k, b⟩, he, rfl⟩ := List.mem_map.1 hb
    cases b with
    | weak r => simp at hi
    -- a guest object with this content stands behind the link and holds its parts
    | primitive v =>
      obtain ⟨g, hg, ho⟩ := hback k v ((OrderedMap.find?_eq_some_iff hr.nodup_guest).2 he)
      exact .inr (World.holds_guest (w := w.unlinked) hg
        (Guest.holds_object (HandleTable.stores_of_get? ho) hi))

/-- A key is a string, which holds nothing. -/
theorem World.cell?_of_hasKey (hw : w.OK held) {i : HostId} (hi : w.context.registry.HasKey i) :
    ∃ t, w.heap.cell? i = some (.string t) := by
  obtain ⟨key, l, hl, hi⟩ := hi
  exact Heap.Admits.string_of_mem_holds
    (hw.context.registry.keys l (OrderedMap.mem_values_of_find? hl)) hi

/-- **The registry keeps its keys alive, and nothing else**, as long as what its handles lead back
to is what their guest objects were made for. -/
theorem World.isAlive_settled_iff {ids : List HostId} (hw : w.OK held)
    (hback : ∀ k v, w.context.registry.guestLinks.find? k = some (.primitive v) → w.Stores k v)
    (i : HostId) :
    (w.settled ids).heap.isAlive i ↔
      (w.unlinked.settled ids).heap.isAlive i ∨ w.context.registry.HasKey i := by
  have hn := hw.heap.nodup
  constructor
  · intro ha
    by_cases hkey : w.context.registry.HasKey i
    · exact .inr hkey
    -- the cells that are alive and no keys do not need the registry
    obtain ⟨c, hc⟩ := Heap.isAlive_iff.1 ha
    refine .inl (Heap.isAlive_of_cell? (Heap.cell?_reclaim_of_closed (P := fun j =>
      (∃ d, (w.settled ids).heap.cell? j = some d) ∧ ¬w.context.registry.HasKey j) hn ?_
      ⟨⟨c, hc⟩, hkey⟩ (Heap.cell?_of_reclaim hn hc)))
    rintro j ⟨⟨d, hd⟩, hj⟩
    rcases ((Heap.cell?_reclaim_iff hn).1 hd).2 with hroot | ⟨l, c', hc', hm⟩
    · refine .inl (List.mem_append.2 ((List.mem_append.1 hroot).imp id fun hroot => ?_))
      rcases World.mem_holds_iff.1 hroot with hroot | hroot
      · exact (World.hasKey_of_mem_holds hw hback hroot).resolve_left hj
      · exact hroot
    · have hl := Heap.cell?_of_reclaim hn hc'
      refine .inr ⟨l, c', ⟨⟨c', hc'⟩, fun hkey => ?_⟩, hl, hm⟩
      obtain ⟨t, ht⟩ := World.cell?_of_hasKey hw hkey
      obtain rfl := Option.some.inj (hl.symm.trans ht)
      cases hm
  · rintro (ha | ⟨key, l, hl, hi⟩)
    · obtain ⟨c, hc⟩ := Heap.isAlive_iff.1 ha
      refine Heap.isAlive_of_cell? (Heap.cell?_reclaim_of_closed (P := fun j =>
        ∃ d, (w.unlinked.settled ids).heap.cell? j = some d) hn ?_ ⟨c, hc⟩
        (Heap.cell?_of_reclaim hn hc))
      rintro j ⟨d, hd⟩
      rcases ((Heap.cell?_reclaim_iff (h := w.heap) hn).1 hd).2 with hroot | ⟨l, c', hc', hm⟩
      · exact .inl (List.mem_append.2 ((List.mem_append.1 hroot).imp id fun hroot =>
          World.mem_holds_iff.2 (.inr hroot)))
      · exact .inr ⟨l, c', ⟨c', hc'⟩, Heap.cell?_of_reclaim (h := w.heap) hn hc', hm⟩
    · have hmem := OrderedMap.mem_values_of_find? hl
      have halive := (hw.context.registry.keys l hmem).1.isAlive i hi
      exact Heap.isAlive_reclaim_of_root hn halive (List.mem_append_right _
        (World.holds_context (Context.holds_registry (Registry.holds_key hmem hi))))

end Unlinked

/-- Every link has its guest object. -/
structure World.Swept (w : World) : Prop where
  guestLinks : ∀ k b, w.context.registry.guestLinks.find? k = some b → w.isLive k
  primitives : ∀ key l, w.context.registry.primitives.find? key = some l → w.isLive l.handle

section Swept

/-- A primitive that a live handle leads back to is the one its guest object was made for. -/
theorem World.Linked.stores (hl : w.Linked) (hin : w.InRange) (hk : w.isLive k)
    (hb : w.context.registry.guestLinks.find? k = some (.primitive v)) : w.Stores k v := by
  obtain ⟨g, hg, hlive⟩ := World.isLive_iff.1 hk
  have hlinks := hl g hg (hin g hg)
  obtain ⟨key, l, -, hprim, rfl⟩ := hlinks.primitive_back k v hb hlive
  obtain ⟨x, -, hback, ho⟩ := hlinks.primitive key l hprim hlive
  obtain rfl := Backlink.primitive.inj (Option.some.inj (hback.symm.trans hb))
  exact ⟨g, hg, ho⟩

/-- After a sweep that holds of every primitive that a handle leads back to. -/
theorem World.Swept.stores (hs : w.Swept) (hl : w.Linked) (hin : w.InRange)
    (hb : w.context.registry.guestLinks.find? k = some (.primitive v)) : w.Stores k v :=
  hl.stores hin (hs.guestLinks k _ hb) hb

/-- The guest object of a content was made for a primitive of that content. -/
theorem World.Swept.stores_key (hs : w.Swept) (hl : w.Linked) (hin : w.InRange)
    {key : PrimitiveKey} {l : PrimitiveLink}
    (hprim : w.context.registry.primitives.find? key = some l) :
    PrimitiveKey.of? l.key = some key ∧
      ∃ v, PrimitiveKey.of? v = some key ∧ w.Stores l.handle v := by
  obtain ⟨g, hg, hlive⟩ := World.isLive_iff.1 (hs.primitives key l hprim)
  have hlinks := hl g hg (hin g hg)
  obtain ⟨v, hv, -, ho⟩ := hlinks.primitive key l hprim hlive
  exact ⟨hlinks.keys key l hprim, v, hv, g, hg, ho⟩

end Swept

namespace BridgeM

/-! ## After a collection -/

section Collected

/-- **After a collection every link has its guest object.** -/
theorem collectGarbage_unlinks (hw : w.OK held) (hg : w.guest = some g)
    (hc : w.context.collecting = false) :
    ∃ r w', collectGarbage held w = .ok r w' ∧ Reaches .crossing held w w' ∧ w'.Swept ∧
      w'.context.collecting = false := by
  obtain ⟨fates, r, w₁, hrun, -⟩ := collectGarbage_run hw hg hc
  refine ⟨r, _, hrun, ((collectGarbage_leads (by decide) hw).ok hrun).1, ⟨fun k b hb => ?_,
    fun key l hl => ?_⟩, rfl⟩
  · have hkept := (List.mem_filter.1 (OrderedMap.mem_entries_of_find? hb)).2
    exact (Bool.and_eq_true_iff.1 hkept).2
  · exact (List.mem_filter.1 (OrderedMap.mem_entries_of_find? hl)).2

/-- What a weak reference to a string gives. -/
theorem derefString_outcome {i : HostId} {s : HostString}
    (hi : w.heap.weakTarget? i = some (.string s)) :
    ((derefString (.object i)).outcome w).1 =
      .ok (if (w.settled [i]).heap.isAlive s.id then .string s else .undefined) := by
  have htarget : weakTarget (.object i) [i] w = .ok (.string s) w := by
    unfold weakTarget
    rw [bind_run, get_run]
    dsimp only [HostValue.object?, Option.bind_some]
    rw [hi]
    rfl
  have hrun : derefString (.object i) [] w =
      .ok (if (w.settled [i]).heap.isAlive s.id then .string s else .undefined) (w.settled [i]) := by
    unfold derefString holding
    rw [bind_run, show weakTarget (.object i) ((HostValue.object i).holds ++ []) w = _ from htarget]
    change followTarget (.string s) [i] w = _
    unfold followTarget
    rw [bind_run, aliveNow_run]
    rfl
  exact outcome_fst_of_ok hrun

/-- **With which value a content is stored** by a wrap that starts no collection. -/
theorem wrap_gains {l : Lookup} (hg : w.guest = some g) (ht : g.heap.OK)
    (hn : ((g.alloc (.wrapper v)).2.alloc (.wrapper v)).2.heap.slots.size ≤ 2 ^ 32)
    (hfree : w.context.crossings + 1 + g.mode.reenter.toNat < collectInterval ∨
      w.context.collecting = true)
    (hl : Lookup.of? v = some l) (hnone : w.handle? v = none)
    (hrun : wrap v [] w = .ok (some k) w') :
    w.context.registry.Gains w'.context.registry w'.isLive l v k := by
  cases hrefuse : g.mode.refuse with
  | true =>
    obtain ⟨w₁, hrun₁⟩ :=
      wrap_run_of_refuse hg (hfree.imp (fun h => by omega) id) hl hnone hrefuse
    cases hrun.symm.trans hrun₁
  | false =>
    obtain ⟨w₁, hrun₁, hgains⟩ := wrap_run_of_none hg ht hn hfree hl hnone hrefuse
    cases hrun.symm.trans hrun₁
    exact hgains

/-- A content keeps the value that it is stored with while the guest object is there. -/
theorem keyFor_of_wrap {key : PrimitiveKey} {w₁ w₂ : World} (hw : w.OK []) (hl : w.Linked)
    (hg : w.guest = some g) (hv : w.heap.Backs (.value v)) (hkey : PrimitiveKey.of? v = some key)
    (hnone : w.handle? v = none)
    (hn : ((g.alloc (.wrapper v)).2.alloc (.wrapper v)).2.heap.slots.size ≤ 2 ^ 32)
    (hfree : w.context.crossings + 1 + g.mode.reenter.toNat < collectInterval ∨
      w.context.collecting = true)
    (hrun : wrap v [] w = .ok (some k) w₁) (hlater : w₁.Later w₂) (hin : w₂.InRange)
    (hk : w₂.isLive k) :
    w₂.context.registry.primitives.find? key = some ⟨w.context.registry.keyFor key v, k⟩ := by
  have hgains := wrap_gains hg (hw.guest g hg).table hn hfree (Lookup.of?_eq_primitive_iff.2 hkey)
    hnone hrun
  obtain ⟨h₁, -⟩ := ((wrap_leads (ℓ := .crossing) (by decide)) [] w v hw hv).ok hrun
  have hw₁ := h₁.ok hw
  exact (hlater.reaches hw₁).primitiveLink hw₁ (h₁.linked hw hl) hin hk (hgains.key key rfl)

/-- **What outlives its guest object**, in all runs and as long as the guest's table is in range.

After a collection, which any call may start,
* a primitive that a handle leads back to is the one that the guest object was made for;
* a content is stored with a value of that content, and its guest object was made for a maybe
  different one;
* the registry keeps alive what contents are stored with, and nothing else: anything else is dead
  that nothing but the registry holds. Weak references to a dead string are undefined, and the next
  collection gives notice of it.

A content is stored with the value that was wrapped for it, unless it was stored with another one
then. It stays stored with that value while the guest object is there. -/
theorem collectGarbage_keeps_keys (hw : w.Reachable) :
    (∀ (held : List HostId) (w₁ : World) (g : Guest), Reaches .outer [] w w₁ →
      (∀ i ∈ held, w₁.heap.isAlive i) → w₁.guest = some g → w₁.context.collecting = false →
      ∃ r w', collectGarbage held w₁ = .ok r w' ∧ (w'.InRange →
        (∀ k v, w'.context.registry.guestLinks.find? k = some (.primitive v) → w'.Stores k v) ∧
        (∀ key l, w'.context.registry.primitives.find? key = some l →
          PrimitiveKey.of? l.key = some key ∧
            ∃ v, PrimitiveKey.of? v = some key ∧ w'.Stores l.handle v) ∧
        (∀ ids i, (w'.settled ids).heap.isAlive i ↔
          (w'.unlinked.settled ids).heap.isAlive i ∨ w'.context.registry.HasKey i) ∧
        (∀ i s, w'.heap.weakTarget? i = some (.string s) →
          ((derefString (.object i)).outcome w').1 =
            .ok (if (w'.settled [i]).heap.isAlive s.id then .string s else .undefined)) ∧
        ∃ fates r' w₂ w₃, collectGarbage [] w' = .ok r' w₃ ∧
          Delivered [] fates (w'.polled []) w₂ ∧ fates.map Prod.fst =
            w'.context.watched.filter fun x => !(w'.settled []).heap.isAlive x.target.id)) ∧
    ∀ (g : Guest) (v : HostValue) (key : PrimitiveKey) (k : Handle) (w₁ w₂ : World),
      w.guest = some g → w.heap.Backs (.value v) → PrimitiveKey.of? v = some key →
      w.handle? v = none →
      ((g.alloc (.wrapper v)).2.alloc (.wrapper v)).2.heap.slots.size ≤ 2 ^ 32 →
      (w.context.crossings + 1 + g.mode.reenter.toNat < collectInterval ∨
        w.context.collecting = true) →
      (wrap v).outcome w = (.ok (some k), w₁) → w₁.Later w₂ → w₂.InRange → w₂.isLive k →
      w₂.context.registry.primitives.find? key = some ⟨w.context.registry.keyFor key v, k⟩ := by
  have hok := hw.ok
  have hl := hw.linked
  refine ⟨fun held w₁ g hr hheld hg hc => ?_, ?_⟩
  · have hok₁ := hr.ok hok
    have hokheld : w₁.OK (held ++ []) := hok₁.hold hheld
    rw [List.append_nil] at hokheld
    obtain ⟨r, w', hrun, hmoves, hswept, hc'⟩ := collectGarbage_unlinks hokheld hg hc
    have hok' := hmoves.ok hokheld
    have hl' := hmoves.linked hokheld (hr.linked hok hl)
    obtain ⟨g', hg', -⟩ := hmoves.guest_kept hokheld hg
    refine ⟨r, w', hrun, fun hin => ⟨fun k v => hswept.stores hl' hin,
      fun key l => hswept.stores_key hl' hin,
      fun ids i => World.isAlive_settled_iff hok' (fun k v => hswept.stores hl' hin) i,
      fun i s => derefString_outcome, ?_⟩⟩
    have hnone : w'.OK [] := hok'.release nofun
    obtain ⟨fates, r', w₂, hrun', hfates, hdel, -⟩ := collectGarbage_run hnone hg' hc'
    exact ⟨fates, r', w₂, _, hrun', hdel, hfates⟩
  · intro g v key k w₁ w₂ hg hv hkey hnone hn hfree hrun
    exact keyFor_of_wrap hok hl hg hv hkey hnone hn hfree (run_of_outcome hrun)

/-- A session in which a string was wrapped while the wrapper of another one with the same text was
gone, and no collection had come in between. -/
def retained : World :=
  let steps : List Step :=
    [.set "first" (.external (.string "abc")),
      .perform (.context (.wrap (.variable "first"))) "handle",
      .perform (.free (.variable "handle")) none, .perform (.drop "first") none,
      .set "second" (.external (.string "abc")),
      .perform (.context (.wrap (.variable "second"))) "handle"]
  (runSteps steps (World.load {} {}).2.2).2

theorem retained_keeps_first :
    ∃ r w', collectGarbage [] retained = .ok r w' ∧ (w'.settled []).heap.isAlive ⟨0⟩ ∧
      ¬(w'.unlinked.settled []).heap.isAlive ⟨0⟩ := by
  have hw : retained.Reachable := ⟨{}, {}, _, _, rfl, World.later_runSteps _ _⟩
  obtain ⟨g, hg⟩ : ∃ g, retained.guest = some g := Option.isSome_iff_exists.1 (by decide +kernel)
  obtain ⟨r, w', hrun, h⟩ := (collectGarbage_keeps_keys hw).1 [] retained g .refl nofun hg
    (by decide +kernel)
  obtain rfl : final collectGarbage [] retained = w' := final_of_ok hrun
  obtain ⟨-, -, halive, -⟩ := h (by decide +kernel)
  have hkey : ((final collectGarbage [] retained).context.registry.primitives.find?
      (.string "abc")).map PrimitiveLink.key = some (.string ⟨⟨0⟩, "abc"⟩) := by decide +kernel
  obtain ⟨l, hl, hfirst⟩ := Option.map_eq_some_iff.1 hkey
  have hheld : (⟨0⟩ : HostId) ∈ l.key.holds := by rw [hfirst]; exact List.mem_singleton_self _
  exact ⟨r, _, hrun, (halive [] ⟨0⟩).2 (.inr ⟨_, l, hl, hheld⟩), by decide +kernel⟩

end Collected

end BridgeM

end GuestBridge
