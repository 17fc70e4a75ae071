import GuestBridge.Proofs.Alive
import GuestBridge.Proofs.Slots
import GuestBridge.World

/-!
# States without dangling references

A state is well formed (`World.OK`) when its heap backs every part of the roots
(variables, cells, context, guest) and knows what is linked weakly, and when what the
calls in progress hold is alive.

* `World.mem_holds`: what a state holds are the identities of parts that its heap backs.
* `World.OK.withHeap`: **a state stays well formed under a later heap in which its roots
  are alive.**
-/

namespace GuestBridge

/-! ## What the roots refer to -/

/-- The parts of a guest object. -/
def GuestObject.parts : GuestObject → List Part
  | wrapper v => [.value v]
  | _ => []

/-- What a guest object holds are the identities in its parts. -/
theorem GuestObject.mem_holds {o : GuestObject} {i : HostId} :
    i ∈ o.holds ↔ ∃ p ∈ o.parts, i ∈ p.ids := by
  cases o <;> simp [GuestObject.holds, GuestObject.parts, Part.ids]

/-- The heap backs a primitive that can be linked, and knows the object or the symbol of a weak
link. -/
def Heap.Admits (h : Heap) : Backlink → Prop
  | .weak r => h.Knows r ∧ r.isString = false
  | .primitive v => h.Backs (.value v) ∧ (PrimitiveKey.of? v).isSome

variable {h h' : Heap} {held : List HostId} {w : World}

/-- The links have distinct keys, and lead to what the heap has or has had. -/
structure Registry.OK (h : Heap) (r : Registry) : Prop where
  nodup_host : r.hostLinks.keys.Nodup
  nodup_guest : r.guestLinks.keys.Nodup
  nodup_primitives : r.primitives.keys.Nodup
  host : ∀ i ∈ r.hostLinks.keys, i.index < h.next
  backlinks : ∀ b ∈ r.guestLinks.values, h.Admits b
  keys : ∀ l ∈ r.primitives.values, h.Admits (.primitive l.key)

/-- The context refers to what the heap has or has had. -/
structure Context.OK (h : Heap) (c : Context) : Prop where
  registry : c.registry.OK h
  nodup_hashes : c.hasher.assigned.keys.Nodup
  hashes : ∀ i ∈ c.hasher.assigned.keys, i.index < h.next
  targets : ∀ x ∈ c.watched, h.Knows x.target
  tokens : ∀ x ∈ c.watched, ∀ p ∈ x.token.parts, h.Backs p
  globals : ∀ v ∈ c.globals.values, h.Backs (.value v)

/-- The guest's table is well formed, and the guest refers to what the heap has. -/
structure Guest.OK (h : Heap) (g : Guest) : Prop where
  table : g.heap.OK
  objects : ∀ o, g.heap.Stores o → ∀ p ∈ o.parts, h.Backs p
  reports : ∀ x ∈ g.reports, ∀ p ∈ x.2.parts, h.Backs p

/-- **Nothing dangles.** The heap is well formed and backs every part of the roots, and what the
calls in progress hold is alive. -/
structure World.OK (held : List HostId) (w : World) : Prop where
  heap : w.heap.OK
  held : ∀ i ∈ held, w.heap.isAlive i
  context : w.context.OK w.heap
  guest : ∀ g, w.guest = some g → g.OK w.heap
  bindings : ∀ v ∈ w.bindings.values, ∀ p ∈ v.parts, w.heap.Backs p
  cells : ∀ v ∈ w.cells.values, w.heap.Backs (.value v)

theorem Registry.empty_ok (h : Heap) : ({} : Registry).OK h :=
  ⟨List.nodup_nil, List.nodup_nil, List.nodup_nil, by simp [OrderedMap.keys],
    by simp [OrderedMap.values], by simp [OrderedMap.values]⟩

/-! ## What a state holds -/

section Holds

theorem Registry.holds_key {r : Registry} {l : PrimitiveLink} (hl : l ∈ r.primitives.values)
    {i : HostId} (hi : i ∈ l.key.holds) : i ∈ r.holds :=
  List.mem_append_left _ (List.mem_flatMap.2 ⟨l, hl, hi⟩)

theorem Registry.holds_primitive {r : Registry} {v : HostValue}
    (hv : Backlink.primitive v ∈ r.guestLinks.values) {i : HostId} (hi : i ∈ v.holds) :
    i ∈ r.holds :=
  List.mem_append_right _ (List.mem_flatMap.2 ⟨_, hv, hi⟩)

/-- What is bound to a variable is held, here and below: so it survives a reclaim. -/
theorem World.holds_binding {v : GuestValue} (hv : v ∈ w.bindings.values) {i : HostId}
    (hi : i ∈ v.holds) : i ∈ w.holds := by
  simp only [World.holds, List.mem_append, List.mem_flatMap]
  exact .inl (.inl (.inl ⟨v, hv, hi⟩))

theorem World.holds_cell {v : HostValue} (hv : v ∈ w.cells.values) {i : HostId}
    (hi : i ∈ v.holds) : i ∈ w.holds := by
  simp only [World.holds, List.mem_append, List.mem_flatMap]
  exact .inl (.inl (.inr ⟨v, hv, hi⟩))

theorem World.holds_context {i : HostId} (hi : i ∈ w.context.holds) : i ∈ w.holds := by
  simp only [World.holds, List.mem_append]
  exact .inl (.inr hi)

theorem World.holds_guest {g : Guest} (hg : w.guest = some g) {i : HostId} (hi : i ∈ g.holds) :
    i ∈ w.holds := by
  simp only [World.holds, List.mem_append, hg]
  exact .inr hi

theorem Context.holds_registry {c : Context} {i : HostId} (hi : i ∈ c.registry.holds) :
    i ∈ c.holds :=
  List.mem_append_left _ (List.mem_append_left _ hi)

theorem Context.holds_token {c : Context} {x : Watch} (hx : x ∈ c.watched) {i : HostId}
    (hi : i ∈ x.token.holds) : i ∈ c.holds :=
  List.mem_append_left _ (List.mem_append_right _ (List.mem_flatMap.2 ⟨x, hx, hi⟩))

theorem Context.holds_global {c : Context} {v : HostValue} (hv : v ∈ c.globals.values) {i : HostId}
    (hi : i ∈ v.holds) : i ∈ c.holds :=
  List.mem_append_right _ (List.mem_flatMap.2 ⟨v, hv, hi⟩)

theorem Guest.holds_object {g : Guest} {o : GuestObject} (ho : g.heap.Stores o) {i : HostId}
    (hi : i ∈ o.holds) : i ∈ g.holds := by
  obtain ⟨k, hk⟩ := HandleTable.stores_iff.1 ho
  exact List.mem_append_left _ (List.mem_flatMap.2 ⟨(k, o), hk, hi⟩)

theorem Guest.holds_report {g : Guest} {x : Channel × GuestValue} (hx : x ∈ g.reports) {i : HostId}
    (hi : i ∈ x.2.holds) : i ∈ g.holds :=
  List.mem_append_right _ (List.mem_flatMap.2 ⟨x, Array.mem_toList_iff.2 hx, hi⟩)

end Holds

/-! ## Later heaps -/

section Later

/-- A link stays admissible while its cells change, if what it holds is alive. -/
theorem Heap.Admits.later {b : Backlink} (hb : h.Admits b) (hh : h.OK) (hl : h.Later h')
    (ha : ∀ v, b = .primitive v → ∀ i ∈ v.holds, h'.isAlive i) : h'.Admits b := by
  cases b with
  | weak r => exact ⟨hb.1.later hh hl, hb.2⟩
  | primitive v => exact ⟨hb.1.later hh hl (ha v rfl), hb.2⟩

/-- The books are well formed in a later heap, if what they hold is still there. -/
theorem Registry.OK.later {r : Registry} (hr : r.OK h) (hh : h.OK) (hl : h.Later h')
    (ha : ∀ i ∈ r.holds, h'.isAlive i) : r.OK h' where
  nodup_host := hr.nodup_host
  nodup_guest := hr.nodup_guest
  nodup_primitives := hr.nodup_primitives
  host i hi := lt_of_lt_of_le (hr.host i hi) hl.next_le
  backlinks b hb := (hr.backlinks b hb).later hh hl fun _ hv i hi =>
    ha i (Registry.holds_primitive (hv ▸ hb) hi)
  keys l hl' := (hr.keys l hl').later hh hl fun _ hv i hi =>
    ha i (Registry.holds_key hl' (Backlink.primitive.inj hv ▸ hi))

theorem Context.OK.later {c : Context} (hc : c.OK h) (hh : h.OK) (hl : h.Later h')
    (ha : ∀ i ∈ c.holds, h'.isAlive i) : c.OK h' where
  registry := hc.registry.later hh hl fun i hi => ha i (Context.holds_registry hi)
  nodup_hashes := hc.nodup_hashes
  hashes i hi := lt_of_lt_of_le (hc.hashes i hi) hl.next_le
  targets x hx := (hc.targets x hx).later hh hl
  tokens x hx p hp := (hc.tokens x hx p hp).later hh hl fun i hi =>
    ha i (Context.holds_token hx (GuestValue.mem_holds.2 ⟨p, hp, hi⟩))
  globals v hv := (hc.globals v hv).later hh hl fun i hi => ha i (Context.holds_global hv hi)

/-- So are the objects of the guest and the notices that it has taken. -/
theorem Guest.OK.later {g : Guest} (hg : g.OK h) (hh : h.OK) (hl : h.Later h')
    (ha : ∀ i ∈ g.holds, h'.isAlive i) : g.OK h' where
  table := hg.table
  objects o ho p hp := (hg.objects o ho p hp).later hh hl fun i hi =>
    ha i (Guest.holds_object ho (GuestObject.mem_holds.2 ⟨p, hp, hi⟩))
  reports x hx p hp := (hg.reports x hx p hp).later hh hl fun i hi =>
    ha i (Guest.holds_report hx (GuestValue.mem_holds.2 ⟨p, hp, hi⟩))

/-- **A state stays well formed under a later heap in which its roots are alive.** -/
theorem World.OK.withHeap (hw : w.OK held) (hh' : h'.OK) (hl : w.heap.Later h')
    (ha : ∀ i, i ∈ held ∨ i ∈ w.holds → h'.isAlive i) : World.OK held { w with heap := h' } where
  heap := hh'
  held i hi := ha i (.inl hi)
  context := hw.context.later hw.heap hl fun i hi => ha i (.inr (World.holds_context hi))
  guest g hg := (hw.guest g hg).later hw.heap hl fun i hi => ha i (.inr (World.holds_guest hg hi))
  bindings v hv p hp := (hw.bindings v hv p hp).later hw.heap hl fun i hi =>
    ha i (.inr (World.holds_binding hv (GuestValue.mem_holds.2 ⟨p, hp, hi⟩)))
  cells v hv := (hw.cells v hv).later hw.heap hl fun i hi => ha i (.inr (World.holds_cell hv hi))

end Later

/-- **What a state holds is alive.** -/
theorem World.OK.isAlive_of_holds (hw : w.OK held) {i : HostId} (hi : i ∈ w.holds) :
    w.heap.isAlive i := by
  simp only [World.holds, Context.holds, Registry.holds, List.mem_append, List.mem_flatMap] at hi
  -- variables, what host functions keep, keys and links back, tokens, globals, and the guest
  rcases hi with ((⟨v, hv, hi⟩ | ⟨v, hv, hi⟩) | ((⟨l, hl, hi⟩ | ⟨b, hb, hi⟩) | ⟨x, hx, hi⟩) |
    ⟨v, hv, hi⟩) | hi
  · obtain ⟨p, hp, hi⟩ := GuestValue.mem_holds.1 hi
    exact (hw.bindings v hv p hp).isAlive i hi
  · exact (hw.cells v hv).isAlive i hi
  · exact (hw.context.registry.keys l hl).1.isAlive i hi
  · cases b with
    | weak r => simp at hi
    | primitive v => exact Heap.Backs.isAlive (hw.context.registry.backlinks _ hb).1 i hi
  · obtain ⟨p, hp, hi⟩ := GuestValue.mem_holds.1 hi
    exact (hw.context.tokens x hx p hp).isAlive i hi
  · exact (hw.context.globals v hv).isAlive i hi
  · cases hg : w.guest with
    | none => simp [hg] at hi
    | some g =>
      simp only [hg, Option.elim_some, Guest.holds, List.mem_append, List.mem_flatMap] at hi
      rcases hi with ⟨e, he, hi⟩ | ⟨x, hx, hi⟩
      · obtain ⟨p, hp, hi⟩ := GuestObject.mem_holds.1 hi
        exact ((hw.guest g hg).objects e.2 (HandleTable.stores_iff.2 ⟨e.1, he⟩) p hp).isAlive i hi
      · obtain ⟨p, hp, hi⟩ := GuestValue.mem_holds.1 hi
        exact ((hw.guest g hg).reports x (Array.mem_toList_iff.1 hx) p hp).isAlive i hi

/-- A call may hold whatever is alive. -/
theorem World.OK.hold (hw : w.OK held) {ids : List HostId} (hi : ∀ i ∈ ids, w.heap.isAlive i) :
    w.OK (ids ++ held) :=
  { hw with held := fun i hm => (List.mem_append.1 hm).elim (hi i) (hw.held i) }

/-- So may another call. -/
theorem World.OK.rehold (hw : w.OK held) {held' : List HostId}
    (hi : ∀ i ∈ held', w.heap.isAlive i) : w.OK held' :=
  { hw with held := hi }

/-- A call that holds less is in order as well. -/
theorem World.OK.release (hw : w.OK held) {held' : List HostId} (hi : ∀ i ∈ held', i ∈ held) :
    w.OK held' :=
  { hw with held := fun i hm => hw.held i (hi i hm) }

end GuestBridge
