import Mathlib.Logic.Relation
import GuestBridge.Crossing
import GuestBridge.Proofs.Sound

/-!
# Moves

What a bridge does to its state comes down to a few *moves*. They are of three levels:
what a guest can do while it takes a notice (`Quiet`), what a crossing can do besides
(`Cross`), and what the embedder and host functions can do besides (`Outer`). A move says
under which condition it is made, so that what the moves keep, every action keeps.

* `Move.ok`: **a move keeps a state well formed.**
* `Move.later`: the heap after a move is later than the one before.
* `Reaches.ok`, `Reaches.later`: the same of any number of moves.
* `Reaches.backs`: what a call holds stays backed.
-/

namespace GuestBridge

/-- The handle that a cell stands for, if it is a wrapper instance. -/
def Cell.handle? : Cell → Option Handle
  | object ⟨.wrapper _ h, _, _⟩ => some h
  | _ => none

/-- Which handle a cell stands for is a matter of its shape. -/
theorem Cell.handle?_eq_of_shape {c c' : Cell} (hs : c'.shape = c.shape) :
    c'.handle? = c.handle? := by
  cases c with
  | object o =>
    cases c' with
    | object o' =>
      obtain ⟨kind, _, _⟩ := o
      obtain ⟨kind', _, _⟩ := o'
      obtain rfl := Shape.object.inj hs
      cases kind' <;> rfl
    | _ => cases hs
  | _ => cases c' <;> simp [Cell.shape, Cell.handle?] at hs ⊢

theorem Heap.wrappedHandle?_eq (h : Heap) (i : HostId) :
    h.wrappedHandle? i = (h.cell? i).bind Cell.handle? := by
  unfold Heap.wrappedHandle? Heap.object?
  cases h.cell? i with
  | none => rfl
  | some c =>
    cases c with
    | object o => obtain ⟨kind, _, _⟩ := o; cases kind <;> rfl
    | _ => rfl

/-- Whether a handle refers to a guest object; none does without a guest. -/
def World.isLive (w : World) : Handle → Bool :=
  match w.guest with
  | some g => g.heap.isLive
  | none => fun _ => false

theorem World.isLive_of_guest {w : World} {g : Guest} (hg : w.guest = some g) :
    w.isLive = g.heap.isLive := by
  rw [World.isLive, hg]

theorem World.isLive_iff {w : World} {h : Handle} :
    w.isLive h ↔ ∃ g, w.guest = some g ∧ g.heap.isLive h := by
  rw [World.isLive]
  cases w.guest <;> simp

/-- The guest's table is in range. -/
def World.InRange (w : World) : Prop := ∀ g, w.guest = some g → g.heap.InRange

instance (w : World) : Decidable w.InRange :=
  match hg : w.guest with
  | some g => decidable_of_iff g.heap.InRange
      ⟨fun h g' hg' => Option.some.inj (hg.symm.trans hg') ▸ h, fun h => h g hg⟩
  | none => .isTrue fun g hg' => by simp [hg] at hg'

/-- A host value without a handle of its own: no wrapper instance. -/
def World.Plain (w : World) (v : HostValue) : Prop := v.object?.bind w.heap.wrappedHandle? = none

/-- A cell that was there before stands for no other handle in a later heap. -/
theorem Heap.Later.wrappedHandle? {h h' : Heap} (hl : h.Later h') {i : HostId}
    (hi : i.index < h.next) {k : Handle} (hk : h'.wrappedHandle? i = some k) :
    h.wrappedHandle? i = some k := by
  rw [Heap.wrappedHandle?_eq] at hk ⊢
  obtain ⟨c', hc', hk⟩ := Option.bind_eq_some_iff.1 hk
  obtain ⟨c, hc, hs⟩ := hl.shape i c' hi hc'
  rw [hc, Option.bind_some, ← Cell.handle?_eq_of_shape hs, hk]

/-- A value that is no wrapper instance does not become one. -/
theorem World.Plain.later {w w' : World} {v : HostValue} (hp : w.Plain v) (hh : w.heap.OK)
    (hv : w.heap.Backs (.value v)) (hl : w.heap.Later w'.heap) : w'.Plain v := by
  rw [World.Plain, Option.bind_eq_none_iff] at hp ⊢
  intro i hi
  have hlt : i.index < w.heap.next := by
    obtain rfl : v = .object i := by cases v <;> simp_all [HostValue.object?]
    exact hh.isAlive_lt (hv.isAlive i (List.mem_singleton_self _))
  rw [Option.eq_none_iff_forall_ne_some]
  intro k hk
  exact absurd (hl.wrappedHandle? hlt hk) (by simp [hp i hi])

/-- What a guest can do to the state while it takes a notice. -/
inductive Quiet : World → World → Prop
  /-- A new cell that is no wrapper instance. -/
  | make {w : World} {c : Cell} (parts : ∀ p ∈ c.parts, w.heap.Backs p)
      (weakLinks : ∀ r ∈ c.weakLinks, w.heap.Knows r) (plain : c.handle? = none) :
      Quiet w { w with heap := (w.heap.alloc c).2 }
  /-- A new guest object. -/
  | alloc {w : World} {g : Guest} {o : GuestObject} (guest : w.guest = some g)
      (parts : ∀ p ∈ o.parts, w.heap.Backs p) : Quiet w { w with guest := some (g.alloc o).2 }
  /-- The guest goes on to cross back. -/
  | reenter {w : World} {g : Guest} (guest : w.guest = some g) :
      Quiet w { w with guest := some { g with mode.reenter := false } }
  /-- A crossing is counted. -/
  | tally {w : World} : Quiet w { w with context.crossings := w.context.crossings + 1 }
  /-- A new guest object for a value that has none, and its links. -/
  | link {w : World} {g : Guest} {v : HostValue} {l : Lookup} (guest : w.guest = some g)
      (backs : w.heap.Backs (.value v)) (lookup : Lookup.of? v = some l) (plain : w.Plain v)
      (new : w.context.registry.find? (g.alloc (.wrapper v)).2.heap.isLive l = none) :
      Quiet w { w with
        guest := some (g.alloc (.wrapper v)).2
        context.registry := w.context.registry.record l v (g.alloc (.wrapper v)).1 }
  /-- A new watch. -/
  | watch {w : World} {x : Watch} (target : w.heap.Knows x.target)
      (token : ∀ p ∈ x.token.parts, w.heap.Backs p) :
      Quiet w { w with context.watched := w.context.watched ++ [x] }
  /-- A value is hashed. -/
  | hash {w : World} {v : HostValue} (backs : w.heap.Backs (.value v)) :
      Quiet w { w with context.hasher := (w.context.hasher.hash v).2 }

/-- What a crossing of a call that holds `held` can do besides. -/
inductive Cross (held : List HostId) : World → World → Prop
  /-- Cells that nothing holds are dropped. -/
  | reclaim {w : World} {ids : List HostId} (sub : ∀ i ∈ held, i ∈ ids) :
      Cross held w { w with heap := w.heap.reclaim (ids ++ w.holds) }
  /-- A new wrapper instance for a guest object that nothing stands for, and its link. -/
  | stand {w : World} {g : Guest} {d : HostId} {h : Handle} (guest : w.guest = some g)
      (live : g.heap.isLive h) (definition : w.heap.Backs (.definition d))
      (lost : w.context.registry.resolve? w.heap.isAlive h = none) :
      Cross held w { w with
        heap := (w.heap.alloc (.object { kind := .wrapper d h })).2
        context.registry := w.context.registry.recordWrapper h ⟨w.heap.next⟩ }
  /-- The guest takes a notice. -/
  | notice {w : World} {g : Guest} {channel : Channel} {token : GuestValue}
      (guest : w.guest = some g) (parts : ∀ p ∈ token.parts, w.heap.Backs p) :
      Cross held w { w with guest := some { g with reports := g.reports.push (channel, token) } }
  /-- A collection begins or ends. -/
  | phase {w : World} {crossings : Nat} {collecting : Bool} :
      Cross held w { w with context := { w.context with crossings, collecting } }
  /-- Watches whose target is dead leave the watch list. -/
  | poll {w : World} :
      Cross held w { w with
        context.watched := w.context.watched.filter fun x => w.heap.isAlive x.target.id }
  /-- Links and hashes that lead nowhere are dropped. -/
  | sweep {w : World} :
      Cross held w { w with
        context.registry := w.context.registry.sweep w.heap.isAlive w.isLive
        context.hasher := w.context.hasher.sweep w.heap.isAlive }

/-- What the embedder and host functions can do besides. -/
inductive Outer : World → World → Prop
  /-- A cell gets new contents, and stays what it is. -/
  | setCell {w : World} {i : HostId} {c c₀ : Cell} (old : w.heap.cell? i = some c₀)
      (shape : c.shape = c₀.shape) (parts : ∀ p ∈ c.parts, w.heap.Backs p)
      (weakLinks : ∀ r ∈ c.weakLinks, w.heap.Knows r) :
      Outer w { w with heap := w.heap.setCell i c }
  /-- The guest changes, apart from its objects and the notices taken. -/
  | adjust {w : World} {g g' : Guest} (guest : w.guest = some g) (heap : g'.heap = g.heap)
      (reports : g'.reports = g.reports) : Outer w { w with guest := some g' }
  /-- A guest object that is no wrapper gets new contents. -/
  | write {w : World} {g : Guest} {h : Handle} {o o₀ : GuestObject} (guest : w.guest = some g)
      (old : g.heap.get? h = some o₀) (plain : o.parts = []) (plain₀ : o₀.parts = []) :
      Outer w { w with guest := some { g with heap := g.heap.set h o } }
  /-- A guest object is freed. -/
  | free {w : World} {g : Guest} {h : Handle} (guest : w.guest = some g) :
      Outer w { w with guest := some { g with heap := (g.heap.remove h).2 } }
  /-- The guest is dropped. -/
  | unload {w : World} : Outer w { w with guest := none }
  /-- Something is written to the console. -/
  | print {w : World} {console : Console} : Outer w { w with context.console := console }
  /-- A variable is set. -/
  | bind {w : World} {name : String} {v : GuestValue} (parts : ∀ p ∈ v.parts, w.heap.Backs p) :
      Outer w { w with bindings := w.bindings.insert name v }
  /-- A variable is dropped. -/
  | unbind {w : World} {name : String} : Outer w { w with bindings := w.bindings.erase name }
  /-- A cell variable is set. -/
  | save {w : World} {name : String} {v : HostValue} (backs : w.heap.Backs (.value v)) :
      Outer w { w with cells := w.cells.insert name v }

/-- How much may be done. -/
inductive Level where
  | quiet
  | crossing
  | outer
  deriving DecidableEq

/-- A move of a call that holds `held`. -/
inductive Move (held : List HostId) : Level → World → World → Prop
  | quiet {ℓ : Level} {w w' : World} (m : Quiet w w') : Move held ℓ w w'
  | cross {ℓ : Level} {w w' : World} (hℓ : ℓ ≠ .quiet) (m : Cross held w w') : Move held ℓ w w'
  | outer {w w' : World} (m : Outer w w') : Move held .outer w w'

/-- Any number of moves. -/
abbrev Reaches (ℓ : Level) (held : List HostId) : World → World → Prop :=
  Relation.ReflTransGen (Move held ℓ)

variable {held held' : List HostId} {ℓ : Level} {w w' w'' : World} {h : Heap}

/-! ## A move keeps a state well formed -/

section OK

/-- An object or a symbol is looked up as itself. -/
theorem Lookup.eq_toValue {v : HostValue} {x : Referent} (hl : Lookup.of? v = some (.identity x)) :
    v = x.toValue ∧ x.toValue.identity? = some x := by
  cases v <;> simp [Lookup.of?, HostValue.identity?, PrimitiveKey.of?] at hl <;> subst hl <;>
    exact ⟨rfl, rfl⟩

/-- A primitive is looked up by its content. -/
theorem Lookup.of?_eq_primitive_iff {v : HostValue} {key : PrimitiveKey} :
    Lookup.of? v = some (.primitive key) ↔ PrimitiveKey.of? v = some key := by
  cases v <;> simp [Lookup.of?, HostValue.identity?, PrimitiveKey.of?]

theorem Referent.id_mem_holds (x : Referent) : x.id ∈ x.toValue.holds := by
  cases x <;> exact List.mem_singleton_self _

theorem Registry.OK.record {r : Registry} {l : Lookup} {v : HostValue} (hr : r.OK h)
    (hh : h.OK) (hv : h.Backs (.value v)) (hl : Lookup.of? v = some l) (k : Handle) :
    (r.record l v k).OK h := by
  cases l with
  | identity x =>
    obtain ⟨rfl, hid⟩ := Lookup.eq_toValue hl
    have hi : x.id.index < h.next := hh.isAlive_lt (hv.isAlive _ x.id_mem_holds)
    have hplain : x.isString = false := by cases x <;> first | rfl | cases hid
    refine { hr with
      nodup_host := OrderedMap.nodup_keys_insert hr.nodup_host _ _
      nodup_guest := OrderedMap.nodup_keys_insert hr.nodup_guest _ _
      host := fun i hm => ?_
      backlinks := fun b hb => ?_ }
    · rw [OrderedMap.mem_keys_iff] at hm
      obtain ⟨k', hk'⟩ := hm
      rw [Registry.record, OrderedMap.find?_insert] at hk'
      split_ifs at hk' with he
      · exact he ▸ hi
      · exact hr.host i (OrderedMap.mem_keys_iff.2 ⟨k', hk'⟩)
    · rcases OrderedMap.mem_values_insert hb with rfl | hb
      · exact ⟨⟨hi, fun _ => hv⟩, hplain⟩
      · exact hr.backlinks b hb
  | primitive key =>
    have hadmits : h.Admits (.primitive v) :=
      ⟨hv, Option.isSome_iff_exists.2 ⟨key, Lookup.of?_eq_primitive_iff.1 hl⟩⟩
    refine { hr with
      nodup_guest := OrderedMap.nodup_keys_insert hr.nodup_guest _ _
      nodup_primitives := OrderedMap.nodup_keys_insert hr.nodup_primitives _ _
      backlinks := fun b hb => ?_
      keys := fun x hx => ?_ }
    · rcases OrderedMap.mem_values_insert hb with rfl | hb
      · exact hadmits
      · exact hr.backlinks b hb
    -- the value that was stored first under the content stays as its key
    · rcases OrderedMap.mem_values_insert hx with rfl | hx
      · cases hf : r.primitives.find? key with
        | none => simpa [hf] using hadmits
        | some x => simpa [hf] using hr.keys x (OrderedMap.mem_values_of_find? hf)
      · exact hr.keys x hx

theorem Registry.OK.sweep {r : Registry} (hr : r.OK h) (alive : HostId → Bool)
    (live : Handle → Bool) : (r.sweep alive live).OK h where
  nodup_host := OrderedMap.nodup_keys_filter hr.nodup_host _
  nodup_guest := OrderedMap.nodup_keys_filter hr.nodup_guest _
  nodup_primitives := OrderedMap.nodup_keys_filter hr.nodup_primitives _
  host i hi := hr.host i ((List.filter_sublist.map Prod.fst).subset hi)
  backlinks b hb := hr.backlinks b (OrderedMap.mem_values_filter hb)
  keys x hx := hr.keys x (OrderedMap.mem_values_filter hx)

theorem Guest.OK.alloc {g : Guest} {o : GuestObject} (hg : g.OK h)
    (ho : ∀ p ∈ o.parts, h.Backs p) : (g.alloc o).2.OK h :=
  { hg with
    table := HandleTable.insert_ok hg.table o
    objects := fun x hx p hp => by
      rcases HandleTable.Stores.of_insert hx with rfl | hx
      · exact ho p hp
      · exact hg.objects x hx p hp }

theorem Guest.OK.of_same {g g' : Guest} (hg : g.OK h) (heap : g'.heap = g.heap)
    (reports : g'.reports = g.reports) : g'.OK h where
  table := heap ▸ hg.table
  objects := heap ▸ hg.objects
  reports := reports ▸ hg.reports

theorem Hasher.hash_ok {x : Hasher} {v : HostValue} (hh : h.OK) (hv : h.Backs (.value v))
    (hn : x.assigned.keys.Nodup) (hx : ∀ i ∈ x.assigned.keys, i.index < h.next) :
    (x.hash v).2.assigned.keys.Nodup ∧ ∀ i ∈ (x.hash v).2.assigned.keys, i.index < h.next := by
  have key : ∀ i, i.index < h.next → (x.hashIdentity i).2.assigned.keys.Nodup ∧
      ∀ j ∈ (x.hashIdentity i).2.assigned.keys, j.index < h.next := by
    intro i hi
    rw [hashIdentity]
    split
    · exact ⟨hn, hx⟩
    · refine ⟨OrderedMap.nodup_keys_insert hn _ _, fun j hj => ?_⟩
      obtain ⟨c, hc⟩ := OrderedMap.mem_keys_iff.1 hj
      rw [OrderedMap.find?_insert] at hc
      split_ifs at hc with he
      · exact he ▸ hi
      · exact hx j (OrderedMap.mem_keys_iff.2 ⟨c, hc⟩)
  cases v with
  | object i => exact key i (hh.isAlive_lt (hv.isAlive i (by simp [Part.ids, HostValue.holds])))
  | symbol s => exact key s.id (hh.isAlive_lt (hv.isAlive s.id (by simp [Part.ids, HostValue.holds])))
  | _ => exact ⟨hn, hx⟩

theorem World.OK.withContext (hw : w.OK held) {c : Context} (hc : c.OK w.heap) :
    World.OK held { w with context := c } :=
  { hw with context := hc }

theorem World.OK.withGuest (hw : w.OK held) {g : Guest} (hg : g.OK w.heap) :
    World.OK held { w with guest := some g } :=
  { hw with guest := fun _ he => Option.some.inj he ▸ hg }

theorem Quiet.ok (m : Quiet w w') (hw : w.OK held) : w'.OK held := by
  have hc := hw.context
  cases m with
  | make parts weakLinks plain =>
    refine hw.withHeap (Heap.alloc_ok hw.heap parts weakLinks) (Heap.later_alloc _ _) fun i hi => ?_
    exact hw.heap.isAlive_alloc _ (hi.elim (hw.held i) hw.isAlive_of_holds)
  | alloc guest parts => exact hw.withGuest ((hw.guest _ guest).alloc parts)
  | reenter guest => exact hw.withGuest ((hw.guest _ guest).of_same rfl rfl)
  | tally => exact hw.withContext { hc with }
  | link guest backs lookup plain new =>
    refine World.OK.withGuest (hw.withContext (c := { w.context with registry := _ })
      { hc with registry := hc.registry.record hw.heap backs lookup _ })
      ((hw.guest _ guest).alloc ?_)
    simpa [GuestObject.parts] using backs
  | watch target token =>
    refine hw.withContext { hc with targets := fun x hx => ?_, tokens := fun x hx => ?_ } <;>
      rcases List.mem_append.1 hx with hx | hx
    · exact hc.targets x hx
    · exact List.mem_singleton.1 hx ▸ target
    · exact hc.tokens x hx
    · exact List.mem_singleton.1 hx ▸ token
  | hash backs =>
    obtain ⟨h1, h2⟩ := Hasher.hash_ok hw.heap backs hc.nodup_hashes hc.hashes
    exact hw.withContext { hc with nodup_hashes := h1, hashes := h2 }

theorem Cross.ok (m : Cross held w w') (hw : w.OK held) : w'.OK held := by
  have hc := hw.context
  cases m with
  | @reclaim ids hsub =>
    refine hw.withHeap (Heap.reclaim_ok hw.heap _) (Heap.later_reclaim hw.heap.nodup _)
      fun i hi => ?_
    have ha : w.heap.isAlive i := hi.elim (hw.held i) hw.isAlive_of_holds
    exact Heap.isAlive_reclaim_of_root hw.heap.nodup ha
      (List.mem_append.2 (hi.imp (hsub i) id))
  | @stand g d k guest live definition lost =>
    have hp : ∀ p ∈ (Cell.object { kind := .wrapper d k }).parts, w.heap.Backs p := by
      simpa [Cell.parts, ObjectKind.parts, OrderedMap.values] using definition
    have hok := Heap.alloc_ok hw.heap hp (by simp [Cell.weakLinks, ObjectKind.weakLinks,
      OrderedMap.values])
    have hw' := hw.withHeap hok (Heap.later_alloc _ _) fun i hi =>
      hw.heap.isAlive_alloc _ (hi.elim (hw.held i) hw.isAlive_of_holds)
    have hr := hw'.context.registry
    refine hw'.withContext { hw'.context with
      registry := { hr with
        nodup_guest := OrderedMap.nodup_keys_insert hr.nodup_guest _ _
        backlinks := fun b hb => ?_ } }
    rcases OrderedMap.mem_values_insert hb with rfl | hb
    · exact ⟨⟨Nat.lt_succ_self _, fun _ => ⟨_, OrderedMap.find?_insert_self ..⟩⟩, rfl⟩
    · exact hr.backlinks b hb
  | notice guest parts =>
    have hg := hw.guest _ guest
    refine hw.withGuest { hg with reports := fun x hx => ?_ }
    rcases Array.mem_push.1 hx with hx | rfl
    · exact hg.reports x hx
    · exact parts
  | phase => exact hw.withContext { hc with }
  | poll =>
    exact hw.withContext { hc with
      targets := fun x hx => hc.targets x (List.mem_filter.1 hx).1
      tokens := fun x hx => hc.tokens x (List.mem_filter.1 hx).1 }
  | sweep =>
    exact hw.withContext { hc with
      registry := hc.registry.sweep _ _
      nodup_hashes := OrderedMap.nodup_keys_filter hc.nodup_hashes _
      hashes := fun i hi => hc.hashes i ((List.filter_sublist.map Prod.fst).subset hi) }

theorem Outer.ok (m : Outer w w') (hw : w.OK held) : w'.OK held := by
  have hc := hw.context
  cases m with
  | setCell old shape parts weakLinks =>
    refine hw.withHeap (Heap.setCell_ok hw.heap old shape parts weakLinks)
      (Heap.later_setCell old shape) fun i hi => ?_
    exact (Heap.isAlive_setCell old _ i).2 (hi.elim (hw.held i) hw.isAlive_of_holds)
  | adjust guest heap reports => exact hw.withGuest ((hw.guest _ guest).of_same heap reports)
  | write guest old plain plain₀ =>
    have hg := hw.guest _ guest
    refine hw.withGuest { hg with
      table := HandleTable.set_ok hg.table old _
      objects := fun x hx p hp => ?_ }
    rcases HandleTable.Stores.of_set hx with rfl | hx
    · simp [plain] at hp
    · exact hg.objects x hx p hp
  | free guest =>
    have hg := hw.guest _ guest
    exact hw.withGuest { hg with
      table := HandleTable.remove_ok hg.table _
      objects := fun x hx => hg.objects x (HandleTable.Stores.of_remove hx) }
  | unload => exact { hw with guest := fun _ he => absurd he (by simp) }
  | print => exact hw.withContext { hc with }
  | bind parts =>
    refine { hw with bindings := fun v hv => ?_ }
    rcases OrderedMap.mem_values_insert hv with rfl | hv
    · exact parts
    · exact hw.bindings v hv
  | unbind => exact { hw with bindings := fun v hv => hw.bindings v (OrderedMap.mem_values_erase hv) }
  | save backs =>
    refine { hw with cells := fun v hv => ?_ }
    rcases OrderedMap.mem_values_insert hv with rfl | hv
    · exact backs
    · exact hw.cells v hv

/-- **A move keeps a state well formed.** -/
theorem Move.ok (m : Move held ℓ w w') (hw : w.OK held) : w'.OK held := by
  cases m with
  | quiet m => exact m.ok hw
  | cross _ m => exact m.ok hw
  | outer m => exact m.ok hw

end OK

/-! ## The heap after a move -/

section Later

theorem Quiet.later (m : Quiet w w') : w.heap.Later w'.heap := by
  cases m with
  | make => exact Heap.later_alloc _ _
  | _ => exact Heap.Later.refl _

/-- **A guest that takes a notice drops no cells**, and changes none. -/
theorem Quiet.cell? (m : Quiet w w') (hh : w.heap.OK) {i : HostId} {c : Cell}
    (hc : w.heap.cell? i = some c) : w'.heap.cell? i = some c := by
  cases m with
  | make => exact hh.cell?_alloc_of_some hc _
  | _ => exact hc

theorem Cross.later (m : Cross held w w') (hh : w.heap.OK) : w.heap.Later w'.heap := by
  cases m with
  | reclaim => exact Heap.later_reclaim hh.nodup _
  | stand => exact Heap.later_alloc _ _
  | _ => exact Heap.Later.refl _

theorem Outer.later (m : Outer w w') : w.heap.Later w'.heap := by
  cases m with
  | setCell old shape => exact Heap.later_setCell old shape
  | _ => exact Heap.Later.refl _

/-- **The heap after a move is later than the one before.** -/
theorem Move.later (m : Move held ℓ w w') (hh : w.heap.OK) : w.heap.Later w'.heap := by
  cases m with
  | quiet m => exact m.later
  | cross _ m => exact m.later hh
  | outer m => exact m.later

end Later

/-! ## Any number of moves -/

section Reaches

theorem Move.weaken (hs : ∀ i ∈ held', i ∈ held) (m : Move held ℓ w w') : Move held' ℓ w w' := by
  cases m with
  | quiet m => exact .quiet m
  | cross hℓ m =>
    refine .cross hℓ ?_
    cases m with
    | reclaim sub => exact .reclaim fun i hi => sub i (hs i hi)
    | stand guest live definition lost => exact .stand guest live definition lost
    | notice guest parts => exact .notice guest parts
    | phase => exact .phase
    | poll => exact .poll
    | sweep => exact .sweep
  | outer m => exact .outer m

/-- A call that holds less can do the same. -/
theorem Reaches.weaken (hs : ∀ i ∈ held', i ∈ held) (hr : Reaches ℓ held w w') :
    Reaches ℓ held' w w' :=
  Relation.ReflTransGen.mono (fun _ _ => Move.weaken hs) _ _ hr

/-- What can be done quietly can be done. -/
theorem Reaches.of_quiet (hr : Reaches .quiet held w w') : Reaches ℓ held w w' := by
  refine Relation.ReflTransGen.mono (fun _ _ m => ?_) _ _ hr
  cases m with
  | quiet m => exact .quiet m
  | cross hℓ => exact absurd rfl hℓ

/-- **Moves keep a state well formed.** -/
theorem Reaches.ok (hr : Reaches ℓ held w w') (hw : w.OK held) : w'.OK held := by
  induction hr with
  | refl => exact hw
  | tail _ m ih => exact m.ok ih

theorem Reaches.later (hr : Reaches ℓ held w w') (hw : w.OK held) : w.heap.Later w'.heap := by
  induction hr with
  | refl => exact Heap.Later.refl _
  | tail hr m ih => exact ih.trans (m.later (Reaches.ok hr hw).heap)

/-- **What a call holds stays backed.** -/
theorem Reaches.backs (hr : Reaches ℓ held w w') (hw : w.OK held) {p : Part}
    (hp : w.heap.Backs p) (hi : ∀ i ∈ p.ids, i ∈ held) : w'.heap.Backs p :=
  hp.later hw.heap (hr.later hw) fun i hm => (hr.ok hw).held i (hi i hm)

theorem Reaches.knows (hr : Reaches ℓ held w w') (hw : w.OK held) {r : Referent}
    (hk : w.heap.Knows r) : w'.heap.Knows r :=
  hk.later hw.heap (hr.later hw)

/-- Quiet moves leave every cell as it was. -/
theorem Reaches.cell? (hr : Reaches .quiet held w w') (hw : w.OK held) {i : HostId} {c : Cell}
    (hc : w.heap.cell? i = some c) : w'.heap.cell? i = some c := by
  induction hr with
  | refl => exact hc
  | tail hr m ih =>
    cases m with
    | quiet m => exact m.cell? (Reaches.ok hr hw).heap ih
    | cross hℓ => exact absurd rfl hℓ

/-- What was backed stays backed through quiet moves. -/
theorem Reaches.backs_of_quiet (hr : Reaches .quiet held w w') (hw : w.OK held) {p : Part}
    (hp : w.heap.Backs p) : w'.heap.Backs p := by
  refine hp.of_keeps hw.heap (hr.later hw) fun i hi => ?_
  obtain ⟨c, hc⟩ := Heap.isAlive_iff.1 hi
  exact Heap.isAlive_of_cell? (hr.cell? hw hc)

theorem Reaches.quiet (m : Quiet w w') : Reaches ℓ held w w' := .single (.quiet m)

theorem Reaches.cross (hℓ : ℓ ≠ .quiet) (m : Cross held w w') : Reaches ℓ held w w' :=
  .single (.cross hℓ m)

theorem Reaches.outer (m : Outer w w') : Reaches .outer held w w' := .single (.outer m)

end Reaches

end GuestBridge
