import Mathlib.Data.List.Nodup
import GuestBridge.Proofs.CellRuns

/-!
# Extracted callables keep their identity and their origin

A run of changes tells which callables were extracted, and each object remembers the last
one for each property without holding it. While a callable is alive, the object that it
was extracted from is alive, gives it again for the property, and is what it leads back
to. Anything else that is to be an object gets a new one.

An object is older than the callables extracted from it. So a receiver that is alive is
still the one that was there at the extraction, and still has its cache.

* `Heap.Traced`: what the cells have to do with the callables extracted so far; a change
  keeps it (`Heap.Change.traced`), and so does a run (`Heap.Run.traced`).
* `Heap.Aged`, `Reaches.aged`: **callables are younger than their receivers.**
* `World.settled_uncached`: **caches keep nothing alive.**
* `extractions_keep`: **what extractions give**, over whole runs.
-/

namespace GuestBridge

variable {h h' : Heap} {i j f : HostId} {p q : String} {xs ys : List Extraction}

namespace Heap

/-! ## Objects after a change -/

section Objects

/-- The objects after an extraction: there is a new callable, and the receiver remembers it. -/
theorem object?_extract (i : HostId) (p : String) (j : HostId) :
    (h.extract i p).object? j =
      (if j = ⟨h.next⟩ then some (.bound i p) else h.object? j).map fun o =>
        if j = i then { o with methodCache := o.methodCache.insert p ⟨h.next⟩ } else o := by
  rw [← object?_alloc]
  dsimp only [extract]
  -- without a receiver nothing remembers the new callable
  cases hi : (h.alloc (.object (.bound i p))).2.object? i with
  | none =>
    dsimp only
    by_cases hj : j = i
    · rw [hj, hi, Option.map_none]
    · simp only [if_neg hj, Option.map_id']
  | some o =>
    dsimp only
    rw [object?_setCell]
    by_cases hj : j = i
    · subst hj
      rw [if_pos rfl, hi, Option.map_some, if_pos rfl]
      rfl
    · simp only [if_neg hj, Option.map_id']

theorem next_extract (h : Heap) (i : HostId) (p : String) : (h.extract i p).next = h.next + 1 := by
  dsimp only [extract]
  split <;> rfl

theorem nodup_extract (hn : h.cells.keys.Nodup) (i : HostId) (p : String) :
    (h.extract i p).cells.keys.Nodup := by
  have halloc := OrderedMap.nodup_keys_insert hn ⟨h.next⟩ (Cell.object (.bound i p))
  dsimp only [extract]
  split
  · exact OrderedMap.nodup_keys_insert halloc _ _
  · exact halloc

theorem origin?_extract (i : HostId) (p : String) (f : HostId) :
    (h.extract i p).origin? f = if f = ⟨h.next⟩ then some (i, p) else h.origin? f := by
  have hkind : ∀ o : HostObject, (if f = i then
      { o with methodCache := o.methodCache.insert p ⟨h.next⟩ } else o).kind = o.kind := by
    intro o
    split <;> rfl
  unfold origin?
  rw [object?_extract, Option.bind_map]
  simp only [Function.comp_def, hkind]
  by_cases hf : f = ⟨h.next⟩
  · rw [if_pos hf, if_pos hf]
    rfl
  · rw [if_neg hf, if_neg hf]

theorem isSome_object?_extract (hj : j ≠ ⟨h.next⟩) :
    ((h.extract i p).object? j).isSome = (h.object? j).isSome := by
  rw [object?_extract, if_neg hj, Option.isSome_map]

/-- The receiver remembers the new callable. -/
theorem cached?_extract_self (hi : ((h.extract i p).object? i).isSome) :
    (h.extract i p).cached? i p = some ⟨h.next⟩ := by
  rw [object?_extract, Option.isSome_map] at hi
  obtain ⟨o, ho⟩ := Option.isSome_iff_exists.1 hi
  rw [cached?, object?_extract, ho, Option.map_some, if_pos rfl]
  exact OrderedMap.find?_insert_self ..

/-- What else is remembered was remembered before. -/
theorem cached?_extract_of_ne (hne : ¬ (j = i ∧ q = p)) :
    (h.extract i p).cached? j q = if j = ⟨h.next⟩ then none else h.cached? j q := by
  -- the only entry that is written is the one of the receiver under this name
  have hfind : ∀ o : HostObject, (if j = i then
      { o with methodCache := o.methodCache.insert p ⟨h.next⟩ } else o).methodCache.find? q =
        o.methodCache.find? q := by
    intro o
    by_cases hj : j = i
    · rw [if_pos hj]
      exact OrderedMap.find?_insert_of_ne _ (fun hq => hne ⟨hj, hq⟩) _
    · rw [if_neg hj]
  unfold cached?
  rw [object?_extract, Option.bind_map]
  simp only [Function.comp_def, hfind]
  by_cases hj : j = ⟨h.next⟩
  · rw [if_pos hj, if_pos hj]
    rfl
  · rw [if_neg hj, if_neg hj]

end Objects

/-! ## Histories -/

/-- What the cells have to do with the callables that have been extracted. -/
structure Traced (xs : List Extraction) (h : Heap) : Prop where
  nodup : h.cells.keys.Nodup
  distinct : (xs.map Extraction.callable).Nodup
  /-- The callables have got their identities. -/
  past : ∀ x ∈ xs, x.callable.index < h.next
  /-- An object is an extracted callable if it was extracted, -/
  recorded : ∀ x ∈ xs, (h.object? x.callable).isSome →
    h.origin? x.callable = some (x.receiver, x.property)
  /-- and only then. -/
  origins : ∀ f i p, h.origin? f = some (i, p) → ⟨f, i, p⟩ ∈ xs
  /-- An object remembers callables that were extracted from it, -/
  caches : ∀ i p f, h.cached? i p = some f → ⟨f, i, p⟩ ∈ xs
  /-- and among them those that are alive. -/
  cached : ∀ f i p, h.origin? f = some (i, p) → i.index < f.index → (h.object? i).isSome →
    h.cached? i p = some f

namespace Traced

theorem empty : ({} : Heap).Traced [] where
  nodup := List.nodup_nil
  distinct := List.nodup_nil
  past := nofun
  recorded := nofun
  origins := nofun
  caches := nofun
  cached := nofun

/-- A change that extracts nothing: an object that is there afterwards was there with the same kind
and the same cache, or is new, no callable and without a cache. -/
theorem of_objects (ht : h.Traced xs) (hn : h'.cells.keys.Nodup) (hnext : h.next ≤ h'.next)
    (hobj : ∀ j o', h'.object? j = some o' →
      (∃ o, h.object? j = some o ∧ o.kind = o'.kind ∧ o.methodCache = o'.methodCache) ∨
      (h.next ≤ j.index ∧ o'.kind.origin? = none ∧ o'.methodCache = {})) : h'.Traced xs := by
  have horigin : ∀ f i p, h'.origin? f = some (i, p) → h.origin? f = some (i, p) := by
    intro f i p hf
    obtain ⟨o', ho', hk⟩ := Option.bind_eq_some_iff.1 hf
    rcases hobj f o' ho' with ⟨o, ho, hkind, -⟩ | ⟨-, hnone, -⟩
    · exact Option.bind_eq_some_iff.2 ⟨o, ho, hkind ▸ hk⟩
    · cases hnone.symm.trans hk
  refine {
    nodup := hn
    distinct := ht.distinct
    past := fun x hx => lt_of_lt_of_le (ht.past x hx) hnext
    recorded := ?recorded
    origins := fun f i p hf => ht.origins f i p (horigin f i p hf)
    caches := ?caches
    cached := ?cached }
  case recorded =>
    intro x hx hsome
    have hpast := ht.past x hx
    obtain ⟨o', ho'⟩ := Option.isSome_iff_exists.1 hsome
    rcases hobj _ o' ho' with ⟨o, ho, hkind, -⟩ | ⟨hge, -, -⟩
    · have hrec := ht.recorded x hx (by rw [ho, Option.isSome_some])
      rw [origin?, ho, Option.bind_some, hkind] at hrec
      rw [origin?, ho', Option.bind_some, hrec]
    · omega
  case caches =>
    intro i p f hc
    obtain ⟨o', ho', hc⟩ := Option.bind_eq_some_iff.1 hc
    rcases hobj i o' ho' with ⟨o, ho, -, hcache⟩ | ⟨-, -, hcache⟩
    · exact ht.caches i p f (Option.bind_eq_some_iff.2 ⟨o, ho, hcache ▸ hc⟩)
    · rw [hcache] at hc
      cases hc
  case cached =>
    intro f i p hf hlt hsome
    have hf := horigin f i p hf
    have hpast : f.index < h.next := ht.past _ (ht.origins f i p hf)
    obtain ⟨o', ho'⟩ := Option.isSome_iff_exists.1 hsome
    rcases hobj i o' ho' with ⟨o, ho, -, hcache⟩ | ⟨hge, -, -⟩
    · have hc := ht.cached f i p hf hlt (by rw [ho, Option.isSome_some])
      rw [cached?, ho, Option.bind_some, hcache] at hc
      rw [cached?, ho', Option.bind_some, hc]
    · -- A receiver is older than its callable, so it is not the new object.
      omega

/-- **An extraction of a new callable adds it to the history.** -/
theorem extract (ht : h.Traced xs) (new : (h.cached? i p).filter h.isAlive = none) :
    (h.extract i p).Traced (xs ++ [⟨⟨h.next⟩, i, p⟩]) := by
  have hne : ∀ x ∈ xs, x.callable ≠ ⟨h.next⟩ := by
    intro x hx he
    have hpast := ht.past x hx
    rw [he] at hpast
    exact absurd hpast (lt_irrefl _)
  have hlast : ⟨⟨h.next⟩, i, p⟩ ∈ xs ++ [(⟨⟨h.next⟩, i, p⟩ : Extraction)] :=
    List.mem_append_right _ (List.mem_singleton_self _)
  refine {
    nodup := nodup_extract ht.nodup i p
    distinct := ?distinct
    past := ?past
    recorded := ?recorded
    origins := ?origins
    caches := ?caches
    cached := ?cached }
  case distinct =>
    rw [List.map_append, List.nodup_append]
    refine ⟨ht.distinct, by simp, fun a ha b hb => ?_⟩
    obtain ⟨x, hx, rfl⟩ := List.mem_map.1 ha
    rw [List.mem_singleton.1 hb]
    exact hne x hx
  case past =>
    intro x hx
    rw [next_extract]
    rcases List.mem_append.1 hx with hx | hx
    · exact lt_trans (ht.past x hx) (Nat.lt_succ_self _)
    · rw [List.mem_singleton.1 hx]
      exact Nat.lt_succ_self _
  case recorded =>
    intro x hx hsome
    rw [origin?_extract]
    rcases List.mem_append.1 hx with hx | hx
    · rw [isSome_object?_extract (hne x hx)] at hsome
      rw [if_neg (hne x hx), ht.recorded x hx hsome]
    · rw [List.mem_singleton.1 hx, if_pos rfl]
  case origins =>
    intro f j q hf
    rw [origin?_extract] at hf
    split_ifs at hf with he
    · cases hf
      exact he ▸ hlast
    · exact List.mem_append_left _ (ht.origins f j q hf)
  case caches =>
    intro j q f hc
    by_cases hjq : j = i ∧ q = p
    · obtain ⟨rfl, rfl⟩ := hjq
      obtain ⟨o, ho, -⟩ := Option.bind_eq_some_iff.1 hc
      rw [cached?_extract_self (by rw [ho, Option.isSome_some])] at hc
      cases hc
      exact hlast
    · rw [cached?_extract_of_ne hjq] at hc
      split_ifs at hc
      exact List.mem_append_left _ (ht.caches j q f hc)
  case cached =>
    intro f j q hf hlt hsome
    rw [origin?_extract] at hf
    split_ifs at hf with he
    · cases hf
      rw [he]
      exact cached?_extract_self hsome
    · -- An older callable: its receiver is older still, and has forgotten it only if it was
      -- extracted under the same name, but then it would have been given again.
      have hpast : f.index < h.next := ht.past _ (ht.origins f j q hf)
      have hj : j ≠ ⟨h.next⟩ := by
        rintro rfl
        exact absurd (lt_trans hlt hpast) (lt_irrefl _)
      rw [isSome_object?_extract hj] at hsome
      have hc := ht.cached f j q hf hlt hsome
      have hjq : ¬ (j = i ∧ q = p) := by
        rintro ⟨rfl, rfl⟩
        obtain ⟨o, ho, -⟩ := Option.bind_eq_some_iff.1 hf
        have halive : h.isAlive f := isAlive_of_cell? (object?_eq_some_iff.1 ho)
        rw [hc, Option.filter_some, if_pos halive] at new
        cases new
      rw [cached?_extract_of_ne hjq, if_neg hj, hc]

end Traced

/-- A change that extracts no callable leaves the history as it is. -/
theorem Change.traced_of_none (m : h.Change none h') (ht : h.Traced xs) : h'.Traced xs := by
  cases m with
  | @make c untied =>
    refine ht.of_objects (OrderedMap.nodup_keys_insert ht.nodup _ _) (Nat.le_succ _)
      fun j o' ho' => ?_
    rw [object?_eq_some_iff, cell?_alloc] at ho'
    split_ifs at ho' with hj
    · have hindex : j.index = h.next := congrArg HostId.index hj
      obtain rfl := Option.some.inj ho'
      exact .inr ⟨hindex.ge, untied o' rfl⟩
    · exact .inl ⟨o', object?_eq_some_iff.2 ho', rfl, rfl⟩
  | reclaim =>
    refine ht.of_objects (nodup_reclaim ht.nodup _) le_rfl fun j o' ho' => ?_
    have hcell := cell?_of_reclaim ht.nodup (object?_eq_some_iff.1 ho')
    exact .inl ⟨o', object?_eq_some_iff.2 hcell, rfl, rfl⟩
  | @write i o name v old =>
    refine ht.of_objects (OrderedMap.nodup_keys_insert ht.nodup _ _) le_rfl fun j o' ho' => ?_
    rw [object?_setCell] at ho'
    split_ifs at ho' with hj
    · obtain rfl := Option.some.inj ho'
      exact .inl ⟨o, hj ▸ old, rfl, rfl⟩
    · exact .inl ⟨o', ho', rfl, rfl⟩
  | define =>
    refine ht.of_objects (OrderedMap.nodup_keys_insert ht.nodup _ _) le_rfl fun j o' ho' => ?_
    rw [object?_eq_some_iff, cell?_setCell] at ho'
    split_ifs at ho' with hj
    · cases ho'
    · exact .inl ⟨o', object?_eq_some_iff.2 ho', rfl, rfl⟩

/-- **A change adds the callable that it extracts to the history**, and does nothing else to it. -/
theorem Change.traced {x : Option Extraction} (m : h.Change x h') (ht : h.Traced xs) :
    h'.Traced (xs ++ x.toList) := by
  cases x with
  | none =>
    rw [Option.toList_none, List.append_nil]
    exact m.traced_of_none ht
  | some x =>
    cases m with
    | extract new => exact ht.extract new

/-- **So does a run of changes.** -/
theorem Run.traced (r : h.Run ys h') (ht : h.Traced xs) : h'.Traced (xs ++ ys) := by
  induction r with
  | refl => rwa [List.append_nil]
  | tail _ m ih =>
    rw [← List.append_assoc]
    exact m.traced ih

end Heap

variable {held : List HostId} {ℓ : Level} {w w' : World}

/-! ## Age -/

section Age

/-- An extracted callable holds its receiver. -/
theorem ObjectKind.mem_parts_of_origin? {k : ObjectKind} (hk : k.origin? = some (i, p)) :
    .value (.object i) ∈ k.parts := by
  cases k with
  | function c =>
    obtain ⟨name, behaviour, construct⟩ := c
    cases behaviour with
    | bound receiver property =>
      obtain ⟨rfl, rfl⟩ := Prod.mk.inj (Option.some.inj hk)
      exact List.mem_append_left _ (List.mem_singleton_self _)
    | _ => cases hk
  | _ => cases hk

namespace Heap

/-- Callables are younger than the objects they were extracted from. -/
def Aged (h : Heap) : Prop := ∀ f i p, h.origin? f = some (i, p) → i.index < f.index

theorem cell?_of_origin? {r : HostId × String} (hf : h.origin? f = some r) :
    ∃ o, h.cell? f = some (.object o) ∧ o.kind.origin? = some r := by
  obtain ⟨o, ho, hk⟩ := Option.bind_eq_some_iff.1 hf
  exact ⟨o, object?_eq_some_iff.1 ho, hk⟩

/-- **A receiver is there for as long as the callable is.** -/
theorem OK.backs_receiver (hh : h.OK) (hf : h.origin? f = some (i, p)) :
    h.Backs (.value (.object i)) := by
  obtain ⟨o, ho, hk⟩ := cell?_of_origin? hf
  exact hh.parts f _ ho _ (List.mem_append_left _ (ObjectKind.mem_parts_of_origin? hk))

/-- A callable was extracted from nothing else before. -/
theorem Later.origin? (hl : h.Later h') (hlt : f.index < h.next) {r : HostId × String}
    (hf : h'.origin? f = some r) : h.origin? f = some r := by
  obtain ⟨o', ho', hk⟩ := cell?_of_origin? hf
  obtain ⟨c, hc, hs⟩ := hl.shape f _ hlt ho'
  cases c with
  | object o =>
    have hkind : o'.kind = o.kind := Shape.object.inj hs
    exact Option.bind_eq_some_iff.2 ⟨o, object?_eq_some_iff.2 hc, hkind ▸ hk⟩
  | _ => cases hs

theorem Aged.later (ha : h.Aged) (hl : h.Later h')
    (hnew : ∀ f i p, h.next ≤ f.index → h'.origin? f = some (i, p) → i.index < f.index) :
    h'.Aged := by
  intro f i p hf
  by_cases hlt : f.index < h.next
  · exact ha f i p (hl.origin? hlt hf)
  · exact hnew f i p (not_lt.1 hlt) hf

/-- What a new cell holds is there before. -/
theorem Aged.alloc (ha : h.Aged) (hh : h.OK) {c : Cell} (hp : ∀ p ∈ c.parts, h.Backs p) :
    (h.alloc c).2.Aged := by
  refine ha.later (later_alloc h c) fun f i p hge hf => ?_
  obtain ⟨o, ho, hk⟩ := cell?_of_origin? hf
  rw [cell?_alloc] at ho
  split_ifs at ho with he
  · obtain rfl := Option.some.inj ho
    have hb := hp _ (List.mem_append_left _ (ObjectKind.mem_parts_of_origin? hk))
    have hlt := hh.isAlive_lt (BridgeM.isAlive_of_backs hb)
    omega
  · have hlt := hh.lt_next f _ ho
    omega

/-- Without a new cell there is no new callable. -/
theorem Aged.of_next (ha : h.Aged) (hl : h.Later h') (hh' : h'.OK) (hnext : h'.next = h.next) :
    h'.Aged := by
  refine ha.later hl fun f i p hge hf => ?_
  obtain ⟨o, ho, -⟩ := cell?_of_origin? hf
  have hlt := hh'.lt_next f _ ho
  omega

end Heap

theorem Move.aged (m : Move held ℓ w w') (hw : w.OK held) (ha : w.heap.Aged) : w'.heap.Aged := by
  have hl := m.later hw.heap
  have hh' := (m.ok hw).heap
  cases m with
  | quiet m =>
    cases m with
    | make parts => exact ha.alloc hw.heap parts
    | _ => exact ha.of_next hl hh' rfl
  | cross _ m =>
    cases m with
    | stand _ _ definition =>
      refine ha.alloc hw.heap fun p hp => ?_
      simp only [Cell.parts, ObjectKind.parts, OrderedMap.values, List.map_nil, List.append_nil,
        List.mem_singleton] at hp
      exact hp ▸ definition
    | _ => exact ha.of_next hl hh' rfl
  | outer m => cases m <;> exact ha.of_next hl hh' rfl

/-- **Callables are younger than their receivers**, through any moves. -/
theorem Reaches.aged (hr : Reaches ℓ held w w') (hw : w.OK held) (ha : w.heap.Aged) :
    w'.heap.Aged := by
  induction hr with
  | refl => exact ha
  | tail hr m ih => exact m.aged (Reaches.ok hr hw) ih

theorem World.Reachable.aged (hw : w.Reachable) : w.heap.Aged := by
  obtain ⟨s, environment, o, w₀, hload, hlater⟩ := hw
  have hw₀ := World.load_ok hload
  refine (hlater.reaches hw₀).aged hw₀ ?_
  obtain ⟨w₁, g, h₁, -, -, -, rfl⟩ := World.load_cases hload
  exact h₁.aged (World.initial_ok environment) nofun

end Age

/-! ## Without caches -/

section Uncached

/-- The cell with an empty cache. -/
def Cell.uncached : Cell → Cell
  | object o => object { o with methodCache := {} }
  | c => c

theorem Cell.holds_uncached (c : Cell) : c.uncached.holds = c.holds := by cases c <;> rfl

namespace Heap

/-- The heap with all caches empty. -/
def uncached (h : Heap) : Heap :=
  { h with cells := ⟨h.cells.entries.map (Prod.map id Cell.uncached)⟩ }

theorem isAlive_uncached (h : Heap) (i : HostId) : h.uncached.isAlive i = h.isAlive i := by
  have hfind : ∀ es : List (HostId × Cell),
      OrderedMap.findIn? i (es.map (Prod.map id Cell.uncached)) =
        (OrderedMap.findIn? i es).map Cell.uncached := by
    intro es
    induction es with
    | nil => rfl
    | cons e es ih =>
      obtain ⟨j, c⟩ := e
      by_cases hj : j = i
      · simp [OrderedMap.findIn?, hj]
      · simp [OrderedMap.findIn?, hj, ih]
  unfold isAlive OrderedMap.contains OrderedMap.find? uncached
  rw [hfind, Option.isSome_map]

/-- Cells are dropped or kept whatever is cached. -/
theorem dropUnheld_uncached (roots : List HostId) (n : ℕ) (es : List (HostId × Cell)) :
    dropUnheld roots n (es.map (Prod.map id Cell.uncached)) =
      (dropUnheld roots n es).map (Prod.map id Cell.uncached) := by
  have hholds : ∀ es : List (HostId × Cell),
      (es.map (Prod.map id Cell.uncached)).flatMap (fun e => e.2.holds) =
        es.flatMap fun e => e.2.holds := by
    intro es
    simp [List.flatMap_map, Cell.holds_uncached]
  induction n generalizing es with
  | zero => rfl
  | succ n ih =>
    simp only [dropUnheld]
    rw [hholds, List.filter_map, List.length_map, List.length_map, ih]
    exact (apply_ite (List.map (Prod.map id Cell.uncached)) _ _ _).symm

theorem reclaim_uncached (roots : List HostId) :
    h.uncached.reclaim roots = (h.reclaim roots).uncached := by
  unfold reclaim uncached OrderedMap.size
  rw [List.length_map, dropUnheld_uncached]

end Heap

/-- The state with all caches empty. -/
def World.uncached (w : World) : World := { w with heap := w.heap.uncached }

/-- **Caches keep nothing alive**: what is dropped is the same without them. -/
theorem World.settled_uncached (w : World) (held : List HostId) :
    w.uncached.settled held = (w.settled held).uncached := by
  unfold World.settled World.uncached
  rw [Heap.reclaim_uncached]
  rfl

end Uncached

/-! ## What extractions give -/

/-- A state of a session, of which the callables `xs` have been extracted so far. -/
structure World.Traced (w : World) (xs : List Extraction) : Prop where
  reached : ∃ w₀ : World, w₀.Reachable ∧ Reaches .outer [] w₀ w
  run : ({} : Heap).Run xs w.heap

/-- What a call that holds `held` gets, when the callables `xs` have been extracted. -/
structure World.Recalls (w : World) (held : List HostId) (xs : List Extraction) : Prop where
  /-- A callable has been extracted once, from one property of one object. -/
  distinct : (xs.map Extraction.callable).Nodup
  /-- Any object gives a callable for any property. -/
  gives : ∀ i p, w.heap.Backs (.value (.object i)) →
    ∃ f w' ys, BridgeM.asFunction (.object i) p held w = .ok f w' ∧ w'.Traced (xs ++ ys) ∧
      ⟨f, i, p⟩ ∈ xs ++ ys ∧ w'.heap.Backs (.value (.object f))
  /-- A callable that is still alive is given again. -/
  again : ∀ x ∈ xs, (w.settled (x.receiver :: held)).heap.Backs (.value (.object x.callable)) →
    BridgeM.asFunction (.object x.receiver) x.property held w =
      .ok x.callable (w.settled (x.receiver :: held))
  /-- A callable that is there has its receiver, and leads back to it. -/
  back : ∀ x ∈ xs, w.heap.Backs (.value (.object x.callable)) →
    w.heap.Backs (.value (.object x.receiver)) ∧
      BridgeM.functionAsObject (.object x.callable) x.property held w = .ok x.receiver w
  /-- Anything else gets a new object with one property. -/
  other : ∀ g q, w.heap.Backs (.value (.object g)) →
    (∀ x ∈ xs, x.callable = g → x.property ≠ q) →
      w.heap.isAlive ⟨w.heap.next⟩ = false ∧
        BridgeM.functionAsObject (.object g) q held w = .ok ⟨w.heap.next⟩
          { w with heap := (w.heap.alloc
            (.object { kind := .plain, properties := ⟨[(q, .object g)]⟩ })).2 }
  /-- What is alive does not depend on what objects remember. -/
  cacheless : ∀ i, (w.uncached.settled held).heap.isAlive i = (w.settled held).heap.isAlive i

namespace World.Traced

theorem ok (ht : w.Traced xs) : w.OK [] := by
  obtain ⟨w₀, h₀, hr⟩ := ht.reached
  exact hr.ok h₀.ok

theorem heap (ht : w.Traced xs) : w.heap.Traced xs := ht.run.traced .empty

/-- A callable that is there is remembered by its receiver. -/
theorem cached (ht : w.Traced xs) (hf : w.heap.origin? f = some (i, p)) :
    w.heap.cached? i p = some f := by
  obtain ⟨w₀, h₀, hr⟩ := ht.reached
  have hreceiver := ht.ok.heap.backs_receiver hf
  have hlt := hr.aged h₀.ok h₀.aged f i p hf
  exact ht.heap.cached f i p hf hlt (BridgeM.isSome_object?_iff.2 hreceiver)

theorem origin? (ht : w.Traced xs) {x : Extraction} (hx : x ∈ xs)
    (hf : w.heap.Backs (.value (.object x.callable))) :
    w.heap.origin? x.callable = some (x.receiver, x.property) :=
  ht.heap.recorded x hx (BridgeM.isSome_object?_iff.2 hf)

/-- What is dropped has been extracted nevertheless. -/
theorem settled (ht : w.Traced xs) (held : List HostId) : (w.settled held).Traced xs := by
  obtain ⟨w₀, h₀, hr₀⟩ := ht.reached
  have hdrop : Reaches .outer [] w (w.settled held) :=
    (Reaches.settled (by decide) w held).weaken nofun
  have hrun : ({} : Heap).Run (xs ++ []) (w.settled held).heap := ht.run.tail .reclaim
  exact ⟨⟨w₀, h₀, hr₀.trans hdrop⟩, List.append_nil xs ▸ hrun⟩

/-- Moves that are a run of changes lead to a state with a longer history. -/
theorem extend (ht : w.Traced xs) (hr : Reaches .outer [] w w') (ha : w.Alters w') :
    ∃ ys, w'.Traced (xs ++ ys) := by
  obtain ⟨w₀, h₀, hr₀⟩ := ht.reached
  obtain ⟨⟨ys, hrun⟩, -⟩ := ha
  exact ⟨ys, ⟨w₀, h₀, hr₀.trans hr⟩, ht.run.trans hrun⟩

end World.Traced

namespace BridgeM

theorem originOf_run (f : HostId) (held : List HostId) (w : World) :
    originOf f held w = .ok (w.heap.origin? f) w := by
  unfold originOf Heap.origin? Heap.callable?
  rw [bind_run, get_run]
  dsimp only
  cases w.heap.object? f with
  | none => rfl
  | some o =>
    obtain ⟨kind, properties, methodCache⟩ := o
    cases kind with
    | function c =>
      obtain ⟨name, behaviour, construct⟩ := c
      cases behaviour <;> rfl
    | _ => rfl

/-- A callable that its receiver remembers leads back to it. -/
theorem functionAsObject_run_of_cached (hf : w.heap.origin? f = some (i, p))
    (hc : w.heap.cached? i p = some f) (held : List HostId) :
    functionAsObject (.object f) p held w = .ok i w := by
  obtain ⟨o, ho, hfind⟩ := Option.bind_eq_some_iff.1 hc
  change (originOf f >>= _) (f :: held) w = _
  rw [bind_run, originOf_run, hf]
  dsimp only
  rw [if_pos rfl, bind_run, object?_run, ho]
  dsimp only
  rw [if_pos hfind]
  rfl

/-- What was not extracted under the name gets a new object. -/
theorem functionAsObject_run_of_ne (hf : ∀ i, w.heap.origin? f ≠ some (i, p))
    (held : List HostId) :
    functionAsObject (.object f) p held w = .ok ⟨w.heap.next⟩
      { w with heap := (w.heap.alloc
        (.object { kind := .plain, properties := ⟨[(p, .object f)]⟩ })).2 } := by
  change (originOf f >>= _) (f :: held) w = _
  rw [bind_run, originOf_run]
  dsimp only
  cases ho : w.heap.origin? f with
  | none => rfl
  | some r =>
    obtain ⟨i, q⟩ := r
    have hq : q ≠ p := by
      rintro rfl
      exact hf i ho
    dsimp only
    rw [if_neg hq]
    rfl

/-- **What an action extracts is added to the history**, if it is made of moves and alters cells by
a run of changes. -/
theorem traced_final {α : Type} {act : BridgeM α} {P : α → World → Prop} (ht : w.Traced xs)
    (hmoves : Leads (Reaches .outer held) held w act P) (halters : Alters act) :
    ∃ ys, (final act held w).Traced (xs ++ ys) :=
  ht.extend (hmoves.final.weaken nofun) (halters held w).final

/-- Any object gives a callable: the one that it remembers, or a new one. -/
theorem asFunction_gives (ht : w.Traced xs) (hheld : ∀ i ∈ held, w.heap.isAlive i)
    (hi : w.heap.Backs (.value (.object i))) (p : String) :
    ∃ f w' ys, asFunction (.object i) p held w = .ok f w' ∧ w'.Traced (xs ++ ys) ∧
      ⟨f, i, p⟩ ∈ xs ++ ys ∧ w'.heap.Backs (.value (.object f)) := by
  have hok : w.OK held := ht.ok.rehold hheld
  have hleads := asFunction_leads hok hi p
  have hsettled := ht.settled (i :: held)
  have hrun := asFunction_run i p held w
  cases hcached : ((w.settled (i :: held)).heap.cached? i p).filter
      (w.settled (i :: held)).heap.isAlive with
  | some f =>
    -- The object remembers a callable that is alive.
    rw [hcached] at hrun
    have hmem : ⟨f, i, p⟩ ∈ xs :=
      hsettled.heap.caches i p f (Option.filter_eq_some_iff.1 hcached).1
    refine ⟨f, _, [], hrun, ?_, ?_, (hleads.ok hrun).2⟩
    · rwa [List.append_nil]
    · rwa [List.append_nil]
  | none =>
    -- It does not, and the new callable is added to the history.
    rw [hcached] at hrun
    obtain ⟨w₀, h₀, hr₀⟩ := ht.reached
    obtain ⟨hmoves, hf⟩ := hleads.ok hrun
    refine ⟨_, _, [⟨⟨w.heap.next⟩, i, p⟩], hrun, ⟨⟨w₀, h₀, ?_⟩, ?_⟩, ?_, hf⟩
    · exact hr₀.trans (hmoves.weaken nofun)
    · exact hsettled.run.tail (.extract hcached)
    · exact List.mem_append_right _ (List.mem_singleton_self _)

/-- A callable that is still alive is given again. -/
theorem asFunction_again (ht : w.Traced xs) {x : Extraction} (hx : x ∈ xs)
    (hf : (w.settled (x.receiver :: held)).heap.Backs (.value (.object x.callable))) :
    asFunction (.object x.receiver) x.property held w =
      .ok x.callable (w.settled (x.receiver :: held)) := by
  have hsettled := ht.settled (x.receiver :: held)
  have hcached := hsettled.cached (hsettled.origin? hx hf)
  rw [asFunction_run, hcached, Option.filter_some, if_pos (isAlive_of_backs hf)]

/-- **What extractions give**, in any state of a session. -/
theorem recalls (ht : w.Traced xs) (hheld : ∀ i ∈ held, w.heap.isAlive i) : w.Recalls held xs := by
  refine {
    distinct := ht.heap.distinct
    gives := fun i p hi => asFunction_gives ht hheld hi p
    again := fun x hx hf => asFunction_again ht hx hf
    back := ?back
    other := ?other
    cacheless := ?cacheless }
  case back =>
    intro x hx hf
    have horigin := ht.origin? hx hf
    have hback := functionAsObject_run_of_cached horigin (ht.cached horigin) held
    exact ⟨ht.ok.heap.backs_receiver horigin, hback⟩
  case other =>
    intro g q hg hq
    have hnew : ∀ i, w.heap.origin? g ≠ some (i, q) := fun i hi =>
      hq _ (ht.heap.origins g i q hi) rfl rfl
    have hdead : w.heap.isAlive ⟨w.heap.next⟩ = false :=
      congrArg Option.isSome ht.ok.heap.cell?_next
    exact ⟨hdead, functionAsObject_run_of_ne hnew held⟩
  case cacheless =>
    intro i
    rw [World.settled_uncached]
    exact Heap.isAlive_uncached _ i

/-- **Extracted callables keep their identity and their origin**, in all runs.

Every state of a session has a history of extractions, which later steps only extend, and so do
the imports that a guest calls and the behaviours that are carried out, at any depth. In each state,
also in the midst of a call, a callable of the history that is there has its receiver, is what the
receiver gives for the property, and leads back to it. An object that has not been extracted under
a name gets a new object, with itself under the name as the only property. What objects remember
keeps nothing alive. -/
theorem extractions_keep :
    (∀ w : World, w.Reachable → ∃ xs, w.Traced xs) ∧
      ∀ (w : World) (xs : List Extraction), w.Traced xs →
        (∀ w', w.Later w' → ∃ ys, w'.Traced (xs ++ ys)) ∧
        ∀ held, (∀ i ∈ held, w.heap.isAlive i) →
          (∀ n module name ts, w.heap.BacksAll ts → ∃ ys,
            (final (callImport (.ofDepth n) module name ts) held w).Traced (xs ++ ys)) ∧
          (∀ n b this args, (∀ p ∈ b.parts, w.heap.Backs p) → w.heap.Backs (.value this) →
            (∀ a ∈ args, w.heap.Backs (.value a)) → ∃ ys,
              (final (Runner.ofDepth n b this args) held w).Traced (xs ++ ys)) ∧
          w.Recalls held xs := by
  refine ⟨fun w hw => ?_, fun w xs ht => ⟨fun w' hlater => ?_, fun held hheld => ?_⟩⟩
  · obtain ⟨xs, hrun⟩ := hw.run
    exact ⟨xs, ⟨w, hw, .refl⟩, hrun⟩
  · exact ht.extend (hlater.reaches ht.ok) hlater.alters
  · have hok : w.OK held := ht.ok.rehold hheld
    refine ⟨fun n module name ts hts => ?_, fun n b this args hb hthis hargs => ?_, ?_⟩
    · have hmoves := callImport_leads (runner_sound n) hok hts module name
      exact traced_final ht hmoves (callImport_alters (runner_alters n) module name ts)
    · have hmoves := runner_sound n held w b this args hok hb hthis hargs
      exact traced_final ht hmoves (runner_alters n b this args)
    · exact recalls ht hheld

/-- A session with an object that is held by a callable only, and that remembers another callable,
which is gone. -/
def tied : World :=
  let steps : List Step :=
    [.set "object" (.external (.object [])), .set "other" (.external (.object [])),
      .perform (.context (.asFunction (.variable "object") "start")) (some "function"),
      .perform (.context (.asFunction (.variable "object") "stop")) none,
      .perform (.context (.asFunction (.variable "other") "start")) (some "third"),
      .perform (.drop "object") none]
  (runSteps steps (World.load {} {}).2.2).2

/-- The callable is given again and leads back to the object, but not under another name. -/
theorem tied_keeps :
    ∃ xs, tied.Traced xs ∧ ⟨⟨2⟩, ⟨0⟩, "start"⟩ ∈ xs ∧
      asFunction (.object ⟨0⟩) "start" [] tied = .ok ⟨2⟩ (tied.settled [⟨0⟩]) ∧
      functionAsObject (.object ⟨2⟩) "start" [] tied = .ok ⟨0⟩ tied ∧
      (∃ w', functionAsObject (.object ⟨2⟩) "stop" [] tied = .ok ⟨5⟩ w') ∧
      (tied.uncached.settled []).heap.isAlive ⟨3⟩ = false := by
  have hw : tied.Reachable := ⟨{}, {}, _, _, rfl, World.later_runSteps _ _⟩
  have hnone : ∀ i ∈ ([] : List HostId), tied.heap.isAlive i := nofun
  obtain ⟨xs, ht⟩ := extractions_keep.1 tied hw
  obtain ⟨-, hkeep⟩ := extractions_keep.2 tied xs ht
  obtain ⟨-, -, hrecalls⟩ := hkeep [] hnone
  have hmem : ⟨⟨2⟩, ⟨0⟩, "start"⟩ ∈ xs := ht.heap.origins _ _ _ (by decide +kernel)
  have hthere : tied.heap.Backs (.value (.object ⟨2⟩)) := isSome_object?_iff.1 (by decide +kernel)
  have hstays : (tied.settled [⟨0⟩]).heap.Backs (.value (.object ⟨2⟩)) :=
    isSome_object?_iff.1 (by decide +kernel)
  have hname : ∀ x ∈ xs, x.callable = ⟨2⟩ → x.property ≠ "stop" := by
    intro x hx hf hp
    have hsame := List.inj_on_of_nodup_map hrecalls.distinct hx hmem hf
    rw [hsame] at hp
    exact absurd hp (by decide)
  have hagain := hrecalls.again _ hmem hstays
  have hback := (hrecalls.back _ hmem hthere).2
  have hother := (hrecalls.other ⟨2⟩ "stop" hthere hname).2
  have hnext : tied.heap.next = 5 := by decide +kernel
  rw [hnext] at hother
  refine ⟨xs, ht, hmem, hagain, hback, ⟨_, hother⟩, ?_⟩
  rw [hrecalls.cacheless]
  decide +kernel

end BridgeM

end GuestBridge
