import Mathlib.Order.Nat
import Mathlib.Tactic.Common
import GuestBridge.Host.Heap

/-!
# What is alive on the host

A cell holds *parts*: host values and class definitions. A part is *backed* by a heap
that has the cells it names, with the content that it says. A weak link to a referent
says less: the referent is known, and is backed while it is alive.

Cells never change what they are (`Shape`), and no identity is given twice, so a later
heap (`Heap.Later`) backs what an earlier one did as long as it is alive, and knows what
an earlier one did.

* `cell?_reclaim_iff`: **after a reclaim a cell is there exactly when a root or a cell that
  is there holds it**, unchanged.
* `Backs.later`, `Knows.later`: what stays from a heap to a later one.
* `alloc_ok`, `setCell_ok`, `reclaim_ok`: a heap stays well formed.
-/

namespace GuestBridge

/-! ## Parts -/

/-- What a cell or a root can hold: a host value, or the definition of a class. -/
inductive Part where
  | value (v : HostValue)
  | definition (d : HostId)

/-- The identities that a part names. -/
def Part.ids : Part → List HostId
  | value v => v.holds
  | definition d => [d]

/-- The parts of a function body. -/
def Body.parts : Body HostValue GuestExpr → List Part
  | .const v => [.value v]
  | _ => []

/-- The parts of a guest value. -/
def GuestValue.parts : GuestValue → List Part
  | external v => [.value v]
  | entry e => e.body.parts
  | _ => []

/-- The parts of a behaviour. -/
def Behaviour.parts : Behaviour → List Part
  | body b => b.parts
  | forward e => e.body.parts
  | global _ => []
  | bound receiver _ => [.value (.object receiver)]

/-- The parts of an accessor. -/
def Accessor.parts (a : Accessor) : List Part :=
  a.getter.body.parts ++ a.setter.elim [] fun e => e.body.parts

/-- The parts of an object kind. -/
def ObjectKind.parts : ObjectKind → List Part
  | plain => []
  | function c => c.behaviour.parts ++ c.construct.elim [] Body.parts
  | .class d => [.definition d]
  | wrapper d _ => [.definition d]
  | weakRef _ => []

/-- The parts of a cell. -/
def Cell.parts : Cell → List Part
  | string _ => []
  | symbol _ => []
  | object o => o.kind.parts ++ o.properties.values.map .value
  | definition c =>
    (c.methods.values.map fun m => .value (.object m)) ++ c.accessors.values.flatMap Accessor.parts

/-- What an object kind leads to without holding it. -/
def ObjectKind.weakLinks : ObjectKind → List Referent
  | weakRef r => [r]
  | _ => []

/-- What a cell leads to without holding it. -/
def Cell.weakLinks : Cell → List Referent
  | object o => o.kind.weakLinks ++ o.methodCache.values.map .object
  | _ => []

section Holds

theorem Body.mem_holds {b : Body HostValue GuestExpr} {i : HostId} :
    i ∈ b.holds ↔ ∃ p ∈ b.parts, i ∈ p.ids := by
  cases b <;> simp [Body.holds, Body.parts, Part.ids]

theorem GuestValue.mem_holds {v : GuestValue} {i : HostId} :
    i ∈ v.holds ↔ ∃ p ∈ v.parts, i ∈ p.ids := by
  cases v <;> simp [GuestValue.holds, GuestValue.parts, Part.ids, Body.mem_holds]

theorem Behaviour.mem_holds {b : Behaviour} {i : HostId} :
    i ∈ b.holds ↔ ∃ p ∈ b.parts, i ∈ p.ids := by
  cases b <;> simp [Behaviour.holds, Behaviour.parts, Part.ids, Body.mem_holds, HostValue.holds]

theorem Accessor.mem_holds {a : Accessor} {i : HostId} :
    i ∈ a.holds ↔ ∃ p ∈ a.parts, i ∈ p.ids := by
  obtain ⟨getter, setter⟩ := a
  cases setter <;> simp [Accessor.holds, Accessor.parts, Body.mem_holds, or_and_right, exists_or]

theorem ObjectKind.mem_holds {k : ObjectKind} {i : HostId} :
    i ∈ k.holds ↔ ∃ p ∈ k.parts, i ∈ p.ids := by
  cases k with
  | function c =>
    obtain ⟨name, behaviour, construct⟩ := c
    cases construct <;>
      simp [ObjectKind.holds, ObjectKind.parts, Behaviour.mem_holds, Body.mem_holds, or_and_right,
        exists_or]
  | _ => simp [ObjectKind.holds, ObjectKind.parts, Part.ids]

/-- **A cell holds what its parts name.** -/
theorem Cell.mem_holds {c : Cell} {i : HostId} : i ∈ c.holds ↔ ∃ p ∈ c.parts, i ∈ p.ids := by
  cases c with
  | string | symbol => simp [Cell.holds, Cell.parts]
  | object o =>
    simp [Cell.holds, Cell.parts, ObjectKind.mem_holds, Part.ids, or_and_right, exists_or]
  | definition c =>
    simp only [Cell.holds, Cell.parts, List.mem_append, List.mem_flatMap, Accessor.mem_holds,
      or_and_right, exists_or, List.mem_map]
    constructor
    · rintro (h | ⟨a, ha, p, hp, hi⟩)
      · exact .inl ⟨_, ⟨i, h, rfl⟩, by simp [Part.ids, HostValue.holds]⟩
      · exact .inr ⟨p, ⟨a, ha, hp⟩, hi⟩
    · rintro (⟨_, ⟨m, hm, rfl⟩, hi⟩ | ⟨p, ⟨a, ha, hp⟩, hi⟩)
      · simp only [Part.ids, HostValue.holds, List.mem_singleton] at hi
        exact .inl (hi ▸ hm)
      · exact .inr ⟨a, ha, p, hp, hi⟩

end Holds

/-! ## Shapes -/

/-- What a cell is, for as long as it is there. -/
inductive Shape where
  | string (text : String)
  | symbol (description : Option String)
  | object (kind : ObjectKind)
  | definition (name : String)

/-- The shape of a cell. -/
def Cell.shape : Cell → Shape
  | string s => .string s
  | symbol d => .symbol d
  | object o => .object o.kind
  | definition c => .definition c.name

namespace Heap

variable {h h' h'' : Heap} {i : HostId} {c : Cell} {p : Part} {r : Referent}

/-- The heap has what a part names, as the part says it is. -/
def Backs (h : Heap) : Part → Prop
  | .value (.string s) => h.cell? s.id = some (.string s.text)
  | .value (.symbol s) => h.cell? s.id = some (.symbol s.description)
  | .value (.object i) => ∃ o, h.cell? i = some (.object o)
  | .value _ => True
  | .definition d => ∃ c, h.cell? d = some (.definition c)

/-- The heap has had what a weak link leads to, and backs it if it is alive. -/
structure Knows (h : Heap) (r : Referent) : Prop where
  lt_next : r.id.index < h.next
  backs : h.isAlive r.id → h.Backs (.value r.toValue)

/-- The cells are distinct, have identities that have been given, hold what the heap backs and
lead to what it knows. -/
structure OK (h : Heap) : Prop where
  nodup : h.cells.keys.Nodup
  lt_next : ∀ i c, h.cell? i = some c → i.index < h.next
  parts : ∀ i c, h.cell? i = some c → ∀ p ∈ c.parts, h.Backs p
  weakLinks : ∀ i c, h.cell? i = some c → ∀ r ∈ c.weakLinks, h.Knows r

/-- `h'` comes after `h`: identities are not given twice, and cells keep their shapes. -/
structure Later (h h' : Heap) : Prop where
  next_le : h.next ≤ h'.next
  shape : ∀ i c', i.index < h.next → h'.cell? i = some c' →
    ∃ c, h.cell? i = some c ∧ c'.shape = c.shape

theorem empty_ok : ({} : Heap).OK :=
  ⟨List.nodup_nil, by simp [cell?], by simp [cell?], by simp [cell?]⟩

theorem isAlive_iff : h.isAlive i ↔ ∃ c, h.cell? i = some c := by
  rw [isAlive, OrderedMap.contains, Option.isSome_iff_exists]; rfl

theorem isAlive_of_cell? (hc : h.cell? i = some c) : h.isAlive i := isAlive_iff.2 ⟨c, hc⟩

theorem Backs.isAlive (hp : h.Backs p) : ∀ i ∈ p.ids, h.isAlive i := by
  intro i hi
  cases p with
  | definition d =>
    obtain ⟨c, hc⟩ := hp
    rw [List.mem_singleton.1 hi]
    exact isAlive_of_cell? hc
  | value v =>
    cases v with
    | string s | symbol s => rw [List.mem_singleton.1 hi]; exact isAlive_of_cell? hp
    | object j =>
      obtain ⟨o, ho⟩ := hp
      rw [List.mem_singleton.1 hi]
      exact isAlive_of_cell? ho
    | _ => simp [Part.ids, HostValue.holds] at hi

/-- What is among backed parts is alive. -/
theorem isAlive_of_parts {ps : List Part} (hp : ∀ p ∈ ps, h.Backs p) (hi : ∃ p ∈ ps, i ∈ p.ids) :
    h.isAlive i := by
  obtain ⟨p, hm, hi⟩ := hi
  exact (hp p hm).isAlive i hi

/-- What a guest value holds is alive if its parts are backed. -/
theorem isAlive_of_guestValue {t : GuestValue} (ht : ∀ p ∈ t.parts, h.Backs p) :
    ∀ i ∈ t.holds, h.isAlive i := fun _ hi => isAlive_of_parts ht (GuestValue.mem_holds.1 hi)

/-- So is what a weak reference is asked for with: its target and its token. -/
theorem isAlive_of_weakRef {v : HostValue} {token : Option GuestValue} (hv : h.Backs (.value v))
    (htoken : ∀ t, token = some t → ∀ p ∈ t.parts, h.Backs p) :
    ∀ i ∈ v.holds ++ token.elim [] GuestValue.holds, h.isAlive i := by
  intro i hi
  rcases List.mem_append.1 hi with hi | hi
  · exact hv.isAlive i hi
  · cases token with
    | none => cases hi
    | some t => exact isAlive_of_guestValue (htoken t rfl) i hi

theorem OK.isAlive_lt (hh : h.OK) (hi : h.isAlive i) : i.index < h.next := by
  obtain ⟨c, hc⟩ := isAlive_iff.1 hi
  exact hh.lt_next i c hc

theorem Later.refl (h : Heap) : h.Later h := ⟨le_rfl, fun _ c' _ hc => ⟨c', hc, rfl⟩⟩

theorem Later.trans (h1 : h.Later h') (h2 : h'.Later h'') : h.Later h'' := by
  refine ⟨le_trans h1.next_le h2.next_le, fun i c'' hi hc'' => ?_⟩
  obtain ⟨c', hc', hs'⟩ := h2.shape i c'' (lt_of_lt_of_le hi h1.next_le) hc''
  obtain ⟨c, hc, hs⟩ := h1.shape i c' hi hc'
  exact ⟨c, hc, hs'.trans hs⟩

/-- What was there before and is alive later is alive in between. -/
theorem Later.isAlive_of_isAlive (hl : h.Later h') (hi : i.index < h.next) (ha : h'.isAlive i) :
    h.isAlive i := by
  obtain ⟨c', hc'⟩ := isAlive_iff.1 ha
  obtain ⟨c, hc, -⟩ := hl.shape i c' hi hc'
  exact isAlive_of_cell? hc

/-- A cell that was there before and is alive is there, with the same shape. -/
theorem Later.cell? (hl : h.Later h') (hh : h.OK) (hc : h.cell? i = some c) (hi : h'.isAlive i) :
    ∃ c', h'.cell? i = some c' ∧ c'.shape = c.shape := by
  obtain ⟨c', hc'⟩ := isAlive_iff.1 hi
  obtain ⟨c₀, hc₀, hs⟩ := hl.shape i c' (hh.lt_next i c hc) hc'
  rw [hc, Option.some.injEq] at hc₀
  exact ⟨c', hc', hc₀ ▸ hs⟩

/-- **A later heap backs what an earlier one did**, if that is alive. -/
theorem Backs.later (hp : h.Backs p) (hh : h.OK) (hl : h.Later h')
    (ha : ∀ i ∈ p.ids, h'.isAlive i) : h'.Backs p := by
  -- what is still there has the shape that it had, so it still backs the part
  cases p with
  | definition d =>
    obtain ⟨c, hc⟩ := hp
    obtain ⟨c', hc', hs⟩ := hl.cell? hh hc (ha d (by simp [Part.ids]))
    cases c' with
    | definition c' => exact ⟨c', hc'⟩
    | _ => simp [Cell.shape] at hs
  | value v =>
    cases v with
    | string s =>
      obtain ⟨c', hc', hs⟩ := hl.cell? hh hp (ha s.id (by simp [Part.ids, HostValue.holds]))
      cases c' with
      | string t => simpa [Backs, Cell.shape, hc'] using hs
      | _ => simp [Cell.shape] at hs
    | symbol s =>
      obtain ⟨c', hc', hs⟩ := hl.cell? hh hp (ha s.id (by simp [Part.ids, HostValue.holds]))
      cases c' with
      | symbol d => simpa [Backs, Cell.shape, hc'] using hs
      | _ => simp [Cell.shape] at hs
    | object j =>
      obtain ⟨o, ho⟩ := hp
      obtain ⟨c', hc', hs⟩ := hl.cell? hh ho (ha j (by simp [Part.ids, HostValue.holds]))
      cases c' with
      | object o' => exact ⟨o', hc'⟩
      | _ => simp [Cell.shape] at hs
    | _ => trivial

theorem classDefinition?_eq_some_iff {d : HostId} : h.classDefinition? i = some d ↔
    ∃ o, h.cell? i = some (.object o) ∧ o.kind = .class d := by
  simp only [classDefinition?, object?]
  cases h.cell? i with
  | none => simp
  | some c =>
    cases c with
    | object o =>
      obtain ⟨kind, _, _⟩ := o
      cases kind <;> simp
    | _ => simp

/-- A class is one for as long as it is alive. -/
theorem Later.classDefinition? (hl : h.Later h') (hh : h.OK) {d : HostId}
    (hd : h.classDefinition? i = some d) (hi : h'.isAlive i) : h'.classDefinition? i = some d := by
  obtain ⟨o, ho, hk⟩ := classDefinition?_eq_some_iff.1 hd
  obtain ⟨c', hc', hs⟩ := hl.cell? hh ho hi
  cases c' with
  | object o' =>
    simp only [Cell.shape, Shape.object.injEq] at hs
    exact classDefinition?_eq_some_iff.2 ⟨o', hc', hs.trans hk⟩
  | _ => simp [Cell.shape] at hs

/-- The heap has the definition behind a class. -/
theorem OK.backs_definition (hh : h.OK) {d : HostId} (hd : h.classDefinition? i = some d) :
    h.Backs (.definition d) := by
  obtain ⟨o, ho, hk⟩ := classDefinition?_eq_some_iff.1 hd
  exact hh.parts i _ ho _ (List.mem_append_left _ (by rw [hk]; exact List.mem_singleton_self _))

/-- **A later heap knows what an earlier one did.** -/
theorem Knows.later (hr : h.Knows r) (hh : h.OK) (hl : h.Later h') : h'.Knows r := by
  refine ⟨lt_of_lt_of_le hr.lt_next hl.next_le, fun ha => ?_⟩
  obtain ⟨c', hc'⟩ := isAlive_iff.1 ha
  obtain ⟨c, hc, -⟩ := hl.shape r.id c' hr.lt_next hc'
  refine (hr.backs (isAlive_of_cell? hc)).later hh hl fun i hi => ?_
  have : i = r.id := by
    cases r <;> simpa [Part.ids, Referent.toValue, Referent.id, HostValue.holds] using hi
  exact this ▸ ha

/-- What a heap backs is backed as long as every cell that was there is. -/
theorem Backs.of_keeps (hp : h.Backs p) (hh : h.OK) (hl : h.Later h')
    (hk : ∀ i, h.isAlive i → h'.isAlive i) : h'.Backs p :=
  hp.later hh hl fun i hi => hk i (hp.isAlive i hi)

/-! ## New and replaced cells -/

section Change

theorem OK.cell?_next (hh : h.OK) : h.cell? ⟨h.next⟩ = none := by
  rw [Option.eq_none_iff_forall_ne_some]
  intro c hc
  exact absurd (hh.lt_next _ c hc) (lt_irrefl _)

theorem cell?_alloc (c : Cell) (i : HostId) :
    (h.alloc c).2.cell? i = if i = (h.alloc c).1 then some c else h.cell? i :=
  OrderedMap.find?_insert ..

/-- A new cell leaves the others as they were. -/
theorem OK.cell?_alloc_of_some (hh : h.OK) {c₀ : Cell} (hc : h.cell? i = some c₀) (c : Cell) :
    (h.alloc c).2.cell? i = some c₀ := by
  rw [cell?_alloc, if_neg, hc]
  rintro rfl
  rw [alloc, hh.cell?_next] at hc
  exact absurd hc (by simp)

theorem OK.isAlive_alloc (hh : h.OK) (c : Cell) (hi : h.isAlive i) : (h.alloc c).2.isAlive i := by
  obtain ⟨c₀, hc₀⟩ := isAlive_iff.1 hi
  exact isAlive_of_cell? (hh.cell?_alloc_of_some hc₀ c)

theorem later_alloc (h : Heap) (c : Cell) : h.Later (h.alloc c).2 := by
  refine ⟨Nat.le_succ _, fun i c' hi hc' => ⟨c', ?_, rfl⟩⟩
  rwa [cell?_alloc, if_neg] at hc'
  rintro rfl
  exact absurd hi (lt_irrefl _)

theorem alloc_ok (hh : h.OK) (hp : ∀ p ∈ c.parts, h.Backs p) (hr : ∀ r ∈ c.weakLinks, h.Knows r) :
    (h.alloc c).2.OK := by
  have hl := later_alloc h c
  have hk : ∀ i, h.isAlive i → (h.alloc c).2.isAlive i := fun i => hh.isAlive_alloc c
  refine ⟨OrderedMap.nodup_keys_insert hh.nodup _ _, fun i c' hc' => ?_, fun i c' hc' p hm => ?_,
    fun i c' hc' r hm => ?_⟩ <;> rw [cell?_alloc] at hc' <;> split_ifs at hc' with hi
  · rw [hi]; exact Nat.lt_succ_self _
  · exact lt_trans (hh.lt_next i c' hc') (Nat.lt_succ_self _)
  · obtain rfl := Option.some.inj hc'
    exact (hp p hm).of_keeps hh hl hk
  · exact (hh.parts i c' hc' p hm).of_keeps hh hl hk
  · obtain rfl := Option.some.inj hc'
    exact (hr r hm).later hh hl
  · exact (hh.weakLinks i c' hc' r hm).later hh hl

theorem cell?_setCell (i j : HostId) (c : Cell) :
    (h.setCell i c).cell? j = if j = i then some c else h.cell? j :=
  OrderedMap.find?_insert ..

theorem isAlive_setCell {c₀ : Cell} (hc : h.cell? i = some c₀) (c : Cell) (j : HostId) :
    (h.setCell i c).isAlive j ↔ h.isAlive j := by
  rw [isAlive_iff, isAlive_iff, cell?_setCell]
  split_ifs with hj
  · simp [hj, hc]
  · rfl

theorem later_setCell {c₀ : Cell} (hc : h.cell? i = some c₀) (hs : c.shape = c₀.shape) :
    h.Later (h.setCell i c) := by
  refine ⟨le_rfl, fun j c' _ hc' => ?_⟩
  rw [cell?_setCell] at hc'
  split_ifs at hc' with hj
  · obtain rfl := Option.some.inj hc'
    exact ⟨c₀, hj ▸ hc, hs⟩
  · exact ⟨c', hc', rfl⟩

theorem setCell_ok (hh : h.OK) {c₀ : Cell} (hc : h.cell? i = some c₀) (hs : c.shape = c₀.shape)
    (hp : ∀ p ∈ c.parts, h.Backs p) (hr : ∀ r ∈ c.weakLinks, h.Knows r) : (h.setCell i c).OK := by
  have hl := later_setCell hc hs
  have hk : ∀ j, h.isAlive j → (h.setCell i c).isAlive j := fun j => (isAlive_setCell hc c j).2
  refine ⟨OrderedMap.nodup_keys_insert hh.nodup _ _, fun j c' hc' => ?_, fun j c' hc' p hm => ?_,
    fun j c' hc' r hm => ?_⟩ <;> rw [cell?_setCell] at hc' <;> split_ifs at hc' with hj
  · exact hj ▸ hh.lt_next i c₀ hc
  · exact hh.lt_next j c' hc'
  · obtain rfl := Option.some.inj hc'
    exact (hp p hm).of_keeps hh hl hk
  · exact (hh.parts j c' hc' p hm).of_keeps hh hl hk
  · obtain rfl := Option.some.inj hc'
    exact (hr r hm).later hh hl
  · exact (hh.weakLinks j c' hc' r hm).later hh hl

end Change

/-! ## Reclaiming -/

section Reclaim

variable {roots : List HostId} {n : ℕ} {es : List (HostId × Cell)}

theorem dropUnheld_sublist (roots : List HostId) : ∀ n es, (dropUnheld roots n es).Sublist es := by
  intro n
  induction n with
  | zero => intro es; exact List.Sublist.refl _
  | succ n ih =>
    intro es
    simp only [dropUnheld]
    split
    · exact List.Sublist.refl _
    · exact (ih _).trans List.filter_sublist

/-- What a root or a kept cell holds is kept. -/
theorem mem_dropUnheld {e : HostId × Cell} (he : e ∈ es)
    (hh : e.1 ∈ roots ∨ ∃ e' ∈ dropUnheld roots n es, e.1 ∈ e'.2.holds) :
    e ∈ dropUnheld roots n es := by
  -- on the rounds: no round drops what is held by something that stays to the end
  induction n generalizing es with
  | zero => exact he
  | succ n ih =>
    simp only [dropUnheld] at hh ⊢
    split
    · exact he
    · next hn =>
      simp only [if_neg hn] at hh
      refine ih (List.mem_filter.2 ⟨he, ?_⟩) hh
      rw [IdSet.contains_ofList, decide_eq_true_eq, List.mem_append, List.mem_flatMap]
      refine hh.imp id ?_
      rintro ⟨e', he', hi⟩
      exact ⟨e', List.filter_sublist.subset ((dropUnheld_sublist roots n _).subset he'), hi⟩

/-- Given as many rounds as there are cells, every kept cell is held by a root or a kept cell. -/
theorem held_of_mem_dropUnheld (hn : es.length ≤ n) {e : HostId × Cell}
    (he : e ∈ dropUnheld roots n es) :
    e.1 ∈ roots ∨ ∃ e' ∈ dropUnheld roots n es, e.1 ∈ e'.2.holds := by
  induction n generalizing es with
  | zero => simp [List.length_eq_zero_iff.1 (Nat.le_zero.1 hn), dropUnheld] at he
  | succ n ih =>
    simp only [dropUnheld] at he ⊢
    split at he
    -- this round has dropped nothing, so all that is left is held
    · next heq =>
      have := List.length_filter_eq_length_iff.1 heq e he
      rw [IdSet.contains_ofList, decide_eq_true_eq, List.mem_append, List.mem_flatMap] at this
      rwa [if_pos heq]
    -- this round has dropped a cell, so there are rounds enough for the rest
    · next hne =>
      rw [if_neg hne]
      refine ih ?_ he
      have := List.length_filter_le (fun e : HostId × Cell =>
        (IdSet.ofList (roots ++ es.flatMap fun e => e.2.holds)).contains e.1) es
      omega

/-- Entries of which each is held by a root or by another of them are kept. -/
theorem mem_dropUnheld_of_closed {P : HostId × Cell → Prop}
    (hP : ∀ e, P e → e.1 ∈ roots ∨ ∃ e', P e' ∧ e.1 ∈ e'.2.holds) (hes : ∀ e, P e → e ∈ es)
    {e : HostId × Cell} (he : P e) : e ∈ dropUnheld roots n es := by
  induction n generalizing es with
  | zero => exact hes e he
  | succ n ih =>
    simp only [dropUnheld]
    split
    · exact hes e he
    · refine ih fun e he => List.mem_filter.2 ⟨hes e he, ?_⟩
      rw [IdSet.contains_ofList, decide_eq_true_eq, List.mem_append, List.mem_flatMap]
      exact (hP e he).imp id fun ⟨e', he', hi⟩ => ⟨e', hes e' he', hi⟩

theorem nodup_reclaim (hn : h.cells.keys.Nodup) (roots : List HostId) :
    (h.reclaim roots).cells.keys.Nodup :=
  hn.sublist ((dropUnheld_sublist _ _ _).map Prod.fst)

/-- **After a reclaim a cell is there exactly when it was there and a root or a cell that is there
holds it.** -/
theorem cell?_reclaim_iff (hn : h.cells.keys.Nodup) :
    (h.reclaim roots).cell? i = some c ↔ h.cell? i = some c ∧
      (i ∈ roots ∨ ∃ j c', (h.reclaim roots).cell? j = some c' ∧ i ∈ c'.holds) := by
  simp only [cell?, OrderedMap.find?_eq_some_iff (nodup_reclaim hn roots),
    OrderedMap.find?_eq_some_iff hn]
  constructor
  · intro he
    refine ⟨(dropUnheld_sublist _ _ _).subset he, ?_⟩
    refine (held_of_mem_dropUnheld le_rfl he).imp id ?_
    rintro ⟨⟨j, c'⟩, he', hi⟩
    exact ⟨j, c', he', hi⟩
  · rintro ⟨he, hi⟩
    refine mem_dropUnheld he (hi.imp id ?_)
    rintro ⟨j, c', he', hi⟩
    exact ⟨(j, c'), he', hi⟩

theorem cell?_of_reclaim (hn : h.cells.keys.Nodup) (hc : (h.reclaim roots).cell? i = some c) :
    h.cell? i = some c :=
  ((cell?_reclaim_iff hn).1 hc).1

/-- **Cells of which each is a root or held by another of them stay as they were.** -/
theorem cell?_reclaim_of_closed {P : HostId → Prop} (hn : h.cells.keys.Nodup)
    (hP : ∀ j, P j → j ∈ roots ∨ ∃ l c', P l ∧ h.cell? l = some c' ∧ j ∈ c'.holds) (hi : P i)
    (hc : h.cell? i = some c) : (h.reclaim roots).cell? i = some c := by
  simp only [cell?, OrderedMap.find?_eq_some_iff (nodup_reclaim hn roots)]
  refine mem_dropUnheld_of_closed (P := fun e => P e.1 ∧ h.cell? e.1 = some e.2) ?_ ?_ ⟨hi, hc⟩
  · rintro ⟨j, d⟩ ⟨hj, -⟩
    refine (hP j hj).imp id ?_
    rintro ⟨l, c', hl, hc', hm⟩
    exact ⟨(l, c'), ⟨hl, hc'⟩, hm⟩
  · rintro ⟨j, d⟩ ⟨-, hd⟩
    exact (OrderedMap.find?_eq_some_iff hn).1 hd

/-- A root stays as it was. -/
theorem cell?_reclaim_of_root (hn : h.cells.keys.Nodup) (hc : h.cell? i = some c)
    (hi : i ∈ roots) : (h.reclaim roots).cell? i = some c :=
  (cell?_reclaim_iff hn).2 ⟨hc, .inl hi⟩

theorem isAlive_reclaim_of_root (hn : h.cells.keys.Nodup) (hi : h.isAlive i) (hr : i ∈ roots) :
    (h.reclaim roots).isAlive i := by
  obtain ⟨c, hc⟩ := isAlive_iff.1 hi
  exact isAlive_of_cell? (cell?_reclaim_of_root hn hc hr)

theorem isAlive_of_reclaim (hn : h.cells.keys.Nodup) (hi : (h.reclaim roots).isAlive i) :
    h.isAlive i := by
  obtain ⟨c, hc⟩ := isAlive_iff.1 hi
  exact isAlive_of_cell? (cell?_of_reclaim hn hc)

theorem later_reclaim (hn : h.cells.keys.Nodup) (roots : List HostId) :
    h.Later (h.reclaim roots) :=
  ⟨le_rfl, fun _ c' _ hc' => ⟨c', cell?_of_reclaim hn hc', rfl⟩⟩

theorem reclaim_ok (hh : h.OK) (roots : List HostId) : (h.reclaim roots).OK := by
  have hn := hh.nodup
  have hl := later_reclaim hn roots
  refine ⟨nodup_reclaim hn roots, fun i c hc => hh.lt_next i c (cell?_of_reclaim hn hc),
    fun i c hc p hp => ?_, fun i c hc r hr => ?_⟩
  · have hb := hh.parts i c (cell?_of_reclaim hn hc) p hp
    refine hb.later hh hl fun j hj => ?_
    obtain ⟨c', hc'⟩ := isAlive_iff.1 (hb.isAlive j hj)
    exact isAlive_of_cell? ((cell?_reclaim_iff hn).2
      ⟨hc', .inr ⟨i, c, hc, Cell.mem_holds.2 ⟨p, hp, hj⟩⟩⟩)
  · exact (hh.weakLinks i c (cell?_of_reclaim hn hc) r hr).later hh hl

end Reclaim

end Heap

end GuestBridge
