import Mathlib.Algebra.Group.Nat.Defs
import Mathlib.Tactic.Common
import Mathlib.Order.Nat
import GuestBridge.Guest.HandleTable

/-!
# What handles find as a table changes

A handle is *issued* once some insertion has returned it. As long as no slot has been
used again `2 ^ 32` times and slots have numbers (`InRange`), an insertion returns a
handle that was not issued before, so a handle whose value is gone finds nothing ever
after.

* `get?_insert`, `get?_remove`, `get?_set`: a change of the table changes what one handle
  finds.
* `not_issued_insert`: **an insertion returns a new handle**.
* `Stores.of_insert`, `Stores.of_remove`, `Stores.of_set`: where the values of a table come from.
-/

namespace GuestBridge.HandleTable

variable {α : Type} {t : HandleTable α} {h k : Handle} {v : α}

/-- The freed slots are there, are free, and are listed once. -/
structure OK (t : HandleTable α) : Prop where
  free : ∀ i ∈ t.free, ∃ s, t.slots[i.toNat]? = some s ∧ s.value = none
  nodup : t.free.Nodup

/-- Slot numbers and generations have not run out. -/
structure InRange (t : HandleTable α) : Prop where
  size_le : t.slots.size ≤ 2 ^ 32
  reuses_lt : ∀ (i : ℕ) (s : Slot α), t.slots[i]? = some s → s.reuses < 2 ^ 32

/-- The bounds are about finitely many slots, so they can be decided. -/
theorem inRange_iff :
    t.InRange ↔ t.slots.size ≤ 2 ^ 32 ∧ ∀ s ∈ t.slots.toList, s.reuses < 2 ^ 32 := by
  constructor
  · rintro ⟨hsize, hreuses⟩
    refine ⟨hsize, fun s hs => ?_⟩
    obtain ⟨i, hi⟩ := List.mem_iff_getElem?.1 hs
    exact hreuses i s (Array.getElem?_toList ▸ hi)
  · rintro ⟨hsize, hreuses⟩
    refine ⟨hsize, fun i s hs => hreuses s ?_⟩
    exact List.mem_iff_getElem?.2 ⟨i, Array.getElem?_toList.symm ▸ hs⟩

instance (t : HandleTable α) : Decidable t.InRange := decidable_of_iff _ inRange_iff.symm

/-- Some insertion has returned the handle. -/
def Issued (t : HandleTable α) (h : Handle) : Prop :=
  ∃ s, t.slots[h.index.toNat]? = some s ∧ h.generation.toNat ≤ s.reuses

theorem ok_empty : ({} : HandleTable α).OK := ⟨by simp, by simp⟩

/-- A handle finds a value if its slot has one and the generations agree. -/
theorem get?_eq_some_iff : t.get? h = some v ↔
    ∃ s, t.slots[h.index.toNat]? = some s ∧ s.generation = h.generation ∧ s.value = some v := by
  rw [get?, Option.bind_eq_some_iff]
  constructor
  · rintro ⟨s, hs, hv⟩
    obtain ⟨h1, h2⟩ := slot?_eq_some_iff.1 hs
    exact ⟨s, h1, h2, hv⟩
  · rintro ⟨s, h1, h2, hv⟩
    exact ⟨s, slot?_eq_some_iff.2 ⟨h1, h2⟩, hv⟩

theorem isLive_iff : t.isLive h ↔ ∃ v, t.get? h = some v := by
  rw [isLive, Option.isSome_iff_exists]

theorem isLive_of_get? (hv : t.get? h = some v) : t.isLive h := isLive_iff.2 ⟨v, hv⟩

/-- Generations are exact as long as they have not run out. -/
theorem InRange.generation (hr : t.InRange) {i : ℕ} {s : Slot α} (hs : t.slots[i]? = some s) :
    s.generation.toNat = s.reuses := by
  have := hr.reuses_lt i s hs
  rw [Slot.generation, UInt32.toNat_ofNat']
  exact Nat.mod_eq_of_lt this

/-- A handle that finds a value has been returned by an insertion. -/
theorem issued_of_isLive (hr : t.InRange) (hl : t.isLive h) : t.Issued h := by
  obtain ⟨v, hv⟩ := isLive_iff.1 hl
  obtain ⟨s, hs, hg, -⟩ := get?_eq_some_iff.1 hv
  exact ⟨s, hs, by rw [← hg, hr.generation hs]⟩

/-! ## Insertion -/

section Insert

/-- An insertion into a freed slot. -/
theorem insert_of_free {i : UInt32} {is : List UInt32} {s : Slot α} (hf : t.free = i :: is)
    (hs : t.slots[i.toNat]? = some s) (v : α) :
    t.insert v = (⟨i, UInt32.ofNat (s.reuses + 1)⟩,
      { slots := t.slots.setIfInBounds i.toNat ⟨s.reuses + 1, some v⟩, free := is,
        live := t.live + 1 }) := by
  simp [insert, hf, hs, Slot.generation]

/-- An insertion into a new slot. -/
theorem insert_of_full (hf : t.free = []) (v : α) :
    t.insert v = (⟨t.slots.size.toUInt32, 0⟩,
      { slots := t.slots.push ⟨0, some v⟩, free := [], live := t.live + 1 }) := by
  simp [insert, hf]

/-- A new slot is at the index of its handle, as long as there are indices enough. -/
theorem toNat_size_of_full (hf : t.free = []) (hn : (t.insert v).2.slots.size ≤ 2 ^ 32) :
    t.slots.size.toUInt32.toNat = t.slots.size := by
  rw [insert_of_full hf, Array.size_push] at hn
  exact Nat.mod_eq_of_lt hn

/-- A freed slot leaves the list when it is used again. -/
theorem insert_ok (ht : t.OK) (v : α) : (t.insert v).2.OK := by
  cases hf : t.free with
  | nil => rw [insert_of_full hf]; exact ⟨by simp, by simp⟩
  | cons i is =>
    obtain ⟨s, hs, -⟩ := ht.free i (by simp [hf])
    rw [insert_of_free hf hs]
    have hn := ht.nodup
    rw [hf, List.nodup_cons] at hn
    refine ⟨fun j hj => ?_, hn.2⟩
    have hji : i ≠ j := fun e => hn.1 (e ▸ hj)
    obtain ⟨s', hs', hv'⟩ := ht.free j (by simp [hf, hj])
    refine ⟨s', ?_, hv'⟩
    have : i.toNat ≠ j.toNat := fun e => hji (UInt32.toNat_inj.1 e)
    simpa [Array.getElem?_setIfInBounds, this] using hs'

/-- Slots are only added and used again. -/
theorem reuses_insert {i : ℕ} {s : Slot α} (hs : t.slots[i]? = some s) (v : α) :
    ∃ s', (t.insert v).2.slots[i]? = some s' ∧ s.reuses ≤ s'.reuses := by
  have hi : i < t.slots.size := (Array.getElem?_eq_some_iff.1 hs).1
  rw [insert]
  split
  · next j js _ =>
    by_cases hj : j.toNat = i
    · subst hj
      refine ⟨⟨s.reuses + 1, some v⟩, ?_, Nat.le_succ _⟩
      simp [hi, (Array.getElem?_eq_some_iff.1 hs).2]
    · exact ⟨s, by simpa [Array.getElem?_setIfInBounds, hj] using hs, le_rfl⟩
  · exact ⟨s, by simpa [Array.getElem?_push, Nat.ne_of_lt hi] using hs, le_rfl⟩

theorem size_insert (v : α) : t.slots.size ≤ (t.insert v).2.slots.size := by
  rw [insert]; split <;> simp

/-- A table that is in range after an insertion has been so before. -/
theorem InRange.of_insert (hr : (t.insert v).2.InRange) : t.InRange := by
  refine ⟨le_trans (size_insert v) hr.size_le, fun i s hs => ?_⟩
  obtain ⟨s', hs', hle⟩ := reuses_insert hs v
  exact lt_of_le_of_lt hle (hr.reuses_lt i s' hs')

/-- A handle that has been issued stays so. -/
theorem Issued.insert (hi : t.Issued h) (v : α) : (t.insert v).2.Issued h := by
  obtain ⟨s, hs, hg⟩ := hi
  obtain ⟨s', hs', hle⟩ := reuses_insert hs v
  exact ⟨s', hs', le_trans hg hle⟩

/-- **An insertion returns a new handle.** -/
theorem not_issued_insert (ht : t.OK) (hr : (t.insert v).2.InRange) : ¬t.Issued (t.insert v).1 := by
  rintro ⟨s', hs', hg⟩
  cases hf : t.free with
  | nil =>
    -- no handle of a slot behind the others has been issued
    rw [insert_of_full hf, toNat_size_of_full hf hr.size_le] at hs'
    simp at hs'
  | cons i is =>
    obtain ⟨s, hs, -⟩ := ht.free i (by simp [hf])
    have hi := (Array.getElem?_eq_some_iff.1 hs).1
    rw [insert_of_free hf hs] at hr hs' hg
    -- a slot that is used again gets a generation that none of its handles has had
    have hlt := hr.reuses_lt i.toNat ⟨s.reuses + 1, some v⟩ (by simp [hi])
    have : (s.reuses + 1) % 2 ^ 32 = s.reuses + 1 := Nat.mod_eq_of_lt hlt
    rw [hs, Option.some.injEq] at hs'
    subst hs'
    simp only [UInt32.toNat_ofNat', this] at hg
    omega

/-- **An insertion changes what the handle that it returns finds, and nothing else.** -/
theorem get?_insert (ht : t.OK) (hn : (t.insert v).2.slots.size ≤ 2 ^ 32) (k : Handle) :
    (t.insert v).2.get? k = if k = (t.insert v).1 then some v else t.get? k := by
  cases hf : t.free with
  | nil =>
    have hindex := toNat_size_of_full hf hn
    rw [insert_of_full hf]
    obtain ⟨i, g⟩ := k
    simp only [get?, slot?, Array.getElem?_push, Handle.mk.injEq]
    have hidx : i = t.slots.size.toUInt32 ↔ i.toNat = t.slots.size := by
      rw [← UInt32.toNat_inj, hindex]
    by_cases hi : i.toNat = t.slots.size
    · simp only [hi, if_true, hidx, true_and, Array.getElem?_size]
      by_cases hg : g = 0
      · simp [hg, Slot.generation, Option.filter]
      · simp [hg, Slot.generation, Option.filter, Ne.symm hg]
    · simp [hi, hidx]
  | cons i is =>
    obtain ⟨s, hs, hv⟩ := ht.free i (by simp [hf])
    have hi := (Array.getElem?_eq_some_iff.1 hs).1
    rw [insert_of_free hf hs]
    obtain ⟨j, g⟩ := k
    simp only [get?, slot?, Array.getElem?_setIfInBounds, Handle.mk.injEq]
    -- of the handles of the slot that is used again, the one with the new generation finds the
    -- value
    by_cases hj : i.toNat = j.toNat
    · have hij : i = j := UInt32.toNat_inj.1 hj
      subst hij
      by_cases hg : g = UInt32.ofNat (s.reuses + 1)
      · simp [hg, hi, Slot.generation, Option.filter]
      · have hne : Slot.generation ⟨s.reuses + 1, some v⟩ ≠ g := Ne.symm hg
        simp only [hi, if_true, true_and, hg, if_false, Option.filter, hs, hne, decide_false,
          decide_eq_true_eq, Bool.false_eq_true, Option.bind_none]
        split_ifs <;> simp [hv]
    · have hij : j ≠ i := fun e => hj (by rw [e])
      simp [hj, hij]

theorem isLive_insert_self (ht : t.OK) (hn : (t.insert v).2.slots.size ≤ 2 ^ 32) :
    (t.insert v).2.isLive (t.insert v).1 :=
  isLive_of_get? ((get?_insert ht hn _).trans (if_pos rfl))

/-- An insertion keeps the values that are there. -/
theorem isLive_insert (ht : t.OK) (hn : (t.insert v).2.slots.size ≤ 2 ^ 32) (hk : t.isLive k) :
    (t.insert v).2.isLive k := by
  by_cases he : k = (t.insert v).1
  · exact he ▸ isLive_insert_self ht hn
  · obtain ⟨x, hx⟩ := isLive_iff.1 hk
    exact isLive_of_get? ((get?_insert ht hn k).trans ((if_neg he).trans hx))

end Insert

/-! ## Removal and replacement -/

section Change

/-- A slot after the value in another slot, or in itself, has changed. -/
theorem getElem?_modify_value (i j : ℕ) (o : Option α) :
    (t.slots.modify i fun s => { s with value := o })[j]? =
      (t.slots[j]?).map fun s => if i = j then { s with value := o } else s := by
  rw [Array.getElem?_modify]
  split_ifs <;> simp

/-- Equal numbers of reuses: what a change of values keeps. -/
theorem inRange_modify (i : ℕ) (o : Option α) (is : List UInt32) (n : ℕ) :
    InRange ⟨t.slots.modify i fun s => { s with value := o }, is, n⟩ ↔ t.InRange := by
  constructor
  · rintro ⟨h1, h2⟩
    refine ⟨by simpa using h1, fun j s hs => ?_⟩
    have := h2 j (if i = j then { s with value := o } else s) (by
      simp only [getElem?_modify_value, hs, Option.map_some])
    split_ifs at this <;> exact this
  · rintro ⟨h1, h2⟩
    refine ⟨by simpa using h1, fun j s hs => ?_⟩
    simp only [getElem?_modify_value, Option.map_eq_some_iff] at hs
    obtain ⟨s', hs', rfl⟩ := hs
    have := h2 j s' hs'
    split_ifs <;> exact this

/-- Which handles have been issued does not depend on the values. -/
theorem issued_modify (i : ℕ) (o : Option α) (is : List UInt32) (n : ℕ) :
    Issued ⟨t.slots.modify i fun s => { s with value := o }, is, n⟩ k ↔ t.Issued k := by
  simp only [Issued, getElem?_modify_value, Option.map_eq_some_iff]
  constructor
  · rintro ⟨s, ⟨s', hs', rfl⟩, hg⟩
    refine ⟨s', hs', ?_⟩
    split_ifs at hg <;> exact hg
  · rintro ⟨s, hs, hg⟩
    exact ⟨_, ⟨s, hs, rfl⟩, by split_ifs <;> exact hg⟩

/-- What handles find after the value behind a live handle has changed. -/
theorem get?_modify (hh : t.get? h = some v) (o : Option α) (is : List UInt32) (n : ℕ)
    (k : Handle) :
    get? ⟨t.slots.modify h.index.toNat fun s => { s with value := o }, is, n⟩ k =
      if k = h then o else t.get? k := by
  obtain ⟨s, hs, hg, -⟩ := get?_eq_some_iff.1 hh
  obtain ⟨i, g⟩ := h
  obtain ⟨j, g'⟩ := k
  simp only at hs hg
  simp only [get?, slot?, getElem?_modify_value, Handle.mk.injEq]
  by_cases hj : i.toNat = j.toNat
  · have hij : i = j := UInt32.toNat_inj.1 hj
    subst hij
    simp only [hs, Option.map_some, if_true, true_and]
    by_cases hgg : g' = g
    · subst hgg; simp [Option.filter, Slot.generation, ← hg]
    · have : s.generation ≠ g' := fun e => hgg (by rw [← e, hg])
      have h' : Slot.generation ⟨s.reuses, o⟩ ≠ g' := this
      simp [Option.filter, this, h', hgg]
  · have hij : j ≠ i := fun e => hj (by rw [e])
    simp [hj, hij]

/-- A removal empties the slot, and puts it in front of the freed ones. -/
theorem remove_of_live (hh : t.get? h = some v) :
    t.remove h = (some v,
      ⟨t.slots.modify h.index.toNat fun s => { s with value := none }, h.index :: t.free,
        t.live - 1⟩) := by
  simp [remove, hh]

theorem remove_of_not_live (hh : t.get? h = none) : t.remove h = (none, t) := by simp [remove, hh]

/-- **A removal changes what its own handle finds, and nothing else.** -/
theorem get?_remove (h k : Handle) :
    (t.remove h).2.get? k = if k = h then none else t.get? k := by
  cases hh : t.get? h with
  | none =>
    rw [remove_of_not_live hh]
    split_ifs with hk
    · rw [hk, hh]
    · rfl
  | some v => rw [remove_of_live hh, get?_modify hh]

theorem inRange_remove (h : Handle) : (t.remove h).2.InRange ↔ t.InRange := by
  cases hh : t.get? h with
  | none => rw [remove_of_not_live hh]
  | some v => rw [remove_of_live hh, inRange_modify]

theorem issued_remove (h : Handle) : (t.remove h).2.Issued k ↔ t.Issued k := by
  cases hh : t.get? h with
  | none => rw [remove_of_not_live hh]
  | some v => rw [remove_of_live hh, issued_modify]

/-- The slot that is freed had a value, so it was not among the freed ones. -/
theorem remove_ok (ht : t.OK) (h : Handle) : (t.remove h).2.OK := by
  cases hh : t.get? h with
  | none => rw [remove_of_not_live hh]; exact ht
  | some v =>
    obtain ⟨s, hs, -, hv⟩ := get?_eq_some_iff.1 hh
    rw [remove_of_live hh]
    refine ⟨fun i hi => ?_, List.nodup_cons.2 ⟨fun hm => ?_, ht.nodup⟩⟩
    · rcases List.mem_cons.1 hi with rfl | hi
      · exact ⟨{ s with value := none }, by simp [getElem?_modify_value, hs], rfl⟩
      · obtain ⟨s', hs', hv'⟩ := ht.free i hi
        refine ⟨if h.index.toNat = i.toNat then { s' with value := none } else s', ?_, ?_⟩
        · simp [getElem?_modify_value, hs']
        · split_ifs
          · rfl
          · exact hv'
    · -- a freed slot has no value, but this one has
      obtain ⟨s', hs', hv'⟩ := ht.free _ hm
      rw [hs, Option.some.injEq] at hs'
      subst hs'
      rw [hv] at hv'
      exact absurd hv' (by simp)

theorem set_of_live (hh : t.get? h = some v) (v' : α) :
    t.set h v' =
      ⟨t.slots.modify h.index.toNat fun s => { s with value := some v' }, t.free, t.live⟩ := by
  simp [set, isLive_of_get? hh]

/-- A replacement changes what its own handle finds, and nothing else. -/
theorem get?_set (hh : t.get? h = some v) (v' : α) (k : Handle) :
    (t.set h v').get? k = if k = h then some v' else t.get? k := by
  rw [set_of_live hh, get?_modify hh]

theorem inRange_set (hh : t.get? h = some v) (v' : α) : (t.set h v').InRange ↔ t.InRange := by
  rw [set_of_live hh, inRange_modify]

theorem issued_set (hh : t.get? h = some v) (v' : α) : (t.set h v').Issued k ↔ t.Issued k := by
  rw [set_of_live hh, issued_modify]

/-- A replacement is in a slot that has a value, so no freed slot is touched. -/
theorem set_ok (ht : t.OK) (hh : t.get? h = some v) (v' : α) : (t.set h v').OK := by
  obtain ⟨s, hs, -, hv⟩ := get?_eq_some_iff.1 hh
  rw [set_of_live hh]
  refine ⟨fun i hi => ?_, ht.nodup⟩
  obtain ⟨s', hs', hv'⟩ := ht.free i hi
  have hne : h.index.toNat ≠ i.toNat := by
    intro e
    rw [← e, hs, Option.some.injEq] at hs'
    subst hs'
    rw [hv] at hv'
    exact absurd hv' (by simp)
  exact ⟨s', by simp [getElem?_modify_value, hs', hne], hv'⟩

end Change

/-! ## The values of a table -/

section Stores

variable {x : α}

/-- The table has the value in some slot. -/
def Stores (t : HandleTable α) (x : α) : Prop :=
  ∃ i : ℕ, ∃ s : Slot α, t.slots[i]? = some s ∧ s.value = some x

/-- The values of a table are those of its entries. -/
theorem stores_iff : t.Stores x ↔ ∃ h, (h, x) ∈ t.entries := by
  simp only [Stores, entries, List.mem_filterMap, List.mem_zipIdx_iff_getElem?,
    Option.map_eq_some_iff, Prod.mk.injEq, Prod.exists, Array.getElem?_toList]
  constructor
  · rintro ⟨i, s, hs, hx⟩
    exact ⟨_, s, i, hs, x, hx, rfl, rfl⟩
  · rintro ⟨h, s, i, hs, x', hx', -, rfl⟩
    exact ⟨i, s, hs, hx'⟩

theorem stores_of_get? (hh : t.get? h = some v) : t.Stores v := by
  obtain ⟨s, hs, -, hv⟩ := get?_eq_some_iff.1 hh
  exact ⟨_, s, hs, hv⟩

/-- An insertion adds one value at most. -/
theorem Stores.of_insert (hx : (t.insert v).2.Stores x) : x = v ∨ t.Stores x := by
  obtain ⟨j, s, hs, hv⟩ := hx
  rw [insert] at hs
  split at hs
  · simp only [Array.getElem?_setIfInBounds] at hs
    split_ifs at hs
    · obtain rfl := Option.some.inj hs
      exact .inl (Option.some.inj hv).symm
    · exact .inr ⟨j, s, hs, hv⟩
  · simp only [Array.getElem?_push] at hs
    split_ifs at hs
    · obtain rfl := Option.some.inj hs
      exact .inl (Option.some.inj hv).symm
    · exact .inr ⟨j, s, hs, hv⟩

theorem Stores.of_modify {i : ℕ} {o : Option α} {is : List UInt32} {n : ℕ}
    (hx : Stores ⟨t.slots.modify i fun s => { s with value := o }, is, n⟩ x) :
    o = some x ∨ t.Stores x := by
  obtain ⟨j, s, hs, hv⟩ := hx
  simp only [getElem?_modify_value, Option.map_eq_some_iff] at hs
  obtain ⟨s', hs', rfl⟩ := hs
  split_ifs at hv
  · exact .inl hv
  · exact .inr ⟨j, s', hs', hv⟩

/-- A removal adds none. -/
theorem Stores.of_remove (hx : (t.remove h).2.Stores x) : t.Stores x := by
  cases hh : t.get? h with
  | none => rwa [remove_of_not_live hh] at hx
  | some v =>
    rw [remove_of_live hh] at hx
    exact hx.of_modify.resolve_left (by simp)

theorem Stores.of_set (hx : (t.set h v).Stores x) : x = v ∨ t.Stores x := by
  rw [set] at hx
  split at hx
  · exact hx.of_modify.imp (fun e => (Option.some.inj e).symm) id
  · exact .inr hx

end Stores

end GuestBridge.HandleTable
