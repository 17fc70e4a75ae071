import Mathlib.Data.Finmap
import Mathlib.Order.Bounds.Basic
import GuestBridge.Proofs.Reuse

/-!
# A table is a map of its handles

A table of values refines a finite map from handles to values: the table chooses the handle
of an insertion, and the map tells everything else. The count of values is the size of the
map, and a slot is free or has one value, so a table has as many slots as it ever had values
at a time.

* `Represents`: the table and the map agree, and so do the counts; one change keeps it
  (`Represents.step`), and so does a run (`Represents.run`).
* `size_step_eq_max`: **freed slots are used again before there are new ones.**
* `run_refines`: **every run of a table is a run of the map.**
-/

namespace GuestBridge.HandleTable

variable {α : Type} {t : HandleTable α} {h k : Handle} {v : α}

/-- Handles and the values that they find. -/
abbrev Bindings (α : Type) := Finmap fun _ : Handle => α

variable {m : Bindings α}

/-- The map after a change of the table, which chooses the handle of an insertion. -/
def bindStep (t : HandleTable α) (m : Bindings α) : Op α → Bindings α
  | .insert v => m.insert (t.insert v).1 v
  | .remove h => m.erase h
  | .set h v => if h ∈ m then m.insert h v else m

/-- The map after changes of the table one after the other. -/
def bindRun (t : HandleTable α) (m : Bindings α) : List (Op α) → Bindings α
  | [] => m
  | op :: ops => (t.step op).bindRun (t.bindStep m op) ops

theorem bindRun_append (t : HandleTable α) (m : Bindings α) (ops ops' : List (Op α)) :
    t.bindRun m (ops ++ ops') = (t.run ops).bindRun (t.bindRun m ops) ops' := by
  induction ops generalizing t m with
  | nil => rfl
  | cons op ops ih => exact ih (t.step op) (t.bindStep m op)

/-- The table finds what the map has, and counts it; every slot that is not free has a value. -/
structure Represents (t : HandleTable α) (m : Bindings α) : Prop where
  ok : t.OK
  get : ∀ h, t.get? h = m.lookup h
  live : t.live = m.keys.card
  slots : t.slots.size = m.keys.card + t.free.length

/-! ## The map -/

section Bindings

theorem lookup_insert_eq (m : Bindings α) (h k : Handle) (v : α) :
    (m.insert h v).lookup k = if k = h then some v else m.lookup k := by
  split_ifs with he
  · rw [he, Finmap.lookup_insert]
  · exact Finmap.lookup_insert_of_ne m he

theorem lookup_erase_eq (m : Bindings α) (h k : Handle) :
    (m.erase h).lookup k = if k = h then none else m.lookup k := by
  split_ifs with he
  · rw [he, Finmap.lookup_erase]
  · exact Finmap.lookup_erase_ne he

theorem card_keys_insert (hh : h ∉ m) (v : α) : (m.insert h v).keys.card = m.keys.card + 1 := by
  have hkeys : (m.insert h v).keys = Insert.insert h m.keys := by
    ext k
    simp [Finmap.mem_keys]
  rw [hkeys, Finset.card_insert_of_notMem (mt Finmap.mem_keys.1 hh)]

theorem card_keys_insert_of_mem (hh : h ∈ m) (v : α) :
    (m.insert h v).keys.card = m.keys.card := by
  have hkeys : (m.insert h v).keys = m.keys := by
    ext k
    simp only [Finmap.mem_keys, Finmap.mem_insert, or_iff_right_iff_imp]
    rintro rfl
    exact hh
  rw [hkeys]

theorem card_keys_erase (hh : h ∈ m) : (m.erase h).keys.card + 1 = m.keys.card := by
  rw [Finmap.keys_erase]
  exact Finset.card_erase_add_one (Finmap.mem_keys.2 hh)

end Bindings

/-! ## One change -/

section Step

theorem Represents.empty : Represents ({} : HandleTable α) ∅ where
  ok := ok_empty
  get h := by rw [get?_empty, Finmap.lookup_empty]
  live := rfl
  slots := rfl

theorem Represents.mem_iff (hr : Represents t m) : h ∈ m ↔ ∃ v, t.get? h = some v := by
  rw [Finmap.mem_iff, hr.get]

theorem Represents.notMem_iff (hr : Represents t m) : h ∉ m ↔ t.get? h = none := by
  rw [← Finmap.lookup_eq_none, hr.get]

/-- The handle of an insertion finds nothing before it. -/
theorem get?_insert_handle (ht : t.OK) (hn : (t.insert v).2.slots.size ≤ 2 ^ 32) :
    t.get? (t.insert v).1 = none := by
  rw [Option.eq_none_iff_forall_ne_some]
  intro x hx
  obtain ⟨s, hs, -, hv⟩ := get?_eq_some_iff.1 hx
  -- a new slot is behind the array, and a free one has no value
  cases hf : t.free with
  | nil =>
    rw [insert_of_full hf, toNat_size_of_full hf hn, Array.getElem?_size] at hs
    cases hs
  | cons i is =>
    obtain ⟨s', hs', hv'⟩ := ht.free i (by simp [hf])
    rw [insert_of_free hf hs', hs', Option.some.injEq] at hs
    rw [← hs, hv'] at hv
    cases hv

theorem Represents.insert (hr : Represents t m) (hn : (t.insert v).2.slots.size ≤ 2 ^ 32) :
    Represents (t.insert v).2 (m.insert (t.insert v).1 v) := by
  have hnew : (t.insert v).1 ∉ m := hr.notMem_iff.2 (get?_insert_handle hr.ok hn)
  have hcard := card_keys_insert hnew v
  refine ⟨insert_ok hr.ok v, fun k => ?_, ?_, ?_⟩
  · rw [get?_insert hr.ok hn, lookup_insert_eq, hr.get]
  · rw [hcard, ← hr.live, HandleTable.insert]
    split <;> rfl
  · have hslots := hr.slots
    rw [hcard]
    -- the table grows by one slot, or the list of free slots gets shorter by one
    cases hf : t.free with
    | nil =>
      rw [hf] at hslots
      rw [insert_of_full hf, Array.size_push, hslots]
      rfl
    | cons i is =>
      obtain ⟨s, hs, -⟩ := hr.ok.free i (by simp [hf])
      rw [hf] at hslots
      rw [insert_of_free hf hs, Array.size_setIfInBounds, hslots, List.length_cons]
      show _ = m.keys.card + 1 + is.length
      omega

theorem Represents.remove (hr : Represents t m) (h : Handle) :
    Represents (t.remove h).2 (m.erase h) := by
  refine ⟨remove_ok hr.ok h, fun k => ?_, ?_, ?_⟩
  · rw [get?_remove, lookup_erase_eq, hr.get]
  -- both counts: one value less and one free slot more, or no change through a stale handle
  all_goals
    have hlive := hr.live
    have hslots := hr.slots
    cases hh : t.get? h with
    | none =>
      have hsame : m.erase h = m := by
        refine Finmap.ext_lookup fun k => ?_
        rw [lookup_erase_eq]
        split_ifs with he
        · rw [he, ← hr.get, hh]
        · rfl
      rwa [remove_of_not_live hh, hsame]
    | some x =>
      have hcard := card_keys_erase (hr.mem_iff.2 ⟨x, hh⟩)
      rw [remove_of_live hh]
      simp only [size_modify_value, List.length_cons]
      omega

theorem Represents.set (hr : Represents t m) (h : Handle) (v : α) :
    Represents (t.set h v) (if h ∈ m then m.insert h v else m) := by
  cases hh : t.get? h with
  | none =>
    rw [if_neg (hr.notMem_iff.2 hh), HandleTable.set, if_neg (by simp [isLive, hh])]
    exact hr
  | some x =>
    have hmem := hr.mem_iff.2 ⟨x, hh⟩
    have hcard := card_keys_insert_of_mem hmem v
    rw [if_pos hmem]
    refine ⟨set_ok hr.ok hh v, fun k => ?_, ?_, ?_⟩
    · rw [get?_set hh, lookup_insert_eq, hr.get]
    · rw [hcard, set_of_live hh, hr.live]
    · rw [hcard, set_of_live hh, size_modify_value, hr.slots]

/-- **A change of the table is the change of the map.** -/
theorem Represents.step (hr : Represents t m) (op : Op α)
    (hn : (t.step op).slots.size ≤ 2 ^ 32) : Represents (t.step op) (t.bindStep m op) := by
  cases op with
  | insert v => exact hr.insert hn
  | remove h => exact hr.remove h
  | set h v => exact hr.set h v

/-- **Freed slots are used again before there are new ones**: a change makes a slot only for a value
that makes the table larger than it ever was. -/
theorem size_step_eq_max (hr : Represents t m) (op : Op α)
    (hn : (t.step op).slots.size ≤ 2 ^ 32) :
    (t.step op).slots.size = max t.slots.size (t.bindStep m op).keys.card := by
  have hbefore := hr.slots
  have hafter := (hr.step op hn).slots
  have hle := size_step t op
  -- when a slot is made, none is free, so all of them have values
  have hgrow : (t.step op).slots.size = t.slots.size ∨ (t.step op).free = [] := by
    cases op with
    | insert v =>
      show (t.insert v).2.slots.size = _ ∨ (t.insert v).2.free = _
      rw [HandleTable.insert]
      split
      · exact .inl (Array.size_setIfInBounds ..)
      · exact .inr rfl
    | remove h =>
      show (t.remove h).2.slots.size = _ ∨ _
      rw [HandleTable.remove]
      split
      · exact .inl (size_modify_value t _ _)
      · exact .inl rfl
    | set h v =>
      show (t.set h v).slots.size = _ ∨ _
      rw [HandleTable.set]
      split
      · exact .inl (size_modify_value t _ _)
      · exact .inl rfl
  rcases hgrow with hsame | hfull
  · omega
  · rw [hfull, List.length_nil] at hafter
    omega

end Step

/-! ## The list of entries -/

section Entries

/-- An entry is a handle with what it finds. -/
theorem mem_entries_iff (hn : t.slots.size ≤ 2 ^ 32) : (h, v) ∈ t.entries ↔ t.get? h = some v := by
  have hindex : ∀ {i : ℕ} {s : Slot α}, t.slots[i]? = some s → i.toUInt32.toNat = i :=
    fun hs => Nat.mod_eq_of_lt (lt_of_lt_of_le (Array.getElem?_eq_some_iff.1 hs).1 hn)
  simp only [entries, List.mem_filterMap, List.mem_zipIdx_iff_getElem?, Option.map_eq_some_iff,
    Prod.mk.injEq, Prod.exists, Array.getElem?_toList]
  rw [get?_eq_some_iff]
  constructor
  · rintro ⟨s, i, hs, x, hx, rfl, rfl⟩
    exact ⟨s, by rw [hindex hs]; exact hs, rfl, hx⟩
  · rintro ⟨s, hs, hg, hx⟩
    obtain ⟨i, g⟩ := h
    exact ⟨s, i.toNat, hs, v, hx, by simpa using hg, rfl⟩

/-- Entries are listed by slot, and a slot has one at most. -/
theorem pairwise_entries (hn : t.slots.size ≤ 2 ^ 32) :
    t.entries.Pairwise fun a b => a.1.index < b.1.index := by
  -- places in the array increase, and as indices they are not cut
  have hslots : t.slots.toList.zipIdx.Pairwise fun a b => a.2 < b.2 := by
    rw [← List.pairwise_map (f := Prod.snd), List.zipIdx_map_snd]
    exact List.pairwise_lt_range'
  have hbound : ∀ p ∈ t.slots.toList.zipIdx, p.2 < 2 ^ 32 := by
    intro p hp
    have hlt := (Array.getElem?_eq_some_iff.1
      (Array.getElem?_toList ▸ List.mem_zipIdx_iff_getElem?.1 hp)).1
    omega
  rw [entries, List.pairwise_filterMap]
  refine hslots.imp_of_mem fun {a b} ha hb hlt => ?_
  intro e he e' he'
  obtain ⟨x, -, rfl⟩ := Option.map_eq_some_iff.1 he
  obtain ⟨x', -, rfl⟩ := Option.map_eq_some_iff.1 he'
  rw [UInt32.lt_iff_toNat_lt]
  show a.2 % 2 ^ 32 < b.2 % 2 ^ 32
  rwa [Nat.mod_eq_of_lt (hbound a ha), Nat.mod_eq_of_lt (hbound b hb)]

end Entries

/-! ## Whole runs -/

section Run

theorem Represents.run (hr : Represents t m) (ops : List (Op α))
    (hn : (t.run ops).slots.size ≤ 2 ^ 32) : Represents (t.run ops) (t.bindRun m ops) := by
  induction ops generalizing t m with
  | nil => exact hr
  | cons op ops ih => exact ih (hr.step op (le_trans (size_run _ ops) hn)) hn

/-- What a table answers, said of a map. -/
structure Refines (t : HandleTable α) (m : Bindings α) : Prop where
  get : ∀ h, t.get? h = m.lookup h
  isLive : ∀ h, t.isLive h ↔ h ∈ m
  /-- An insertion returns a handle that is not in the map, and adds it. -/
  insert : ∀ v, (t.insert v).2.slots.size ≤ 2 ^ 32 →
    (t.insert v).1 ∉ m ∧ ∀ k, (t.insert v).2.get? k = (m.insert (t.insert v).1 v).lookup k
  /-- A removal returns what the map has, and takes it away. -/
  remove : ∀ h, (t.remove h).1 = m.lookup h ∧ ∀ k, (t.remove h).2.get? k = (m.erase h).lookup k
  /-- Through any other handle nothing is removed or replaced. -/
  absent : ∀ h, h ∉ m → t.remove h = (none, t) ∧ ∀ v, t.set h v = t
  set : ∀ h, h ∈ m → ∀ v k, (t.set h v).get? k = (m.insert h v).lookup k
  size : t.size = m.keys.card
  isEmpty : t.isEmpty ↔ m = ∅
  /-- The entries are the bindings, each of them once, by slot. -/
  entries : ∀ h v, (h, v) ∈ t.entries ↔ m.lookup h = some v
  pairwise : t.entries.Pairwise fun a b => a.1.index < b.1.index
  /-- One generation of a slot is live at most. -/
  unique : ∀ h ∈ m, ∀ k ∈ m, h.index = k.index → h = k

theorem Represents.refines (hr : Represents t m) (hn : t.slots.size ≤ 2 ^ 32) : Refines t m where
  get := hr.get
  isLive h := by rw [isLive_iff, hr.mem_iff]
  insert v hv := ⟨hr.notMem_iff.2 (get?_insert_handle hr.ok hv), (hr.insert hv).get⟩
  remove h := by
    refine ⟨?_, (hr.remove h).get⟩
    cases hh : t.get? h with
    | none => rw [remove_of_not_live hh, ← hr.get, hh]
    | some x => rw [remove_of_live hh, ← hr.get, hh]
  absent h hh := by
    have hnone := hr.notMem_iff.1 hh
    exact ⟨remove_of_not_live hnone, fun v => if_neg (by simp [HandleTable.isLive, hnone])⟩
  set h hh v k := by
    have hset := (hr.set h v).get k
    rwa [if_pos hh] at hset
  size := hr.live
  isEmpty := by
    have hempty : m = ∅ ↔ m.keys.card = 0 := by
      rw [Finset.card_eq_zero]
      constructor
      · rintro rfl
        exact Finmap.keys_empty
      · intro hk
        refine Finmap.ext_lookup fun h => ?_
        rw [Finmap.lookup_empty, Finmap.lookup_eq_none, ← Finmap.mem_keys, hk]
        exact Finset.notMem_empty h
    rw [HandleTable.isEmpty, beq_iff_eq, HandleTable.size, hr.live, hempty]
  entries h v := by rw [mem_entries_iff hn, hr.get]
  pairwise := pairwise_entries hn
  unique h hh k hk he := by
    obtain ⟨x, hx⟩ := hr.mem_iff.1 hh
    obtain ⟨y, hy⟩ := hr.mem_iff.1 hk
    obtain ⟨s, hs, hg, -⟩ := get?_eq_some_iff.1 hx
    obtain ⟨s', hs', hg', -⟩ := get?_eq_some_iff.1 hy
    rw [he, hs', Option.some.injEq] at hs
    rw [hs, hg] at hg'
    obtain ⟨i, g⟩ := h
    obtain ⟨j, g'⟩ := k
    simp only at he hg'
    rw [he, hg']

/-- **Every run of a table is a run of the map**: whatever is inserted, removed and replaced, the
table answers as the map that the run has made, and it has as many slots as the map has ever had
bindings at a time. -/
theorem run_refines (ops : List (Op α))
    (hsize : (run ({} : HandleTable α) ops).slots.size ≤ 2 ^ 32) :
    Refines (run {} ops) (bindRun {} ∅ ops) ∧
      IsGreatest {n | ∃ ops', ops' <+: ops ∧ n = (bindRun ({} : HandleTable α) ∅ ops').keys.card}
        (run ({} : HandleTable α) ops).slots.size := by
  refine ⟨(Represents.empty.run ops hsize).refines hsize, ?_⟩
  -- by induction on the run: the last change makes a slot only for a new maximum
  induction ops using List.reverseRecOn with
  | nil =>
    refine ⟨⟨[], List.prefix_rfl, rfl⟩, ?_⟩
    rintro n ⟨ops', hprefix, rfl⟩
    rw [List.prefix_nil.1 hprefix]
    exact le_rfl
  | append_singleton ops op ih =>
    have hrun : run ({} : HandleTable α) (ops ++ [op]) = (run {} ops).step op := run_append _ _ _
    have hmap : bindRun ({} : HandleTable α) ∅ (ops ++ [op]) =
        (run {} ops).bindStep (bindRun {} ∅ ops) op := bindRun_append _ _ _ _
    rw [hrun] at hsize ⊢
    have hbefore : (run ({} : HandleTable α) ops).slots.size ≤ 2 ^ 32 :=
      le_trans (size_step _ op) hsize
    obtain ⟨⟨ops₀, hops₀, hmax⟩, hbound⟩ := ih hbefore
    have hstep := size_step_eq_max (Represents.empty.run ops hbefore) op hsize
    rw [← hmap] at hstep
    constructor
    · rcases max_choice (run ({} : HandleTable α) ops).slots.size
        (bindRun ({} : HandleTable α) ∅ (ops ++ [op])).keys.card with hleft | hright
      · exact ⟨ops₀, hops₀.trans (List.prefix_append _ _), by rw [hstep, hleft, hmax]⟩
      · exact ⟨ops ++ [op], List.prefix_rfl, by rw [hstep, hright]⟩
    · rintro n ⟨ops', hprefix, rfl⟩
      rw [hstep]
      rcases List.prefix_concat_iff.1 hprefix with rfl | hprefix
      · exact le_max_right _ _
      · exact le_trans (hbound ⟨ops', hprefix, rfl⟩) (le_max_left _ _)

/-- Values come and go: a freed slot is used again, and a stale handle removes nothing. -/
def turnover : List (Op ℕ) :=
  [.insert 10, .insert 11, .remove ⟨0, 0⟩, .set ⟨1, 0⟩ 12, .insert 13, .remove ⟨0, 0⟩,
    .remove ⟨1, 0⟩, .remove ⟨1, 0⟩]

/-- After two values at a time there are two slots, one of them with the value of the handle that
came last. -/
theorem turnover_refines :
    (run ({} : HandleTable ℕ) turnover).slots.size ≤ 2 ^ 32 ∧
      (bindRun ({} : HandleTable ℕ) ∅ turnover).lookup ⟨0, 1⟩ = some 13 ∧
      (bindRun ({} : HandleTable ℕ) ∅ turnover).keys.card = 1 ∧
      ∃ ops', ops' <+: turnover ∧ 2 = (bindRun ({} : HandleTable ℕ) ∅ ops').keys.card := by
  have hsize : (run ({} : HandleTable ℕ) turnover).slots.size = 2 := by decide +kernel
  have hle : (run ({} : HandleTable ℕ) turnover).slots.size ≤ 2 ^ 32 := by omega
  obtain ⟨hrefines, ⟨ops', hprefix, hmax⟩, -⟩ := run_refines turnover hle
  have hget : (run ({} : HandleTable ℕ) turnover).get? ⟨0, 1⟩ = some 13 := by decide +kernel
  have hcount : (run ({} : HandleTable ℕ) turnover).size = 1 := by decide +kernel
  refine ⟨hle, ?_, ?_, ops', hprefix, hsize ▸ hmax⟩
  · rw [← hrefines.get, hget]
  · rw [← hrefines.size, hcount]

end Run

end GuestBridge.HandleTable
