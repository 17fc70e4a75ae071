/-!
# Maps that remember the order of their keys

A finite map kept as a list of entries, one per key. A new key goes to the end; a
new value for an old key keeps the key's place. Names of imports, own properties
and bound globals are listed in this order.

* `find?_insert`: an insertion changes the value of its own key only.
* `find?_erase`: an erasure removes its own key only.
* `nodup_keys_insert`, `nodup_keys_filter`: keys stay distinct.
* `insert_of_not_mem`: a new key goes to the end.
* `ofList_entries`: a map with distinct keys is made of its entries.
* `find?_eq_some_iff`, `find?_filter`: with distinct keys the entries are what is found.
-/

namespace GuestBridge

/-- A finite map whose keys keep the order in which they first came. -/
structure OrderedMap (κ ν : Type) where
  entries : List (κ × ν) := []
  deriving Repr, DecidableEq

namespace OrderedMap

variable {κ ν : Type}

instance : Inhabited (OrderedMap κ ν) := ⟨{}⟩

/-- Keys in the order in which they came. -/
def keys (m : OrderedMap κ ν) : List κ := m.entries.map Prod.fst

/-- Values in the order of their keys. -/
def values (m : OrderedMap κ ν) : List ν := m.entries.map Prod.snd

/-- The number of keys. -/
def size (m : OrderedMap κ ν) : Nat := m.entries.length

/-- The entries that satisfy `p`, in their order. -/
def filter (p : κ → ν → Bool) (m : OrderedMap κ ν) : OrderedMap κ ν :=
  ⟨m.entries.filter fun e => p e.1 e.2⟩

/-- Keys stay distinct when entries are filtered. -/
theorem nodup_keys_filter {m : OrderedMap κ ν} (h : m.keys.Nodup) (p : κ → ν → Bool) :
    (m.filter p).keys.Nodup :=
  h.sublist (List.filter_sublist.map Prod.fst)

theorem mem_values_filter {m : OrderedMap κ ν} {p : κ → ν → Bool} {x : ν}
    (h : x ∈ (m.filter p).values) : x ∈ m.values :=
  (List.filter_sublist.map Prod.snd).subset h

variable [DecidableEq κ]

/-- The value that comes with `k` in a list of entries. -/
def findIn? (k : κ) : List (κ × ν) → Option ν
  | [] => none
  | e :: es => if e.1 = k then some e.2 else findIn? k es

/-- The value of `k`, if there is one. -/
def find? (m : OrderedMap κ ν) (k : κ) : Option ν := findIn? k m.entries

/-- Whether `k` has a value. -/
def contains (m : OrderedMap κ ν) (k : κ) : Bool := (m.find? k).isSome

/-- Puts `(k, v)` in the place of `k`, or at the end if `k` is new. -/
def insertIn (k : κ) (v : ν) : List (κ × ν) → List (κ × ν)
  | [] => [(k, v)]
  | e :: es => if e.1 = k then (k, v) :: es else e :: insertIn k v es

/-- Gives `k` the value `v`. -/
def insert (m : OrderedMap κ ν) (k : κ) (v : ν) : OrderedMap κ ν := ⟨insertIn k v m.entries⟩

/-- Removes `k`; later keys move up. -/
def erase (m : OrderedMap κ ν) (k : κ) : OrderedMap κ ν := ⟨m.entries.filter fun e => e.1 ≠ k⟩

/-- Puts in entries one after the other. -/
def insertAll (m : OrderedMap κ ν) (es : List (κ × ν)) : OrderedMap κ ν :=
  es.foldl (fun m e => m.insert e.1 e.2) m

/-- The map with the given entries; of a repeated key the last value counts, in the first place. -/
def ofList (es : List (κ × ν)) : OrderedMap κ ν := insertAll ⟨[]⟩ es

@[simp] theorem find?_empty (k : κ) : ({} : OrderedMap κ ν).find? k = none := rfl

theorem findIn?_insertIn (es : List (κ × ν)) (k j : κ) (v : ν) :
    findIn? j (insertIn k v es) = if j = k then some v else findIn? j es := by
  induction es with
  | nil => simp [insertIn, findIn?, eq_comm]
  | cons e es ih => by_cases he : e.1 = k <;> grind [insertIn, findIn?]

/-- **An insertion changes the value of its own key only.** -/
theorem find?_insert (m : OrderedMap κ ν) (k j : κ) (v : ν) :
    (m.insert k v).find? j = if j = k then some v else m.find? j :=
  findIn?_insertIn m.entries k j v

@[simp] theorem find?_insert_self (m : OrderedMap κ ν) (k : κ) (v : ν) :
    (m.insert k v).find? k = some v := by rw [find?_insert, if_pos rfl]

theorem find?_insert_of_ne (m : OrderedMap κ ν) {k j : κ} (h : j ≠ k) (v : ν) :
    (m.insert k v).find? j = m.find? j := by rw [find?_insert, if_neg h]

theorem findIn?_filter_ne (es : List (κ × ν)) (k j : κ) :
    findIn? j (es.filter fun e => e.1 ≠ k) = if j = k then none else findIn? j es := by
  induction es with
  | nil => simp [findIn?]
  | cons e es ih => by_cases he : e.1 = k <;> grind [findIn?]

/-- **An erasure removes its own key only.** -/
theorem find?_erase (m : OrderedMap κ ν) (k j : κ) :
    (m.erase k).find? j = if j = k then none else m.find? j :=
  findIn?_filter_ne m.entries k j

theorem mem_of_findIn? {es : List (κ × ν)} {k : κ} {v : ν} (h : findIn? k es = some v) :
    (k, v) ∈ es := by
  induction es with
  | nil => simp [findIn?] at h
  | cons e es ih => by_cases he : e.1 = k <;> grind [findIn?]

theorem mem_entries_of_find? {m : OrderedMap κ ν} {k : κ} {v : ν} (h : m.find? k = some v) :
    (k, v) ∈ m.entries :=
  mem_of_findIn? h

theorem mem_keys_insertIn (es : List (κ × ν)) (k j : κ) (v : ν) :
    j ∈ (insertIn k v es).map Prod.fst ↔ j = k ∨ j ∈ es.map Prod.fst := by
  induction es with
  | nil => simp [insertIn]
  | cons e es ih => by_cases he : e.1 = k <;> grind [insertIn]

/-- An old key keeps its place. -/
theorem keys_insert_of_mem {m : OrderedMap κ ν} {k : κ} (h : k ∈ m.keys) (v : ν) :
    (m.insert k v).keys = m.keys := by
  obtain ⟨es⟩ := m
  simp only [keys, insert] at h ⊢
  induction es with
  | nil => cases h
  | cons e es ih =>
    rw [insertIn]
    split
    · next he => rw [List.map_cons, List.map_cons, he]
    · next he =>
      rw [List.map_cons, List.map_cons, ih ((List.mem_cons.1 h).resolve_left (Ne.symm he))]

/-- **A new key goes to the end.** -/
theorem insert_of_not_mem {m : OrderedMap κ ν} {k : κ} (h : k ∉ m.keys) (v : ν) :
    m.insert k v = ⟨m.entries ++ [(k, v)]⟩ := by
  obtain ⟨es⟩ := m
  simp only [keys, insert, mk.injEq] at h ⊢
  induction es with
  | nil => rfl
  | cons e es ih =>
    rw [List.map_cons, List.mem_cons, not_or] at h
    rw [insertIn, if_neg (Ne.symm h.1), ih h.2, List.cons_append]

/-- Keys stay distinct when a value is inserted. -/
theorem nodup_keys_insert {m : OrderedMap κ ν} (h : m.keys.Nodup) (k : κ) (v : ν) :
    (m.insert k v).keys.Nodup := by
  obtain ⟨es⟩ := m
  simp only [keys, insert] at h ⊢
  induction es with
  | nil => simp [insertIn]
  | cons e es ih =>
    rw [List.map_cons, List.nodup_cons] at h
    rw [insertIn]
    split
    · next he =>
      subst he
      exact List.nodup_cons.2 h
    · next he =>
      rw [List.map_cons, List.nodup_cons, mem_keys_insertIn, not_or]
      exact ⟨⟨he, h.1⟩, ih h.2⟩

/-- Keys stay distinct when entries are put in. -/
theorem nodup_keys_insertAll {m : OrderedMap κ ν} (h : m.keys.Nodup) (es : List (κ × ν)) :
    (m.insertAll es).keys.Nodup := by
  induction es generalizing m with
  | nil => exact h
  | cons e es ih => exact ih (nodup_keys_insert h e.1 e.2)

theorem nodup_keys_ofList (es : List (κ × ν)) : (ofList es).keys.Nodup :=
  nodup_keys_insertAll (m := ⟨[]⟩) List.nodup_nil es

/-- Entries with new and distinct keys go to the end. -/
theorem insertAll_of_nodup {m : OrderedMap κ ν} {es : List (κ × ν)}
    (h : (m.keys ++ es.map Prod.fst).Nodup) : m.insertAll es = ⟨m.entries ++ es⟩ := by
  induction es generalizing m with
  | nil =>
    rw [List.append_nil]
    rfl
  | cons e es ih =>
    have hnew : e.1 ∉ m.keys := fun hmem =>
      (List.nodup_append.1 h).2.2 e.1 hmem e.1 List.mem_cons_self rfl
    have hinsert := insert_of_not_mem hnew e.2
    rw [insertAll, List.foldl_cons, hinsert]
    refine (ih ?_).trans ?_
    · simpa [keys] using h
    · rw [List.append_assoc, List.singleton_append]

/-- **A map is made of its entries.** -/
theorem ofList_entries {m : OrderedMap κ ν} (h : m.keys.Nodup) : ofList m.entries = m :=
  insertAll_of_nodup (m := ⟨[]⟩) h

/-- **With distinct keys the entries are what is found.** -/
theorem find?_eq_some_iff {m : OrderedMap κ ν} (h : m.keys.Nodup) {k : κ} {v : ν} :
    m.find? k = some v ↔ (k, v) ∈ m.entries := by
  refine ⟨mem_entries_of_find?, fun hm => ?_⟩
  obtain ⟨es⟩ := m
  simp only [keys, find?] at h hm ⊢
  induction es with
  | nil => simp at hm
  | cons e es ih =>
    rw [List.map_cons, List.nodup_cons] at h
    rcases List.mem_cons.1 hm with rfl | hm
    · rw [findIn?, if_pos rfl]
    · have hne : e.1 ≠ k := fun he => h.1 (he ▸ List.mem_map_of_mem hm)
      rw [findIn?, if_neg hne, ih h.2 hm]

theorem exists_findIn? {es : List (κ × ν)} {k : κ} (h : k ∈ es.map Prod.fst) :
    ∃ v, findIn? k es = some v := by
  induction es with
  | nil => simp at h
  | cons e es ih =>
    by_cases he : e.1 = k
    · exact ⟨e.2, by rw [findIn?, if_pos he]⟩
    · rw [findIn?, if_neg he]
      exact ih ((List.mem_cons.1 h).resolve_left (Ne.symm he))

theorem mem_keys_iff {m : OrderedMap κ ν} {k : κ} : k ∈ m.keys ↔ ∃ v, m.find? k = some v :=
  ⟨exists_findIn?, fun ⟨_, hv⟩ => List.mem_map_of_mem (mem_entries_of_find? hv)⟩

/-- What is found after entries have been filtered. -/
theorem find?_filter {m : OrderedMap κ ν} (h : m.keys.Nodup) (p : κ → ν → Bool) (k : κ) :
    (m.filter p).find? k = (m.find? k).filter (p k) := by
  apply Option.ext
  intro v
  rw [find?_eq_some_iff (nodup_keys_filter h p), Option.filter_eq_some_iff, find?_eq_some_iff h]
  simp [filter]

theorem mem_values_of_find? {m : OrderedMap κ ν} {k : κ} {v : ν} (h : m.find? k = some v) :
    v ∈ m.values :=
  List.mem_map_of_mem (mem_entries_of_find? h)

theorem mem_values_insert {m : OrderedMap κ ν} {k : κ} {v x : ν} (h : x ∈ (m.insert k v).values) :
    x = v ∨ x ∈ m.values := by
  obtain ⟨es⟩ := m
  simp only [values, insert] at h ⊢
  induction es with
  | nil => simpa [insertIn] using h
  | cons e es ih =>
    rw [insertIn] at h
    split at h
    · rcases List.mem_cons.1 h with h | h
      · exact .inl h
      · exact .inr (List.mem_cons_of_mem _ h)
    · rcases List.mem_cons.1 h with h | h
      · exact .inr (h ▸ List.mem_cons_self)
      · exact (ih h).imp id (List.mem_cons_of_mem _)

/-- The values that there are in the end were there before or are put in. -/
theorem mem_values_insertAll {m : OrderedMap κ ν} {es : List (κ × ν)} {x : ν}
    (h : x ∈ (m.insertAll es).values) : x ∈ m.values ∨ ∃ k, (k, x) ∈ es := by
  induction es generalizing m with
  | nil => exact .inl h
  | cons e es ih =>
    rcases ih h with h | ⟨k, hk⟩
    · rcases mem_values_insert h with rfl | h
      · exact .inr ⟨e.1, List.mem_cons_self⟩
      · exact .inl h
    · exact .inr ⟨k, List.mem_cons_of_mem _ hk⟩

theorem mem_values_ofList {es : List (κ × ν)} {x : ν} (h : x ∈ (ofList es).values) :
    ∃ k, (k, x) ∈ es :=
  (mem_values_insertAll (m := ⟨[]⟩) h).resolve_left (by simp [values])

theorem mem_values_erase {m : OrderedMap κ ν} {k : κ} {x : ν} (h : x ∈ (m.erase k).values) :
    x ∈ m.values :=
  (List.filter_sublist.map Prod.snd).subset h

end OrderedMap

end GuestBridge
