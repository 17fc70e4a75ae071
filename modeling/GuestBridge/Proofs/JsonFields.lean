import GuestBridge.OrderedMap
import GuestBridge.Proofs.JsonTexts

/-!
# The fields of JSON objects

Of a key that is repeated in an object the last value counts.

* `Json.lastField?_eq_some_iff`: **the last occurrence** of a key.
* `Json.find?_insertAll`: what is found after all fields have been put in.
* `Json.collapse`: **a value without repeated keys**. It has the same last occurrences
  (`Json.lastField?_collapse`), and nothing is left to leave out of it (`Json.collapse_collapse`).
* `Json.Gives`, `Json.Merges`: texts of an object, and of the merged object of two texts.
-/

namespace GuestBridge

namespace Json

variable {key : String} {value j j' : Json} {items : List Json} {fields : List (String × Json)}
  {m : OrderedMap String Json}

theorem lastField?_append (before after : List (String × Json)) (key : String) :
    lastField? (before ++ after) key = (lastField? after key).or (lastField? before key) := by
  unfold lastField?
  rw [List.reverse_append, List.find?_append]
  cases after.reverse.find? _ <;> rfl

theorem lastField?_singleton (field : String × Json) (key : String) :
    lastField? [field] key = if field.1 = key then some field.2 else none := by
  by_cases h : field.1 = key <;> simp [lastField?, h]

theorem lastField?_eq_none_iff : lastField? fields key = none ↔ ∀ f ∈ fields, f.1 ≠ key := by
  simp [lastField?]

theorem isSome_lastField? (h : key ∈ fields.map Prod.fst) : (lastField? fields key).isSome := by
  rw [Option.isSome_iff_ne_none, ne_eq, lastField?_eq_none_iff]
  intro hall
  obtain ⟨f, hf, rfl⟩ := List.mem_map.1 h
  exact hall f hf rfl

/-- **The last occurrence** is the one that nothing of its name stands behind. -/
theorem lastField?_eq_some_iff : lastField? fields key = some value ↔
    ∃ before after, fields = before ++ (key, value) :: after ∧ ∀ f ∈ after, f.1 ≠ key := by
  constructor
  · intro h
    induction fields with
    | nil => cases h
    | cons field fields ih =>
      rw [← List.singleton_append, lastField?_append, Option.or_eq_some_iff] at h
      rcases h with h | ⟨hnone, h⟩
      · obtain ⟨before, after, rfl, hafter⟩ := ih h
        exact ⟨field :: before, after, rfl, hafter⟩
      · rw [lastField?_singleton, Option.ite_none_right_eq_some] at h
        obtain ⟨rfl, h⟩ := h
        obtain rfl := Option.some.inj h
        exact ⟨[], fields, rfl, lastField?_eq_none_iff.1 hnone⟩
  · rintro ⟨before, after, rfl, hafter⟩
    rw [← List.singleton_append, lastField?_append, lastField?_append,
      lastField?_eq_none_iff.2 hafter, lastField?_singleton, if_pos rfl]
    rfl

theorem mem_of_lastField? (h : lastField? fields key = some value) : (key, value) ∈ fields := by
  obtain ⟨before, after, rfl, -⟩ := lastField?_eq_some_iff.1 h
  exact List.mem_append_right before List.mem_cons_self

/-- **What is found after all fields have been put in** is the last occurrence. -/
theorem find?_insertAll (m : OrderedMap String Json) (fields : List (String × Json))
    (key : String) :
    (m.insertAll fields).find? key = (lastField? fields key).or (m.find? key) := by
  induction fields generalizing m with
  | nil => rfl
  | cons field fields ih =>
    rw [OrderedMap.insertAll, List.foldl_cons]
    refine (ih _).trans ?_
    rw [OrderedMap.find?_insert, ← List.singleton_append, lastField?_append, lastField?_singleton]
    cases lastField? fields key with
    | some value => rfl
    | none =>
      by_cases hkey : key = field.1
      · rw [if_pos hkey, if_pos hkey.symm]
        rfl
      · rw [if_neg hkey, if_neg (Ne.symm hkey)]
        rfl

/-- The fields of a map give what it gives. -/
theorem lastField?_entries (h : m.keys.Nodup) (key : String) :
    lastField? m.entries key = m.find? key := by
  cases hlast : lastField? m.entries key with
  | some value =>
    exact ((OrderedMap.find?_eq_some_iff h).2 (mem_of_lastField? hlast)).symm
  | none =>
    rw [eq_comm, Option.eq_none_iff_forall_ne_some]
    intro value hvalue
    exact lastField?_eq_none_iff.1 hlast _ (OrderedMap.mem_entries_of_find? hvalue) rfl

/-! ## Repeated keys -/

mutual

/-- The value in which of each repeated key the last value counts, in the first place. -/
def collapse : Json → Json
  | array items => array (collapseItems items)
  | object fields => object (OrderedMap.ofList (collapseFields fields)).entries
  | j => j

/-- Items without repeated keys. -/
def collapseItems : List Json → List Json
  | [] => []
  | item :: items => collapse item :: collapseItems items

/-- Fields whose values are without repeated keys. -/
def collapseFields : List (String × Json) → List (String × Json)
  | [] => []
  | (key, value) :: fields => (key, collapse value) :: collapseFields fields

end

theorem collapseItems_eq_map (items : List Json) : collapseItems items = items.map collapse := by
  induction items with
  | nil => rfl
  | cons item items ih => rw [collapseItems, List.map_cons, ih]

theorem collapseFields_eq_map (fields : List (String × Json)) :
    collapseFields fields = fields.map fun f => (f.1, collapse f.2) := by
  induction fields with
  | nil => rfl
  | cons field fields ih => rw [collapseFields, List.map_cons, ih]

theorem lastField?_collapseFields (fields : List (String × Json)) (key : String) :
    lastField? (collapseFields fields) key = (lastField? fields key).map collapse := by
  unfold lastField?
  rw [collapseFields_eq_map, ← List.map_reverse, List.find?_map, Option.map_map, Option.map_map]
  rfl

/-- The last occurrences are all that is kept. -/
theorem lastField?_collapse (fields : List (String × Json)) (key : String) :
    lastField? (OrderedMap.ofList (collapseFields fields)).entries key =
      (lastField? fields key).map collapse := by
  rw [lastField?_entries (OrderedMap.nodup_keys_ofList _), OrderedMap.ofList, find?_insertAll,
    lastField?_collapseFields]
  exact Option.or_none

/-- What is kept is a last occurrence. -/
theorem exists_of_mem_collapse {f : String × Json}
    (h : f ∈ (OrderedMap.ofList (collapseFields fields)).entries) :
    ∃ value, lastField? fields f.1 = some value ∧ f.2 = value.collapse := by
  have hlast : lastField? (OrderedMap.ofList (collapseFields fields)).entries f.1 = some f.2 := by
    rw [lastField?_entries (OrderedMap.nodup_keys_ofList _)]
    exact (OrderedMap.find?_eq_some_iff (OrderedMap.nodup_keys_ofList _)).2 h
  rw [lastField?_collapse, Option.map_eq_some_iff] at hlast
  obtain ⟨value, hvalue, hcollapse⟩ := hlast
  exact ⟨value, hvalue, hcollapse.symm⟩

/-- A map without repeated keys in its values is the one of its fields. -/
theorem ofList_collapseFields (hm : m.keys.Nodup) (h : ∀ f ∈ m.entries, f.2.collapse = f.2) :
    OrderedMap.ofList (collapseFields m.entries) = m := by
  have hfields : collapseFields m.entries = m.entries := by
    rw [collapseFields_eq_map]
    calc m.entries.map (fun f => (f.1, f.2.collapse)) = m.entries.map id :=
          List.map_congr_left fun f hf => Prod.ext rfl (h f hf)
      _ = m.entries := List.map_id _
  rw [hfields, OrderedMap.ofList_entries hm]

mutual

/-- **Nothing is left to leave out** of a value without repeated keys. -/
theorem collapse_collapse (j : Json) : j.collapse.collapse = j.collapse := by
  cases j with
  | array items => rw [collapse, collapse, collapseItems_collapseItems items]
  | object fields =>
    rw [collapse, collapse, ofList_collapseFields (OrderedMap.nodup_keys_ofList _)]
    intro f hf
    obtain ⟨value, hvalue, hf⟩ := exists_of_mem_collapse hf
    rw [hf]
    exact collapse_collapse_of_mem fields (f.1, value) (mem_of_lastField? hvalue)
  | _ => rfl

theorem collapseItems_collapseItems (items : List Json) :
    collapseItems (collapseItems items) = collapseItems items := by
  cases items with
  | nil => rfl
  | cons item items =>
    rw [collapseItems, collapseItems, collapse_collapse item, collapseItems_collapseItems items]

theorem collapse_collapse_of_mem (fields : List (String × Json)) :
    ∀ f ∈ fields, f.2.collapse.collapse = f.2.collapse := by
  match fields with
  | [] => exact fun f hf => nomatch hf
  | (key, value) :: fields =>
    intro f hf
    rcases List.mem_cons.1 hf with rfl | hf
    · exact collapse_collapse value
    · exact collapse_collapse_of_mem fields f hf

end

/-- Values that differ at most in fields that a later one of the same name overrides. -/
def Same (j j' : Json) : Prop := j.collapse = j'.collapse

theorem Same.eq_natural {n : ℕ} (h : (natural n).Same j) : j = natural n := by
  cases j with
  | natural n' => exact h.symm
  | _ => cases h

theorem Same.eq_null (h : null.Same j) : j = null := by
  cases j with
  | null => rfl
  | _ => cases h

theorem Same.eq_string {s : String} (h : (string s).Same j) : j = string s := by
  cases j with
  | string s' => exact h.symm
  | _ => cases h

/-- An array has the items of another one. -/
theorem Same.exists_array (h : (array items).Same j) :
    ∃ items', j = array items' ∧ items.map collapse = items'.map collapse := by
  cases j with
  | array items' =>
    have hitems := Json.array.inj h
    rw [collapseItems_eq_map, collapseItems_eq_map] at hitems
    exact ⟨items', rfl, hitems⟩
  | _ => cases h

/-- An object has the last occurrences of another one. -/
theorem Same.exists_object (h : (object fields).Same j) : ∃ fields', j = object fields' ∧
    ∀ key, (lastField? fields key).map collapse = (lastField? fields' key).map collapse := by
  cases j with
  | object fields' =>
    refine ⟨fields', rfl, fun key => ?_⟩
    rw [← lastField?_collapse, ← lastField?_collapse, Json.object.inj h]
  | _ => cases h

/-! ## Texts of objects -/

/-- The text is of an object that has these values, up to repeated keys in them. -/
def Gives (text : String) (found : String → Option Json) : Prop :=
  ∃ fields, read? text = some (.object fields) ∧
    ∀ key, (lastField? fields key).map collapse = (found key).map collapse

/-- **A text of the merged object** of two texts: the last occurrence of a key in the second counts,
or in the first if the key does not occur in the second. -/
def Merges (a b text : String) : Prop :=
  ∃ fieldsA fieldsB, read? a = some (.object fieldsA) ∧ read? b = some (.object fieldsB) ∧
    Gives text fun key => (lastField? fieldsB key).or (lastField? fieldsA key)

/-- **An object has a text** if the values that count have one. -/
theorem exists_gives (depth : ℕ) (hdepth : depthLimit = depth + 1)
    (h : ∀ key value, lastField? fields key = some value → (render? depth value.collapse).isSome) :
    ∃ text, Gives text (lastField? fields) := by
  have hsome : (render? depthLimit (collapse (.object fields))).isSome := by
    rw [hdepth]
    refine isSome_render?_object depth fun f hf => ?_
    obtain ⟨value, hvalue, hcollapse⟩ := exists_of_mem_collapse hf
    rw [hcollapse]
    exact h f.1 value hvalue
  obtain ⟨cs, hcs⟩ := Option.isSome_iff_exists.1 hsome
  refine ⟨String.ofList cs, _, read?_of_text? (j := collapse (.object fields)) ?_, fun key => ?_⟩
  · rw [text?, hcs]
    rfl
  · rw [lastField?_collapse, Option.map_map]
    exact Option.map_congr fun value _ => collapse_collapse value

end Json

end GuestBridge
