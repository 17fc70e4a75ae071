import GuestBridge.Program
import GuestBridge.Proofs.Arguments
import GuestBridge.Proofs.Bindings
import GuestBridge.Proofs.Passes
import GuestBridge.Proofs.Surrogates

/-!
# Texts in the guest's heap

A text crosses to the guest as units that a string builder gathers one by one, and comes back as
units that are read one by one. The heap may have any objects; all it needs is room for the new
ones (`HandleTable.Fits`). A crossing extends the heap and changes nothing that was there
(`Guest.Extends`).

* `buildCodes_run`: the string of a run of codes has their low halves as its units.
* `fillStringArray_run`: an array of strings, filled from an index on.
* `decodes_of_string`: what both decoders make of the units of a string, whatever they are.
* `texts_cross_unchanged`: **a text comes back as it was**, alone and as an item of an array, and
  reading any string loses nothing but the surrogates that stand alone.
-/

namespace GuestBridge

namespace HandleTable

variable {α : Type} {t : HandleTable α} {h k : Handle} {v x : α} {m n : ℕ}

/-- There are slots, or there are numbers for new ones, for so many more values. -/
def Fits (t : HandleTable α) (n : ℕ) : Prop := t.slots.size + (n - t.free.length) ≤ 2 ^ 32

instance (t : HandleTable α) (n : ℕ) : Decidable (t.Fits n) :=
  inferInstanceAs (Decidable (_ ≤ _))

theorem Fits.mono (hf : t.Fits n) (hm : m ≤ n) : t.Fits m := by
  unfold Fits at hf ⊢
  omega

/-- An insertion takes one of the places. -/
theorem Fits.insert (ht : t.OK) (hf : t.Fits (n + 1)) (v : α) :
    (t.insert v).2.slots.size ≤ 2 ^ 32 ∧ (t.insert v).2.Fits n := by
  unfold Fits at hf ⊢
  cases hfree : t.free with
  | nil =>
    rw [hfree, List.length_nil] at hf
    rw [insert_of_full hfree]
    simp only [Array.size_push, List.length_nil]
    omega
  | cons i is =>
    obtain ⟨s, hs, -⟩ := ht.free i (by simp [hfree])
    rw [hfree, List.length_cons] at hf
    rw [insert_of_free hfree hs]
    simp only [Array.size_setIfInBounds]
    omega

theorem Fits.set (hf : t.Fits n) (h : Handle) (v : α) : (t.set h v).Fits n := by
  rw [HandleTable.set]
  split
  · simpa only [Fits, size_modify_value] using hf
  · exact hf

theorem get?_insert_self (ht : t.OK) (hn : (t.insert v).2.slots.size ≤ 2 ^ 32) :
    (t.insert v).2.get? (t.insert v).1 = some v :=
  (get?_insert ht hn _).trans (if_pos rfl)

/-- An insertion leaves what was there. -/
theorem get?_insert_of_get? (ht : t.OK) (hn : (t.insert v).2.slots.size ≤ 2 ^ 32)
    (hk : t.get? k = some x) : (t.insert v).2.get? k = some x := by
  refine (get?_insert ht hn k).trans ?_
  rw [if_neg, hk]
  rintro rfl
  rw [get?_insert_handle ht hn] at hk
  cases hk

end HandleTable

/-! ## Codes -/

section Codes

variable {u : UInt16}

theorem unitOfCode_ofNat (u : UInt16) : unitOfCode (Int32.ofNat u.toNat) = u := by
  have hcode : (Int32.ofNat u.toNat).toUInt32 = UInt32.ofNat u.toNat := rfl
  rw [unitOfCode, hcode, ← UInt16.toNat_inj]
  have hlt := u.toNat_lt
  simp only [UInt32.toNat_toUInt16, UInt32.toNat_ofNat']
  omega

theorem map_unitOfCode_ofNat (us : List UInt16) :
    (us.map fun u => Int32.ofNat u.toNat).map unitOfCode = us := by
  rw [List.map_map]
  exact (List.map_congr_left fun u _ => unitOfCode_ofNat u).trans (List.map_id us)

theorem Guest.position?_ofNat {i n : ℕ} (hi : i < n) (hn : n ≤ 0x80000000) :
    Guest.position? (Int32.ofNat i) n = some i := by
  have htoInt : (Int32.ofNat i).toInt = i := Int32.toInt_ofNat_of_lt (by omega)
  rw [Guest.position?, htoInt, if_pos (by omega), Int.toNat_natCast]

/-- Steps that give a result each, one after the other. -/
theorem mapM_eq_ok {ε ι β : Type} {f : ι → Except ε β} {r : ι → β} {is : List ι}
    (h : ∀ i ∈ is, f i = .ok (r i)) : is.mapM f = .ok (is.map r) := by
  induction is with
  | nil => rfl
  | cons i is ih =>
    rw [List.mapM_cons, h i List.mem_cons_self, ih fun j hj => h j (List.mem_cons_of_mem _ hj)]
    rfl

end Codes

namespace Guest

variable {g g' g'' : Guest} {h k array : Handle} {o o' : GuestObject} {us : Array UInt16} {n : ℕ}
  {work work' : List Handle}

/-! ## A heap that has more -/

/-- The guest has the objects that it had, except for those that are worked on, and apart from
its heap it is the same. -/
structure Extends (work : List Handle) (g g' : Guest) : Prop where
  rest : g' = { g with heap := g'.heap }
  ok : g'.heap.OK
  kept : ∀ k ∉ work, ∀ o, g.heap.get? k = some o → g'.heap.get? k = some o

section Extends

theorem Extends.refl (hg : g.heap.OK) : Extends work g g := ⟨rfl, hg, fun _ _ _ h => h⟩

theorem Extends.trans (h : Extends work g g') (h' : Extends work g' g'') : Extends work g g'' where
  rest := by rw [h'.rest, h.rest]
  ok := h'.ok
  kept k hk o ho := h'.kept k hk o (h.kept k hk o ho)

theorem Extends.mono (h : Extends work g g') (hw : work ⊆ work') : Extends work' g g' :=
  ⟨h.rest, h.ok, fun k hk => h.kept k (mt (@hw k) hk)⟩

/-- What was worked on had not been there before. -/
theorem Extends.of_new (h : Extends [k] g g') (hk : g.heap.get? k = none) : Extends [] g g' := by
  refine ⟨h.rest, h.ok, fun j _ o ho => h.kept j ?_ o ho⟩
  rw [List.mem_singleton]
  rintro rfl
  rw [hk] at ho
  cases ho

theorem provides_of_extends (h : Extends work g g') (e : OptionalExport) :
    g'.provides e = g.provides e := by
  rw [h.rest]
  rfl

/-- A new object. -/
theorem alloc_extends (hg : g.heap.OK) (hf : g.heap.Fits (n + 1)) (o : GuestObject) :
    Extends [] g (g.alloc o).2 ∧ (g.alloc o).2.heap.Fits n ∧
      (g.alloc o).2.heap.get? (g.alloc o).1 = some o ∧ g.heap.get? (g.alloc o).1 = none := by
  obtain ⟨hsize, hfits⟩ := hf.insert hg o
  exact ⟨⟨rfl, HandleTable.insert_ok hg o, fun _ _ _ => HandleTable.get?_insert_of_get? hg hsize⟩,
    hfits, HandleTable.get?_insert_self hg hsize, HandleTable.get?_insert_handle hg hsize⟩

/-- An object in the place of another. -/
theorem write_extends (hg : g.heap.OK) (hk : g.heap.get? k = some o) (o' : GuestObject) :
    Extends [k] g { g with heap := g.heap.set k o' } ∧
      (g.heap.set k o').get? k = some o' := by
  refine ⟨⟨rfl, HandleTable.set_ok hg hk o', fun j hj x hx => ?_⟩, ?_⟩
  · exact (HandleTable.get?_set hk o' j).trans ((if_neg (mt List.mem_singleton.2 hj)).trans hx)
  · exact (HandleTable.get?_set hk o' k).trans (if_pos rfl)

end Extends

/-! ## Building a string -/

section Build

theorem object_of_get? (ho : g.heap.get? h = some o) : g.object h = .ok o := by
  rw [object, ho]
  rfl

/-- Feeds codes to a string builder. -/
def appendCodes (g : Guest) (builder : Handle) (codes : List Int32) : Except BridgeError Guest :=
  codes.foldlM (fun g code => g.appendChar builder code) g

/-- The string of what a new builder gathers from codes. -/
def buildCodes (g : Guest) (codes : List Int32) : Except BridgeError (Handle × Guest) := do
  let (builder, g) := g.createStringBuilder
  let g ← g.appendCodes builder codes
  g.buildString builder

theorem makeString_eq (g : Guest) (text : String) :
    g.makeString text =
      g.buildCodes ((Text.encode text).map fun u => Int32.ofNat u.toNat) := by
  simp only [makeString, buildCodes, appendUnits, appendCodes, List.foldlM_map]

theorem buildCodes_eq (g : Guest) (codes : List Int32) :
    g.buildCodes codes = (g.createStringBuilder.2.appendCodes g.createStringBuilder.1 codes >>=
      fun g' => g'.buildString g.createStringBuilder.1) := rfl

/-- A builder takes any codes, and keeps their low halves. -/
theorem appendCodes_run (codes : List Int32) (hg : g.heap.OK) (hf : g.heap.Fits n)
    (hb : g.heap.get? h = some (.builder us)) :
    ∃ g', g.appendCodes h codes = .ok g' ∧ Extends [h] g g' ∧ g'.heap.Fits n ∧
      g'.heap.get? h = some (.builder (us ++ (codes.map unitOfCode).toArray)) := by
  unfold appendCodes
  -- on the codes, from any units that the builder has gathered
  induction codes generalizing g us with
  | nil => exact ⟨g, rfl, .refl hg, hf, by simpa using hb⟩
  | cons code codes ih =>
    have hstep : g.appendChar h code =
        .ok { g with heap := g.heap.set h (.builder (us.push (unitOfCode code))) } := by
      simp only [appendChar, object_of_get? hb]
      rfl
    obtain ⟨hext, hnew⟩ := write_extends hg hb (.builder (us.push (unitOfCode code)))
    obtain ⟨g', hrun, hext', hf', hb'⟩ := ih hext.ok (hf.set h _) hnew
    refine ⟨g', ?_, hext.trans hext', hf', ?_⟩
    · rw [List.foldlM_cons, hstep]
      exact hrun
    · rw [hb', List.map_cons]
      simp

/-- **The string of a run of codes has their low halves as its units.** -/
theorem buildCodes_run (codes : List Int32) (hg : g.heap.OK) (hf : g.heap.Fits (n + 2)) :
    ∃ k g', g.buildCodes codes = .ok (k, g') ∧ Extends [] g g' ∧ g'.heap.Fits n ∧
      g'.heap.get? k = some (.string (codes.map unitOfCode).toArray) := by
  obtain ⟨hext, hf₁, hb, hnew⟩ := alloc_extends hg hf (.builder #[])
  obtain ⟨g₂, hrun, hext₂, hf₂, hb₂⟩ := appendCodes_run codes hext.ok hf₁ hb
  rw [Array.empty_append] at hb₂
  obtain ⟨hext₃, hf₃, hs, -⟩ := alloc_extends hext₂.ok hf₂ (.string (codes.map unitOfCode).toArray)
  -- the builder is new, so filling it changes nothing that was there
  have hbuilt := ((hext.mono (List.nil_subset _)).trans hext₂).of_new hnew
  refine ⟨_, _, ?_, hbuilt.trans hext₃, hf₃, hs⟩
  rw [buildCodes_eq, createStringBuilder, hrun]
  show g₂.buildString _ = _
  rw [buildString, object_of_get? hb₂]
  rfl

theorem makeString_run (text : String) (hg : g.heap.OK) (hf : g.heap.Fits (n + 2)) :
    ∃ k g', g.makeString text = .ok (k, g') ∧ Extends [] g g' ∧ g'.heap.Fits n ∧
      g'.heap.get? k = some (.string (Text.encode text).toArray) := by
  obtain ⟨k, g', hrun, hext, hf', hk⟩ :=
    buildCodes_run ((Text.encode text).map fun u => Int32.ofNat u.toNat) hg hf
  rw [map_unitOfCode_ofNat] at hk
  exact ⟨k, g', (makeString_eq g text).trans hrun, hext, hf', hk⟩

end Build

/-! ## Filling an array -/

section Fill

/-- The handle refers to the string of a text. -/
def Spells (g : Guest) (h : Handle) (text : String) : Prop :=
  g.heap.get? h = some (.string (Text.encode text).toArray)

theorem Spells.of_extends {text : String} (hs : g.Spells h text) (he : Extends work g g')
    (hh : h ∉ work) : g'.Spells h text :=
  he.kept h hh _ hs

/-- A string is stored behind the items that are there. -/
theorem setToStringArray_run {units : Array UInt16} (front : List (Option Handle)) (m : ℕ)
    (hk : g.heap.get? k = some (.string units))
    (harray : g.heap.get? array =
      some (.stringArray (front ++ List.replicate (m + 1) none).toArray))
    (hsize : front.length + (m + 1) ≤ 0x80000000) :
    g.setToStringArray array (Int32.ofNat front.length) k = .ok
      { g with
        heap := g.heap.set array
          (.stringArray (front ++ [some k] ++ List.replicate m none).toArray) } := by
  have hposition := position?_ofNat (i := front.length)
    (n := (front ++ List.replicate (m + 1) none).toArray.size) (by simp) (by simpa)
  -- the first place that is empty is the one right behind the items
  have hitems : (front ++ List.replicate (m + 1) none).toArray.setIfInBounds front.length (some k) =
      (front ++ [some k] ++ List.replicate m none).toArray := by
    rw [List.setIfInBounds_toArray, List.set_append_right _ _ le_rfl, Nat.sub_self,
      List.replicate_succ, List.set_cons_zero, List.append_assoc]
    rfl
  simp only [setToStringArray, object_of_get? hk, object_of_get? harray, bind, Except.bind,
    hposition, hitems]
  rfl

/-- An array whose first items are there is filled with the strings of texts. -/
theorem fillStringArray_run (texts : List String) (front : List (Option Handle)) (hg : g.heap.OK)
    (hf : g.heap.Fits (n + 2 * texts.length)) (hsize : front.length + texts.length ≤ 0x80000000)
    (harray : g.heap.get? array =
      some (.stringArray (front ++ List.replicate texts.length none).toArray)) :
    ∃ g' hs, g.fillStringArray array front.length texts = .ok g' ∧ Extends [array] g g' ∧
      g'.heap.Fits n ∧
      g'.heap.get? array = some (.stringArray (front ++ hs.map some).toArray) ∧
      List.Forall₂ (fun h t => g'.Spells h t) hs texts := by
  -- on the texts: each new string is put behind the items that are there already
  induction texts generalizing g front with
  | nil => exact ⟨g, [], rfl, .refl hg, hf, by simpa using harray, .nil⟩
  | cons t ts ih =>
    simp only [List.length_cons] at hf hsize harray
    have hroom : g.heap.Fits (n + 2 * ts.length + 2) := hf.mono (by omega)
    obtain ⟨k, g₁, hmake, hext₁, hf₁, hk⟩ := makeString_run t hg hroom
    have harray₁ := hext₁.kept array List.not_mem_nil _ harray
    -- the array is still an array, so later stores do not touch the string
    have hne : k ≠ array := by
      rintro rfl
      rw [hk] at harray₁
      cases harray₁
    have hstore := setToStringArray_run front ts.length hk harray₁ hsize
    obtain ⟨hext₂, harray₂⟩ := write_extends hext₁.ok harray₁
      (.stringArray (front ++ [some k] ++ List.replicate ts.length none).toArray)
    have hlength : (front ++ [some k]).length = front.length + 1 := by simp
    obtain ⟨g', hs, hfill, hext₃, hf₃, hfilled, hspell⟩ :=
      ih (front ++ [some k]) hext₂.ok (hf₁.set _ _) (by omega) harray₂
    have hk₃ : g'.Spells k t :=
      Spells.of_extends hk (hext₂.trans hext₃) (mt List.mem_singleton.1 hne)
    refine ⟨g', k :: hs, ?_, ((hext₁.mono (List.nil_subset _)).trans hext₂).trans hext₃, hf₃, ?_,
      .cons hk₃ hspell⟩
    · rw [hlength] at hfill
      rw [fillStringArray, hmake]
      show (g₁.setToStringArray array _ k >>= fun g => g.fillStringArray array _ ts) = _
      rw [hstore]
      exact hfill
    · rw [hfilled, List.map_cons, List.append_assoc]
      rfl

theorem makeStringArray_run {texts : List String} (hg : g.heap.OK)
    (hlength : texts.length < 0x80000000) (hf : g.heap.Fits (n + 2 * texts.length + 1)) :
    ∃ array g' hs, g.makeStringArray texts = .ok (array, g') ∧ Extends [] g g' ∧ g'.heap.Fits n ∧
      g'.heap.get? array = some (.stringArray (hs.map some).toArray) ∧
      List.Forall₂ (fun h t => g'.Spells h t) hs texts := by
  have htoInt : (Int32.ofNat texts.length).toInt = texts.length :=
    Int32.toInt_ofNat_of_lt hlength
  have hcreate : g.createStringArray (Int32.ofNat texts.length) =
      .ok (g.alloc (.stringArray (List.replicate texts.length none).toArray)) := by
    rw [createStringArray, if_neg, htoInt, Int.toNat_natCast, List.toArray_replicate]
    rw [Int32.lt_iff_toInt_lt, htoInt]
    simp
  obtain ⟨hext₁, hf₁, harray, hnew⟩ :=
    alloc_extends hg hf (.stringArray (List.replicate texts.length none).toArray)
  obtain ⟨g', hs, hfill, hext₂, hf₂, hfilled, hspell⟩ :=
    fillStringArray_run texts [] hext₁.ok hf₁ (by simpa using hlength.le) harray
  refine ⟨_, g', hs, ?_, ((hext₁.mono (List.nil_subset _)).trans hext₂).of_new hnew, hf₂, hfilled,
    hspell⟩
  rw [makeStringArray, if_pos hlength, hcreate]
  simp only [bind, Except.bind]
  rw [List.length_nil] at hfill
  rw [hfill]
  rfl

end Fill

/-! ## Decoding -/

section Decode

/-- What stands in the way of reading so many units back one by one: an export that is missing, or
a length that no narrow integer can tell. -/
def readError? (g : Guest) (n : ℕ) : Option BridgeError :=
  if g.provides .stringLength = false then
    some (.missingExport OptionalExport.stringLength.name)
  else if 0x80000000 ≤ n then some (.guest "string too long")
  else if n ≠ 0 ∧ g.provides .stringCharAt = false then
    some (.missingExport OptionalExport.stringCharAt.name)
  else none

theorem readError?_eq_none (hl : g.provides .stringLength) (hc : g.provides .stringCharAt)
    (hn : n < 0x80000000) : g.readError? n = none := by
  rw [readError?, if_neg (by simp [hl]), if_neg (by omega), if_neg (by simp [hc])]

theorem stringUnits_of_get? (hs : g.heap.get? h = some (.string us)) :
    g.stringUnits h = .ok us := by
  rw [stringUnits, object_of_get? hs]
  rfl

theorem get?_of_stringUnits (hs : g.stringUnits h = .ok us) :
    g.heap.get? h = some (.string us) := by
  obtain ⟨o, ho, hs⟩ := exists_of_bind_eq_ok hs
  cases o with
  | string us' =>
    cases hs
    exact object_ok ho
  | _ => cases hs

theorem require_eq (g : Guest) (e : OptionalExport) :
    g.require e = if g.provides e = false then .error (.missingExport e.name) else .ok () := by
  rw [require]
  cases g.provides e <;> rfl

/-- One unit of a string. -/
theorem stringCharAt_of_lt (hs : g.heap.get? h = some (.string us)) (hc : g.provides .stringCharAt)
    (hsize : us.size ≤ 0x80000000) {i : ℕ} (hi : i < us.size) :
    g.stringCharAt h (Int32.ofNat i) = .ok (Int32.ofNat (us.toList.getD i 0).toNat) := by
  have hunit : (some i : Option ℕ).bind (us[·]?) = some (us.toList.getD i 0) := by
    simp [hi, List.getD]
  rw [stringCharAt, require_eq, if_neg (by simp [hc]), stringUnits_of_get? hs]
  simp only [bind, Except.bind, position?_ofNat hi hsize, hunit]
  rfl

/-- All units of a string. -/
theorem mapM_stringCharAt (hs : g.heap.get? h = some (.string us))
    (hc : us.size = 0 ∨ g.provides .stringCharAt) (hsize : us.size ≤ 0x80000000) :
    ((List.range us.size).mapM fun i => do
      return unitOfCode (← g.stringCharAt h (Int32.ofNat i))) = .ok us.toList := by
  rw [mapM_eq_ok (r := fun i => us.toList.getD i 0) fun i hi => ?_]
  · congr 1
    refine List.ext_getElem (by simp) fun i hi hi' => ?_
    simp [List.getD, Array.length_toList ▸ hi']
  · have hlt := List.mem_range.1 hi
    rw [stringCharAt_of_lt hs (hc.resolve_left (by omega)) hsize hlt]
    exact congrArg Except.ok (unitOfCode_ofNat _)

theorem stringLength_of_string (hs : g.heap.get? h = some (.string us)) :
    g.stringLength h =
      if g.provides .stringLength = false then
        .error (.missingExport OptionalExport.stringLength.name)
      else if 0x80000000 ≤ us.size then .error (.guest "string too long")
      else .ok (Int32.ofNat us.size) := by
  rw [stringLength, require_eq, stringUnits_of_get? hs]
  by_cases hl : g.provides .stringLength = false
  · rw [if_pos hl, if_pos hl]
    rfl
  rw [if_neg hl, if_neg hl]
  by_cases hsize : 0x80000000 ≤ us.size
  · simp only [bind, Except.bind, if_pos hsize, if_neg (Nat.not_lt.2 hsize)]
    rfl
  · simp only [bind, Except.bind, if_neg hsize, if_pos (Nat.lt_of_not_le hsize)]
    rfl

/-- **A string is read back unit by unit**, unless something stands in the way. -/
theorem readString_of_string (hs : g.heap.get? h = some (.string us)) :
    g.readString h = (g.readError? us.size).elim (.ok (Text.decode us.toList)) .error := by
  rw [readString, stringLength_of_string hs, readError?]
  by_cases hl : g.provides .stringLength = false
  · rw [if_pos hl, if_pos hl]
    rfl
  rw [if_neg hl, if_neg hl]
  by_cases hsize : 0x80000000 ≤ us.size
  · rw [if_pos hsize, if_pos hsize]
    rfl
  rw [if_neg hsize, if_neg hsize]
  have hlength : (Int32.ofNat us.size).toInt.toNat = us.size := by
    rw [Int32.toInt_ofNat_of_lt (by omega), Int.toNat_natCast]
  show ((List.range (Int32.ofNat us.size).toInt.toNat).mapM (m := Except BridgeError) _ >>= _) = _
  rw [hlength]
  by_cases hc : us.size ≠ 0 ∧ g.provides .stringCharAt = false
  · -- the first unit is asked for
    obtain ⟨m, hm⟩ := Nat.exists_eq_succ_of_ne_zero hc.1
    rw [if_pos hc, hm, List.range_succ_eq_map, List.mapM_cons, stringCharAt, require_eq,
      if_pos hc.2]
    rfl
  · have hprovided : us.size = 0 ∨ g.provides .stringCharAt := by
      rwa [not_and_or, not_not, Bool.not_eq_false] at hc
    rw [if_neg hc, mapM_stringCharAt hs hprovided (by omega)]
    rfl

/-- The units of a string, and the text that both decoders read. -/
structure Decodes (g : Guest) (h : Handle) (us : List UInt16) (text : String) : Prop where
  units : g.stringUnits h = .ok us.toArray
  value : g.stringValue h = .ok text
  read : g.readString h = (g.readError? us.length).elim (.ok text) .error

theorem decodes_of_string (hs : g.heap.get? h = some (.string us)) :
    g.Decodes h us.toList (Text.decode us.toList) where
  units := stringUnits_of_get? hs
  value := by
    rw [stringValue, stringUnits_of_get? hs]
    rfl
  read := readString_of_string hs

theorem Spells.decodes {text : String} (hs : g.Spells h text) :
    g.Decodes h (Text.encode text) text := by
  have hdecodes := decodes_of_string hs
  rwa [List.toList_toArray, Text.decode_encode] at hdecodes

/-- **Texts cross unchanged.** With room in the heap, a text becomes a string that both decoders
read as that text, and texts become an array with such a string for each of them, which is what the
entry point is given; codes become the string of their low halves. Both decoders read the same from
any string, and written again that is its units but for the surrogates that stand alone. -/
theorem texts_cross_unchanged (g : Guest) (hg : g.heap.OK) :
    (∀ text, g.heap.Fits 2 → ∃ h g', g.makeString text = .ok (h, g') ∧ Extends [] g g' ∧
      g'.Decodes h (Text.encode text) text) ∧
    (∀ texts : List String, texts.length < 2 ^ 31 → g.heap.Fits (2 * texts.length + 1) →
      ∃ array g' items, g.makeStringArray texts = .ok (array, g') ∧ Extends [] g g' ∧
        g'.stringArray array = .ok (items.map some).toArray ∧
        List.Forall₂ (fun h text => g'.Decodes h (Text.encode text) text) items texts ∧
        ∀ held (w : World), w.guest = some g →
          BridgeM.runMain texts held w = BridgeM.callMain array held { w with guest := g' }) ∧
    (∀ codes, g.heap.Fits 2 → ∃ h g', g.buildCodes codes = .ok (h, g') ∧ Extends [] g g' ∧
      g'.Decodes h (codes.map unitOfCode) (Text.decode (codes.map unitOfCode))) ∧
    ∀ h units, g.stringUnits h = .ok units → ∃ text, g.Decodes h units.toList text ∧
      Text.encode text = Text.mend units.toList ∧
      (Text.encode text = units.toList ↔ Text.WellFormed units.toList) := by
  refine ⟨fun text hf => ?_, fun texts hlength hf => ?_, fun codes hf => ?_, fun h units hu => ?_⟩
  · obtain ⟨h, g', hrun, hext, -, hs⟩ := makeString_run (n := 0) text hg hf
    exact ⟨h, g', hrun, hext, Spells.decodes hs⟩
  · obtain ⟨array, g', items, hrun, hext, -, harray, hspell⟩ :=
      makeStringArray_run (n := 0) hg hlength (hf.mono (by omega))
    refine ⟨array, g', items, hrun, hext, ?_, hspell.imp fun _ _ => Spells.decodes, ?_⟩
    · rw [stringArray, object_of_get? harray]
      rfl
    · intro held w hw
      rw [BridgeM.runMain, BridgeM.bind_run, BridgeM.tryGuest_run hw, hrun]
  · obtain ⟨h, g', hrun, hext, -, hs⟩ := buildCodes_run (n := 0) codes hg hf
    have hdecodes := decodes_of_string hs
    rw [List.toList_toArray] at hdecodes
    exact ⟨h, g', hrun, hext, hdecodes⟩
  · exact ⟨_, decodes_of_string (get?_of_stringUnits hu), Text.encode_decode _,
      Text.encode_decode_eq_self_iff _⟩

/-- A guest that has freed a slot. -/
def reusing : Guest where
  heap := ((({} : HandleTable GuestObject).insert (.builder #[])).2.remove ⟨0, 0⟩).2
  imports := {}
  program := .echo

/-- The same guest with a string whose last unit is half of a pair, in the slot that was free. -/
def halved : Guest := (reusing.alloc (.string #[0x61, 0xD83D])).2

/-- A text beyond the basic plane comes back, by itself and in an array beside an empty one, and so
does one that is built from codes of which the first has a high half. The surrogate that stands alone
is read as the replacement character. -/
theorem reusing_keeps_texts :
    (∃ h g', reusing.makeString "a😀" = .ok (h, g') ∧ g'.stringValue h = .ok "a😀" ∧
      g'.readString h = .ok "a😀") ∧
    (∃ array g' h k, reusing.makeStringArray ["", "a😀"] = .ok (array, g') ∧
      g'.stringArray array = .ok #[some h, some k] ∧ g'.stringValue h = .ok "" ∧
      g'.stringValue k = .ok "a😀") ∧
    (∃ h g', reusing.buildCodes [0x10061, 0xD83D, 0xDE00] = .ok (h, g') ∧
      g'.stringUnits h = .ok #[0x61, 0xD83D, 0xDE00] ∧ g'.stringValue h = .ok "a😀") ∧
    ∃ text, halved.stringValue ⟨0, 1⟩ = .ok text ∧ halved.readString ⟨0, 1⟩ = .ok text ∧
      Text.encode text = [0x61, 0xFFFD] ∧ ¬Text.WellFormed [0x61, 0xD83D] := by
  have hok : reusing.heap.OK :=
    HandleTable.remove_ok (HandleTable.insert_ok HandleTable.ok_empty _) _
  obtain ⟨hmake, harray, hbuild, -⟩ := texts_cross_unchanged reusing hok
  obtain ⟨-, -, -, hread⟩ := texts_cross_unchanged halved (HandleTable.insert_ok hok _)
  refine ⟨?_, ?_, ?_, ?_⟩
  · obtain ⟨h, g', hrun, hext, hdecodes⟩ := hmake "a😀" (by decide)
    have hnone : g'.readError? (Text.encode "a😀").length = none := by
      refine readError?_eq_none ?_ ?_ (by decide)
      · rw [provides_of_extends hext]
        rfl
      · rw [provides_of_extends hext]
        rfl
    refine ⟨h, g', hrun, hdecodes.value, ?_⟩
    rw [hdecodes.read, hnone]
    rfl
  · obtain ⟨array, g', items, hrun, -, hitems, hdecodes, -⟩ :=
      harray ["", "a😀"] (by decide) (by decide)
    obtain _ | ⟨hfirst, _ | ⟨hsecond, _ | _⟩⟩ := hdecodes
    exact ⟨array, g', _, _, hrun, hitems, hfirst.value, hsecond.value⟩
  · obtain ⟨h, g', hrun, -, hdecodes⟩ := hbuild [0x10061, 0xD83D, 0xDE00] (by decide)
    exact ⟨h, g', hrun, hdecodes.units, hdecodes.value⟩
  · obtain ⟨text, hdecodes, hmend, hself⟩ := hread ⟨0, 1⟩ #[0x61, 0xD83D] rfl
    have hmended : Text.encode text = [0x61, 0xFFFD] := hmend
    refine ⟨text, hdecodes.value, hdecodes.read, hmended, fun hwell => ?_⟩
    exact absurd (hmended.symm.trans (hself.2 hwell)) (by decide)

end Decode

end Guest

end GuestBridge
