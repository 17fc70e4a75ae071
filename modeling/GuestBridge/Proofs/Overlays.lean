import GuestBridge.Proofs.JsonFields
import GuestBridge.Proofs.Options

/-!
# Overlays

Laying a JSON object over a configuration settles each key for itself: by the last occurrence of the
key in the object, or by the configuration if the key does not occur.

* `ConsoleMode.Spelled`: the two spellings of a console mode.
* `Config.overlay_eq_ok_iff`: **what an overlay gives**, key by key.
* `Config.Overlaid.of_same`, `Config.Overlaid.trans`: it depends on the values only, and two objects
  one after the other are the one in which the second one's values count.
* `Config.overlays_merge`: what an overlay gives can be used, is its own overlay, and two overlays
  are the one of the merged object.
-/

namespace GuestBridge

/-! ## Spellings -/

/-- **The two spellings of a console mode**: its word, and an object with the word as its only key,
however often, and null as the value that counts. -/
inductive ConsoleMode.Spelled (mode : ConsoleMode) : Json → Prop
  | word : Spelled mode (.string mode.name)
  | object {fields : List (String × Json)} (only : ∀ f ∈ fields, f.1 = mode.name)
      (last : Json.lastField? fields mode.name = some .null) : Spelled mode (.object fields)

theorem ConsoleMode.ofName?_eq_some_iff {mode : ConsoleMode} {s : String} :
    ofName? s = some mode ↔ s = mode.name := by
  constructor
  · intro h
    simpa [eq_comm] using List.find?_some h
  · rintro rfl
    cases mode <;> decide

theorem ConsoleMode.ofJson?_eq_some_iff {mode : ConsoleMode} {json : Json} :
    ofJson? json = some mode ↔ mode.Spelled json := by
  constructor
  · intro h
    unfold ofJson? at h
    split at h
    · obtain rfl := ofName?_eq_some_iff.1 h
      exact .word
    · next fields =>
      split at h
      · cases h
      · next key value rest =>
        rw [Option.ite_none_right_eq_some, List.all_eq_true] at h
        obtain ⟨hrest, h⟩ := h
        split at h
        · next hlast =>
          obtain rfl := ofName?_eq_some_iff.1 h
          refine .object (fun f hf => ?_) hlast
          rcases List.mem_cons.1 hf with rfl | hf
          · rfl
          · exact of_decide_eq_true (hrest f hf)
        · cases h
    · cases h
  · rintro (_ | ⟨honly, hlast⟩)
    · exact ofName?_eq_some_iff.2 rfl
    · next fields =>
      match fields with
      | [] => cases hlast
      | (key, value) :: rest =>
        obtain rfl : key = mode.name := honly _ List.mem_cons_self
        have hall : (rest.all fun f => f.1 = mode.name) = true := List.all_eq_true.2 fun f hf =>
          decide_eq_true (honly f (List.mem_cons_of_mem _ hf))
        unfold ofJson?
        dsimp only
        rw [if_pos hall, hlast]
        exact ofName?_eq_some_iff.2 rfl

/-- A console mode is spelled also without repeated keys. -/
theorem ConsoleMode.Spelled.of_same {mode : ConsoleMode} {j j' : Json} (h : mode.Spelled j)
    (hsame : j.Same j') : mode.Spelled j' := by
  cases h with
  | word => exact hsame.eq_string ▸ .word
  | object honly hlast =>
    obtain ⟨fields, rfl, hfields⟩ := hsame.exists_object
    refine .object (fun f hf => ?_) ?_
    · -- the name of a field has a last occurrence in both objects
      have hfound := Json.isSome_lastField? (List.mem_map_of_mem (f := Prod.fst) hf)
      rw [← Option.isSome_map (f := Json.collapse), ← hfields, Option.isSome_map,
        Option.isSome_iff_exists] at hfound
      obtain ⟨value, hvalue⟩ := hfound
      exact honly (f.1, value) (Json.mem_of_lastField? hvalue)
    · have hnull := hfields mode.name
      rw [hlast, eq_comm, Option.map_some, Option.map_eq_some_iff] at hnull
      obtain ⟨value, hvalue, hcollapse⟩ := hnull
      rw [hvalue, Json.Same.eq_null hcollapse.symm]

namespace Config

variable {c c₁ c₂ c' : Config} {text : String} {fields fields' : List (String × Json)}

/-- The number of a seed. -/
def SpellsSeed (seed : UInt32) (json : Json) : Prop := json = .natural seed.toNat

/-- An array of names. -/
def SpellsGlobals (names : List String) (json : Json) : Prop := json = .array (names.map .string)

theorem seedOfJson?_eq_some_iff {seed : UInt32} {json : Json} :
    seedOfJson? json = some seed ↔ SpellsSeed seed json := by
  constructor
  · intro h
    unfold seedOfJson? at h
    split at h
    · next n =>
      rw [Option.ite_none_right_eq_some] at h
      obtain ⟨hn, h⟩ := h
      obtain rfl := Option.some.inj h
      rw [SpellsSeed, Nat.toUInt32, UInt32.toNat_ofNat_of_lt' hn]
    · cases h
  · rintro rfl
    have hlt : seed.toNat < 2 ^ (32 : ℕ) := seed.toNat_lt
    rw [seedOfJson?, if_pos hlt]
    exact congrArg some UInt32.ofNat_toNat

theorem nameOfJson?_eq_some_iff {name : String} {json : Json} :
    nameOfJson? json = some name ↔ json = .string name := by
  cases json <;> simp [nameOfJson?]

/-- Items are read one by one. -/
theorem mapM_eq_some_iff {α β : Type} {read? : α → Option β} {write : β → α}
    (h : ∀ x y, read? x = some y ↔ x = write y) {xs : List α} {ys : List β} :
    xs.mapM read? = some ys ↔ xs = ys.map write := by
  induction xs generalizing ys with
  | nil => cases ys <;> simp
  | cons x xs ih =>
    rw [List.mapM_cons]
    simp only [Option.bind_eq_bind, Option.bind_eq_some_iff, Option.pure_def, Option.some.injEq, h,
      ih]
    constructor
    · rintro ⟨y, rfl, ys, rfl, rfl⟩
      rfl
    · intro hys
      cases ys with
      | nil => cases hys
      | cons y ys =>
        obtain ⟨rfl, rfl⟩ := List.cons.inj hys
        exact ⟨y, rfl, ys, rfl, rfl⟩

theorem globalsOfJson?_eq_some_iff {names : List String} {json : Json} :
    globalsOfJson? json = some names ↔ SpellsGlobals names json := by
  constructor
  · intro h
    unfold globalsOfJson? at h
    split at h
    · next items =>
      exact congrArg Json.array ((mapM_eq_some_iff fun _ _ => nameOfJson?_eq_some_iff).1 h)
    · cases h
  · rintro rfl
    exact (mapM_eq_some_iff fun _ _ => nameOfJson?_eq_some_iff).2 rfl

/-! ## Overlays -/

/-- A value is what the JSON that was found spells, or the present one if none was found. -/
def Takes {α : Type} (found : Option Json) (Spells : α → Json → Prop) (present value : α) : Prop :=
  found.elim (value = present) (Spells value)

/-- **An object laid over a configuration**; `found` is what the object has for a key. Each key is
settled by the object, or stays as it is if the object does not have it. -/
structure Overlaid (c : Config) (found : String → Option Json) (c' : Config) : Prop where
  known : ∀ key, (found key).isSome → key ∈ keys
  hashSeed : Takes (found "hash_seed") SpellsSeed c.hashSeed c'.hashSeed
  console : Takes (found "console") ConsoleMode.Spelled c.console c'.console
  globals : Takes (found "globals") SpellsGlobals c.globals c'.globals

theorem readKey_eq_ok_iff {α : Type} {values : OrderedMap String Json} {key : String}
    {read? : Json → Option α} {default value : α} :
    readKey values key read? default = .ok value ↔
      Takes (values.find? key) (fun value json => read? json = some value) default value := by
  unfold readKey Takes
  cases values.find? key with
  | none => exact ⟨fun h => (Except.ok.inj h).symm, fun h => congrArg Except.ok (Eq.symm h)⟩
  | some json =>
    show (read? json).elim _ _ = _ ↔ read? json = some value
    cases read? json with
    | none => exact ⟨nofun, nofun⟩
    | some value' =>
      exact ⟨fun h => congrArg some (Except.ok.inj h),
        fun h => congrArg Except.ok (Option.some.inj h)⟩

theorem ofMap_eq_ok_iff {values : OrderedMap String Json} :
    ofMap values = .ok c' ↔ (∀ key ∈ values.keys, key ∈ keys) ∧
      readKey values "hash_seed" seedOfJson? Hasher.defaultSeed = .ok c'.hashSeed ∧
      readKey values "console" ConsoleMode.ofJson? .log = .ok c'.console ∧
      readKey values "globals" globalsOfJson? [] = .ok c'.globals := by
  have hall : values.keys.all keys.contains = true ↔ ∀ key ∈ values.keys, key ∈ keys := by
    simp [List.all_eq_true]
  rw [← hall]
  unfold ofMap
  by_cases hkeys : values.keys.all keys.contains = true
  · rw [if_pos hkeys]
    constructor
    · intro h
      obtain ⟨seed, hseed, h⟩ := exists_of_bind_eq_ok h
      obtain ⟨console, hconsole, h⟩ := exists_of_bind_eq_ok h
      obtain ⟨globals, hglobals, h⟩ := exists_of_bind_eq_ok h
      cases h
      exact ⟨hkeys, hseed, hconsole, hglobals⟩
    · rintro ⟨-, hseed, hconsole, hglobals⟩
      show (readKey values "hash_seed" seedOfJson? Hasher.defaultSeed >>= fun seed => _) = _
      rw [hseed]
      show (readKey values "console" ConsoleMode.ofJson? .log >>= fun console => _) = _
      rw [hconsole]
      show (readKey values "globals" globalsOfJson? [] >>= fun globals => _) = _
      rw [hglobals]
      rfl
  · rw [if_neg hkeys]
    exact ⟨nofun, fun h => absurd h.1 hkeys⟩

/-- A key of the values with an object put in is settled by the object, or stays as it is. -/
theorem readKey_insertAll {α : Type} {key : String} {read? : Json → Option α}
    {Spells : α → Json → Prop} {value default : α} {json : Json}
    (hread : ∀ value json, read? json = some value ↔ Spells value json)
    (hfind : c.toMap.find? key = some json) (present : α) (hpresent : Spells present json) :
    readKey (c.toMap.insertAll fields) key read? default = .ok value ↔
      Takes (Json.lastField? fields key) Spells present value := by
  rw [readKey_eq_ok_iff, Json.find?_insertAll, hfind]
  cases Json.lastField? fields key with
  | none =>
    show read? json = some value ↔ value = present
    rw [(hread present json).2 hpresent, Option.some.injEq, eq_comm]
  | some json => exact hread value json

/-- The keys of the values with an object put in are the ones that are known, and those of the
object. -/
theorem forall_mem_keys_insertAll : (∀ key ∈ (c.toMap.insertAll fields).keys, key ∈ keys) ↔
    ∀ key, (Json.lastField? fields key).isSome → key ∈ keys := by
  have hmem : ∀ key, key ∈ (c.toMap.insertAll fields).keys ↔
      (Json.lastField? fields key).isSome ∨ key ∈ c.toMap.keys := by
    intro key
    rw [OrderedMap.mem_keys_iff, OrderedMap.mem_keys_iff, Json.find?_insertAll]
    cases Json.lastField? fields key <;> simp
  constructor
  · intro h key hkey
    exact h key ((hmem key).2 (.inl hkey))
  · intro h key hkey
    exact ((hmem key).1 hkey).elim (h key) id

/-- **Reading the values with an object put in** lays the object over the configuration. -/
theorem ofMap_insertAll_eq_ok_iff :
    ofMap (c.toMap.insertAll fields) = .ok c' ↔ c.Overlaid (Json.lastField? fields) c' := by
  have hseed : readKey (c.toMap.insertAll fields) "hash_seed" seedOfJson? Hasher.defaultSeed =
      .ok c'.hashSeed ↔ _ :=
    readKey_insertAll (fun _ _ => seedOfJson?_eq_some_iff) rfl c.hashSeed rfl
  have hconsole : readKey (c.toMap.insertAll fields) "console" ConsoleMode.ofJson? .log =
      .ok c'.console ↔ _ :=
    readKey_insertAll (fun _ _ => ConsoleMode.ofJson?_eq_some_iff) rfl c.console .word
  have hglobals : readKey (c.toMap.insertAll fields) "globals" globalsOfJson? [] =
      .ok c'.globals ↔ _ :=
    readKey_insertAll (fun _ _ => globalsOfJson?_eq_some_iff) rfl c.globals rfl
  rw [ofMap_eq_ok_iff, forall_mem_keys_insertAll, hseed, hconsole, hglobals]
  constructor
  · rintro ⟨hknown, hseed, hconsole, hglobals⟩
    exact ⟨hknown, hseed, hconsole, hglobals⟩
  · rintro ⟨hknown, hseed, hconsole, hglobals⟩
    exact ⟨hknown, hseed, hconsole, hglobals⟩

/-- **What an overlay gives**, key by key. -/
theorem overlay_eq_ok_iff : c.overlay text = .ok c' ↔ ∃ fields,
    Json.read? text = some (.object fields) ∧ c.Overlaid (Json.lastField? fields) c' ∧
      c'.Usable := by
  unfold overlay
  constructor
  · intro h
    split at h
    · next fields hread =>
      obtain ⟨c₁, hmerged, h⟩ := exists_of_bind_eq_ok h
      obtain ⟨rfl, husable⟩ := validate_eq_ok_iff.1 h
      exact ⟨fields, hread, ofMap_insertAll_eq_ok_iff.1 hmerged, husable⟩
    · cases h
  · rintro ⟨fields, hread, hoverlaid, husable⟩
    rw [hread]
    dsimp only
    rw [ofMap_insertAll_eq_ok_iff.2 hoverlaid]
    exact validate_eq_ok_iff.2 ⟨rfl, husable⟩

/-! ## Texts of the same object -/

theorem SpellsSeed.of_same {seed : UInt32} {j j' : Json} (h : SpellsSeed seed j)
    (hsame : j.Same j') : SpellsSeed seed j' := by
  obtain rfl := h
  exact hsame.eq_natural

theorem SpellsGlobals.of_same {names : List String} {j j' : Json} (h : SpellsGlobals names j)
    (hsame : j.Same j') : SpellsGlobals names j' := by
  obtain rfl := h
  obtain ⟨items, rfl, hitems⟩ := hsame.exists_array
  refine congrArg Json.array ?_
  clear hsame
  induction names generalizing items with
  | nil => exact List.map_eq_nil_iff.1 hitems.symm
  | cons name names ih =>
    cases items with
    | nil => cases hitems
    | cons item items =>
      obtain ⟨hitem, hitems⟩ := List.cons.inj hitems
      rw [List.map_cons, ← ih items hitems, Json.Same.eq_string (s := name) hitem]

theorem Takes.of_same {α : Type} {found found' : Option Json} {Spells : α → Json → Prop}
    {present value : α} (h : Takes found Spells present value)
    (hspells : ∀ {j j'}, Spells value j → j.Same j' → Spells value j')
    (hsame : found.map Json.collapse = found'.map Json.collapse) :
    Takes found' Spells present value := by
  cases found with
  | none =>
    cases found' with
    | none => exact h
    | some j' => cases hsame
  | some j =>
    cases found' with
    | none => cases hsame
    | some j' => exact hspells h (Option.some.inj hsame)

theorem Takes.trans {α : Type} {found found' : Option Json} {Spells : α → Json → Prop} {x y z : α}
    (h : Takes found Spells x y) (h' : Takes found' Spells y z) :
    Takes (found'.or found) Spells x z := by
  cases found' with
  | none =>
    obtain rfl : z = y := h'
    exact h
  | some j => exact h'

variable {found found' : String → Option Json}

/-- **What objects of the same values give is the same.** -/
theorem Overlaid.of_same (h : c.Overlaid found c')
    (hsame : ∀ key, (found key).map Json.collapse = (found' key).map Json.collapse) :
    c.Overlaid found' c' where
  known key hkey := by
    refine h.known key ?_
    rw [← Option.isSome_map (f := Json.collapse), hsame, Option.isSome_map]
    exact hkey
  hashSeed := h.hashSeed.of_same SpellsSeed.of_same (hsame _)
  console := h.console.of_same ConsoleMode.Spelled.of_same (hsame _)
  globals := h.globals.of_same SpellsGlobals.of_same (hsame _)

/-- **One object after the other** is the object in which the second one's values count. -/
theorem Overlaid.trans (h : c.Overlaid found c₁) (h' : c₁.Overlaid found' c₂) :
    c.Overlaid (fun key => (found' key).or (found key)) c₂ where
  known key hkey := by
    rw [Option.isSome_or, Bool.or_eq_true] at hkey
    exact hkey.elim (h'.known key) (h.known key)
  hashSeed := h.hashSeed.trans h'.hashSeed
  console := h.console.trans h'.console
  globals := h.globals.trans h'.globals

/-- An object without keys leaves a configuration as it is. -/
theorem Overlaid.refl (c : Config) : c.Overlaid (fun _ => none) c where
  known _ hkey := nomatch hkey
  hashSeed := rfl
  console := rfl
  globals := rfl

/-- The values of a configuration give it back, whatever they are laid over. -/
theorem overlaid_toMap (base c : Config) : base.Overlaid c.toMap.find? c where
  known key hkey := by
    have hmem : key ∈ c.toMap.keys := OrderedMap.mem_keys_iff.2 (Option.isSome_iff_exists.1 hkey)
    exact hmem
  hashSeed := rfl
  console := .word
  globals := rfl

/-! ## Texts of objects -/

theorem isSome_render?_string (depth : ℕ) (s : String) :
    (Json.render? depth (.string s)).isSome := by
  cases depth <;> rfl

theorem SpellsSeed.isSome_render? {seed : UInt32} {json : Json} (h : SpellsSeed seed json)
    (depth : ℕ) : (Json.render? depth json.collapse).isSome := by
  obtain rfl := h
  have hlt : seed.toNat < Json.wordSize := Nat.lt_trans seed.toNat_lt (by decide)
  show (Json.render? depth (.natural seed.toNat)).isSome
  rw [Json.render?, if_pos hlt]
  rfl

theorem SpellsGlobals.isSome_render? {names : List String} {json : Json}
    (h : SpellsGlobals names json) (depth : ℕ) :
    (Json.render? (depth + 1) json.collapse).isSome := by
  obtain rfl := h
  rw [Json.collapse, Json.collapseItems_eq_map, List.map_map]
  refine Json.isSome_render?_array _ fun item hitem => ?_
  obtain ⟨name, -, rfl⟩ := List.mem_map.1 hitem
  exact isSome_render?_string depth name

theorem isSome_render?_console {mode : ConsoleMode} {json : Json} (h : mode.Spelled json)
    (depth : ℕ) : (Json.render? (depth + 1) json.collapse).isSome := by
  cases h with
  | word => exact isSome_render?_string _ mode.name
  | @object fields honly hlast =>
    rw [Json.collapse]
    refine Json.isSome_render?_object _ fun f hf => ?_
    obtain ⟨value, hvalue, hcollapse⟩ := Json.exists_of_mem_collapse hf
    have hname : f.1 = mode.name := honly (f.1, value) (Json.mem_of_lastField? hvalue)
    rw [hname, hlast] at hvalue
    obtain rfl := Option.some.inj hvalue
    rw [hcollapse]
    cases depth <;> rfl

/-- What an object settles has a text. -/
theorem Overlaid.isSome_render? {key : String} {json : Json} (h : c.Overlaid found c')
    (hfound : found key = some json) (depth : ℕ) :
    (Json.render? (depth + 1) json.collapse).isSome := by
  have hkey : key ∈ keys := h.known key (by rw [hfound]; rfl)
  have hseed := h.hashSeed
  have hconsole := h.console
  have hglobals := h.globals
  simp only [keys, List.mem_cons, List.not_mem_nil, or_false] at hkey
  rcases hkey with rfl | rfl | rfl
  · rw [hfound] at hseed
    exact SpellsSeed.isSome_render? hseed _
  · rw [hfound] at hconsole
    exact isSome_render?_console hconsole _
  · rw [hfound] at hglobals
    exact SpellsGlobals.isSome_render? hglobals _

/-- A text of an object that was settled gives the same. -/
theorem Overlaid.overlay_of_gives (h : c.Overlaid found c') (hc : c'.Usable)
    (htext : Json.Gives text found) : c.overlay text = .ok c' := by
  obtain ⟨fields, hread, hfields⟩ := htext
  exact overlay_eq_ok_iff.2 ⟨fields, hread, h.of_same fun key => (hfields key).symm, hc⟩

/-- **The serialized form of a configuration** is a text of its values. -/
theorem exists_serialized (c : Config) : ∃ text,
    Json.text? (.object c.toMap.entries) = some text ∧ Json.Gives text c.toMap.find? := by
  have hnodup : c.toMap.keys.Nodup := by
    show keys.Nodup
    decide
  have hsome : (Json.render? Json.depthLimit (.object c.toMap.entries)).isSome := by
    refine Json.isSome_render?_object 126 fun f hf => ?_
    have hcases : f = ("hash_seed", .natural c.hashSeed.toNat) ∨
        f = ("console", .string c.console.name) ∨
        f = ("globals", .array (c.globals.map .string)) := by
      have hentries : f ∈ [("hash_seed", Json.natural c.hashSeed.toNat),
        ("console", .string c.console.name), ("globals", .array (c.globals.map .string))] := hf
      simpa using hentries
    -- each value has a text of its own, and none nests deeper than a list of names
    rcases hcases with rfl | rfl | rfl
    · exact (show SpellsSeed c.hashSeed _ from rfl).isSome_render? _
    · exact isSome_render?_string _ _
    · refine Json.isSome_render?_array 125 fun item hitem => ?_
      obtain ⟨name, -, rfl⟩ := List.mem_map.1 hitem
      exact isSome_render?_string _ name
  obtain ⟨cs, hcs⟩ := Option.isSome_iff_exists.1 hsome
  have htext : Json.text? (.object c.toMap.entries) = some (String.ofList cs) := by
    rw [Json.text?, hcs]
    rfl
  refine ⟨_, htext, _, Json.read?_of_text? htext, fun key => ?_⟩
  rw [Json.lastField?_entries hnodup]

/-- **There is a text of the merged object** of two objects that are laid one after the other. -/
theorem exists_merged (h : c.Overlaid (Json.lastField? fields) c₁)
    (h' : c₁.Overlaid (Json.lastField? fields') c₂) :
    ∃ text, Json.Gives text fun key =>
      (Json.lastField? fields' key).or (Json.lastField? fields key) := by
  have hlast : Json.lastField? (fields ++ fields') = fun key =>
      (Json.lastField? fields' key).or (Json.lastField? fields key) :=
    funext fun key => Json.lastField?_append fields fields' key
  have hboth := h.trans h'
  rw [← hlast] at hboth ⊢
  exact Json.exists_gives 126 rfl fun key value hvalue =>
    hboth.isSome_render? hvalue 125

/-- **Overlays merge by key**, and what they give can be used.

* An overlay succeeds if and only if the text is an object, each key is settled by its last
  occurrence or stays as it is, no other key occurs, the seed is not zero, and the result gives
  options, whose globals are named as the result says, without later duplicates.
* An overlay of its result with no keys or with all its values gives it back.
* Two overlays, one after the other, are the one of the merged object, of which there is a text. -/
theorem overlays_merge (c : Config) :
    (∀ text c', c.overlay text = .ok c' ↔ ∃ fields, Json.read? text = some (.object fields) ∧
      c.Overlaid (Json.lastField? fields) c' ∧ c'.hashSeed ≠ 0 ∧
      ∀ held w, ∃ o w', BridgeM.optionsOf c' held w = .ok o w' ∧
        o.globals.keys = c'.globals.eraseDups ∧ o.hashSeed = c'.hashSeed) ∧
    (∀ text c', c.overlay text = .ok c' →
      c'.overlay "\x7b\x7d" = .ok c' ∧
      (∃ serialized, Json.text? (.object c'.toMap.entries) = some serialized ∧
        Json.Gives serialized c'.toMap.find?) ∧
      ∀ (base : Config) serialized, Json.Gives serialized c'.toMap.find? →
        base.overlay serialized = .ok c') ∧
    ∀ a b c₁ c₂, c.overlay a = .ok c₁ → c₁.overlay b = .ok c₂ →
      (∃ merged, Json.Merges a b merged) ∧
      ∀ merged, Json.Merges a b merged → c.overlay merged = .ok c₂ := by
  refine ⟨fun text c' => ?_,
    fun text c' h => ⟨?_, exists_serialized c', fun base text' hgives => ?_⟩,
    fun a b c₁ c₂ ha hb => ⟨?_, fun merged hmerged => ?_⟩⟩
  · rw [overlay_eq_ok_iff]
    constructor
    · rintro ⟨fields, hread, hoverlaid, husable⟩
      refine ⟨fields, hread, hoverlaid, husable.hashSeed, fun held w => ?_⟩
      obtain ⟨o, w', hrun, hkeys, hseed, -⟩ := BridgeM.optionsOf_run husable held w
      exact ⟨o, w', hrun, hkeys, hseed⟩
    · rintro ⟨fields, hread, hoverlaid, -, hrun⟩
      obtain ⟨o, w', hrun, -⟩ := hrun [] (World.initial {})
      exact ⟨fields, hread, hoverlaid, usable_of_optionsOf hrun⟩
  · exact (Overlaid.refl c').overlay_of_gives (usable_of_overlay h) ⟨[], rfl, fun _ => rfl⟩
  · exact (overlaid_toMap base c').overlay_of_gives (usable_of_overlay h) hgives
  · obtain ⟨fields, hreadA, ha, -⟩ := overlay_eq_ok_iff.1 ha
    obtain ⟨fields', hreadB, hb, -⟩ := overlay_eq_ok_iff.1 hb
    obtain ⟨text, htext⟩ := exists_merged ha hb
    exact ⟨text, fields, fields', hreadA, hreadB, htext⟩
  · obtain ⟨fields, hreadA, ha, -⟩ := overlay_eq_ok_iff.1 ha
    obtain ⟨fields', hreadB, hb, husable⟩ := overlay_eq_ok_iff.1 hb
    obtain ⟨fieldsA, fieldsB, hreadA', hreadB', hgives⟩ := hmerged
    obtain rfl := Json.object.inj (Option.some.inj (hreadA'.symm.trans hreadA))
    obtain rfl := Json.object.inj (Option.some.inj (hreadB'.symm.trans hreadB))
    exact (ha.trans hb).overlay_of_gives husable hgives

/-- A console mode as an object. -/
def firstText : String :=
  "\x7b\"hash_seed\":7,\"console\":\x7b\"stdio\":null\x7d,\"globals\":[\"isNaN\"]\x7d"

/-- A repeated key, whose last value is an object with a repeated key, and a repeated name. -/
def secondText : String :=
  "\x7b\"console\":5,\"globals\":[\"parseInt\",\"isNaN\",\"parseInt\"]," ++
    "\"console\":\x7b\"silent\":true,\"silent\":null\x7d\x7d"

/-- The merged object, its keys in another order and none of them repeated. -/
def mergedText : String :=
  "\x7b\"console\":\x7b\"silent\":null\x7d," ++
    "\"globals\":[\"parseInt\",\"isNaN\",\"parseInt\"],\"hash_seed\":7\x7d"

theorem mergedText_merges : Json.Merges firstText secondText mergedText := by
  have hfirst : Json.text? (.object [("hash_seed", .natural 7),
      ("console", .object [("stdio", .null)]), ("globals", .array [.string "isNaN"])]) =
      some firstText := by decide
  have hsecond : Json.text? (.object [("console", .natural 5),
      ("globals", .array (["parseInt", "isNaN", "parseInt"].map .string)),
      ("console", .object [("silent", .bool true), ("silent", .null)])]) =
      some secondText := by decide
  have hmerged : Json.text? (.object [("console", .object [("silent", .null)]),
      ("globals", .array (["parseInt", "isNaN", "parseInt"].map .string)),
      ("hash_seed", .natural 7)]) = some mergedText := by decide
  refine ⟨_, _, Json.read?_of_text? hfirst, Json.read?_of_text? hsecond, _,
    Json.read?_of_text? hmerged, fun key => ?_⟩
  by_cases hkey : key ∈ keys
  · simp only [keys, List.mem_cons, List.not_mem_nil, or_false] at hkey
    rcases hkey with rfl | rfl | rfl <;> rfl
  · have hnone : ∀ fields : List (String × Json), (∀ f ∈ fields, f.1 ∈ keys) →
        Json.lastField? fields key = none := fun fields hfields =>
      Json.lastField?_eq_none_iff.2 fun f hf hname => hkey (hname ▸ hfields f hf)
    dsimp only
    rw [hnone _ (by decide), hnone _ (by decide), hnone _ (by decide)]
    rfl

/-- What was laid over a configuration, if it is a result at all. -/
theorem overlay_of_toOption (h : (c.overlay text).toOption = some c') :
    c.overlay text = .ok c' := by
  cases hc : c.overlay text with
  | ok c₁ =>
    rw [hc] at h
    exact congrArg Except.ok (Option.some.inj h)
  | error e =>
    rw [hc] at h
    cases h

def firstConfig : Config := { hashSeed := 7, console := .stdio, globals := ["isNaN"] }

def secondConfig : Config :=
  { hashSeed := 7, console := .silent, globals := ["parseInt", "isNaN", "parseInt"] }

theorem mergedText_is_both :
    Config.overlay {} firstText = .ok firstConfig ∧
    firstConfig.overlay secondText = .ok secondConfig ∧
    Config.overlay {} mergedText = .ok secondConfig ∧
    secondConfig.overlay "\x7b\x7d" = .ok secondConfig ∧
    ∃ o w, BridgeM.optionsOf secondConfig [] (World.initial {}) = .ok o w ∧
      o.globals.keys = ["parseInt", "isNaN"] := by
  have hfirst : Config.overlay {} firstText = .ok firstConfig :=
    overlay_of_toOption (by decide +kernel)
  have hsecond : firstConfig.overlay secondText = .ok secondConfig :=
    overlay_of_toOption (by decide +kernel)
  obtain ⟨-, -, hmerge⟩ := overlays_merge {}
  obtain ⟨hsettled, hagain, -⟩ := overlays_merge firstConfig
  obtain ⟨-, -, -, -, hoptions⟩ := (hsettled _ _).1 hsecond
  obtain ⟨o, w, hrun, hkeys, -⟩ := hoptions [] (World.initial {})
  exact ⟨hfirst, hsecond, (hmerge _ _ _ _ hfirst hsecond).2 _ mergedText_merges,
    (hagain _ _ hsecond).1, o, w, hrun, hkeys.trans (by decide)⟩

end Config

end GuestBridge
