import GuestBridge.Proofs.Calls

/-!
# What stays of members

A wrapper instance has own properties, and accessors through the definition of its class. What
happens to cells can make, drop and rewrite them, but it follows a few rules: an object stays
what it is and keeps its properties, a definition keeps its accessors, and where a definition has
an accessor, no instance gets, loses or changes an own property of that name. Methods of classes
pass on to the guest.

* `Heap.Grounded`: classes and instances have their definitions.
* `Heap.Retains`: what a later heap has of the members of an earlier one.
* `Heap.Forwarding`: methods of classes pass on to the guest.
* `Heap.Evolves`: **grounded heaps stay grounded and retain members.** It is shown for new cells
  (`evolves_alloc`), dropped ones (`evolves_reclaim`) and rewritten ones (`evolves_setObject`,
  `evolves_setDefinition`).
-/

namespace GuestBridge

/-- The definition that a class or an instance refers to. -/
def ObjectKind.definition? : ObjectKind → Option HostId
  | .class d => some d
  | wrapper d _ => some d
  | _ => none

theorem ObjectKind.mem_holds_of_definition? {k : ObjectKind} {d : HostId}
    (hk : k.definition? = some d) : d ∈ k.holds := by
  cases k with
  | «class» | wrapper => exact List.mem_singleton.2 (Option.some.inj hk).symm
  | _ => cases hk

namespace Heap

variable {h h' h'' : Heap} {i j d : HostId} {c : Cell} {o : HostObject} {m : ClassDefinition}
  {name : String}

/-! ## Objects and definitions -/

section Cells

theorem object?_eq_some_iff : h.object? i = some o ↔ h.cell? i = some (.object o) :=
  ⟨BridgeM.cell?_of_object?, fun hc => by rw [object?, hc]⟩

theorem definition?_eq_some_iff : h.definition? i = some m ↔ h.cell? i = some (.definition m) :=
  ⟨BridgeM.cell?_of_definition?, fun hc => by rw [definition?, hc]⟩

theorem object?_alloc (o : HostObject) (j : HostId) :
    (h.alloc (.object o)).2.object? j = if j = ⟨h.next⟩ then some o else h.object? j := by
  have hid : (h.alloc (.object o)).1 = ⟨h.next⟩ := rfl
  unfold object?
  rw [cell?_alloc, hid]
  by_cases hj : j = ⟨h.next⟩
  · rw [if_pos hj, if_pos hj]
  · rw [if_neg hj, if_neg hj]

theorem object?_setCell (i : HostId) (o : HostObject) (j : HostId) :
    (h.setCell i (.object o)).object? j = if j = i then some o else h.object? j := by
  unfold object?
  rw [cell?_setCell]
  by_cases hj : j = i
  · rw [if_pos hj, if_pos hj]
  · rw [if_neg hj, if_neg hj]

/-- A rewritten object leaves the definitions as they are, -/
theorem definition?_setObject (ho : h.object? i = some o) (o' : HostObject) (d : HostId) :
    (h.setCell i (.object o')).definition? d = h.definition? d := by
  unfold definition?
  rw [cell?_setCell]
  split_ifs with hd
  · rw [hd, object?_eq_some_iff.1 ho]
  · rfl

/-- and a rewritten definition the objects. -/
theorem object?_setDefinition (hm : h.definition? d = some m) (m' : ClassDefinition) (j : HostId) :
    (h.setCell d (.definition m')).object? j = h.object? j := by
  unfold object?
  rw [cell?_setCell]
  split_ifs with hj
  · rw [hj, definition?_eq_some_iff.1 hm]
  · rfl

theorem definition?_setDefinition (d : HostId) (m' : ClassDefinition) (e : HostId) :
    (h.setCell d (.definition m')).definition? e = if e = d then some m' else h.definition? e := by
  unfold definition?
  rw [cell?_setCell]
  split_ifs <;> rfl

/-- The cells that were there are not replaced by a new one. -/
theorem cell?_alloc_of_lt (hi : i.index < h.next) (c : Cell) :
    (h.alloc c).2.cell? i = h.cell? i := by
  rw [cell?_alloc, if_neg]
  rintro rfl
  exact absurd hi (lt_irrefl _)

end Cells

/-! ## Members -/

/-- An own property of an object. -/
def own? (h : Heap) (i : HostId) (name : String) : Option HostValue :=
  (h.object? i).bind fun o => o.properties.find? name

/-- The definition behind a wrapper instance. -/
def instanceOf? (h : Heap) (i : HostId) : Option HostId :=
  match h.object? i with
  | some ⟨.wrapper d _, _, _⟩ => some d
  | _ => none

/-- The accessor of a class definition for a name. -/
def accessorOf? (h : Heap) (d : HostId) (name : String) : Option Accessor :=
  (h.definition? d).bind fun m => m.accessors.find? name

/-- The accessor of a wrapper instance for a name. -/
def accessor? (h : Heap) (i : HostId) (name : String) : Option Accessor :=
  (h.instanceOf? i).bind fun d => h.accessorOf? d name

/-- The method of a wrapper instance for a name. -/
def method? (h : Heap) (i : HostId) (name : String) : Option HostId :=
  ((h.instanceOf? i).bind h.definition?).bind fun m => m.methods.find? name

theorem accessor?_eq (h : Heap) (i : HostId) (name : String) : h.accessor? i name =
    ((h.instanceOf? i).bind h.definition?).bind fun m => m.accessors.find? name := by
  unfold accessor? accessorOf?
  rw [Option.bind_assoc]

theorem own?_of_object? (ho : h.object? i = some o) (name : String) :
    h.own? i name = o.properties.find? name := by
  rw [own?, ho, Option.bind_some]

theorem instanceOf?_eq_some_iff :
    h.instanceOf? i = some d ↔ ∃ o k, h.object? i = some o ∧ o.kind = .wrapper d k := by
  unfold instanceOf?
  cases h.object? i with
  | none => simp
  | some o =>
    obtain ⟨kind, properties, methodCache⟩ := o
    cases kind <;> simp

section Congr

/-- Own properties and classes are those of the object. -/
theorem own?_congr (ho : h'.object? i = h.object? i) (name : String) :
    h'.own? i name = h.own? i name := by
  rw [own?, own?, ho]

theorem instanceOf?_congr (ho : h'.object? i = h.object? i) :
    h'.instanceOf? i = h.instanceOf? i := by
  rw [instanceOf?, instanceOf?, ho]

theorem accessor?_of_instanceOf? (hi : h.instanceOf? i = some d) (hm : h.definition? d = some m)
    (name : String) : h.accessor? i name = m.accessors.find? name := by
  rw [accessor?, hi, Option.bind_some, accessorOf?, hm, Option.bind_some]

theorem accessor?_congr (hi : h'.instanceOf? i = h.instanceOf? i)
    (hd : ∀ d, h.instanceOf? i = some d → h'.definition? d = h.definition? d) (name : String) :
    h'.accessor? i name = h.accessor? i name := by
  rw [accessor?, accessor?, hi]
  cases hc : h.instanceOf? i with
  | none => rfl
  | some d => rw [Option.bind_some, Option.bind_some, accessorOf?, accessorOf?, hd d hc]

/-- **A write changes the own property that it names**, -/
theorem own?_write (ho : h.object? i = some o) (name : String) (v : HostValue) (j : HostId)
    (p : String) :
    (h.setCell i (.object { o with properties := o.properties.insert name v })).own? j p =
      if j = i ∧ p = name then some v else h.own? j p := by
  by_cases hj : j = i
  · subst hj
    have ho' := object?_setCell (h := h) j { o with properties := o.properties.insert name v } j
    rw [if_pos rfl] at ho'
    rw [own?_of_object? ho', own?_of_object? ho, OrderedMap.find?_insert]
    by_cases hp : p = name
    · rw [if_pos hp, if_pos ⟨rfl, hp⟩]
    · rw [if_neg hp, if_neg fun hjp => hp hjp.2]
  · rw [if_neg fun hjp => hj hjp.1]
    exact own?_congr ((object?_setCell i _ j).trans (if_neg hj)) p

/-- and no accessor. -/
theorem accessor?_write (ho : h.object? i = some o) (name : String) (v : HostValue) (j : HostId)
    (p : String) :
    (h.setCell i (.object { o with properties := o.properties.insert name v })).accessor? j p =
      h.accessor? j p := by
  refine accessor?_congr ?_ (fun d _ => definition?_setObject ho _ d) p
  by_cases hj : j = i
  · subst hj
    unfold instanceOf?
    rw [object?_setCell, if_pos rfl, ho]
    obtain ⟨kind, properties, methodCache⟩ := o
    cases kind <;> rfl
  · exact instanceOf?_congr ((object?_setCell i _ j).trans (if_neg hj))

/-- The accessors of an instance are those of the definition that has been rewritten. -/
theorem accessor?_setDefinition (hm : h.definition? d = some m) (m' : ClassDefinition) (j : HostId)
    (p : String) :
    (h.setCell d (.definition m')).accessor? j p =
      if h.instanceOf? j = some d then m'.accessors.find? p else h.accessor? j p := by
  have hi : (h.setCell d (.definition m')).instanceOf? j = h.instanceOf? j :=
    instanceOf?_congr (object?_setDefinition hm m' j)
  by_cases hj : h.instanceOf? j = some d
  · rw [if_pos hj]
    refine accessor?_of_instanceOf? (hi.trans hj) ?_ p
    rw [definition?_setDefinition, if_pos rfl]
  · rw [if_neg hj]
    refine accessor?_congr hi (fun e he => ?_) p
    rw [definition?_setDefinition, if_neg]
    rintro rfl
    exact hj he

end Congr

/-- The identities are distinct and have been given, and classes and instances have their
definitions. -/
structure Grounded (h : Heap) : Prop where
  nodup : h.cells.keys.Nodup
  lt_next : ∀ i c, h.cell? i = some c → i.index < h.next
  definition : ∀ i o d, h.object? i = some o → o.kind.definition? = some d →
    ∃ m, h.definition? d = some m

/-- If it is there, it is a function that passes on to the guest. -/
def Forwards (h : Heap) (f : HostId) : Prop :=
  f.index < h.next ∧ ∀ o, h.object? f = some o →
    ∃ name entry, o.kind = .function { name, behaviour := .forward entry }

/-- Methods of classes pass on to the guest. -/
def Forwarding (h : Heap) : Prop :=
  ∀ d m name f, h.definition? d = some m → m.methods.find? name = some f → h.Forwards f

/-- What a later heap has of the members of an earlier one. -/
structure Retains (h h' : Heap) : Prop where
  next_le : h.next ≤ h'.next
  /-- An object stays what it is and keeps its properties. -/
  objects : ∀ i o', i.index < h.next → h'.object? i = some o' →
    ∃ o, h.object? i = some o ∧ o.kind = o'.kind ∧
      ∀ name, (o.properties.find? name).isSome → (o'.properties.find? name).isSome
  /-- A definition keeps its accessors. -/
  definitions : ∀ d m', d.index < h.next → h'.definition? d = some m' →
    ∃ m, h.definition? d = some m ∧
      ∀ name, (m.accessors.find? name).isSome → (m'.accessors.find? name).isSome
  /-- Where there is an accessor, own properties stay as they are, and new instances have none. -/
  frozen : ∀ i d name, h'.instanceOf? i = some d → (h.accessorOf? d name).isSome →
    h'.own? i name = h.own? i name
  /-- Methods go on to pass on to the guest. -/
  forwarding : h.Forwarding → h'.Forwarding

/-- A heap that is grounded stays so, and retains its members. -/
def Evolves (h h' : Heap) : Prop := h.Grounded → h'.Grounded ∧ h.Retains h'

section Grounded

theorem OK.grounded (hh : h.OK) : h.Grounded where
  nodup := hh.nodup
  lt_next := hh.lt_next
  definition := by
    intro i o d ho hd
    have hpart : .definition d ∈ o.kind.parts := by
      cases hk : o.kind <;> rw [hk] at hd <;> cases hd <;> exact List.mem_singleton_self _
    obtain ⟨m, hm⟩ := hh.parts i _ (object?_eq_some_iff.1 ho) _ (List.mem_append_left _ hpart)
    exact ⟨m, definition?_eq_some_iff.2 hm⟩

theorem Grounded.object_lt (hh : h.Grounded) (ho : h.object? i = some o) : i.index < h.next :=
  hh.lt_next i _ (object?_eq_some_iff.1 ho)

theorem Grounded.definition_lt (hh : h.Grounded) (hm : h.definition? d = some m) :
    d.index < h.next :=
  hh.lt_next d _ (definition?_eq_some_iff.1 hm)

/-- A definition that is there is not replaced by a new cell. -/
theorem Grounded.definition?_alloc (hh : h.Grounded) (hm : h.definition? d = some m) (c : Cell) :
    (h.alloc c).2.definition? d = some m := by
  rw [definition?_eq_some_iff, cell?_alloc_of_lt (hh.definition_lt hm)]
  exact definition?_eq_some_iff.1 hm

/-- What has not been given an identity yet has no properties. -/
theorem Grounded.own?_of_le (hh : h.Grounded) (hi : h.next ≤ i.index) (name : String) :
    h.own? i name = none := by
  rw [own?, Option.bind_eq_none_iff]
  intro o ho
  exact absurd (hh.object_lt ho) (not_lt_of_ge hi)

/-- An instance has its definition. -/
theorem Grounded.definition_of_instanceOf? (hh : h.Grounded) (hi : h.instanceOf? i = some d) :
    ∃ m, h.definition? d = some m := by
  obtain ⟨o, k, ho, hk⟩ := instanceOf?_eq_some_iff.1 hi
  exact hh.definition i o d ho (by rw [hk]; rfl)

/-- A class has its definition. -/
theorem Grounded.definition_of_class (hh : h.Grounded) (hd : h.classDefinition? i = some d) :
    ∃ m, h.definition? d = some m := by
  obtain ⟨o, ho, hk⟩ := classDefinition?_eq_some_iff.1 hd
  exact hh.definition i o d (object?_eq_some_iff.2 ho) (by rw [hk]; rfl)

/-- A new callable changes no member. -/
theorem Grounded.members_alloc (hh : h.Grounded) (f : Callable) (j : HostId) (p : String) :
    (h.alloc (.object { kind := .function f })).2.own? j p = h.own? j p ∧
      (h.alloc (.object { kind := .function f })).2.accessor? j p = h.accessor? j p := by
  have hnew := object?_alloc (h := h) { kind := .function f } j
  have hkeep : ∀ d, h.instanceOf? j = some d →
      (h.alloc (.object { kind := .function f })).2.definition? d = h.definition? d := by
    intro d hd
    obtain ⟨m, hm⟩ := hh.definition_of_instanceOf? hd
    rw [hm, hh.definition?_alloc hm]
  by_cases hj : j = ⟨h.next⟩
  · -- The identity had not been given, and the callable has no properties.
    rw [if_pos hj] at hnew
    have hold : h.object? j = none := by
      rw [Option.eq_none_iff_forall_ne_some]
      intro o ho
      exact absurd (hh.object_lt ho) (by rw [hj]; exact lt_irrefl _)
    refine ⟨?_, accessor?_congr ?_ hkeep p⟩
    · rw [own?_of_object? hnew, own?, hold]
      rfl
    · rw [instanceOf?, hnew, instanceOf?, hold]
  · rw [if_neg hj] at hnew
    exact ⟨own?_congr hnew p, accessor?_congr (instanceOf?_congr hnew) hkeep p⟩

end Grounded

/-! ## What is retained -/

section Retains

/-- A new function passes on to the guest. -/
theorem forwards_alloc (h : Heap) (name : String) (entry : GuestEntry) :
    (h.alloc (.object { kind := .function { name, behaviour := .forward entry } })).2.Forwards
      ⟨h.next⟩ := by
  refine ⟨Nat.lt_succ_self _, fun o ho => ⟨name, entry, ?_⟩⟩
  rw [object?_alloc, if_pos rfl] at ho
  cases ho
  rfl

/-- A function stays what it is. -/
theorem Forwards.of_objects (hf : h.Forwards i) (hnext : h.next ≤ h'.next)
    (ho : ∀ o', h'.object? i = some o' → ∃ o, h.object? i = some o ∧ o.kind = o'.kind) :
    h'.Forwards i := by
  refine ⟨lt_of_lt_of_le hf.1 hnext, fun o' ho' => ?_⟩
  obtain ⟨o, ho, hk⟩ := ho o' ho'
  exact hk ▸ hf.2 o ho

theorem Retains.refl (h : Heap) : h.Retains h where
  next_le := le_rfl
  objects := fun _ o' _ ho' => ⟨o', ho', rfl, fun _ hp => hp⟩
  definitions := fun _ m' _ hm' => ⟨m', hm', fun _ ha => ha⟩
  frozen := fun _ _ _ _ _ => rfl
  forwarding := id

/-- An instance that was there was one of the same class. -/
theorem Retains.instanceOf? (hr : h.Retains h') (hi : i.index < h.next)
    (hd : h'.instanceOf? i = some d) : h.instanceOf? i = some d := by
  obtain ⟨o', k, ho', hk⟩ := instanceOf?_eq_some_iff.1 hd
  obtain ⟨o, ho, hkind, -⟩ := hr.objects i o' hi ho'
  exact instanceOf?_eq_some_iff.2 ⟨o, k, ho, hkind.trans hk⟩

/-- **A definition that is still there has the accessors it had.** -/
theorem Retains.accessorOf? (hr : h.Retains h') (hh : h.Grounded)
    (ha : (h.accessorOf? d name).isSome) {m' : ClassDefinition} (hm' : h'.definition? d = some m') :
    (h'.accessorOf? d name).isSome := by
  obtain ⟨a, ha⟩ := Option.isSome_iff_exists.1 ha
  obtain ⟨m, hm, ha⟩ := Option.bind_eq_some_iff.1 ha
  obtain ⟨m₀, hm₀, hkeep⟩ := hr.definitions d m' (hh.definition_lt hm) hm'
  obtain rfl := Option.some.inj (hm.symm.trans hm₀)
  rw [Heap.accessorOf?, hm', Option.bind_some]
  exact hkeep name (by rw [ha, Option.isSome_some])

/-- An own property that an object has is there for as long as the object is. -/
theorem Retains.own? (hr : h.Retains h') (hh : h.Grounded) {o' : HostObject}
    (ho' : h'.object? i = some o') (hp : (h.own? i name).isSome) : (h'.own? i name).isSome := by
  obtain ⟨x, hx⟩ := Option.isSome_iff_exists.1 hp
  obtain ⟨o, ho, hx⟩ := Option.bind_eq_some_iff.1 hx
  obtain ⟨o₀, ho₀, -, hkeep⟩ := hr.objects i o' (hh.object_lt ho) ho'
  obtain rfl := Option.some.inj (ho.symm.trans ho₀)
  rw [own?_of_object? ho']
  exact hkeep name (by rw [hx, Option.isSome_some])

theorem Retains.trans (hh : h.Grounded) (hh' : h'.Grounded) (hh'' : h''.Grounded)
    (hr : h.Retains h') (hr' : h'.Retains h'') : h.Retains h'' where
  next_le := le_trans hr.next_le hr'.next_le
  objects := by
    intro i o'' hi ho''
    obtain ⟨o', ho', hk', hp'⟩ := hr'.objects i o'' (lt_of_lt_of_le hi hr.next_le) ho''
    obtain ⟨o, ho, hk, hp⟩ := hr.objects i o' hi ho'
    exact ⟨o, ho, hk.trans hk', fun name hx => hp' name (hp name hx)⟩
  definitions := by
    intro d m'' hd hm''
    obtain ⟨m', hm', ha'⟩ := hr'.definitions d m'' (lt_of_lt_of_le hd hr.next_le) hm''
    obtain ⟨m, hm, ha⟩ := hr.definitions d m' hd hm'
    exact ⟨m, hm, fun name hx => ha' name (ha name hx)⟩
  frozen := by
    intro i d name hi ha
    -- The definition is there at the end, so it is there in between, with the accessor.
    obtain ⟨a, hsome⟩ := Option.isSome_iff_exists.1 ha
    obtain ⟨m, hm, -⟩ := Option.bind_eq_some_iff.1 hsome
    have hd : d.index < h'.next := lt_of_lt_of_le (hh.definition_lt hm) hr.next_le
    obtain ⟨m'', hm''⟩ := hh''.definition_of_instanceOf? hi
    obtain ⟨m', hm', -⟩ := hr'.definitions d m'' hd hm''
    have hlast : h''.own? i name = h'.own? i name :=
      hr'.frozen i d name hi (hr.accessorOf? hh ha hm')
    by_cases hlt : i.index < h'.next
    · exact hlast.trans (hr.frozen i d name (hr'.instanceOf? hlt hi) ha)
    · -- The instance was made in the second part.
      have hge : h'.next ≤ i.index := le_of_not_gt hlt
      rw [hlast, hh'.own?_of_le hge, hh.own?_of_le (le_trans hr.next_le hge)]
  forwarding := hr'.forwarding ∘ hr.forwarding

theorem Evolves.refl (h : Heap) : h.Evolves h := fun hh => ⟨hh, .refl h⟩

theorem Evolves.trans (e : h.Evolves h') (e' : h'.Evolves h'') : h.Evolves h'' := by
  intro hh
  obtain ⟨hh', hr⟩ := e hh
  obtain ⟨hh'', hr'⟩ := e' hh'
  exact ⟨hh'', hr.trans hh hh' hh'' hr'⟩

end Retains

/-! ## New, dropped and rewritten cells -/

section Evolves

/-- A new cell changes nothing of the members, if a class or an instance that it is has its
definition and no properties, and a definition that it is has no methods. -/
theorem evolves_alloc (hc : h.Grounded → ∀ o d, c = .object o → o.kind.definition? = some d →
      (∃ m, h.definition? d = some m) ∧ o.properties = {})
    (hm : ∀ m, c = .definition m → m.methods = {}) : h.Evolves (h.alloc c).2 := by
  intro hh
  have hid : (h.alloc c).1 = ⟨h.next⟩ := rfl
  have hobject : ∀ i o', (h.alloc c).2.object? i = some o' →
      (i = ⟨h.next⟩ ∧ c = .object o') ∨ (i.index < h.next ∧ h.object? i = some o') := by
    intro i o' ho'
    rw [object?_eq_some_iff, cell?_alloc, hid] at ho'
    split_ifs at ho' with hi
    · exact .inl ⟨hi, Option.some.inj ho'⟩
    · exact .inr ⟨hh.lt_next i _ ho', object?_eq_some_iff.2 ho'⟩
  refine ⟨?grounded, ?retains⟩
  case grounded =>
    refine ⟨OrderedMap.nodup_keys_insert hh.nodup _ _, fun i c' hc' => ?_, fun i o' d ho' hd => ?_⟩
    · rw [cell?_alloc, hid] at hc'
      split_ifs at hc' with hi
      · exact hi ▸ Nat.lt_succ_self _
      · exact lt_trans (hh.lt_next i c' hc') (Nat.lt_succ_self _)
    · rcases hobject i o' ho' with ⟨-, he⟩ | ⟨-, ho⟩
      · obtain ⟨⟨m, hm⟩, -⟩ := hc hh o' d he hd
        exact ⟨m, hh.definition?_alloc hm c⟩
      · obtain ⟨m, hm⟩ := hh.definition i o' d ho hd
        exact ⟨m, hh.definition?_alloc hm c⟩
  case retains =>
    refine ⟨Nat.le_succ _, fun i o' hi ho' => ?_, fun d m' hd hm' => ?_, fun i d name hi _ => ?_,
      fun hforward d m' name f hd hf => ?_⟩
    · rw [object?_eq_some_iff, cell?_alloc_of_lt hi, ← object?_eq_some_iff] at ho'
      exact ⟨o', ho', rfl, fun _ hp => hp⟩
    · rw [definition?_eq_some_iff, cell?_alloc_of_lt hd, ← definition?_eq_some_iff] at hm'
      exact ⟨m', hm', fun _ ha => ha⟩
    · -- an instance that is new has no properties, as its identity had none
      obtain ⟨o', k, ho', hk⟩ := instanceOf?_eq_some_iff.1 hi
      rw [own?_of_object? ho']
      rcases hobject i o' ho' with ⟨rfl, he⟩ | ⟨-, ho⟩
      · rw [(hc hh o' d he (by rw [hk]; rfl)).2, hh.own?_of_le le_rfl]
        rfl
      · exact (own?_of_object? ho name).symm
    · rw [definition?_eq_some_iff, cell?_alloc, hid] at hd
      split_ifs at hd with hnew
      · rw [hm m' (Option.some.inj hd)] at hf
        cases hf
      · have hold := hforward d m' name f (definition?_eq_some_iff.2 hd) hf
        refine hold.of_objects (Nat.le_succ _) fun o' ho' => ?_
        rw [object?_eq_some_iff, cell?_alloc_of_lt hold.1, ← object?_eq_some_iff] at ho'
        exact ⟨o', ho', rfl⟩

/-- What is dropped takes no members from what is left. -/
theorem evolves_reclaim (roots : List HostId) : h.Evolves (h.reclaim roots) := by
  intro hh
  have hobject : ∀ i o', (h.reclaim roots).object? i = some o' → h.object? i = some o' :=
    fun i o' ho' => object?_eq_some_iff.2 (cell?_of_reclaim hh.nodup (object?_eq_some_iff.1 ho'))
  have hdefinition : ∀ d m', (h.reclaim roots).definition? d = some m' → h.definition? d = some m' :=
    fun d m' hm' =>
      definition?_eq_some_iff.2 (cell?_of_reclaim hh.nodup (definition?_eq_some_iff.1 hm'))
  refine ⟨?grounded, ?retains⟩
  case grounded =>
    refine ⟨nodup_reclaim hh.nodup roots,
      fun i c' hc' => hh.lt_next i c' (cell?_of_reclaim hh.nodup hc'), fun i o' d ho' hd => ?_⟩
    -- A class or an instance that is left holds its definition.
    obtain ⟨m, hm⟩ := hh.definition i o' d (hobject i o' ho') hd
    have hholds : d ∈ (Cell.object o').holds :=
      List.mem_append_left _ (ObjectKind.mem_holds_of_definition? hd)
    have hheld : ∃ j c', (h.reclaim roots).cell? j = some c' ∧ d ∈ c'.holds :=
      ⟨i, _, object?_eq_some_iff.1 ho', hholds⟩
    refine ⟨m, definition?_eq_some_iff.2 ((cell?_reclaim_iff hh.nodup).2 ⟨?_, .inr hheld⟩)⟩
    exact definition?_eq_some_iff.1 hm
  case retains =>
    refine ⟨le_rfl, fun i o' _ ho' => ⟨o', hobject i o' ho', rfl, fun _ hp => hp⟩,
      fun d m' _ hm' => ⟨m', hdefinition d m' hm', fun _ ha => ha⟩, fun i d name hi _ => ?_,
      fun hforward d m' name f hd hf => ?_⟩
    · obtain ⟨o', k, ho', -⟩ := instanceOf?_eq_some_iff.1 hi
      rw [own?_of_object? ho', own?_of_object? (hobject i o' ho')]
    · refine (hforward d m' name f (hdefinition d m' hd) hf).of_objects le_rfl fun o' ho' => ?_
      exact ⟨o', hobject f o' ho', rfl⟩

/-- An object is rewritten: it stays what it is, keeps its properties, and where its class has an
accessor, they stay as they are. -/
theorem evolves_setObject {o' : HostObject} (ho : h.object? i = some o) (hk : o'.kind = o.kind)
    (hp : ∀ name, (o.properties.find? name).isSome → (o'.properties.find? name).isSome)
    (hf : ∀ d name, h.instanceOf? i = some d → (h.accessorOf? d name).isSome →
      o'.properties.find? name = o.properties.find? name) :
    h.Evolves (h.setCell i (.object o')) := by
  intro hh
  have hobject : ∀ j o₁, (h.setCell i (.object o')).object? j = some o₁ →
      (j = i ∧ o₁ = o') ∨ h.object? j = some o₁ := by
    intro j o₁ ho₁
    rw [object?_setCell] at ho₁
    split_ifs at ho₁ with hj
    · exact .inl ⟨hj, (Option.some.inj ho₁).symm⟩
    · exact .inr ho₁
  refine ⟨?grounded, ?retains⟩
  case grounded =>
    refine ⟨OrderedMap.nodup_keys_insert hh.nodup _ _, fun j c' hc' => ?_, fun j o₁ d ho₁ hd => ?_⟩
    · rw [cell?_setCell] at hc'
      split_ifs at hc' with hj
      · rw [hj]
        exact hh.object_lt ho
      · exact hh.lt_next j c' hc'
    · rw [definition?_setObject ho]
      rcases hobject j o₁ ho₁ with ⟨-, rfl⟩ | ho₁
      · exact hh.definition i o d ho (hk ▸ hd)
      · exact hh.definition j o₁ d ho₁ hd
  case retains =>
    -- nothing else changes: an object there afterwards was there with its kind and its properties
    have hkept : ∀ j o₁, (h.setCell i (.object o')).object? j = some o₁ →
        ∃ o, h.object? j = some o ∧ o.kind = o₁.kind ∧
          ∀ name, (o.properties.find? name).isSome → (o₁.properties.find? name).isSome := by
      intro j o₁ ho₁
      rcases hobject j o₁ ho₁ with ⟨rfl, rfl⟩ | ho₁
      · exact ⟨o, ho, hk.symm, hp⟩
      · exact ⟨o₁, ho₁, rfl, fun _ hx => hx⟩
    refine ⟨le_rfl, fun j o₁ _ ho₁ => hkept j o₁ ho₁, fun d m' _ hm' => ⟨m', ?_, fun _ ha => ha⟩,
      fun j d name hj ha => ?_, fun hforward d m' name f hd hf => ?_⟩
    · rwa [definition?_setObject ho] at hm'
    · obtain ⟨o₁, k, ho₁, hkind⟩ := instanceOf?_eq_some_iff.1 hj
      rw [own?_of_object? ho₁]
      rcases hobject j o₁ ho₁ with ⟨rfl, rfl⟩ | ho₁
      · rw [own?_of_object? ho]
        exact hf d name (instanceOf?_eq_some_iff.2 ⟨o, k, ho, hk ▸ hkind⟩) ha
      · exact (own?_of_object? ho₁ name).symm
    · rw [definition?_setObject ho] at hd
      refine (hforward d m' name f hd hf).of_objects le_rfl fun o₁ ho₁ => ?_
      obtain ⟨o, ho, hkind, -⟩ := hkept f o₁ ho₁
      exact ⟨o, ho, hkind⟩

/-- A property is written that the class of the object, if it is an instance, has no accessor
for. -/
theorem evolves_write (ho : h.object? i = some o) (ha : h.accessor? i name = none) (v : HostValue) :
    h.Evolves (h.setCell i (.object { o with properties := o.properties.insert name v })) := by
  refine evolves_setObject ho rfl (fun p hp => ?_) fun d p hd hp => ?_
  · rw [OrderedMap.find?_insert]
    split_ifs
    · rfl
    · exact hp
  · refine OrderedMap.find?_insert_of_ne _ ?_ v
    rintro rfl
    rw [accessor?, hd, Option.bind_some] at ha
    rw [ha] at hp
    cases hp

/-- A definition is rewritten: it keeps its accessors, and new methods pass on to the guest. -/
theorem evolves_setDefinition {m' : ClassDefinition} (hm : h.definition? d = some m)
    (hk : ∀ name, (m.accessors.find? name).isSome → (m'.accessors.find? name).isSome)
    (hn : ∀ name f, m'.methods.find? name = some f →
      m.methods.find? name = some f ∨ h.Forwards f) :
    h.Evolves (h.setCell d (.definition m')) := by
  intro hh
  refine ⟨?grounded, ?retains⟩
  case grounded =>
    refine ⟨OrderedMap.nodup_keys_insert hh.nodup _ _, fun j c' hc' => ?_, fun j o e ho he => ?_⟩
    · rw [cell?_setCell] at hc'
      split_ifs at hc' with hj
      · rw [hj]
        exact hh.definition_lt hm
      · exact hh.lt_next j c' hc'
    · rw [object?_setDefinition hm] at ho
      rw [definition?_setDefinition]
      split_ifs
      · exact ⟨m', rfl⟩
      · exact hh.definition j o e ho he
  case retains =>
    refine ⟨le_rfl, fun j o' _ ho' => ?_, fun e m₁ _ hm₁ => ?_, fun j e name _ _ => ?_,
      fun hforward e m₁ name f he hf => ?_⟩
    · rw [object?_setDefinition hm] at ho'
      exact ⟨o', ho', rfl, fun _ hp => hp⟩
    · rw [definition?_setDefinition] at hm₁
      split_ifs at hm₁ with he
      · cases hm₁
        exact ⟨m, he ▸ hm, hk⟩
      · exact ⟨m₁, hm₁, fun _ ha => ha⟩
    · rw [Heap.own?, Heap.own?, object?_setDefinition hm]
    -- a method of the definition was there before, or passes on by assumption
    · have hold : h.Forwards f := by
        rw [definition?_setDefinition] at he
        split_ifs at he with hed
        · cases he
          exact (hn name f hf).elim (hforward d m name f hm) id
        · exact hforward e m₁ name f he hf
      refine hold.of_objects le_rfl fun o' ho' => ?_
      rw [object?_setDefinition hm] at ho'
      exact ⟨o', ho', rfl⟩

end Evolves

end Heap

end GuestBridge
