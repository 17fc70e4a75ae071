import GuestBridge.Proofs.Leads

/-!
# Making values

Cells, guest objects and the values of descriptions are made by quiet moves, and the
heap backs what is made. Guest strings and arrays are filled by moves that touch no
wrapper.

* `HostExpr.read_quiet`, `GuestExpr.read_quiet`: **the heap backs the value of a
  description.**
* `BridgeM.withdrawn`: reading leaves the context alone, and how the guest behaves.
* `tryGuest_leads`: what the exports for strings and arrays do to the state.
-/

namespace GuestBridge

namespace BridgeM

variable {held : List HostId} {ℓ : Level} {w : World} {α : Type} {act : BridgeM α}
  {P : α → World → Prop}

/-- Quiet moves can be made by any call. -/
theorem Leads.of_quiet (h : Leads (Reaches .quiet held) held w act P) :
    Leads (Reaches ℓ held) held w act P :=
  h.mono fun _ => Reaches.of_quiet

/-- Quiet moves, which are told of as well. -/
theorem Leads.quietly (h : Leads (Reaches .quiet held) held w act P) :
    Leads (Reaches ℓ held) held w act fun a w' => Reaches .quiet held w w' ∧ P a w' :=
  (h.imp fun _ _ hr hp => ⟨hr, hp⟩).of_quiet

/-- A single move. -/
theorem Leads.modify {R : World → World → Prop} {f : World → World} {P : Unit → World → Prop}
    (hr : R w (f w)) (hp : P () (f w)) : Leads R held w (modify f) P := ⟨hr, hp⟩

/-! ## Cells -/

/-- A cell is new, so it is what its number stands for. -/
theorem allocCell_leads {c : Cell} (parts : ∀ p ∈ c.parts, w.heap.Backs p)
    (weakLinks : ∀ r ∈ c.weakLinks, w.heap.Knows r) (plain : c.handle? = none) :
    Leads (Reaches ℓ held) held w (allocCell c) fun i w' => w'.heap.cell? i = some c := by
  have hmake : Quiet w { w with heap := (w.heap.alloc c).2 } := .make parts weakLinks plain
  exact Leads.of_ok rfl (Reaches.quiet hmake) (OrderedMap.find?_insert_self ..)

theorem allocObject_leads {k : ObjectKind} {properties : OrderedMap String HostValue}
    (parts : ∀ p ∈ k.parts, w.heap.Backs p)
    (values : ∀ v ∈ properties.values, w.heap.Backs (.value v))
    (weakLinks : ∀ r ∈ k.weakLinks, w.heap.Knows r)
    (plain : (Cell.object { kind := k, properties }).handle? = none) :
    Leads (Reaches ℓ held) held w (allocObject k properties) fun i w' =>
      w'.heap.Backs (.value (.object i)) := by
  refine Leads.imp (allocCell_leads (fun p hp => ?_) (fun r hr => ?_) plain)
    fun i w' _ hi => ⟨_, hi⟩
  · simp only [Cell.parts, List.mem_append, List.mem_map] at hp
    rcases hp with hp | ⟨v, hv, rfl⟩
    · exact parts p hp
    · exact values v hv
  · simp only [Cell.weakLinks, OrderedMap.values, List.map_nil, List.append_nil] at hr
    exact weakLinks r hr

theorem allocString_leads (text : String) :
    Leads (Reaches ℓ held) held w (allocString text) fun v w' => w'.heap.Backs (.value v) :=
  (allocCell_leads (by simp [Cell.parts]) (by simp [Cell.weakLinks]) rfl).bind
    fun _ _ _ hi => Leads.pure hi

theorem allocSymbol_leads (description : Option String) :
    Leads (Reaches ℓ held) held w (allocSymbol description) fun v w' =>
      w'.heap.Backs (.value v) :=
  (allocCell_leads (by simp [Cell.parts]) (by simp [Cell.weakLinks]) rfl).bind
    fun _ _ _ hi => Leads.pure hi

/-- A class is a constructor and a definition; the definition is made first. -/
theorem synthesizeClass_leads (name : String) :
    Leads (Reaches ℓ held) held w (synthesizeClass name) fun i w' =>
      w'.heap.Backs (.value (.object i)) := by
  refine (allocCell_leads ?_ ?_ rfl).bind fun d w' _ hd => ?_
  · simp [Cell.parts, OrderedMap.values]
  · simp [Cell.weakLinks]
  · refine allocObject_leads ?_ (by simp [OrderedMap.values]) (by simp [ObjectKind.weakLinks]) rfl
    intro p hp
    obtain rfl := List.mem_singleton.1 hp
    exact ⟨_, hd⟩

/-! ## Guest objects -/

/-- A new guest object; the handle is the one that the table gives. -/
theorem changeGuest_alloc_leads {o : GuestObject} (parts : ∀ p ∈ o.parts, w.heap.Backs p) :
    Leads (Reaches ℓ held) held w (changeGuest fun g => g.alloc o) fun h w' =>
      ∃ g, w.guest = some g ∧ h = (g.alloc o).1 ∧ w' = { w with guest := some (g.alloc o).2 } := by
  refine Leads.guest fun g hg => ?_
  exact ⟨.quiet (.alloc hg parts), g, hg, rfl, rfl⟩

/-! ## Values from descriptions -/

/-- A variable that is not bound is undefined. -/
theorem variableValue_leads (hw : w.OK held) (name : String) :
    Leads (Reaches ℓ held) held w (variableValue name) fun v w' =>
      ∀ p ∈ v.parts, w'.heap.Backs p := by
  refine Leads.of_ok (a := (w.bindings.find? name).getD (.external .undefined)) rfl .refl ?_
  cases hf : w.bindings.find? name with
  | none => simp [GuestValue.parts, Heap.Backs]
  | some v => exact hw.bindings v (OrderedMap.mem_values_of_find? hf)

/-- A guest value shows itself if it is a host value, and else a value without a cell. -/
theorem Backs_shown {h : Heap} {v : GuestValue} (hv : ∀ p ∈ v.parts, h.Backs p) :
    h.Backs (.value v.shown) := by
  cases v with
  | external v => exact hv _ (List.mem_singleton_self _)
  | ref k => cases k <;> trivial
  | _ => trivial

end BridgeM

open BridgeM

section Read

variable {held : List HostId} {w : World}

mutual

/-- **The heap backs the value of a description.** -/
theorem HostExpr.read_quiet : ∀ (e : HostExpr) {w : World}, w.OK held →
    Leads (Reaches .quiet held) held w e.read fun v w' => w'.heap.Backs (.value v)
  | .undefined, _, _ | .null, _, _ | .bool _, _, _ | .number _, _, _ | .bigint _, _, _ =>
    Leads.pure trivial
  | .string s, _, _ => allocString_leads s
  | .symbol d, _, _ => allocSymbol_leads d
  | .object fields, w, hw => by
    rw [HostExpr.read]
    refine (readFields_quiet fields hw).bind fun properties w' _ hp => ?_
    refine Leads.bind (allocObject_leads ?_ ?_ ?_ rfl) fun _ _ _ hi => Leads.pure hi
    · simp [ObjectKind.parts]
    · intro v hv
      obtain ⟨k, hk⟩ := OrderedMap.mem_values_ofList hv
      exact hp _ hk
    · simp [ObjectKind.weakLinks]
  | .function name body, w, hw => by
    rw [HostExpr.read]
    refine (readBody_quiet body hw).bind fun b w' _ hb => ?_
    refine Leads.bind (allocObject_leads ?_ ?_ ?_ rfl) fun _ _ _ hi => Leads.pure hi
    · simpa [ObjectKind.parts, Behaviour.parts] using hb
    · simp [OrderedMap.values]
    · simp [ObjectKind.weakLinks]
  | .constructor name call construct, w, hw => by
    rw [HostExpr.read]
    refine (readBody_quiet call hw).bind fun b w' hr hb => ?_
    refine (readBody_quiet construct (hr.ok hw)).bind fun c w'' hr' hc => ?_
    refine Leads.bind (allocObject_leads ?_ ?_ ?_ rfl) fun _ _ _ hi => Leads.pure hi
    · -- the first body has been read before the second, and is still backed after it
      intro p hp
      rcases List.mem_append.1 hp with hp | hp
      · exact hr'.backs_of_quiet (hr.ok hw) (hb p hp)
      · exact hc p hp
    · simp [OrderedMap.values]
    · simp [ObjectKind.weakLinks]
  | .class name, _, _ => (synthesizeClass_leads name).bind fun _ _ _ hi => Leads.pure hi
  | .variable name, _, hw =>
    (variableValue_leads hw name).bind fun _ _ _ hv => Leads.pure (Backs_shown hv)

/-- A value that has been made stays while those of the fields behind it are made. -/
theorem readFields_quiet : ∀ (fields : List (String × HostExpr)) {w : World}, w.OK held →
    Leads (Reaches .quiet held) held w (readFields fields) fun ps w' =>
      ∀ p ∈ ps, w'.heap.Backs (.value p.2)
  | [], _, _ => Leads.pure (by simp)
  | field :: fields, w, hw => by
    rw [readFields]
    refine (readField_quiet field hw).bind fun p w' hr hp => ?_
    refine (readFields_quiet fields (hr.ok hw)).bind fun ps w'' hr' hps => ?_
    refine Leads.pure fun q hq => ?_
    rcases List.mem_cons.1 hq with rfl | hq
    · exact hr'.backs_of_quiet (hr.ok hw) hp
    · exact hps q hq

theorem readField_quiet : ∀ (field : String × HostExpr) {w : World}, w.OK held →
    Leads (Reaches .quiet held) held w (readField field) fun p w' => w'.heap.Backs (.value p.2)
  | (_, e), _, hw => (HostExpr.read_quiet e hw).bind fun _ _ _ hv => Leads.pure hv

/-- Of bodies only a constant has a value in it. -/
theorem readBody_quiet : ∀ (body : Body HostExpr GuestExpr) {w : World}, w.OK held →
    Leads (Reaches .quiet held) held w (readBody body) fun b w' => ∀ p ∈ b.parts, w'.heap.Backs p
  | .const e, _, hw => (HostExpr.read_quiet e hw).bind fun _ _ _ hv =>
    Leads.pure (by simpa [Body.parts] using hv)
  | .undefined, _, _ | .this, _, _ | .argument _, _, _ | .argumentCount, _, _ | .join, _, _
  | .sum, _, _ | .fail _, _, _ | .get _, _, _ | .make _, _, _ | .load _, _, _ | .save _, _, _
  | .apply, _, _ | .callImport _ _, _, _ => Leads.pure (by simp [Body.parts])

end

/-- **The heap backs the guest value of a description.** -/
theorem GuestExpr.read_quiet (e : GuestExpr) (hw : w.OK held) :
    Leads (Reaches .quiet held) held w e.read fun v w' => ∀ p ∈ v.parts, w'.heap.Backs p := by
  cases e with
  | external e =>
    exact (HostExpr.read_quiet e hw).bind fun _ _ _ hv =>
      Leads.pure (by simpa [GuestValue.parts] using hv)
  | entry name body =>
    exact (readBody_quiet body hw).bind fun _ _ _ hb => Leads.pure hb
  | «variable» name => exact variableValue_leads hw name
  | text s =>
    exact (changeGuest_alloc_leads (by simp [GuestObject.parts])).bind fun _ _ _ _ =>
      Leads.pure (by simp [GuestValue.parts])
  | _ => exact Leads.pure (by simp [GuestValue.parts])

/-- Descriptions read one after the other. -/
theorem mapM_read_quiet (hw : w.OK held) (es : List GuestExpr) :
    Leads (Reaches .quiet held) held w (es.mapM GuestExpr.read) fun vs w' =>
      ∀ v ∈ vs, ∀ p ∈ v.parts, w'.heap.Backs p :=
  (Leads.mapM (I := World.OK held) hw
    (fun e _ _ hw => (GuestExpr.read_quiet e hw).imp fun _ _ hr hv => ⟨hr.ok hw, hv⟩)
    fun _ _ _ hw hr hv p hp => hr.backs_of_quiet hw (hv p hp)).imp fun _ _ _ h => h.2

theorem mapM_hostRead_quiet (hw : w.OK held) (es : List HostExpr) :
    Leads (Reaches .quiet held) held w (es.mapM HostExpr.read) fun vs w' =>
      ∀ v ∈ vs, w'.heap.Backs (.value v) :=
  (Leads.mapM (I := World.OK held) hw
    (fun e _ _ hw => (HostExpr.read_quiet e hw).imp fun _ _ hr hv => ⟨hr.ok hw, hv⟩)
    fun _ _ _ hw hr hv => hr.backs_of_quiet hw hv).imp fun _ _ _ h => h.2

/-- A description that may be left out. -/
theorem option_mapM_read_quiet (hw : w.OK held) (e : Option GuestExpr) :
    Leads (Reaches .quiet held) held w (e.mapM GuestExpr.read) fun v w' =>
      ∀ t, v = some t → ∀ p ∈ t.parts, w'.heap.Backs p := by
  cases e with
  | none => exact Leads.pure nofun
  | some e =>
    exact (GuestExpr.read_quiet e hw).map fun _ _ _ hv _ he => Option.some.inj he ▸ hv

end Read

/-! ## What reading leaves alone -/

/-- The context is as it was, and the guest behaves as it did. -/
structure World.Untouched (w w' : World) : Prop where
  context : w'.context = w.context
  mode : w'.guest.map Guest.mode = w.guest.map Guest.mode

instance : IsPreorder World World.Untouched where
  refl _ := ⟨rfl, rfl⟩
  trans _ _ _ h h' := ⟨h'.context.trans h.context, h'.mode.trans h.mode⟩

section Untouched

variable {α β : Type} {act : BridgeM α} {f : α → BridgeM β}

/-- The action leaves the context and the behaviour of the guest alone, in every state. -/
def BridgeM.Withdrawn (act : BridgeM α) : Prop :=
  ∀ held w, BridgeM.Leads World.Untouched held w act fun _ _ => True

/-- What changes nothing leaves context and guest alone. -/
theorem BridgeM.Observes.withdrawn (h : BridgeM.Observes act) : BridgeM.Withdrawn act :=
  fun _ _ => h.leads.imp fun _ _ _ _ => trivial

theorem BridgeM.Withdrawn.bind (h : BridgeM.Withdrawn act) (hf : ∀ a, BridgeM.Withdrawn (f a)) :
    BridgeM.Withdrawn (act >>= f) :=
  fun held w => (h held w).bind fun a w' _ _ => hf a held w'

theorem BridgeM.Withdrawn.pure (a : α) : BridgeM.Withdrawn (pure a : BridgeM α) :=
  (BridgeM.Observes.pure a).withdrawn

theorem BridgeM.allocCell_withdrawn (c : Cell) : BridgeM.Withdrawn (allocCell c) :=
  fun _ _ => Leads.of_ok rfl ⟨rfl, rfl⟩ trivial

/-- Reading leaves context and guest alone. -/
theorem BridgeM.withdrawn : Congruence.Reading fun act _ => BridgeM.Withdrawn act where
  pure := BridgeM.Withdrawn.pure
  throw e := (BridgeM.Observes.throw e).withdrawn
  get := BridgeM.Observes.get.withdrawn
  bind := BridgeM.Withdrawn.bind
  holding h ids held w := h (ids ++ held) w
  allocString _ := (allocCell_withdrawn _).bind fun _ => .pure _
  allocSymbol _ := (allocCell_withdrawn _).bind fun _ => .pure _
  allocObject _ _ := allocCell_withdrawn _
  synthesizeClass _ := (allocCell_withdrawn _).bind fun _ => allocCell_withdrawn _
  allocGuestString _ _ _ := Leads.guest fun g hg => ⟨⟨rfl, by rw [hg]; rfl⟩, trivial⟩

end Untouched

/-! ## The exports for strings and arrays -/

/-- Where two steps succeed the first one has. -/
theorem exists_of_bind_eq_ok {ε α β : Type} {x : Except ε α} {f : α → Except ε β} {b : β}
    (h : (x >>= f) = .ok b) : ∃ a, x = .ok a ∧ f a = .ok b := by
  cases x with
  | ok a => exact ⟨a, rfl, h⟩
  | error e => cases h

namespace Guest

variable {g g' g'' : Guest} {h : Handle}

/-- One thing that a guest does for itself: it makes an object that is no wrapper, or replaces
one. -/
inductive Edit (g : Guest) : Guest → Prop
  | alloc {o : GuestObject} (plain : o.parts = []) : Edit g (g.alloc o).2
  | write {h : Handle} {o o₀ : GuestObject} (old : g.heap.get? h = some o₀) (plain : o.parts = [])
      (plain₀ : o₀.parts = []) : Edit g { g with heap := g.heap.set h o }

/-- What a guest does for itself. -/
abbrev Edits : Guest → Guest → Prop := Relation.ReflTransGen Edit

theorem object_ok {o : GuestObject} (ho : g.object h = .ok o) : g.heap.get? h = some o := by
  unfold object at ho
  cases hg : g.heap.get? h with
  | none => simp [hg] at ho
  | some o' => simpa [hg] using ho

theorem edits_alloc {o : GuestObject} (plain : o.parts = []) : Edits g (g.alloc o).2 :=
  .single (.alloc plain)

/-- A builder is replaced by a longer one; nothing else takes a unit. -/
theorem appendChar_edits {code : Int32} (h' : g.appendChar h code = .ok g') : Edits g g' := by
  unfold appendChar at h'
  obtain ⟨o, ho, h'⟩ := exists_of_bind_eq_ok h'
  cases o with
  | builder us =>
    obtain rfl := Except.ok.inj h'
    exact .single (.write (object_ok ho) rfl rfl)
  | _ => cases h'

/-- The builder stays beside the string that is made of it. -/
theorem buildString_edits {k : Handle} (h' : g.buildString h = .ok (k, g')) : Edits g g' := by
  unfold buildString at h'
  obtain ⟨o, ho, h'⟩ := exists_of_bind_eq_ok h'
  cases o with
  | builder us => cases h'; exact edits_alloc rfl
  | _ => cases h'

theorem createStringArray_edits {n : Int32} (h' : g.createStringArray n = .ok (h, g')) :
    Edits g g' := by
  unfold createStringArray at h'
  split at h'
  · cases h'
  · cases h'; exact edits_alloc rfl

/-- A slot of an array is filled with a string. -/
theorem setToStringArray_edits {array value : Handle} {i : Int32}
    (h' : g.setToStringArray array i value = .ok g') : Edits g g' := by
  unfold setToStringArray at h'
  -- the value is looked at before the array
  obtain ⟨o, ho, h'⟩ := exists_of_bind_eq_ok h'
  cases o with
  | string us =>
    obtain ⟨o', ho', h'⟩ := exists_of_bind_eq_ok h'
    cases o' with
    | stringArray items =>
      simp only at h'
      split at h'
      · cases h'; exact .single (.write (object_ok ho') rfl rfl)
      · cases h'
    | _ => cases h'
  | _ => cases h'

theorem appendUnits_edits {units : List UInt16} (h' : g.appendUnits h units = .ok g') :
    Edits g g' := by
  unfold appendUnits at h'
  induction units generalizing g with
  | nil => cases h'; exact .refl
  | cons u us ih =>
    rw [List.foldlM_cons] at h'
    obtain ⟨g₁, h₁, h'⟩ := exists_of_bind_eq_ok h'
    exact (appendChar_edits h₁).trans (ih h')

theorem makeString_edits {text : String} (h' : g.makeString text = .ok (h, g')) : Edits g g' := by
  unfold makeString at h'
  obtain ⟨g₁, h₁, h'⟩ := exists_of_bind_eq_ok h'
  exact ((edits_alloc rfl).trans (appendUnits_edits h₁)).trans (buildString_edits h')

/-- Each text is made into a string, and then put into its slot. -/
theorem fillStringArray_edits {array : Handle} {i : Nat} {texts : List String}
    (h' : g.fillStringArray array i texts = .ok g') : Edits g g' := by
  induction texts generalizing g i with
  | nil => cases h'; exact .refl
  | cons t ts ih =>
    rw [fillStringArray] at h'
    obtain ⟨⟨k, g₁⟩, h₁, h'⟩ := exists_of_bind_eq_ok h'
    obtain ⟨g₂, h₂, h'⟩ := exists_of_bind_eq_ok h'
    exact ((makeString_edits h₁).trans (setToStringArray_edits h₂)).trans (ih h')

theorem makeStringArray_edits {texts : List String} (h' : g.makeStringArray texts = .ok (h, g')) :
    Edits g g' := by
  unfold makeStringArray at h'
  split at h'
  · obtain ⟨⟨k, g₁⟩, h₁, h'⟩ := exists_of_bind_eq_ok h'
    obtain ⟨g₂, h₂, h'⟩ := exists_of_bind_eq_ok h'
    cases h'
    exact (createStringArray_edits h₁).trans (fillStringArray_edits h₂)
  · cases h'

end Guest

section Edits

variable {held : List HostId} {w : World} {g g' : Guest} {α : Type}

/-- An object that is no wrapper has no parts, so the heap need not back any. -/
theorem Guest.Edits.reaches (he : g.Edits g') (hg : w.guest = some g) :
    Reaches .outer held w { w with guest := some g' } := by
  induction he with
  | refl => rw [show { w with guest := some g } = w from by rw [← hg]]
  | @tail g₁ g₂ _ e ih =>
    refine ih.tail ?_
    cases e with
    | alloc plain => exact .quiet (.alloc rfl (by simp [plain]))
    | write old plain plain₀ => exact .outer (.write rfl old plain plain₀)

/-- **What the guest does for itself is made of moves.** -/
theorem BridgeM.tryGuest_leads {f : Guest → Except BridgeError (α × Guest)}
    (hf : ∀ g a g', f g = .ok (a, g') → g.Edits g') :
    Leads (Reaches .outer held) held w (tryGuest f) fun _ _ => True := by
  refine Leads.askGuest fun g a hg ha => ?_
  obtain ⟨a, g'⟩ := a
  exact ⟨(hf g a g' ha).reaches hg, trivial⟩

end Edits

end GuestBridge
