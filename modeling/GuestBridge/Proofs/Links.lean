import GuestBridge.Proofs.Move

/-!
# Links agree with each other

The registry leads from host values to handles and back; wrapper instances lead to
handles by themselves, and the guest's wrappers hold the values that they were made
for. `Links` says how these agree about the handles that are live. No handle is issued
twice while the guest's table is in range, so what is said of a dead handle's links
does not matter, and never will again.

* `Links.withHeap`, `Links.withTable`, `Links.record`, `Links.stand`, `Links.sweep`: the
  links agree after each kind of change.
* `Reaches.linked`: **they agree after any number of moves.**
* `Reaches.backlink`: **a link stays as it is** while the guest object and the host value
  are there.
-/

namespace GuestBridge

/-- How the links of a registry agree with the wrapper instances of a heap and with the guest
objects of a table. -/
structure Links (r : Registry) (h : Heap) (t : HandleTable GuestObject) : Prop where
  /-- The guest object made for an object or a symbol holds it, and its handle leads back. -/
  host : ∀ i k, r.hostLinks.find? i = some k → t.isLive k → ∃ x : Referent, x.id = i ∧
    x.toValue.identity? = some x ∧ x.toValue.object?.bind h.wrappedHandle? = none ∧
    r.guestLinks.find? k = some (.weak x) ∧ t.get? k = some (.wrapper x.toValue)
  /-- The guest object made for a primitive holds one of that content, and its handle leads back
  to the one that it holds. -/
  primitive : ∀ key l, r.primitives.find? key = some l → t.isLive l.handle → ∃ v,
    PrimitiveKey.of? v = some key ∧ r.guestLinks.find? l.handle = some (.primitive v) ∧
    t.get? l.handle = some (.wrapper v)
  /-- What a handle leads back to leads to the handle, while it is alive. -/
  weak : ∀ k x, r.guestLinks.find? k = some (.weak x) → t.isLive k → h.isAlive x.id →
    x.toValue.object?.bind h.wrappedHandle? = some k ∨
      x.toValue.identity? = some x ∧ x.toValue.object?.bind h.wrappedHandle? = none ∧
        r.hostLinks.find? x.id = some k
  primitive_back : ∀ k v, r.guestLinks.find? k = some (.primitive v) → t.isLive k →
    ∃ key l, PrimitiveKey.of? v = some key ∧ r.primitives.find? key = some l ∧ l.handle = k
  /-- A wrapper instance is what its handle leads back to. -/
  wrapped : ∀ i k, h.wrappedHandle? i = some k → t.isLive k →
    r.guestLinks.find? k = some (.weak (.object i))
  /-- A content is stored with a value of that content. -/
  keys : ∀ key l, r.primitives.find? key = some l → PrimitiveKey.of? l.key = some key
  issued_host : ∀ i k, r.hostLinks.find? i = some k → t.Issued k
  issued_primitive : ∀ key l, r.primitives.find? key = some l → t.Issued l.handle
  issued_guest : ∀ k b, r.guestLinks.find? k = some b → t.Issued k
  issued_wrapped : ∀ i k, h.wrappedHandle? i = some k → t.Issued k

/-- The links agree, if the guest's table is in range. -/
def World.Linked (w : World) : Prop :=
  ∀ g, w.guest = some g → g.heap.InRange → Links w.context.registry w.heap g.heap

/-- What stays of a guest's objects while its table is in range: no handle is issued twice, and
wrappers are not changed. -/
structure Guest.Later (g g' : Guest) : Prop where
  inRange : g.heap.InRange
  issued : ∀ k, g.heap.Issued k → g'.heap.Issued k
  live : ∀ k, g.heap.Issued k → g'.heap.isLive k → g.heap.isLive k
  wrapper : ∀ k v, g.heap.Issued k → g'.heap.isLive k →
    (g.heap.get? k = some (.wrapper v) ↔ g'.heap.get? k = some (.wrapper v))

variable {r : Registry} {h h' : Heap} {t t' : HandleTable GuestObject} {g g' g'' : Guest}
  {held : List HostId} {ℓ : Level} {w w' w'' : World} {k : Handle} {v : HostValue}

/-! ## Later guests -/

section Guests

theorem Guest.Later.refl (hr : g.heap.InRange) : g.Later g :=
  ⟨hr, fun _ => id, fun _ _ => id, fun _ _ _ _ => Iff.rfl⟩

theorem Guest.Later.trans (h1 : g.Later g') (h2 : g'.Later g'') : g.Later g'' where
  inRange := h1.inRange
  issued k hk := h2.issued k (h1.issued k hk)
  live k hk hl := h1.live k hk (h2.live k (h1.issued k hk) hl)
  wrapper k v hk hl :=
    (h1.wrapper k v hk (h2.live k (h1.issued k hk) hl)).trans
      (h2.wrapper k v (h1.issued k hk) hl)

theorem Guest.later_of_same (heap : g'.heap = g.heap) (hr : g'.heap.InRange) : g.Later g' := by
  refine ⟨heap ▸ hr, ?_, ?_, ?_⟩ <;> simp [heap]

theorem Guest.later_alloc (ht : g.heap.OK) (o : GuestObject) (hr : (g.alloc o).2.heap.InRange) :
    g.Later (g.alloc o).2 := by
  have hget := HandleTable.get?_insert ht hr.size_le
  have hnew := HandleTable.not_issued_insert ht hr
  have hne : ∀ k, g.heap.Issued k → k ≠ (g.heap.insert o).1 := fun k hk e => hnew (e ▸ hk)
  refine ⟨HandleTable.InRange.of_insert hr, fun k hk => hk.insert o, fun k hk hl => ?_,
    fun k v hk _ => ?_⟩
  · obtain ⟨x, hx⟩ := HandleTable.isLive_iff.1 hl
    rw [show (g.alloc o).2.heap = (g.heap.insert o).2 from rfl, hget, if_neg (hne k hk)] at hx
    exact HandleTable.isLive_of_get? hx
  · rw [show (g.alloc o).2.heap = (g.heap.insert o).2 from rfl, hget, if_neg (hne k hk)]

theorem Guest.later_set {o o₀ : GuestObject} (old : g.heap.get? k = some o₀) (plain : o.parts = [])
    (plain₀ : o₀.parts = []) (hr : (g.heap.set k o).InRange) :
    g.Later { g with heap := g.heap.set k o } := by
  have hget := HandleTable.get?_set old o
  refine ⟨(HandleTable.inRange_set old o).1 hr, fun j hj => (HandleTable.issued_set old o).2 hj,
    fun j _ hl => ?_, fun j v _ _ => ?_⟩
  · obtain ⟨x, hx⟩ := HandleTable.isLive_iff.1 hl
    rw [hget] at hx
    split_ifs at hx with hj
    · exact HandleTable.isLive_of_get? (hj ▸ old)
    · exact HandleTable.isLive_of_get? hx
  · rw [hget]
    split_ifs with hj
    · -- neither object is a wrapper
      rw [hj, old]
      constructor <;> intro he <;> cases he
      · simp [GuestObject.parts] at plain₀
      · simp [GuestObject.parts] at plain
    · rfl

theorem Guest.later_remove (k : Handle) (hr : (g.heap.remove k).2.InRange) :
    g.Later { g with heap := (g.heap.remove k).2 } := by
  have hget := HandleTable.get?_remove (t := g.heap) k
  refine ⟨(HandleTable.inRange_remove k).1 hr, fun j hj => (HandleTable.issued_remove k).2 hj,
    fun j _ hl => ?_, fun j v _ hl => ?_⟩ <;>
    obtain ⟨x, hx⟩ := HandleTable.isLive_iff.1 hl <;> rw [hget] at hx <;>
    split_ifs at hx with hj
  · exact HandleTable.isLive_of_get? hx
  · rw [hget, if_neg hj]

/-- **A guest after a move is later than the one before**, which was there. -/
theorem Move.guest_later (m : Move held ℓ w w') (hw : w.OK held) (hg' : w'.guest = some g')
    (hr : g'.heap.InRange) : ∃ g, w.guest = some g ∧ g.Later g' := by
  have same : w'.guest = w.guest → ∃ g, w.guest = some g ∧ g.Later g' := fun he =>
    ⟨g', he ▸ hg', .refl hr⟩
  cases m with
  | quiet m =>
    cases m with
    | alloc guest | link guest =>
      obtain rfl := Option.some.inj hg'
      exact ⟨_, guest, Guest.later_alloc (hw.guest _ guest).table _ hr⟩
    | reenter guest =>
      obtain rfl := Option.some.inj hg'
      exact ⟨_, guest, Guest.later_of_same rfl hr⟩
    | _ => exact same rfl
  | cross _ m =>
    cases m with
    | notice guest =>
      obtain rfl := Option.some.inj hg'
      exact ⟨_, guest, Guest.later_of_same rfl hr⟩
    | _ => exact same rfl
  | outer m =>
    cases m with
    | adjust guest heap =>
      obtain rfl := Option.some.inj hg'
      exact ⟨_, guest, Guest.later_of_same heap hr⟩
    | write guest old plain plain₀ =>
      obtain rfl := Option.some.inj hg'
      exact ⟨_, guest, Guest.later_set old plain plain₀ hr⟩
    | free guest =>
      obtain rfl := Option.some.inj hg'
      exact ⟨_, guest, Guest.later_remove _ hr⟩
    | unload => cases hg'
    | _ => exact same rfl

theorem Reaches.guest_later (hr : Reaches ℓ held w w') (hw : w.OK held) (hg' : w'.guest = some g')
    (hin : g'.heap.InRange) : ∃ g, w.guest = some g ∧ g.Later g' := by
  induction hr generalizing g' with
  | refl => exact ⟨g', hg', .refl hin⟩
  | tail hr m ih =>
    obtain ⟨g₁, hg₁, h₁⟩ := m.guest_later (Reaches.ok hr hw) hg' hin
    obtain ⟨g, hg, h⟩ := ih hg₁ h₁.inRange
    exact ⟨g, hg, h.trans h₁⟩

end Guests

/-! ## Changes of the heap and of the table -/

section Changes

theorem Heap.isAlive_of_wrappedHandle? {i : HostId} (hk : h.wrappedHandle? i = some k) :
    h.isAlive i := by
  rw [Heap.wrappedHandle?_eq] at hk
  obtain ⟨c, hc, -⟩ := Option.bind_eq_some_iff.1 hk
  exact Heap.isAlive_of_cell? hc

/-- A wrapper instance stays one for as long as it is alive. -/
theorem Heap.Later.wrappedHandle?_of_isAlive (hl : h.Later h') (hh : h.OK) {i : HostId}
    (hk : h.wrappedHandle? i = some k) (hi : h'.isAlive i) : h'.wrappedHandle? i = some k := by
  rw [Heap.wrappedHandle?_eq] at hk ⊢
  obtain ⟨c, hc, hk⟩ := Option.bind_eq_some_iff.1 hk
  obtain ⟨c', hc', hs⟩ := hl.cell? hh hc hi
  rw [hc', Option.bind_some, Cell.handle?_eq_of_shape hs, hk]

/-- **The links agree in a later heap without new wrapper instances.** -/
theorem Links.withHeap (hl : Links r h t) (hh : h.OK) (hr : r.OK h) (hlater : h.Later h')
    (hnew : ∀ i k, h'.wrappedHandle? i = some k → i.index < h.next) : Links r h' t := by
  have hback : ∀ i k, h'.wrappedHandle? i = some k → h.wrappedHandle? i = some k :=
    fun i k hk => hlater.wrappedHandle? (hnew i k hk) hk
  have hplain : ∀ {v : HostValue}, v.object?.bind h.wrappedHandle? = none →
      v.object?.bind h'.wrappedHandle? = none := by
    intro v hp
    rw [Option.bind_eq_none_iff] at hp ⊢
    intro i hi
    rw [Option.eq_none_iff_forall_ne_some]
    intro k hk
    exact absurd (hback i k hk) (by simp [hp i hi])
  refine { hl with
    host := fun i k hk hlive => ?_
    weak := fun k x hb hlive ha => ?_
    wrapped := fun i k hk => hl.wrapped i k (hback i k hk)
    issued_wrapped := fun i k hk => hl.issued_wrapped i k (hback i k hk) }
  · obtain ⟨x, hx, hid, hp, hb, hg⟩ := hl.host i k hk hlive
    exact ⟨x, hx, hid, hplain hp, hb, hg⟩
  · have hx := (hr.backlinks _ (OrderedMap.mem_values_of_find? hb)).1.lt_next
    rcases hl.weak k x hb hlive (hlater.isAlive_of_isAlive hx ha) with hk | ⟨hid, hp, hk⟩
    · refine .inl ?_
      cases x with
      | object i => exact hlater.wrappedHandle?_of_isAlive hh hk ha
      | _ => cases hk
    · exact .inr ⟨hid, hplain hp, hk⟩

theorem Links.withTable (hl : Links r h g.heap) (hg : g.Later g') : Links r h g'.heap where
  host i k hk hlive := by
    have hi := hl.issued_host i k hk
    obtain ⟨x, hx, hid, hp, hb, ho⟩ := hl.host i k hk (hg.live k hi hlive)
    exact ⟨x, hx, hid, hp, hb, (hg.wrapper k _ hi hlive).1 ho⟩
  primitive key l hk hlive := by
    have hi := hl.issued_primitive key l hk
    obtain ⟨v, hv, hb, ho⟩ := hl.primitive key l hk (hg.live _ hi hlive)
    exact ⟨v, hv, hb, (hg.wrapper _ _ hi hlive).1 ho⟩
  weak k x hb hlive := hl.weak k x hb (hg.live k (hl.issued_guest k _ hb) hlive)
  primitive_back k v hb hlive :=
    hl.primitive_back k v hb (hg.live k (hl.issued_guest k _ hb) hlive)
  wrapped i k hk hlive := hl.wrapped i k hk (hg.live k (hl.issued_wrapped i k hk) hlive)
  keys := hl.keys
  issued_host i k hk := hg.issued k (hl.issued_host i k hk)
  issued_primitive key l hk := hg.issued _ (hl.issued_primitive key l hk)
  issued_guest k b hb := hg.issued k (hl.issued_guest k b hb)
  issued_wrapped i k hk := hg.issued k (hl.issued_wrapped i k hk)

end Changes

/-! ## Changes of the links -/

section Record

/-- The link back from a handle that a value has been linked to. -/
def Lookup.backlink : Lookup → HostValue → Backlink
  | identity x, _ => .weak x
  | primitive _, v => .primitive v

theorem Registry.find?_guestLinks_record (r : Registry) (l : Lookup) (v : HostValue)
    (k j : Handle) : (r.record l v k).guestLinks.find? j =
      if j = k then some (l.backlink v) else r.guestLinks.find? j := by
  cases l <;> exact OrderedMap.find?_insert ..

theorem Registry.find?_hostLinks_record (r : Registry) (x : Referent) (v : HostValue) (k : Handle)
    (i : HostId) : (r.record (.identity x) v k).hostLinks.find? i =
      if i = x.id then some k else r.hostLinks.find? i :=
  OrderedMap.find?_insert ..

theorem Registry.find?_primitives_record (r : Registry) (key key' : PrimitiveKey) (v : HostValue)
    (k : Handle) : (r.record (.primitive key) v k).primitives.find? key' =
      if key' = key then some ⟨((r.primitives.find? key).map PrimitiveLink.key).getD v, k⟩
      else r.primitives.find? key' :=
  OrderedMap.find?_insert ..

/-- To link a handle without a link back leaves the links back of the other handles. -/
theorem Registry.find?_guestLinks_record_of_some (hk : r.guestLinks.find? k = none)
    {l : Lookup} {j : Handle} {b : Backlink} (hb : r.guestLinks.find? j = some b) :
    (r.record l v k).guestLinks.find? j = some b := by
  rw [find?_guestLinks_record, if_neg, hb]
  rintro rfl
  simp [hk] at hb

/-- No link leads back from a handle that is not issued. -/
theorem Links.guestLinks_eq_none (hl : Links r h t) (hk : ¬t.Issued k) :
    r.guestLinks.find? k = none :=
  Option.eq_none_iff_forall_ne_some.2 fun b hb => hk (hl.issued_guest k b hb)

theorem Links.issued_guest_record (hl : Links r h t) (hi : t.Issued k) {l : Lookup} {j : Handle}
    {b : Backlink} (hb : (r.record l v k).guestLinks.find? j = some b) : t.Issued j := by
  rw [Registry.find?_guestLinks_record] at hb
  split_ifs at hb with he
  · exact he ▸ hi
  · exact hl.issued_guest j b hb

/-- **The links agree after an object or a symbol without a live handle has been linked to a new
one.** -/
theorem Links.record_identity {x : Referent} (hl : Links r h t) (hk : r.guestLinks.find? k = none)
    (hi : t.Issued k) (hid : x.toValue.identity? = some x)
    (hplain : x.toValue.object?.bind h.wrappedHandle? = none)
    (hold : ∀ j, r.hostLinks.find? x.id = some j → ¬t.isLive j)
    (ho : t.get? k = some (.wrapper x.toValue)) :
    Links (r.record (.identity x) x.toValue k) h t where
  host i j hj hlive := by
    rw [Registry.find?_hostLinks_record] at hj
    split_ifs at hj with he
    · obtain rfl := Option.some.inj hj
      have hb := (r.find?_guestLinks_record (.identity x) x.toValue k k).trans (if_pos rfl)
      exact ⟨x, he.symm, hid, hplain, hb, ho⟩
    · obtain ⟨y, hy, hyid, hyp, hyb, hyo⟩ := hl.host i j hj hlive
      exact ⟨y, hy, hyid, hyp, Registry.find?_guestLinks_record_of_some hk hyb, hyo⟩
  primitive key l hj hlive := by
    obtain ⟨y, hy, hyb, hyo⟩ := hl.primitive key l hj hlive
    exact ⟨y, hy, Registry.find?_guestLinks_record_of_some hk hyb, hyo⟩
  weak j y hb hlive ha := by
    rw [Registry.find?_guestLinks_record] at hb
    rw [Registry.find?_hostLinks_record]
    split_ifs at hb with he
    · cases hb
      exact .inr ⟨hid, hplain, by rw [if_pos rfl, he]⟩
    · rcases hl.weak j y hb hlive ha with hyw | ⟨hyid, hyp, hyj⟩
      · exact .inl hyw
      · refine .inr ⟨hyid, hyp, ?_⟩
        rw [if_neg, hyj]
        intro e
        exact hold j (e ▸ hyj) hlive
  primitive_back j y hb hlive := by
    rw [Registry.find?_guestLinks_record] at hb
    split_ifs at hb with he
    · cases hb
    · exact hl.primitive_back j y hb hlive
  wrapped i j hj hlive := Registry.find?_guestLinks_record_of_some hk (hl.wrapped i j hj hlive)
  keys := hl.keys
  issued_host i j hj := by
    rw [Registry.find?_hostLinks_record] at hj
    split_ifs at hj with he
    · exact Option.some.inj hj ▸ hi
    · exact hl.issued_host i j hj
  issued_primitive := hl.issued_primitive
  issued_guest _ _ hb := hl.issued_guest_record hi hb
  issued_wrapped := hl.issued_wrapped

/-- **The links agree after a primitive without a live handle has been linked to a new one.** -/
theorem Links.record_primitive {key : PrimitiveKey} (hl : Links r h t)
    (hk : r.guestLinks.find? k = none) (hi : t.Issued k) (hkey : PrimitiveKey.of? v = some key)
    (hold : ∀ l, r.primitives.find? key = some l → ¬t.isLive l.handle)
    (ho : t.get? k = some (.wrapper v)) : Links (r.record (.primitive key) v k) h t where
  host i j hj hlive := by
    obtain ⟨y, hy, hyid, hyp, hyb, hyo⟩ := hl.host i j hj hlive
    exact ⟨y, hy, hyid, hyp, Registry.find?_guestLinks_record_of_some hk hyb, hyo⟩
  primitive key' l hj hlive := by
    rw [Registry.find?_primitives_record] at hj
    split_ifs at hj with he
    · obtain rfl := Option.some.inj hj
      have hb := (r.find?_guestLinks_record (.primitive key) v k k).trans (if_pos rfl)
      exact ⟨v, he ▸ hkey, hb, ho⟩
    · obtain ⟨y, hy, hyb, hyo⟩ := hl.primitive key' l hj hlive
      exact ⟨y, hy, Registry.find?_guestLinks_record_of_some hk hyb, hyo⟩
  weak j y hb hlive ha := by
    rw [Registry.find?_guestLinks_record] at hb
    split_ifs at hb with he
    · cases hb
    · exact hl.weak j y hb hlive ha
  primitive_back j y hb hlive := by
    rw [Registry.find?_guestLinks_record] at hb
    split_ifs at hb with he
    · cases hb
      exact ⟨key, _, hkey, (r.find?_primitives_record ..).trans (if_pos rfl), he.symm⟩
    · obtain ⟨key', l, hy, hj, hlj⟩ := hl.primitive_back j y hb hlive
      refine ⟨key', l, hy, ?_, hlj⟩
      rw [Registry.find?_primitives_record, if_neg, hj]
      rintro rfl
      exact hold l hj (hlj ▸ hlive)
  wrapped i j hj hlive := Registry.find?_guestLinks_record_of_some hk (hl.wrapped i j hj hlive)
  keys key' l hj := by
    rw [Registry.find?_primitives_record] at hj
    split_ifs at hj with he
    · -- the value stored first under the content stays as its key
      obtain rfl := Option.some.inj hj
      cases hf : r.primitives.find? key with
      | none => simpa [hf, he] using hkey
      | some l => simpa [hf, he] using hl.keys key l hf
    · exact hl.keys key' l hj
  issued_host := hl.issued_host
  issued_primitive key' l hj := by
    rw [Registry.find?_primitives_record] at hj
    split_ifs at hj with he
    · exact Option.some.inj hj ▸ hi
    · exact hl.issued_primitive key' l hj
  issued_guest _ _ hb := hl.issued_guest_record hi hb
  issued_wrapped := hl.issued_wrapped

/-- **The links agree after a value without a live handle has been linked to a new one.** -/
theorem Links.record {l : Lookup} (hl : Links r h t) (hk : r.guestLinks.find? k = none)
    (hi : t.Issued k) (hlookup : Lookup.of? v = some l)
    (hplain : v.object?.bind h.wrappedHandle? = none) (hnew : r.find? t.isLive l = none)
    (ho : t.get? k = some (.wrapper v)) : Links (r.record l v k) h t := by
  cases l with
  | identity x =>
    obtain ⟨rfl, hid⟩ := Lookup.eq_toValue hlookup
    refine hl.record_identity hk hi hid hplain (fun j hj hlive => ?_) ho
    simp [Registry.find?, hj, Option.filter, hlive] at hnew
  | primitive key =>
    have hkey := Lookup.of?_eq_primitive_iff.1 hlookup
    refine hl.record_primitive hk hi hkey (fun l hj hlive => ?_) ho
    simp [Registry.find?, hj, Option.filter, hlive] at hnew

end Record

section Stand

theorem Heap.wrappedHandle?_alloc (h : Heap) (c : Cell) (i : HostId) :
    (h.alloc c).2.wrappedHandle? i =
      if i = (h.alloc c).1 then c.handle? else h.wrappedHandle? i := by
  rw [wrappedHandle?_eq, wrappedHandle?_eq, cell?_alloc]
  split_ifs <;> rfl

/-- A new cell does not change what was there before into a wrapper instance. -/
theorem Referent.bind_wrappedHandle?_alloc {x : Referent} (hx : x.id.index < h.next) (c : Cell) :
    x.toValue.object?.bind (h.alloc c).2.wrappedHandle? =
      x.toValue.object?.bind h.wrappedHandle? := by
  cases x with
  | object i =>
    refine (Heap.wrappedHandle?_alloc h c i).trans (if_neg ?_)
    rintro rfl
    exact absurd hx (lt_irrefl _)
  | _ => rfl

/-- Nothing stands for a handle exactly when no link leads back from it to something that is
there. -/
theorem Registry.resolve?_eq_none_iff {alive : HostId → Bool} :
    r.resolve? alive k = none ↔
      ∀ b, r.guestLinks.find? k = some b → ¬Registry.keepsBacklink alive b := by
  unfold Registry.resolve?
  cases r.guestLinks.find? k with
  | none => simp
  | some b => cases b <;> simp [Registry.keepsBacklink]

theorem Registry.find?_guestLinks_recordWrapper (r : Registry) (k : Handle) (i : HostId)
    (j : Handle) : (r.recordWrapper k i).guestLinks.find? j =
      if j = k then some (.weak (.object i)) else r.guestLinks.find? j :=
  OrderedMap.find?_insert ..

/-- A new wrapper instance leaves the links back to what is there. -/
theorem Registry.find?_guestLinks_recordWrapper_of_some {alive : HostId → Bool} {i : HostId}
    (hlost : r.resolve? alive k = none) {j : Handle} {b : Backlink}
    (hb : r.guestLinks.find? j = some b) (ha : Registry.keepsBacklink alive b) :
    (r.recordWrapper k i).guestLinks.find? j = some b := by
  rw [find?_guestLinks_recordWrapper, if_neg, hb]
  rintro rfl
  exact resolve?_eq_none_iff.1 hlost b hb ha

/-- **The links agree after a handle that nothing alive stands for got a wrapper instance.** -/
theorem Links.stand {d : HostId} (hl : Links r h t) (hi : t.Issued k)
    (hr : r.OK h) (hh : h.OK) (hobjects : ∀ j v, t.get? j = some (.wrapper v) → h.Backs (.value v))
    (hlost : r.resolve? h.isAlive k = none) :
    Links (r.recordWrapper k ⟨h.next⟩) (h.alloc (.object { kind := .wrapper d k })).2 t where
  host i j hj hlive := by
    obtain ⟨y, hy, hyid, hyp, hyb, hyo⟩ := hl.host i j hj hlive
    have ha : h.isAlive y.id := (hobjects j _ hyo).isAlive _ y.id_mem_holds
    refine ⟨y, hy, hyid, ?_, Registry.find?_guestLinks_recordWrapper_of_some hlost hyb ha, hyo⟩
    exact (Referent.bind_wrappedHandle?_alloc (hh.isAlive_lt ha) _).trans hyp
  primitive key l hj hlive := by
    obtain ⟨y, hy, hyb, hyo⟩ := hl.primitive key l hj hlive
    exact ⟨y, hy, Registry.find?_guestLinks_recordWrapper_of_some hlost hyb rfl, hyo⟩
  weak j y hb hlive ha := by
    rw [Registry.find?_guestLinks_recordWrapper] at hb
    split_ifs at hb with he
    · cases hb
      exact .inl ((Heap.wrappedHandle?_alloc ..).trans ((if_pos rfl).trans (he ▸ rfl)))
    · have hy : y.id.index < h.next :=
        (hr.backlinks _ (OrderedMap.mem_values_of_find? hb)).1.lt_next
      rw [Referent.bind_wrappedHandle?_alloc hy]
      exact hl.weak j y hb hlive ((Heap.later_alloc h _).isAlive_of_isAlive hy ha)
  primitive_back j y hb hlive := by
    rw [Registry.find?_guestLinks_recordWrapper] at hb
    split_ifs at hb with he
    · cases hb
    · exact hl.primitive_back j y hb hlive
  wrapped i j hj hlive := by
    rw [Heap.wrappedHandle?_alloc] at hj
    split_ifs at hj with he
    · obtain rfl := Option.some.inj hj
      exact he ▸ (r.find?_guestLinks_recordWrapper ..).trans (if_pos rfl)
    · exact Registry.find?_guestLinks_recordWrapper_of_some hlost (hl.wrapped i j hj hlive)
        (Heap.isAlive_of_wrappedHandle? hj)
  keys := hl.keys
  issued_host := hl.issued_host
  issued_primitive := hl.issued_primitive
  issued_guest j b hb := by
    rw [Registry.find?_guestLinks_recordWrapper] at hb
    split_ifs at hb with he
    · exact he ▸ hi
    · exact hl.issued_guest j b hb
  issued_wrapped i j hj := by
    rw [Heap.wrappedHandle?_alloc] at hj
    split_ifs at hj with he
    · exact Option.some.inj hj ▸ hi
    · exact hl.issued_wrapped i j hj

end Stand

section Sweep

variable (alive : HostId → Bool) (live : Handle → Bool)

theorem Registry.OK.hostLinks_sweep (hr : r.OK h) (i : HostId) (k : Handle) :
    (r.sweep alive live).hostLinks.find? i = some k ↔
      r.hostLinks.find? i = some k ∧ alive i ∧ live k := by
  rw [Registry.sweep, OrderedMap.find?_filter hr.nodup_host, Option.filter_eq_some_iff,
    Bool.and_eq_true]

theorem Registry.OK.guestLinks_sweep (hr : r.OK h) (k : Handle) (b : Backlink) :
    (r.sweep alive live).guestLinks.find? k = some b ↔
      r.guestLinks.find? k = some b ∧ Registry.keepsBacklink alive b ∧ live k := by
  rw [Registry.sweep, OrderedMap.find?_filter hr.nodup_guest, Option.filter_eq_some_iff,
    Bool.and_eq_true]

theorem Registry.OK.primitives_sweep (hr : r.OK h) (key : PrimitiveKey) (l : PrimitiveLink) :
    (r.sweep alive live).primitives.find? key = some l ↔
      r.primitives.find? key = some l ∧ live l.handle := by
  rw [Registry.sweep, OrderedMap.find?_filter hr.nodup_primitives, Option.filter_eq_some_iff]

/-- **The links agree after a sweep**, which drops no link between what is there. -/
theorem Links.sweep (hl : Links r h t) (hr : r.OK h)
    (hobjects : ∀ j v, t.get? j = some (.wrapper v) → h.Backs (.value v)) :
    Links (r.sweep h.isAlive t.isLive) h t where
  host i j hj hlive := by
    have hj := ((hr.hostLinks_sweep ..).1 hj).1
    obtain ⟨y, hy, hyid, hyp, hyb, hyo⟩ := hl.host i j hj hlive
    have ha : h.isAlive y.id := (hobjects j _ hyo).isAlive _ y.id_mem_holds
    exact ⟨y, hy, hyid, hyp, (hr.guestLinks_sweep ..).2 ⟨hyb, ha, hlive⟩, hyo⟩
  primitive key l hj hlive := by
    have hj := ((hr.primitives_sweep ..).1 hj).1
    obtain ⟨y, hy, hyb, hyo⟩ := hl.primitive key l hj hlive
    exact ⟨y, hy, (hr.guestLinks_sweep ..).2 ⟨hyb, rfl, hlive⟩, hyo⟩
  weak j y hb hlive ha := by
    have hb := ((hr.guestLinks_sweep ..).1 hb).1
    rcases hl.weak j y hb hlive ha with hyw | ⟨hyid, hyp, hyj⟩
    · exact .inl hyw
    · exact .inr ⟨hyid, hyp, (hr.hostLinks_sweep ..).2 ⟨hyj, ha, hlive⟩⟩
  primitive_back j y hb hlive := by
    have hb := ((hr.guestLinks_sweep ..).1 hb).1
    obtain ⟨key, l, hy, hj, hlj⟩ := hl.primitive_back j y hb hlive
    exact ⟨key, l, hy, (hr.primitives_sweep ..).2 ⟨hj, hlj ▸ hlive⟩, hlj⟩
  wrapped i j hj hlive :=
    (hr.guestLinks_sweep ..).2
      ⟨hl.wrapped i j hj hlive, Heap.isAlive_of_wrappedHandle? hj, hlive⟩
  keys key l hj := hl.keys key l ((hr.primitives_sweep ..).1 hj).1
  issued_host i j hj := hl.issued_host i j ((hr.hostLinks_sweep ..).1 hj).1
  issued_primitive key l hj := hl.issued_primitive key l ((hr.primitives_sweep ..).1 hj).1
  issued_guest j b hb := hl.issued_guest j b ((hr.guestLinks_sweep ..).1 hb).1
  issued_wrapped := hl.issued_wrapped

end Sweep

/-! ## Moves -/

section Moves

theorem Guest.OK.backs_wrapper (hg : g.OK h) (ho : g.heap.get? k = some (.wrapper v)) :
    h.Backs (.value v) :=
  hg.objects _ (HandleTable.stores_of_get? ho) _ (List.mem_singleton_self _)

/-- **The links agree after a move.** -/
theorem Move.linked (m : Move held ℓ w w') (hw : w.OK held) (hl : w.Linked) : w'.Linked := by
  intro g' hg' hr
  obtain ⟨g, hg, hlater⟩ := m.guest_later hw hg' hr
  have hlinks := hl g hg hlater.inRange
  have hregistry := hw.context.registry
  have hguest := hw.guest g hg
  -- a heap in which no identity is new has no new wrapper instance
  have old : ∀ h' : Heap, (∀ i, h'.isAlive i → w.heap.isAlive i) →
      ∀ (i : HostId) (k : Handle), h'.wrappedHandle? i = some k → i.index < w.heap.next :=
    fun h' ha i k hk => hw.heap.isAlive_lt (ha i (Heap.isAlive_of_wrappedHandle? hk))
  have same : w'.guest = w.guest → g' = g := fun he =>
    Option.some.inj (hg'.symm.trans (he.trans hg))
  cases m with
  | quiet m =>
    cases m with
    | make parts weakLinks plain =>
      obtain rfl := same rfl
      refine hlinks.withHeap hw.heap hregistry (Heap.later_alloc _ _) fun i k hk => ?_
      rw [Heap.wrappedHandle?_alloc] at hk
      split_ifs at hk with hi
      · rw [plain] at hk; cases hk
      · exact hw.heap.isAlive_lt (Heap.isAlive_of_wrappedHandle? hk)
    | @link _ x _ guest _ lookup plain new =>
      obtain rfl := Option.some.inj (hg.symm.trans guest)
      obtain rfl := Option.some.inj hg'
      have hget := HandleTable.get?_insert hguest.table hr.size_le (g.heap.insert (.wrapper x)).1
      rw [if_pos rfl] at hget
      have hissued := HandleTable.issued_of_isLive hr (HandleTable.isLive_of_get? hget)
      have hback := hlinks.guestLinks_eq_none (HandleTable.not_issued_insert hguest.table hr)
      exact (hlinks.withTable hlater).record hback hissued lookup plain new hget
    | alloc | reenter => exact hlinks.withTable hlater
    | _ => obtain rfl := same rfl; exact hlinks
  | cross _ m =>
    cases m with
    | reclaim =>
      obtain rfl := same rfl
      exact hlinks.withHeap hw.heap hregistry (Heap.later_reclaim hw.heap.nodup _)
        (old _ fun i => Heap.isAlive_of_reclaim hw.heap.nodup)
    | stand guest live definition lost =>
      obtain rfl := same rfl
      obtain rfl := Option.some.inj (hg.symm.trans guest)
      have hissued := HandleTable.issued_of_isLive hlater.inRange live
      exact hlinks.stand hissued hregistry hw.heap (fun _ _ => hguest.backs_wrapper) lost
    | notice => exact hlinks.withTable hlater
    | sweep =>
      obtain rfl := same rfl
      have h := hlinks.sweep hregistry fun _ _ => hguest.backs_wrapper
      rwa [← World.isLive_of_guest hg] at h
    | _ => obtain rfl := same rfl; exact hlinks
  | outer m =>
    cases m with
    | setCell h shape =>
      obtain rfl := same rfl
      exact hlinks.withHeap hw.heap hregistry (Heap.later_setCell h shape)
        (old _ fun i => (Heap.isAlive_setCell h _ i).1)
    | adjust | write | free => exact hlinks.withTable hlater
    | unload => cases hg'
    | _ => obtain rfl := same rfl; exact hlinks

/-- **The links agree after any number of moves.** -/
theorem Reaches.linked (hr : Reaches ℓ held w w') (hw : w.OK held) (hl : w.Linked) : w'.Linked := by
  induction hr with
  | refl => exact hl
  | tail hr m ih => exact m.linked (Reaches.ok hr hw) ih

end Moves

/-! ## Live handles and their links -/

section Kept

/-- A handle of a later guest's objects is live before. -/
theorem Reaches.isLive_of_later (hr : Reaches ℓ held w w') (hw : w.OK held) (hin : w'.InRange)
    (hissued : ∀ g, w.guest = some g → g.heap.Issued k) (hk : w'.isLive k) : w.isLive k := by
  obtain ⟨g', hg', hk'⟩ := World.isLive_iff.1 hk
  obtain ⟨g, hg, hlater⟩ := hr.guest_later hw hg' (hin g' hg')
  exact World.isLive_iff.2 ⟨g, hg, hlater.live k (hissued g hg) hk'⟩

theorem Reaches.inRange (hr : Reaches ℓ held w w') (hw : w.OK held) (hin : w'.InRange)
    (hk : w'.isLive k) : w.InRange := by
  intro g hg
  obtain ⟨g', hg', -⟩ := World.isLive_iff.1 hk
  obtain ⟨g₀, hg₀, hlater⟩ := hr.guest_later hw hg' (hin g' hg')
  exact Option.some.inj (hg₀.symm.trans hg) ▸ hlater.inRange

/-- A link stays as it is through a move that keeps the guest object and the host value. -/
theorem Move.backlink (m : Move held ℓ w w') (hw : w.OK held) (hl : w.Linked) (hin : w'.InRange)
    (hk : w'.isLive k) {b : Backlink} (hb : w.context.registry.guestLinks.find? k = some b)
    (ha : ∀ x, b = .weak x → w'.heap.isAlive x.id) :
    w'.context.registry.guestLinks.find? k = some b := by
  have hadmits := hw.context.registry.backlinks b (OrderedMap.mem_values_of_find? hb)
  -- the host value was there before the move
  have hkeeps : Registry.keepsBacklink w.heap.isAlive b := by
    cases b with
    | weak x => exact (m.later hw.heap).isAlive_of_isAlive hadmits.1.lt_next (ha x rfl)
    | primitive v => rfl
  cases m with
  | quiet m =>
    cases m with
    | @link g x l guest _ _ _ _ =>
      have hr := hin _ rfl
      have hback := (hl g guest (HandleTable.InRange.of_insert hr)).guestLinks_eq_none
        (HandleTable.not_issued_insert (hw.guest g guest).table hr)
      exact Registry.find?_guestLinks_record_of_some hback hb
    | _ => exact hb
  | cross _ m =>
    cases m with
    | stand _ _ _ lost => exact Registry.find?_guestLinks_recordWrapper_of_some lost hb hkeeps
    | sweep => exact (hw.context.registry.guestLinks_sweep ..).2 ⟨hb, hkeeps, hk⟩
    | _ => exact hb
  | outer m => cases m <;> exact hb

/-- **What every move preserves that keeps a guest object** holds as long as the object is there. -/
theorem Reaches.preserved {P : World → Prop} (hr : Reaches ℓ held w w') (hw : w.OK held)
    (hin : w'.InRange) (hk : w'.isLive k)
    (hissued : ∀ g, w.guest = some g → g.heap.InRange → g.heap.Issued k)
    (hstep : ∀ w₁ w₂, Reaches ℓ held w w₁ → Move held ℓ w₁ w₂ → w₂.InRange → w₂.isLive k →
      P w₁ → P w₂)
    (hp : P w) : P w' := by
  induction hr with
  | refl => exact hp
  | @tail w₁ w₂ hr m ih =>
    have hw₁ := Reaches.ok hr hw
    have hin₁ : w₁.InRange := Reaches.inRange (.single m) hw₁ hin hk
    have hissued₁ : ∀ g, w₁.guest = some g → g.heap.Issued k := by
      intro g₁ hg₁
      obtain ⟨g, hg, hlater⟩ := Reaches.guest_later hr hw hg₁ (hin₁ g₁ hg₁)
      exact hlater.issued k (hissued g hg hlater.inRange)
    have hk₁ : w₁.isLive k := Reaches.isLive_of_later (.single m) hw₁ hin hissued₁ hk
    exact hstep w₁ w₂ hr m hin hk (ih hin₁ hk₁)

/-- **A link stays as it is** while the guest object and the host value are there. -/
theorem Reaches.backlink (hr : Reaches ℓ held w w') (hw : w.OK held) (hl : w.Linked)
    (hin : w'.InRange) (hk : w'.isLive k) {b : Backlink}
    (hb : w.context.registry.guestLinks.find? k = some b)
    (ha : ∀ x, b = .weak x → w'.heap.isAlive x.id) :
    w'.context.registry.guestLinks.find? k = some b := by
  refine hr.preserved (P := fun w => (∀ x, b = .weak x → w.heap.isAlive x.id) →
      w.context.registry.guestLinks.find? k = some b) hw hin hk ?_ ?_ (fun _ => hb) ha
  · exact fun g hg hin => (hl g hg hin).issued_guest k b hb
  · intro w₁ w₂ hr m hin hk ih ha
    have hw₁ := Reaches.ok hr hw
    refine m.backlink hw₁ (Reaches.linked hr hw hl) hin hk (ih ?_) ha
    rintro x rfl
    have hx := (hw.context.registry.backlinks _ (OrderedMap.mem_values_of_find? hb)).1
    exact (m.later hw₁.heap).isAlive_of_isAlive (Reaches.knows hr hw hx).lt_next (ha x rfl)

/-- The handle of a primitive's content stays, and its key, through a move that keeps the guest
object. -/
theorem Move.primitiveLink (m : Move held ℓ w w') (hw : w.OK held) {key : PrimitiveKey}
    {l : PrimitiveLink} (hk : w'.isLive l.handle)
    (hl : w.context.registry.primitives.find? key = some l) :
    w'.context.registry.primitives.find? key = some l := by
  cases m with
  | quiet m =>
    cases m with
    | @link _ _ l' _ _ _ _ new =>
      cases l' with
      | identity => exact hl
      | primitive key' =>
        rw [Registry.find?_primitives_record, if_neg, hl]
        -- a content is linked anew only when its handle is dead
        rintro rfl
        simp only [Registry.find?, hl, Option.map_some, Option.filter_eq_none_iff] at new
        exact new _ rfl hk
    | _ => exact hl
  | cross _ m =>
    cases m with
    | sweep => exact (hw.context.registry.primitives_sweep ..).2 ⟨hl, hk⟩
    | _ => exact hl
  | outer m => cases m <;> exact hl

/-- **The handle of a primitive's content stays, and its key**, while the guest object is there. -/
theorem Reaches.primitiveLink (hr : Reaches ℓ held w w') (hw : w.OK held) (hl : w.Linked)
    (hin : w'.InRange) {key : PrimitiveKey} {l : PrimitiveLink} (hk : w'.isLive l.handle)
    (hp : w.context.registry.primitives.find? key = some l) :
    w'.context.registry.primitives.find? key = some l := by
  refine hr.preserved (P := fun w => w.context.registry.primitives.find? key = some l) hw hin hk
    ?_ ?_ hp
  · exact fun g hg hin => (hl g hg hin).issued_primitive key l hp
  · exact fun w₁ w₂ hr m _ hk ih => m.primitiveLink (Reaches.ok hr hw) hk ih

/-- A crossing keeps the guest and frees none of its objects. -/
theorem Move.guest_kept (m : Move held .crossing w w') (hw : w.OK held) (hg : w.guest = some g) :
    ∃ g', w'.guest = some g' ∧
      (g'.heap.InRange → g.heap.InRange ∧ ∀ k, g.heap.isLive k → g'.heap.isLive k) := by
  have alloc : ∀ o : GuestObject, (g.alloc o).2.heap.InRange →
      g.heap.InRange ∧ ∀ k, g.heap.isLive k → (g.alloc o).2.heap.isLive k := by
    intro o hr
    exact ⟨HandleTable.InRange.of_insert hr,
      fun k hk => HandleTable.isLive_insert (hw.guest g hg).table hr.size_le hk⟩
  cases m with
  | quiet m =>
    cases m with
    | alloc guest | link guest =>
      obtain rfl := Option.some.inj (hg.symm.trans guest)
      exact ⟨_, rfl, alloc _⟩
    | reenter guest =>
      obtain rfl := Option.some.inj (hg.symm.trans guest)
      exact ⟨_, rfl, fun hr => ⟨hr, fun _ => id⟩⟩
    | _ => exact ⟨g, hg, fun hr => ⟨hr, fun _ => id⟩⟩
  | cross _ m =>
    cases m with
    | notice guest =>
      obtain rfl := Option.some.inj (hg.symm.trans guest)
      exact ⟨_, rfl, fun hr => ⟨hr, fun _ => id⟩⟩
    | _ => exact ⟨g, hg, fun hr => ⟨hr, fun _ => id⟩⟩

theorem Reaches.guest_kept (hr : Reaches .crossing held w w') (hw : w.OK held)
    (hg : w.guest = some g) :
    ∃ g', w'.guest = some g' ∧
      (g'.heap.InRange → g.heap.InRange ∧ ∀ k, g.heap.isLive k → g'.heap.isLive k) := by
  induction hr with
  | refl => exact ⟨g, hg, fun hin => ⟨hin, fun _ => id⟩⟩
  | tail hr m ih =>
    obtain ⟨g₁, hg₁, h₁⟩ := ih
    obtain ⟨g₂, hg₂, h₂⟩ := m.guest_kept (Reaches.ok hr hw) hg₁
    refine ⟨g₂, hg₂, fun hin => ?_⟩
    obtain ⟨hin₁, hlive₂⟩ := h₂ hin
    obtain ⟨hin₀, hlive₁⟩ := h₁ hin₁
    exact ⟨hin₀, fun k hk => hlive₂ k (hlive₁ k hk)⟩

theorem Reaches.inRange_of_crossing (hr : Reaches .crossing held w w') (hw : w.OK held)
    (hin : w'.InRange) : w.InRange := by
  intro g hg
  obtain ⟨g', hg', h⟩ := hr.guest_kept hw hg
  exact (h (hin g' hg')).1

/-- **A crossing frees no guest object.** -/
theorem Reaches.isLive (hr : Reaches .crossing held w w') (hw : w.OK held) (hin : w'.InRange)
    (hk : w.isLive k) : w'.isLive k := by
  obtain ⟨g, hg, hk⟩ := World.isLive_iff.1 hk
  obtain ⟨g', hg', h⟩ := hr.guest_kept hw hg
  exact World.isLive_iff.2 ⟨g', hg', (h (hin g' hg')).2 k hk⟩

end Kept

end GuestBridge
