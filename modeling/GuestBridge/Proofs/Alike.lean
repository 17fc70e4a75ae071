import GuestBridge.Proofs.Firm

/-!
# States that are alike

Two states are alike to a call (`World.Alike`) when the guest, the variables and the firm
part of the heap are the same, and when hashes and links agree about what is firm on the
host side and live on the guest's side. Nothing is said of hashes and links that lead
nowhere, nor of how long ago they were last swept.

* `World.Alike.symm`, `World.Alike.trans`: alikeness is an equivalence.
* `World.Alike.rebind`: it is kept when the guest or the variables change, as long as
  nothing new is held.
* `World.Alike.alloc`, `World.Alike.relink`, `World.Alike.rehash`: it is kept by new cells,
  links and hashes.
* `World.alike_pass`: **a collection leaves a state that is alike.**
-/

namespace GuestBridge

/-! ## Maps that agree -/

section AgreeOn

variable {κ ν : Type} {p q : κ → ν → Prop} {f f' f'' : κ → Option ν} {k : κ}

/-- Two maps agree about the entries of which `p` holds. -/
def AgreeOn (p : κ → ν → Prop) (f f' : κ → Option ν) : Prop :=
  ∀ k x, p k x → (f k = some x ↔ f' k = some x)

theorem AgreeOn.refl (p : κ → ν → Prop) (f : κ → Option ν) : AgreeOn p f f := fun _ _ _ => Iff.rfl

theorem AgreeOn.symm (h : AgreeOn p f f') : AgreeOn p f' f := fun k x hp => (h k x hp).symm

theorem AgreeOn.trans (h : AgreeOn p f f') (h' : AgreeOn p f' f'') : AgreeOn p f f'' :=
  fun k x hp => (h k x hp).trans (h' k x hp)

/-- Maps agree about fewer entries, of those that either of them has. -/
theorem AgreeOn.mono (h : AgreeOn p f f')
    (hp : ∀ k x, f k = some x ∨ f' k = some x → q k x → p k x) : AgreeOn q f f' := by
  intro k x hq
  constructor
  · intro hx
    exact (h k x (hp k x (.inl hx) hq)).1 hx
  · intro hx
    exact (h k x (hp k x (.inr hx) hq)).2 hx

/-- What a filter leaves of an entry is the same. -/
theorem AgreeOn.filter_eq (h : AgreeOn p f f') {b : ν → Bool} (hb : ∀ x, b x → p k x) :
    (f' k).filter b = (f k).filter b := by
  apply Option.ext
  intro x
  rw [Option.filter_eq_some_iff, Option.filter_eq_some_iff]
  constructor <;> rintro ⟨hx, hbx⟩
  · exact ⟨(h k x (hb x hbx)).2 hx, hbx⟩
  · exact ⟨(h k x (hb x hbx)).1 hx, hbx⟩

variable [DecidableEq κ]

theorem AgreeOn.insert {m m' : OrderedMap κ ν} (h : AgreeOn p m.find? m'.find?) (k : κ) (x : ν) :
    AgreeOn p (m.insert k x).find? (m'.insert k x).find? := by
  intro j y hp
  rw [OrderedMap.find?_insert, OrderedMap.find?_insert]
  by_cases hj : j = k
  · rw [if_pos hj, if_pos hj]
  · rw [if_neg hj, if_neg hj]
    exact h j y hp

/-- A map agrees with what a filter leaves of it. -/
theorem agreeOn_filter {m : OrderedMap κ ν} (hn : m.keys.Nodup) {b : κ → ν → Bool}
    (hb : ∀ k x, p k x → b k x) : AgreeOn p m.find? (m.filter b).find? := by
  intro k x hp
  rw [OrderedMap.find?_filter hn, Option.filter_eq_some_iff]
  exact ⟨fun hx => ⟨hx, hb k x hp⟩, And.left⟩

end AgreeOn

/-! ## Registries that agree -/

namespace Registry

variable {alive alive' : HostId → Bool} {live live' : Handle → Bool} {r r' r'' : Registry}
  {k : Handle}

/-- The handle that is stored for a content. -/
def contentHandle? (r : Registry) (key : PrimitiveKey) : Option Handle :=
  (r.primitives.find? key).map PrimitiveLink.handle

/-- Two registries have the same links between what is alive and what is live. A content may be
stored with different values. -/
structure Agree (alive : HostId → Bool) (live : Handle → Bool) (r r' : Registry) : Prop where
  host : AgreeOn (fun i k => alive i ∧ live k) r.hostLinks.find? r'.hostLinks.find?
  guest : AgreeOn (fun k b => keepsBacklink alive b ∧ live k) r.guestLinks.find? r'.guestLinks.find?
  content : AgreeOn (fun _ k => live k) r.contentHandle? r'.contentHandle?

/-- Some link mentions the handle. -/
def Mentions (r : Registry) (k : Handle) : Prop :=
  (∃ i, r.hostLinks.find? i = some k) ∨ (∃ b, r.guestLinks.find? k = some b) ∨
    ∃ key, r.contentHandle? key = some k

theorem Agree.refl (alive : HostId → Bool) (live : Handle → Bool) (r : Registry) :
    r.Agree alive live r :=
  ⟨.refl _ _, .refl _ _, .refl _ _⟩

theorem Agree.symm (h : r.Agree alive live r') : r'.Agree alive live r :=
  ⟨h.host.symm, h.guest.symm, h.content.symm⟩

theorem Agree.trans (h : r.Agree alive live r') (h' : r'.Agree alive live r'') :
    r.Agree alive live r'' :=
  ⟨h.host.trans h'.host, h.guest.trans h'.guest, h.content.trans h'.content⟩

theorem keepsBacklink_mono (ha : ∀ i, alive' i → alive i) {b : Backlink}
    (hb : keepsBacklink alive' b) : keepsBacklink alive b := by
  cases b with
  | weak x => exact ha _ hb
  | primitive v => rfl

/-- Registries agree when less is alive, and no handle that they mention has become live. -/
theorem Agree.mono (h : r.Agree alive live r') (ha : ∀ i, alive' i → alive i)
    (hl : ∀ k, r.Mentions k ∨ r'.Mentions k → live' k → live k) : r.Agree alive' live' r' where
  host := h.host.mono fun i k hx hp =>
    ⟨ha i hp.1, hl k (hx.imp (fun hk => .inl ⟨i, hk⟩) fun hk => .inl ⟨i, hk⟩) hp.2⟩
  guest := h.guest.mono fun k b hx hp =>
    ⟨keepsBacklink_mono ha hp.1,
      hl k (hx.imp (fun hb => .inr (.inl ⟨b, hb⟩)) fun hb => .inr (.inl ⟨b, hb⟩)) hp.2⟩
  content := h.content.mono fun key k hx hp =>
    hl k (hx.imp (fun hk => .inr (.inr ⟨key, hk⟩)) fun hk => .inr (.inr ⟨key, hk⟩)) hp

theorem contentHandle?_record (r : Registry) (key : PrimitiveKey) (v : HostValue) (k : Handle)
    (key' : PrimitiveKey) :
    (r.record (.primitive key) v k).contentHandle? key' =
      if key' = key then some k else r.contentHandle? key' := by
  unfold contentHandle? record
  rw [OrderedMap.find?_insert]
  split_ifs <;> rfl

/-- Registries agree after the same value has been linked to the same handle. -/
theorem Agree.record (h : r.Agree alive live r') (l : Lookup) (v : HostValue) (k : Handle) :
    (r.record l v k).Agree alive live (r'.record l v k) := by
  cases l with
  | identity x => exact ⟨h.host.insert _ _, h.guest.insert _ _, h.content⟩
  | primitive key =>
    refine ⟨h.host, h.guest.insert _ _, fun key' j hj => ?_⟩
    rw [contentHandle?_record, contentHandle?_record]
    by_cases he : key' = key
    · rw [if_pos he, if_pos he]
    · rw [if_neg he, if_neg he]
      exact h.content key' j hj

theorem Agree.recordWrapper (h : r.Agree alive live r') (k : Handle) (i : HostId) :
    (r.recordWrapper k i).Agree alive live (r'.recordWrapper k i) :=
  ⟨h.host, h.guest.insert _ _, h.content⟩

/-- **A sweep leaves a registry that agrees**, if it keeps all that is alive. -/
theorem OK.agree_sweep {h : Heap} (hr : r.OK h) (ha : ∀ i, alive i → alive' i)
    (live : Handle → Bool) : r.Agree alive live (r.sweep alive' live) where
  host := agreeOn_filter hr.nodup_host fun i _ hp => by simp [ha i hp.1, hp.2]
  guest := agreeOn_filter hr.nodup_guest fun _ _ hp => by simp [keepsBacklink_mono ha hp.1, hp.2]
  content key k hk := by
    have hfind : (r.sweep alive' live).primitives.find? key =
        (r.primitives.find? key).filter fun l => live l.handle :=
      OrderedMap.find?_filter hr.nodup_primitives _ key
    unfold contentHandle?
    rw [hfind]
    cases r.primitives.find? key with
    | none => rfl
    | some l =>
      -- a content whose handle is not live is not linked, whether the entry is there or not
      by_cases hl : live l.handle
      · simp [Option.filter, hl]
      · have hne : l.handle ≠ k := fun he => hl (he ▸ hk)
        simp [Option.filter, hl, hne]

/-- The handle found for a value is the same. -/
theorem Agree.find?_eq (h : r.Agree alive live r') {l : Lookup}
    (hl : ∀ x, l = .identity x → alive x.id) : r'.find? live l = r.find? live l := by
  cases l with
  | identity x => exact h.host.filter_eq fun _ hk => ⟨hl x rfl, hk⟩
  | primitive key => exact h.content.filter_eq fun _ hk => hk

/-- A handle resolves to what its link leads to, if that is kept. -/
theorem resolve?_eq_map (r : Registry) (alive : HostId → Bool) (k : Handle) :
    r.resolve? alive k = ((r.guestLinks.find? k).filter (keepsBacklink alive)).map fun
      | .weak x => x.toValue
      | .primitive v => v := by
  unfold resolve?
  cases r.guestLinks.find? k with
  | none => rfl
  | some b =>
    cases b with
    | weak x => by_cases hx : alive x.id <;> simp [Option.filter, keepsBacklink, hx]
    | primitive v => rfl

/-- **A live handle resolves to the same value.** -/
theorem Agree.resolve?_eq (h : r.Agree alive live r') (hk : live k) :
    r'.resolve? alive k = r.resolve? alive k := by
  have hfilter := h.guest.filter_eq (b := keepsBacklink alive) (k := k) fun _ hb => ⟨hb, hk⟩
  rw [resolve?_eq_map, resolve?_eq_map, hfilter]

end Registry

/-- What links mention has been issued. -/
theorem Links.issued {r : Registry} {h : Heap} {t : HandleTable GuestObject} (hl : Links r h t)
    {k : Handle} (hk : r.Mentions k) : t.Issued k := by
  rcases hk with ⟨i, hi⟩ | ⟨b, hb⟩ | ⟨key, hkey⟩
  · exact hl.issued_host i k hi
  · exact hl.issued_guest k b hb
  · obtain ⟨l, hl', rfl⟩ := Option.map_eq_some_iff.1 hkey
    exact hl.issued_primitive key l hl'

/-! ## States that are alike -/

/-- No weak reference is watched, and no collection is going on. -/
structure World.Idle (w : World) : Prop where
  watched : w.context.watched = []
  collecting : w.context.collecting = false

/-- **Two states are alike** to a call that holds `held`: they differ in nothing but hashes and
links that lead nowhere, in the strings that only the registry holds, and in the count of
crossings. Links are told apart by handles as long as the guest's table is in range. -/
structure World.Alike (held : List HostId) (w w' : World) : Prop where
  idle : w.Idle
  idle' : w'.Idle
  nodup : w.heap.cells.keys.Nodup
  nodup' : w'.heap.cells.keys.Nodup
  guest : w'.guest = w.guest
  bindings : w'.bindings = w.bindings
  cells : w'.cells = w.cells
  globals : w'.context.globals = w.context.globals
  next : w'.heap.next = w.heap.next
  state : w'.context.hasher.state = w.context.hasher.state
  firm : ∀ i, (w'.firm held).cell? i = (w.firm held).cell? i
  hashes : ∀ i, (w.firm held).isAlive i →
    w'.context.hasher.assigned.find? i = w.context.hasher.assigned.find? i
  links : w.InRange →
    w.context.registry.Agree (w.firm held).isAlive w.isLive w'.context.registry

namespace World

variable {held ids : List HostId} {w w' w'' : World} {i : HostId} {c : Cell}

theorem isAlive_congr {h h' : Heap} (hcells : ∀ i, h'.cell? i = h.cell? i) :
    h'.isAlive = h.isAlive := by
  funext i
  exact congrArg Option.isSome (hcells i)

/-! ### An equivalence -/

section Equivalence

theorem Alike.isLive (h : Alike held w w') : w'.isLive = w.isLive := by
  unfold World.isLive
  rw [h.guest]

theorem Alike.inRange (h : Alike held w w') (hin : w.InRange) : w'.InRange := by
  intro g hg
  exact hin g (h.guest ▸ hg)

/-- What is held without the registry is the same. -/
theorem Alike.anchors (h : Alike held w w') : w'.unlinked.holds = w.unlinked.holds := by
  simp only [World.holds, World.unlinked, Context.holds, h.idle.watched, h.idle'.watched, h.guest,
    h.bindings, h.cells, h.globals]

theorem Alike.isAlive (h : Alike held w w') : (w'.firm held).isAlive = (w.firm held).isAlive :=
  isAlive_congr h.firm

theorem Alike.refl (hi : w.Idle) (hn : w.heap.cells.keys.Nodup) (held : List HostId) :
    Alike held w w :=
  ⟨hi, hi, hn, hn, rfl, rfl, rfl, rfl, rfl, rfl, fun _ => rfl, fun _ _ => rfl,
    fun _ => .refl _ _ _⟩

theorem Alike.symm (h : Alike held w w') : Alike held w' w where
  idle := h.idle'
  idle' := h.idle
  nodup := h.nodup'
  nodup' := h.nodup
  guest := h.guest.symm
  bindings := h.bindings.symm
  cells := h.cells.symm
  globals := h.globals.symm
  next := h.next.symm
  state := h.state.symm
  firm i := (h.firm i).symm
  hashes i hi := (h.hashes i (h.isAlive ▸ hi)).symm
  links hin := by
    have hin' : w.InRange := fun g hg => hin g (h.guest.trans hg)
    rw [h.isAlive, h.isLive]
    exact (h.links hin').symm

theorem Alike.trans (h : Alike held w w') (h' : Alike held w' w'') : Alike held w w'' where
  idle := h.idle
  idle' := h'.idle'
  nodup := h.nodup
  nodup' := h'.nodup'
  guest := h'.guest.trans h.guest
  bindings := h'.bindings.trans h.bindings
  cells := h'.cells.trans h.cells
  globals := h'.globals.trans h.globals
  next := h'.next.trans h.next
  state := h'.state.trans h.state
  firm i := (h'.firm i).trans (h.firm i)
  hashes i hi := (h'.hashes i (h.isAlive ▸ hi)).trans (h.hashes i hi)
  links hin := by
    have h₂ := h'.links (h.inRange hin)
    rw [h.isAlive, h.isLive] at h₂
    exact (h.links hin).trans h₂

end Equivalence

/-! ### What is the same -/

section Same

/-- The call, or the state without its registry, holds the identity, or something firm does. -/
def Anchored (w : World) (held : List HostId) (i : HostId) : Prop :=
  i ∈ held ++ w.unlinked.holds ∨ ∃ l d, (w.firm held).cell? l = some d ∧ i ∈ d.holds

theorem anchored_of_mem (hi : i ∈ held) : w.Anchored held i := .inl (List.mem_append_left _ hi)

theorem anchored_of_holds (hi : i ∈ w.unlinked.holds) : w.Anchored held i :=
  .inl (List.mem_append_right _ hi)

theorem anchored_of_isAlive (hn : w.heap.cells.keys.Nodup) (hi : (w.firm held).isAlive i) :
    w.Anchored held i :=
  Heap.held_of_isAlive_reclaim (h := w.heap) hn hi

/-- What is anchored is firm, if it is there at all. -/
theorem Anchored.firm (hi : w.Anchored held i) (hn : w.heap.cells.keys.Nodup)
    (hc : w.heap.cell? i = some c) : (w.firm held).cell? i = some c :=
  (Heap.cell?_reclaim_iff (h := w.heap) hn).2 ⟨hc, hi⟩

theorem Alike.anchored (h : Alike held w w') (hi : w.Anchored held i) : w'.Anchored held i := by
  unfold Anchored
  rw [h.anchors]
  refine hi.imp id ?_
  rintro ⟨l, d, hd, hm⟩
  exact ⟨l, d, (h.firm l).trans hd, hm⟩

/-- A cell that is anchored is the same, and is missing from both states if from one. -/
theorem Alike.cell?_eq (h : Alike held w w') (hi : w.Anchored held i) :
    w'.heap.cell? i = w.heap.cell? i := by
  apply Option.ext
  intro c
  constructor <;> intro hc
  · have hfirm := (h.anchored hi).firm h.nodup' hc
    exact cell?_of_firm h.nodup ((h.firm i).symm.trans hfirm)
  · have hfirm := hi.firm h.nodup hc
    exact cell?_of_firm h.nodup' ((h.firm i).trans hfirm)

end Same

/-! ### Changes -/

section Changes

/-- The heap that remains for fewer roots is the same. -/
theorem Alike.cell?_reclaim (h : Alike ids w w') {roots : List HostId}
    (hsub : ∀ i ∈ roots, i ∈ ids ++ w.unlinked.holds) (i : HostId) :
    (w'.heap.reclaim roots).cell? i = (w.heap.reclaim roots).cell? i := by
  have hsub' : ∀ i ∈ roots, i ∈ ids ++ w'.unlinked.holds := fun i hi => h.anchors ▸ hsub i hi
  rw [← Heap.cell?_reclaim_reclaim h.nodup hsub, ← Heap.cell?_reclaim_reclaim h.nodup' hsub']
  have hn : (w.firm ids).cells.keys.Nodup := Heap.nodup_reclaim h.nodup _
  have hn' : (w'.firm ids).cells.keys.Nodup := Heap.nodup_reclaim h.nodup' _
  exact Heap.cell?_reclaim_congr hn hn' h.firm roots i

/-- **States stay alike when the guest and the variables change**, as long as nothing new is held and
no handle is live that links mention and that was not live. -/
theorem Alike.rebind (h : Alike ids w w') {g : Option Guest} {b : OrderedMap String GuestValue}
    (hsub : ∀ i ∈ held ++ (World.unlinked { w with guest := g, bindings := b }).holds,
      i ∈ ids ++ w.unlinked.holds)
    (hlive : World.InRange { w with guest := g, bindings := b } → w.InRange ∧
      ∀ k, w.context.registry.Mentions k ∨ w'.context.registry.Mentions k →
        World.isLive { w with guest := g, bindings := b } k → w.isLive k) :
    Alike held { w with guest := g, bindings := b } { w' with guest := g, bindings := b } := by
  have hanchors : (World.unlinked { w' with guest := g, bindings := b }).holds =
      (World.unlinked { w with guest := g, bindings := b }).holds := by
    simp only [World.holds, World.unlinked, Context.holds, h.idle.watched, h.idle'.watched, h.cells,
      h.globals]
  -- what is firm now was firm before, so there is less for hashes and links to agree about
  have hless : ∀ i, (World.firm { w with guest := g, bindings := b } held).isAlive i →
      (w.firm ids).isAlive i := by
    intro i hi
    obtain ⟨c, hc⟩ := Heap.isAlive_iff.1 hi
    exact Heap.isAlive_of_cell? (Heap.cell?_reclaim_mono (h := w.heap) h.nodup hsub hc)
  exact {
    idle := ⟨h.idle.watched, h.idle.collecting⟩
    idle' := ⟨h.idle'.watched, h.idle'.collecting⟩
    nodup := h.nodup
    nodup' := h.nodup'
    guest := rfl
    bindings := rfl
    cells := h.cells
    globals := h.globals
    next := h.next
    state := h.state
    firm := fun i => by
      show (w'.heap.reclaim (held ++ _)).cell? i = (w.heap.reclaim (held ++ _)).cell? i
      rw [hanchors]
      exact h.cell?_reclaim hsub i
    hashes := fun i hi => h.hashes i (hless i hi)
    links := fun hin => (h.links (hlive hin).1).mono hless (hlive hin).2 }

/-- States that are alike to a call are alike to one that holds less. -/
theorem Alike.mono (h : Alike ids w w') (hsub : ∀ i ∈ held, i ∈ ids) : Alike held w w' := by
  have hsame : w' = { w' with guest := w.guest, bindings := w.bindings } := by
    rw [← h.guest, ← h.bindings]
  rw [hsame]
  refine h.rebind (g := w.guest) (b := w.bindings) (fun i hi => ?_)
    fun hin => ⟨hin, fun _ _ => id⟩
  exact List.mem_append.2 ((List.mem_append.1 hi).imp (hsub i) id)

/-- States that are alike to a call are alike to one that holds, besides, what is held anyway. -/
theorem Alike.grow (h : Alike held w w') (hids : ∀ j ∈ ids, w.Anchored held j) :
    Alike (ids ++ held) w w' := by
  have hcells : ∀ i, (w.firm (ids ++ held)).cell? i = (w.firm held).cell? i := by
    intro i
    show (w.heap.reclaim ((ids ++ held) ++ _)).cell? i = _
    rw [List.append_assoc]
    exact Heap.cell?_reclaim_append h.nodup hids i
  have hcells' : ∀ i, (w'.firm (ids ++ held)).cell? i = (w'.firm held).cell? i := by
    intro i
    show (w'.heap.reclaim ((ids ++ held) ++ _)).cell? i = _
    rw [List.append_assoc]
    exact Heap.cell?_reclaim_append h.nodup' (fun j hj => h.anchored (hids j hj)) i
  -- both keep what they kept, so nothing that is compared changes
  have halive := isAlive_congr hcells
  exact { h with
    firm := fun i => by rw [hcells, hcells', h.firm]
    hashes := fun i hi => h.hashes i (halive ▸ hi)
    links := fun hin => halive ▸ h.links hin }

/-- A map of identities that are taken has nothing for the next one. -/
theorem find?_next {ν : Type} {m : OrderedMap HostId ν} {n : ℕ} (hm : ∀ i ∈ m.keys, i.index < n) :
    m.find? ⟨n⟩ = none := by
  rw [Option.eq_none_iff_forall_ne_some]
  intro x hx
  exact absurd (hm _ (OrderedMap.mem_keys_iff.2 ⟨x, hx⟩)) (lt_irrefl n)

/-- What is firm after a cell has been made: the cell, and what was firm before. -/
theorem firm_alloc (hw : w.OK held) (hc : ∀ j ∈ c.holds, j ∈ ids) (i : HostId) :
    (World.firm { w with heap := (w.heap.alloc c).2 } (⟨w.heap.next⟩ :: ids)).cell? i =
      if i = ⟨w.heap.next⟩ then some c else (w.firm ids).cell? i :=
  Heap.cell?_reclaim_alloc hw.heap (fun j hj => List.mem_append_left _ (hc j hj)) i

/-- **States stay alike when the same cell is made in both.** -/
theorem Alike.alloc (h : Alike ids w w') (hw : w.OK held) (hw' : w'.OK held)
    (hc : ∀ j ∈ c.holds, j ∈ ids) :
    Alike (⟨w.heap.next⟩ :: ids) { w with heap := (w.heap.alloc c).2 }
      { w' with heap := (w'.heap.alloc c).2 } := by
  have hfirm := firm_alloc hw hc
  have hfirm' := firm_alloc hw' hc
  rw [h.next] at hfirm'
  have halive : ∀ i, i ≠ ⟨w.heap.next⟩ →
      (World.firm { w with heap := (w.heap.alloc c).2 } (⟨w.heap.next⟩ :: ids)).isAlive i →
      (w.firm ids).isAlive i := by
    intro i hi ha
    obtain ⟨d, hd⟩ := Heap.isAlive_iff.1 ha
    rw [hfirm, if_neg hi] at hd
    exact Heap.isAlive_of_cell? hd
  have hhost : w.context.registry.hostLinks.find? ⟨w.heap.next⟩ = none :=
    find?_next hw.context.registry.host
  have hhost' : w'.context.registry.hostLinks.find? ⟨w.heap.next⟩ = none := by
    rw [← h.next]
    exact find?_next hw'.context.registry.host
  have hhash : w.context.hasher.assigned.find? ⟨w.heap.next⟩ = none := find?_next hw.context.hashes
  have hhash' : w'.context.hasher.assigned.find? ⟨w.heap.next⟩ = none := by
    rw [← h.next]
    exact find?_next hw'.context.hashes
  -- hashes and links agree about the new cell since neither state has any of it
  exact { h with
    idle := ⟨h.idle.watched, h.idle.collecting⟩
    idle' := ⟨h.idle'.watched, h.idle'.collecting⟩
    nodup := OrderedMap.nodup_keys_insert h.nodup _ _
    nodup' := OrderedMap.nodup_keys_insert h.nodup' _ _
    next := congrArg Nat.succ h.next
    firm := fun i => by rw [hfirm, hfirm', h.firm]
    hashes := fun i hi => by
      by_cases he : i = ⟨w.heap.next⟩
      · rw [he, hhash, hhash']
      · exact h.hashes i (halive i he hi)
    links := fun hin => by
      have hlinks := h.links hin
      refine ⟨hlinks.host.mono fun i k hx hp => ⟨halive i ?_ hp.1, hp.2⟩,
        hlinks.guest.mono fun k b hx hp => ⟨?_, hp.2⟩, hlinks.content⟩
      · rintro rfl
        rw [hhost, hhost'] at hx
        cases hx <;> contradiction
      · cases b with
        | primitive v => rfl
        | weak x =>
          have hlt : x.id.index < w.heap.next := by
            rcases hx with hx | hx
            · exact (hw.context.registry.backlinks _ (OrderedMap.mem_values_of_find? hx)).1.lt_next
            · rw [← h.next]
              exact (hw'.context.registry.backlinks _ (OrderedMap.mem_values_of_find? hx)).1.lt_next
          refine halive x.id ?_ hp.1
          intro he
          rw [he] at hlt
          exact lt_irrefl _ hlt }

/-- States stay alike when their registries change and still agree. -/
theorem Alike.relink (h : Alike held w w') {r r' : Registry}
    (hr : w.InRange → r.Agree (w.firm held).isAlive w.isLive r') :
    Alike held { w with context.registry := r } { w' with context.registry := r' } :=
  { h with
    idle := ⟨h.idle.watched, h.idle.collecting⟩
    idle' := ⟨h.idle'.watched, h.idle'.collecting⟩
    links := hr }

/-- States stay alike when the same value is hashed in both. -/
theorem Alike.rehash (h : Alike held w w') {j : HostId} (hj : (w.firm held).isAlive j) :
    (w'.context.hasher.hashIdentity j).1 = (w.context.hasher.hashIdentity j).1 ∧
      Alike held { w with context.hasher := (w.context.hasher.hashIdentity j).2 }
        { w' with context.hasher := (w'.context.hasher.hashIdentity j).2 } := by
  have hsame := h.hashes j hj
  cases hc : w.context.hasher.assigned.find? j with
  | some code =>
    rw [Hasher.hashIdentity_of_assigned hc, Hasher.hashIdentity_of_assigned (hsame.trans hc)]
    exact ⟨rfl, h⟩
  | none =>
    rw [Hasher.hashIdentity_of_new hc, Hasher.hashIdentity_of_new (hsame.trans hc), h.state]
    refine ⟨rfl, { h with
      idle := ⟨h.idle.watched, h.idle.collecting⟩
      idle' := ⟨h.idle'.watched, h.idle'.collecting⟩
      state := rfl
      hashes := fun i hi => ?_ }⟩
    show OrderedMap.find? (OrderedMap.insert _ _ _) i = OrderedMap.find? (OrderedMap.insert _ _ _) i
    rw [OrderedMap.find?_insert, OrderedMap.find?_insert]
    by_cases hi' : i = j
    · rw [if_pos hi', if_pos hi']
    · rw [if_neg hi', if_neg hi']
      exact h.hashes i hi

end Changes

/-! ### Collections -/

section Collections

/-- How often crossings have been counted does not matter. -/
theorem alike_recount (hi : w.Idle) (hn : w.heap.cells.keys.Nodup) (n : ℕ) (held : List HostId) :
    Alike held w { w with context.crossings := n } :=
  { Alike.refl hi hn held with idle' := ⟨hi.watched, hi.collecting⟩ }

/-- A reclaim leaves a state that is alike. -/
theorem alike_settled (hi : w.Idle) (hn : w.heap.cells.keys.Nodup) (held : List HostId) :
    Alike held w (w.settled held) :=
  { Alike.refl hi hn held with
    idle' := ⟨hi.watched, hi.collecting⟩
    nodup' := Heap.nodup_reclaim hn _
    firm := fun i => by
      refine Heap.cell?_reclaim_reclaim (h := w.heap) hn (fun j hj => ?_) i
      exact List.mem_append.2
        ((List.mem_append.1 hj).imp id fun hj => World.mem_holds_iff.2 (.inr hj)) }

/-- A sweep leaves a state that is alike. -/
theorem alike_swept (hw : w.OK held) (hi : w.Idle) : Alike held w (w.swept held) := by
  -- a sweep keeps what is alive, and what is firm is alive
  have hfirm : ∀ i, (w.firm held).isAlive i → (w.settled held).heap.isAlive i := fun i =>
    World.isAlive_settled_of_firm hw.heap.nodup
  exact { alike_settled hi hw.heap.nodup held with
    idle' := ⟨hi.watched, hi.collecting⟩
    state := rfl
    hashes := fun i hi => by
      show (OrderedMap.filter _ _).find? i = _
      rw [OrderedMap.find?_filter hw.context.nodup_hashes]
      cases w.context.hasher.assigned.find? i with
      | none => rfl
      | some code => exact Option.filter_some_pos (hfirm i hi)
    links := fun _ => hw.context.registry.agree_sweep hfirm _ }

/-- **A collection leaves a state that is alike**, if there is nothing to give notice of. -/
theorem alike_pass (hw : w.OK held) (hi : w.Idle) :
    Alike held w { (w.polled held).swept held with context.collecting := false } := by
  have hsettled := alike_settled hi hw.heap.nodup held
  have hok : (w.settled held).OK held := (Reaches.settled (ℓ := .crossing) (by decide) w held).ok hw
  have hswept := alike_swept hok hsettled.idle'
  refine (hsettled.trans hswept).trans ?_
  have hpass : { (w.polled held).swept held with context.collecting := false } =
      { (w.settled held).swept held with context.crossings := 0 } := by
    obtain ⟨⟨_, _, _, watched, _, collecting, _⟩, _, _, _, _, _⟩ := w
    obtain ⟨rfl, rfl⟩ := hi
    rfl
  rw [hpass]
  exact alike_recount hswept.idle' hswept.nodup' 0 held

end Collections

end World

end GuestBridge
