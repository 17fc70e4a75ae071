import GuestBridge.Proofs.Stale

/-!
# After a collection the links are inverse to each other

The registry keeps three maps, and a sweep filters each of them by a test of its own: host
links by host value and handle, primitives by handle, and guest links by what they lead back
to and handle. While the links agree (`Links`), the tests come to the same: what goes from
one direction goes from the other, and what stays leads both ways.

* `World.Inverse`: the maps are inverse to each other, but for the wrapper instances, which
  know their handles by themselves.
* `World.Inverse.size`: **a guest link for every host link, every primitive and every wrapper
  instance**, and no more.
* `collectGarbage_inverse`: **after a collection the links are inverse to each other**, and
  another sweep removes none, over whole runs.
-/

namespace GuestBridge

/-! ## Values with a property, and maps -/

namespace OrderedMap

variable {κ ν α : Type} {m : OrderedMap κ ν} {f : ν → Option α}

/-- A filter that every entry passes. -/
theorem filter_eq_self {p : κ → ν → Bool} (h : ∀ e ∈ m.entries, p e.1 e.2) : m.filter p = m := by
  rw [filter, List.filter_eq_self.2 h]

variable [DecidableEq κ]

theorem mem_filterMap_values (h : m.keys.Nodup) {a : α} :
    a ∈ m.values.filterMap f ↔ ∃ k v, m.find? k = some v ∧ f v = some a := by
  simp [values, find?_eq_some_iff h]

/-- What is taken from the values is distinct if it tells the key. -/
theorem nodup_filterMap_values (h : m.keys.Nodup)
    (hinj : ∀ k k' v v' a, m.find? k = some v → m.find? k' = some v' → f v = some a →
      f v' = some a → k = k') : (m.values.filterMap f).Nodup := by
  have hne : m.entries.Pairwise fun e e' => e.1 ≠ e'.1 := List.pairwise_map.1 h
  rw [values, List.Nodup, List.pairwise_filterMap, List.pairwise_map]
  refine hne.imp_of_mem fun {e e'} he he' hkey a ha a' ha' haa => ?_
  subst haa
  exact hkey (hinj _ _ _ _ a ((find?_eq_some_iff h).2 he) ((find?_eq_some_iff h).2 he') ha ha')

end OrderedMap

variable {h : Heap} {r : Registry} {held : List HostId} {w : World} {k : Handle}

/-! ## What a sweep leaves -/

/-- Every link has its host value and its guest object. -/
structure World.Tidy (w : World) : Prop where
  host : ∀ i k, w.context.registry.hostLinks.find? i = some k → w.heap.isAlive i ∧ w.isLive k
  guest : ∀ k b, w.context.registry.guestLinks.find? k = some b →
    Registry.keepsBacklink w.heap.isAlive b ∧ w.isLive k
  primitive : ∀ key l, w.context.registry.primitives.find? key = some l → w.isLive l.handle

theorem World.reaches_swept (w : World) (held : List HostId) :
    Reaches .crossing held w (w.swept held) :=
  (Reaches.settled (by decide) w held).trans (Reaches.cross (by decide) .sweep)

/-- **After a sweep every link has its host value and its guest object.** -/
theorem World.tidy_swept (hw : w.OK held) : (w.swept held).Tidy :=
  have hr := hw.context.registry
  ⟨fun i k hk => ((hr.hostLinks_sweep _ _ i k).1 hk).2,
    fun k b hb => ((hr.guestLinks_sweep _ _ k b).1 hb).2,
    fun key l hl => ((hr.primitives_sweep _ _ key l).1 hl).2⟩

/-! ## Inverse links -/

/-- The live handles that wrapper instances stand for, once for each instance. -/
def World.instances (w : World) : List Handle :=
  w.heap.cells.values.filterMap fun c => c.handle?.filter w.isLive

/-- The handles that anything but a guest link leads to: of host links, of primitives, and of
wrapper instances. -/
def World.linkedHandles (w : World) : List Handle :=
  w.context.registry.hostLinks.values ++
    (w.context.registry.primitives.values.map PrimitiveLink.handle ++ w.instances)

/-- The links are inverse to each other, and every one has its host value and its guest object. -/
structure World.Inverse (w : World) : Prop where
  /-- An object or a symbol, wrapper instances apart, leads to the handle that leads back to it. -/
  host : ∀ i k, w.context.registry.hostLinks.find? i = some k ↔
    ∃ x : Referent, x.id = i ∧ x.toValue.identity? = some x ∧ w.Plain x.toValue ∧
      w.context.registry.guestLinks.find? k = some (.weak x)
  /-- A content leads to the handle that leads back to a primitive of that content. -/
  primitive : ∀ key k,
    (w.context.registry.primitives.find? key).map PrimitiveLink.handle = some k ↔
      ∃ v, PrimitiveKey.of? v = some key ∧
        w.context.registry.guestLinks.find? k = some (.primitive v)
  /-- The handle of a wrapper instance leads back to it. -/
  wrapper : ∀ i k, w.heap.wrappedHandle? i = some k → w.isLive k →
    w.context.registry.guestLinks.find? k = some (.weak (.object i))
  /-- What no host link and no content leads to is the handle of a wrapper instance. -/
  rest : ∀ k b, w.context.registry.guestLinks.find? k = some b →
    (∃ i, w.context.registry.hostLinks.find? i = some k) ∨
      (∃ key, (w.context.registry.primitives.find? key).map PrimitiveLink.handle = some k) ∨
        ∃ i, b = .weak (.object i) ∧ w.heap.wrappedHandle? i = some k
  live : ∀ k b, w.context.registry.guestLinks.find? k = some b → w.isLive k
  backs : ∀ k x, w.context.registry.guestLinks.find? k = some (.weak x) →
    w.heap.Backs (.value x.toValue)

/-- **Links that agree are inverse to each other** when each has its host value and its guest
object. -/
theorem World.Tidy.inverse (ht : w.Tidy) (hw : w.OK held) (hl : w.Linked) (hin : w.InRange) :
    w.Inverse := by
  -- after a sweep every handle in a link is live, so the links say where it leads
  have links : ∀ {k}, w.isLive k → ∃ g, w.guest = some g ∧ g.heap.isLive k ∧
      Links w.context.registry w.heap g.heap := by
    intro k hk
    obtain ⟨g, hg, hlive⟩ := World.isLive_iff.1 hk
    exact ⟨g, hg, hlive, hl g hg (hin g hg)⟩
  refine ⟨fun i k => ⟨fun hk => ?_, ?_⟩, fun key k => ⟨fun hk => ?_, ?_⟩, fun i k hi hk => ?_,
    fun k b hb => ?_, fun k b hb => (ht.guest k b hb).2, fun k x hb => ?_⟩
  · obtain ⟨g, -, hlive, hlinks⟩ := links (ht.host i k hk).2
    obtain ⟨x, hx, hid, hp, hb, -⟩ := hlinks.host i k hk hlive
    exact ⟨x, hx, hid, hp, hb⟩
  · rintro ⟨x, rfl, -, hp, hb⟩
    obtain ⟨halive, hk⟩ := ht.guest k _ hb
    obtain ⟨g, -, hlive, hlinks⟩ := links hk
    rcases hlinks.weak k x hb hlive halive with hinst | ⟨-, -, hhost⟩
    · cases hp.symm.trans hinst
    · exact hhost
  · obtain ⟨l, hl, rfl⟩ := Option.map_eq_some_iff.1 hk
    obtain ⟨g, -, hlive, hlinks⟩ := links (ht.primitive key l hl)
    obtain ⟨v, hv, hb, -⟩ := hlinks.primitive key l hl hlive
    exact ⟨v, hv, hb⟩
  · rintro ⟨v, hv, hb⟩
    obtain ⟨g, -, hlive, hlinks⟩ := links (ht.guest k _ hb).2
    obtain ⟨key', l, hv', hl, rfl⟩ := hlinks.primitive_back k v hb hlive
    obtain rfl := Option.some.inj (hv'.symm.trans hv)
    rw [hl, Option.map_some]
  · obtain ⟨g, -, hlive, hlinks⟩ := links hk
    exact hlinks.wrapped i k hi hlive
  · obtain ⟨hkeeps, hk⟩ := ht.guest k b hb
    obtain ⟨g, -, hlive, hlinks⟩ := links hk
    cases b with
    | weak x =>
      rcases hlinks.weak k x hb hlive hkeeps with hinst | ⟨-, -, hhost⟩
      · cases x with
        | object i => exact .inr (.inr ⟨i, rfl, hinst⟩)
        | _ => cases hinst
      · exact .inl ⟨_, hhost⟩
    | primitive v =>
      obtain ⟨key, l, -, hl, rfl⟩ := hlinks.primitive_back k v hb hlive
      exact .inr (.inl ⟨key, by rw [hl, Option.map_some]⟩)
  · exact (hw.context.registry.backlinks _ (OrderedMap.mem_values_of_find? hb)).1.backs
      (ht.guest k _ hb).1

/-! ## How many links there are -/

namespace World.Inverse

theorem mem_instances (hn : w.heap.cells.keys.Nodup) :
    k ∈ w.instances ↔ w.isLive k ∧ ∃ i, w.heap.wrappedHandle? i = some k := by
  simp only [instances, OrderedMap.mem_filterMap_values hn, Heap.wrappedHandle?_eq,
    Option.filter_eq_some_iff, Option.bind_eq_some_iff]
  constructor
  · rintro ⟨i, c, hc, hk, hlive⟩
    exact ⟨hlive, i, c, hc, hk⟩
  · rintro ⟨hlive, i, c, hc, hk⟩
    exact ⟨i, c, hc, hk, hlive⟩

/-- A live handle is that of one wrapper instance at most. -/
theorem nodup_instances (hi : w.Inverse) (hn : w.heap.cells.keys.Nodup) : w.instances.Nodup := by
  have back : ∀ {i c k}, w.heap.cells.find? i = some c → c.handle?.filter w.isLive = some k →
      w.context.registry.guestLinks.find? k = some (.weak (.object i)) := by
    intro i c k hc hk
    obtain ⟨hk, hlive⟩ := Option.filter_eq_some_iff.1 hk
    refine hi.wrapper i k ?_ hlive
    rw [Heap.wrappedHandle?_eq]
    exact Option.bind_eq_some_iff.2 ⟨c, hc, hk⟩
  refine OrderedMap.nodup_filterMap_values hn fun i j c d k hc hd hck hdk => ?_
  cases (back hc hck).symm.trans (back hd hdk)
  rfl

/-- No two objects or symbols are linked to one handle. -/
theorem nodup_hostHandles (hi : w.Inverse) (hn : w.context.registry.hostLinks.keys.Nodup) :
    w.context.registry.hostLinks.values.Nodup := by
  rw [← List.filterMap_some (l := w.context.registry.hostLinks.values)]
  refine OrderedMap.nodup_filterMap_values hn fun i j k k' a hk hk' ha ha' => ?_
  cases ha
  cases ha'
  obtain ⟨x, rfl, -, -, hb⟩ := (hi.host i _).1 hk
  obtain ⟨y, rfl, -, -, hb'⟩ := (hi.host j _).1 hk'
  cases hb.symm.trans hb'
  rfl

/-- No two contents are linked to one handle. -/
theorem nodup_primitiveHandles (hi : w.Inverse)
    (hn : w.context.registry.primitives.keys.Nodup) :
    (w.context.registry.primitives.values.map PrimitiveLink.handle).Nodup := by
  rw [← List.filterMap_eq_map]
  refine OrderedMap.nodup_filterMap_values hn fun key key' l l' k hl hl' hk hk' => ?_
  obtain ⟨v, hv, hb⟩ := (hi.primitive key k).1 (by rw [hl]; exact hk)
  obtain ⟨v', hv', hb'⟩ := (hi.primitive key' k).1 (by rw [hl']; exact hk')
  cases hb.symm.trans hb'
  exact Option.some.inj (hv.symm.trans hv')

theorem mem_hostHandles (hn : w.context.registry.hostLinks.keys.Nodup) :
    k ∈ w.context.registry.hostLinks.values ↔
      ∃ i, w.context.registry.hostLinks.find? i = some k := by
  simp [OrderedMap.values, OrderedMap.find?_eq_some_iff hn]

theorem mem_primitiveHandles (hn : w.context.registry.primitives.keys.Nodup) :
    k ∈ w.context.registry.primitives.values.map PrimitiveLink.handle ↔
      ∃ key, (w.context.registry.primitives.find? key).map PrimitiveLink.handle = some k := by
  simp [OrderedMap.values, OrderedMap.find?_eq_some_iff hn]

/-- What leads to a handle is of one kind, since its guest link leads back to one value. -/
theorem nodup_linkedHandles (hi : w.Inverse) (hw : w.OK held) : w.linkedHandles.Nodup := by
  have hr := hw.context.registry
  refine List.nodup_append.2 ⟨hi.nodup_hostHandles hr.nodup_host, List.nodup_append.2
    ⟨hi.nodup_primitiveHandles hr.nodup_primitives, hi.nodup_instances hw.heap.nodup, ?_⟩, ?_⟩
  -- the guest link of one handle cannot be a content, an instance and another value's at once
  · rintro k hk _ hk' rfl
    obtain ⟨key, hk⟩ := (mem_primitiveHandles hr.nodup_primitives).1 hk
    obtain ⟨hlive, i, hk'⟩ := (mem_instances hw.heap.nodup).1 hk'
    obtain ⟨v, -, hb⟩ := (hi.primitive key k).1 hk
    cases hb.symm.trans (hi.wrapper i k hk' hlive)
  · rintro k hk _ hk' rfl
    obtain ⟨i, hk⟩ := (mem_hostHandles hr.nodup_host).1 hk
    obtain ⟨x, -, -, hp, hb⟩ := (hi.host i k).1 hk
    rcases List.mem_append.1 hk' with hk' | hk'
    · obtain ⟨key, hk'⟩ := (mem_primitiveHandles hr.nodup_primitives).1 hk'
      obtain ⟨v, -, hb'⟩ := (hi.primitive key k).1 hk'
      cases hb.symm.trans hb'
    · obtain ⟨hlive, j, hk'⟩ := (mem_instances hw.heap.nodup).1 hk'
      cases hb.symm.trans (hi.wrapper j k hk' hlive)
      cases hp.symm.trans hk'

/-- A handle has a guest link iff something else leads to it. -/
theorem mem_linkedHandles (hi : w.Inverse) (hw : w.OK held) :
    k ∈ w.context.registry.guestLinks.keys ↔ k ∈ w.linkedHandles := by
  have hr := hw.context.registry
  simp only [linkedHandles, OrderedMap.mem_keys_iff, List.mem_append, mem_hostHandles hr.nodup_host,
    mem_primitiveHandles hr.nodup_primitives, mem_instances hw.heap.nodup]
  constructor
  · rintro ⟨b, hb⟩
    rcases hi.rest k b hb with hk | hk | ⟨i, -, hk⟩
    · exact .inl hk
    · exact .inr (.inl hk)
    · exact .inr (.inr ⟨hi.live k b hb, i, hk⟩)
  · rintro (⟨i, hk⟩ | ⟨key, hk⟩ | ⟨hlive, i, hk⟩)
    · obtain ⟨x, -, -, -, hb⟩ := (hi.host i k).1 hk
      exact ⟨_, hb⟩
    · obtain ⟨v, -, hb⟩ := (hi.primitive key k).1 hk
      exact ⟨_, hb⟩
    · exact ⟨_, hi.wrapper i k hk hlive⟩

/-- **A guest link for every host link, every primitive and every wrapper instance**, and no
more. -/
theorem size (hi : w.Inverse) (hw : w.OK held) :
    w.context.registry.guestLinks.size =
      w.context.registry.hostLinks.size + w.context.registry.primitives.size +
        w.instances.length := by
  have hperm : w.context.registry.guestLinks.keys.Perm w.linkedHandles :=
    (List.perm_ext_iff_of_nodup hw.context.registry.nodup_guest (hi.nodup_linkedHandles hw)).2
      fun _ => hi.mem_linkedHandles hw
  have hlength := hperm.length_eq
  simp only [linkedHandles, List.length_append, List.length_map, OrderedMap.keys, OrderedMap.values]
    at hlength
  simp only [OrderedMap.size]
  omega

end World.Inverse

/-! ## Collections -/

section Again

/-- The sweep of a registry that has nothing to remove. -/
theorem Registry.sweep_eq_self {alive : HostId → Bool} {live : Handle → Bool} (hr : r.OK h)
    (host : ∀ i k, r.hostLinks.find? i = some k → alive i ∧ live k)
    (guest : ∀ k b, r.guestLinks.find? k = some b → Registry.keepsBacklink alive b ∧ live k)
    (primitive : ∀ key l, r.primitives.find? key = some l → live l.handle) :
    r.sweep alive live = r := by
  have hhost : r.hostLinks.filter (fun i k => alive i && live k) = r.hostLinks := by
    refine OrderedMap.filter_eq_self fun e he => ?_
    rw [Bool.and_eq_true]
    exact host e.1 e.2 ((OrderedMap.find?_eq_some_iff hr.nodup_host).2 he)
  have hguest : r.guestLinks.filter (fun k b => Registry.keepsBacklink alive b && live k) =
      r.guestLinks := by
    refine OrderedMap.filter_eq_self fun e he => ?_
    rw [Bool.and_eq_true]
    exact guest e.1 e.2 ((OrderedMap.find?_eq_some_iff hr.nodup_guest).2 he)
  have hprim : r.primitives.filter (fun _ l => live l.handle) = r.primitives :=
    OrderedMap.filter_eq_self fun e he =>
      primitive e.1 e.2 ((OrderedMap.find?_eq_some_iff hr.nodup_primitives).2 he)
  -- each of the three filters keeps all that its map has
  rw [Registry.sweep, hhost, hguest, hprim]

/-- **Another sweep removes no link.** What it finds dead are strings, and no link tests these. -/
theorem World.Inverse.sweep_swept (hi : (w.swept held).Inverse) (hw : w.OK held) :
    ((w.swept held).swept held).context.registry = (w.swept held).context.registry := by
  have ht := World.tidy_swept hw
  have hr := ((World.reaches_swept w held).ok hw).context.registry
  -- what a weak link leads to is a cell that is no string, and the sweep keeps these
  have hstays : ∀ k x, (w.swept held).context.registry.guestLinks.find? k = some (.weak x) →
      ((w.swept held).settled held).heap.isAlive x.id := by
    intro k x hb
    obtain ⟨c, hc⟩ := Heap.isAlive_iff.1 (ht.guest k _ hb).1
    have hadmits := hr.backlinks _ (OrderedMap.mem_values_of_find? hb)
    exact World.isAlive_settled_swept hw hc (hadmits.ne_string hc)
  refine Registry.sweep_eq_self hr (fun i k hk => ⟨?_, (ht.host i k hk).2⟩) (fun k b hb =>
    ⟨?_, (ht.guest k b hb).2⟩) ht.primitive
  · obtain ⟨x, rfl, -, -, hb⟩ := (hi.host i k).1 hk
    exact hstays k x hb
  · cases b with
    | weak x => exact hstays k x hb
    | primitive v => rfl

end Again

namespace BridgeM

/-- A sweep that leaves the links as they are reports none. -/
theorem sweep_run_of_eq (hs : (w.swept held).context.registry = w.context.registry) :
    ∃ r, sweep {} held w = .ok r (w.swept held) ∧ r.registry = {} := by
  let before := w.context.registry.counts
  let after := (w.swept held).context.registry.counts
  have hnone : LinkCounts.mk (before.hostLinks - after.hostLinks)
      (before.guestLinks - after.guestLinks) (before.primitives - after.primitives) = {} := by
    simp [before, after, hs]
  exact ⟨_, sweep_run_eq {} held w, hnone⟩

/-- **After a collection the links are inverse to each other**, in all runs and as long as the
guest's table is in range.

A collection that any call starts comes to an end. Then host links and primitives are what the
guest links lead back to, and the other way round, but for wrapper instances, which have a guest
link each if their handle is live. So the guest links are as many as the host links, the primitives
and the wrapper instances together. Another sweep removes no link. -/
theorem collectGarbage_inverse (hw : w.Reachable) {w₁ : World} (hr : Reaches .outer [] w w₁)
    (hheld : ∀ i ∈ held, w₁.heap.isAlive i) (hc : w₁.context.collecting = false) :
    ∃ r w', collectGarbage held w₁ = .ok r w' ∧ (w'.InRange →
      w'.Inverse ∧
      w'.context.registry.guestLinks.size = w'.context.registry.hostLinks.size +
        w'.context.registry.primitives.size + w'.instances.length ∧
      ∃ r' w'', sweep {} held w' = .ok r' w'' ∧ r'.registry = {} ∧
        w''.context.registry = w'.context.registry) := by
  have hok₁ := hr.ok hw.ok
  have hokheld : w₁.OK held := hok₁.rehold hheld
  obtain ⟨r, w₂, hmoves, hrun⟩ := collectGarbage_ends hokheld hc
  have hok₂ := hmoves.ok hokheld
  have hall := ((collectGarbage_leads (ℓ := .crossing) (by decide) hokheld).ok hrun).1
  refine ⟨r, _, hrun, fun hin => ?_⟩
  have hinverse : (w₂.swept held).Inverse := (World.tidy_swept hok₂).inverse
    ((World.reaches_swept w₂ held).ok hok₂) (hall.linked hokheld (hr.linked hw.ok hw.linked)) hin
  have hagain := hinverse.sweep_swept hok₂
  obtain ⟨r', hsweep, hcounts⟩ := sweep_run_of_eq
    (w := { w₂.swept held with context.collecting := false }) hagain
  refine ⟨⟨hinverse.host, hinverse.primitive, hinverse.wrapper, hinverse.rest, hinverse.live,
    hinverse.backs⟩, ?_, r', _, hsweep, hcounts, hagain⟩
  exact hinverse.size ((World.reaches_swept w₂ held).ok hok₂)

/-- A session with an object that crossed back while it was wrapped, a number, a wrapper instance
of a guest string, and an object whose wrapper is gone. -/
def mixed : World :=
  let steps : List Step :=
    [.set "class" (.external (.class "C")), .set "object" (.external (.object [])),
      .set "other" (.external (.object [])), .set "text" (.text "a"),
      .perform (.setMode { reenter := true }) none,
      .perform (.context (.wrap (.variable "object"))) none,
      .perform (.context (.wrap (.number 1))) none,
      .perform (.context (.unwrap (.variable "class") (.variable "text"))) "instance",
      .perform (.context (.wrap (.variable "other"))) "gone",
      .perform (.free (.variable "gone")) none]
  (runSteps steps (World.load {} {}).2.2).2

/-- The dangling link goes, and one link of each other kind stays. -/
theorem mixed_is_inverse :
    ∃ r w', collectGarbage [] mixed = .ok r w' ∧ w'.Inverse ∧
      w'.context.registry.guestLinks.size = 1 + 1 + w'.instances.length := by
  have hw : mixed.Reachable := ⟨{}, {}, _, _, rfl, World.later_runSteps _ _⟩
  have hnone : ∀ i ∈ ([] : List HostId), mixed.heap.isAlive i := nofun
  obtain ⟨r, w', hrun, h⟩ := collectGarbage_inverse hw .refl hnone (by decide +kernel)
  obtain rfl : final collectGarbage [] mixed = w' := final_of_ok hrun
  obtain ⟨hinverse, hsize, -⟩ := h (by decide +kernel)
  have hhost : (final collectGarbage [] mixed).context.registry.hostLinks.size = 1 := by
    decide +kernel
  have hprim : (final collectGarbage [] mixed).context.registry.primitives.size = 1 := by
    decide +kernel
  exact ⟨r, _, hrun, hinverse, by rw [hsize, hhost, hprim]⟩

end BridgeM

end GuestBridge
