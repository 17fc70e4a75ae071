import GuestBridge.Proofs.Links
import GuestBridge.Proofs.Passes

/-!
# Values and handles lead to each other

In a reachable state the handle that a value has leads back to the value, and the value
that a handle stands for has the handle, as long as the guest has the object and its
table is in range. This is so although the links are kept in three maps that forget
values without notice, and although values cross again while they cross.

* `World.Reachable.linked`: **the links agree in every reachable state.**
* `World.handle?_eq_some_iff`: a value has a handle iff the handle stands for the value.
* `Reaches.handle?`: a value keeps its handle.
* `wrap_unwrap_inverse`: **wraps and unwraps undo each other**, over whole runs.
-/

namespace GuestBridge

/-- Whether the value is not-a-number. -/
def HostValue.isNaN (v : HostValue) : Bool := v.number?.any Binary.isNaN

/-- Strict equality, but not-a-number is the same as itself. -/
def HostValue.sameValueZero (v x : HostValue) : Bool :=
  v.strictEquals x || (v.isNaN && x.isNaN)

variable {h h' : Heap} {held : List HostId} {ℓ : Level} {w w' : World} {k : Handle} {v x : HostValue}

/-! ## Values that are the same -/

section Same

/-- A place is that of one number, but for the zeros. -/
theorem Double.eq_of_place? {x y : Double} {p : Int} (hx : x.place? = some p)
    (hy : y.place? = some p) : x = y ∨ p = 0 := by
  have hcode : 0 < Format.double.infinityCode := by decide
  rcases x with _ | s | ⟨s, c⟩ <;> rcases y with _ | t | ⟨t, d⟩ <;>
    (try cases s) <;> (try cases t) <;>
    simp only [Binary.place?, Option.some.injEq, reduceCtorEq] at hx hy <;>
    first
    | exact .inl rfl
    | omega
    | exact .inl (congrArg _ (Fin.ext (by omega)))

theorem Double.place?_eq_none {x : Double} : x.place? = none ↔ x.isNaN := by
  rcases x with _ | s | ⟨s, c⟩ <;> (try cases s) <;> simp [Binary.place?, Binary.isNaN]

theorem Double.equals_iff {x y : Double} :
    x.equals y ↔ ∃ p, x.place? = some p ∧ y.place? = some p := by
  unfold Binary.equals Binary.compare?
  cases x.place? with
  | none => simp
  | some p =>
    cases y.place? with
    | none => simp
    | some q =>
      change (some (compare p q) == some .eq) = true ↔ _
      rw [beq_iff_eq, Option.some.injEq, Std.compare_eq_iff_eq]
      simp [eq_comm]

/-- Numbers have the same content iff they have the same place. -/
theorem Double.content_eq_iff {x y : Double} :
    (if x.equals (.zero false) then .zero false else x : Double) =
        (if y.equals (.zero false) then .zero false else y) ↔ x.place? = y.place? := by
  have hzero : (Binary.zero false : Double).place? = some 0 := by rfl
  have hplace : ∀ z : Double,
      (if z.equals (.zero false) then .zero false else z : Double).place? = z.place? := by
    intro z
    split_ifs with hz
    · obtain ⟨p, hp, hp'⟩ := Double.equals_iff.1 hz
      rw [hp, hp']
    · rfl
  refine ⟨fun h => by rw [← hplace x, h, hplace y], fun h => ?_⟩
  cases hp : x.place? with
  -- a number without a place is no number, and there is one of these
  | none =>
    have hnan : ∀ z : Double, z.place? = none → z = .nan := fun z hz => by
      have := Double.place?_eq_none.1 hz
      cases z <;> simp_all [Binary.isNaN]
    rw [hnan x hp, hnan y (h ▸ hp)]
  | some p =>
    -- the two zeros share a place, and the content of both is the positive one
    rcases Double.eq_of_place? hp (h ▸ hp) with rfl | rfl
    · rfl
    · rw [if_pos (Double.equals_iff.2 ⟨0, hp, hzero⟩),
        if_pos (Double.equals_iff.2 ⟨0, h ▸ hp, hzero⟩)]

theorem Double.place?_eq_iff {x y : Double} :
    x.place? = y.place? ↔ x.equals y ∨ x.isNaN ∧ y.isNaN := by
  rw [Double.equals_iff, ← Double.place?_eq_none, ← Double.place?_eq_none]
  cases x.place? <;> cases y.place? <;> simp [eq_comm]

/-- **Primitives of the same content are the same.** -/
theorem PrimitiveKey.of?_eq_iff {v x : HostValue} {key : PrimitiveKey}
    (hv : PrimitiveKey.of? v = some key) :
    PrimitiveKey.of? x = some key ↔ v.sameValueZero x := by
  rw [← hv, @eq_comm _ (PrimitiveKey.of? x)]
  cases v <;> simp only [PrimitiveKey.of?, reduceCtorEq] at hv <;> clear hv <;> cases x <;>
    simp [PrimitiveKey.of?, HostValue.sameValueZero, HostValue.strictEquals, HostValue.isNaN,
      HostValue.number?]
  exact Double.content_eq_iff.trans Double.place?_eq_iff

theorem HostValue.sameValueZero_self (v : HostValue) : v.sameValueZero v := by
  cases hkey : PrimitiveKey.of? v with
  | some key => exact (PrimitiveKey.of?_eq_iff hkey).1 hkey
  | none =>
    cases v <;> simp [PrimitiveKey.of?] at hkey <;> simp [sameValueZero, strictEquals]

/-- What has one identity is the same. -/
theorem Heap.Backs.eq_of_id {r r' : Referent} (hr : h.Backs (.value r.toValue))
    (hr' : h.Backs (.value r'.toValue)) (hid : r.id = r'.id) : r = r' := by
  rcases r with i | ⟨i, d⟩ | ⟨i, t⟩ <;> rcases r' with j | ⟨j, e⟩ | ⟨j, u⟩ <;>
    obtain rfl : i = j := hid <;> simp_all [Heap.Backs, Referent.toValue]

/-- **An object or a symbol is the same as itself only.** -/
theorem HostValue.sameValueZero_iff_eq (hv : h.Backs (.value v)) (hx : h.Backs (.value x))
    (hid : v.hasIdentity) : v.sameValueZero x ↔ x = v := by
  cases v <;> simp [hasIdentity, identity?] at hid <;> cases x <;>
    simp [sameValueZero, strictEquals, isNaN, number?]
  next s t =>
    refine ⟨fun he => ?_, fun he => congrArg HostSymbol.id he.symm⟩
    have hst : Referent.symbol s = .symbol t := Heap.Backs.eq_of_id hv hx he
    exact (Referent.symbol.inj hst).symm
  next i j => exact eq_comm

end Same

/-! ## Reachable states -/

section Linked

/-- No value has crossed yet. -/
structure World.Fresh (w : World) : Prop where
  guest : w.guest = none
  registry : w.context.registry = {}
  wrapped : ∀ i, w.heap.wrappedHandle? i = none

theorem Quiet.fresh (m : Quiet w w') (hw : w.Fresh) : w'.Fresh := by
  cases m with
  | make parts weakLinks plain =>
    refine ⟨hw.guest, hw.registry, fun i => ?_⟩
    rw [Heap.wrappedHandle?_alloc, plain, hw.wrapped, ite_self]
  | alloc guest | link guest | reenter guest => cases hw.guest.symm.trans guest
  | _ => exact ⟨hw.guest, hw.registry, hw.wrapped⟩

theorem Reaches.fresh (hr : Reaches .quiet held w w') (hw : w.Fresh) : w'.Fresh := by
  induction hr with
  | refl => exact hw
  | tail _ m ih =>
    cases m with
    | quiet m => exact m.fresh ih
    | cross hℓ => exact absurd rfl hℓ

theorem World.initial_fresh (environment : Environment) : (World.initial environment).Fresh :=
  ⟨rfl, rfl, fun _ => rfl⟩

/-- **The links of a bridge that has been loaded agree**: there are none. -/
theorem World.load_linked {s : Setup} {environment : Environment} {o : Options}
    (hload : World.load s environment = (some o, .ok (), w)) : w.Linked := by
  obtain ⟨w₀, g, h₀, -, hheap, -, rfl⟩ := World.load_cases hload
  obtain ⟨-, hregistry, hwrapped⟩ := h₀.fresh (World.initial_fresh environment)
  intro g' hg' _
  obtain rfl := Option.some.inj hg'
  dsimp only
  rw [hregistry]
  constructor <;> intros <;> simp_all

/-- **The links agree in every reachable state.** -/
theorem World.Reachable.linked (hw : w.Reachable) : w.Linked := by
  obtain ⟨s, environment, o, w₀, hload, hlater⟩ := hw
  have hw₀ := World.load_ok hload
  exact (hlater.reaches hw₀).linked hw₀ (World.load_linked hload)

end Linked

/-! ## The handle of a value and the value of a handle -/

section Handles

theorem Lookup.of?_toValue {r : Referent} (hr : r.toValue.identity? = some r) :
    Lookup.of? r.toValue = some (.identity r) := by
  rw [Lookup.of?, hr]

/-- **A value has a handle iff the handle stands for the value**, if the guest has the object. -/
theorem World.handle?_eq_some_iff (hw : w.OK held) (hl : w.Linked) (hin : w.InRange)
    (hv : w.heap.Backs (.value v)) (hk : w.isLive k) : w.handle? v = some k ↔ w.StandsFor k v := by
  obtain ⟨g, hg, hlive⟩ := World.isLive_iff.1 hk
  have hlinks := hl g hg (hin g hg)
  have hguest := hw.guest g hg
  constructor
  · intro hh
    rcases Option.or_eq_some_iff.1 hh with hinstance | ⟨-, hlinked⟩
    · obtain ⟨i, hi, hwrapped⟩ := Option.bind_eq_some_iff.1 hinstance
      obtain rfl : v = .object i := by cases v <;> simp_all [HostValue.object?]
      exact ⟨_, hlinks.wrapped i k hwrapped hlive, rfl⟩
    · obtain ⟨l, hlookup, hfind⟩ := Option.bind_eq_some_iff.1 hlinked
      cases l with
      | identity r =>
        obtain ⟨rfl, -⟩ := Lookup.eq_toValue hlookup
        have hhost := (Option.filter_eq_some_iff.1 hfind).1
        obtain ⟨y, hy, -, -, hback, ho⟩ := hlinks.host r.id k hhost hlive
        exact ⟨_, hback, congrArg _ ((hguest.backs_wrapper ho).eq_of_id hv hy)⟩
      | primitive key =>
        obtain ⟨l, hprim, rfl⟩ := Option.map_eq_some_iff.1 (Option.filter_eq_some_iff.1 hfind).1
        obtain ⟨y, hy, hback, -⟩ := hlinks.primitive key l hprim hlive
        exact ⟨_, hback, hy.trans (Lookup.of?_eq_primitive_iff.1 hlookup).symm⟩
  -- the other way, the links back lead to the links that the look-up follows
  · rintro ⟨b, hb, hleads⟩
    cases b with
    | weak r =>
      obtain rfl : r.toValue = v := hleads
      rcases hlinks.weak k r hb hlive (hv.isAlive _ r.id_mem_holds) with hwrapped | ⟨hid, hp, hhost⟩
      · rw [World.handle?, hwrapped, Option.some_or]
      · rw [World.handle?_of_plain hp, Lookup.of?_toValue hid, Option.bind_some]
        exact Option.filter_eq_some_iff.2 ⟨hhost, hk⟩
    | primitive y =>
      obtain ⟨key, l, hy, hprim, rfl⟩ := hlinks.primitive_back k y hb hlive
      have hkey : PrimitiveKey.of? v = some key := Eq.trans (Eq.symm hleads) hy
      have hp : w.Plain v := by cases v <;> first | rfl | cases hkey
      rw [World.handle?_of_plain hp, Lookup.of?_eq_primitive_iff.2 hkey, Option.bind_some]
      exact Option.filter_eq_some_iff.2 ⟨Option.map_eq_some_iff.2 ⟨l, hprim, rfl⟩, hk⟩

/-- Links mention issued handles only. -/
theorem World.issued_of_handle? {g : Guest} (hl : Links w.context.registry w.heap g.heap)
    (hh : w.handle? v = some k) : g.heap.Issued k := by
  rcases Option.or_eq_some_iff.1 hh with hinstance | ⟨-, hlinked⟩
  · obtain ⟨i, -, hwrapped⟩ := Option.bind_eq_some_iff.1 hinstance
    exact hl.issued_wrapped i k hwrapped
  · obtain ⟨l, -, hfind⟩ := Option.bind_eq_some_iff.1 hlinked
    cases l with
    | identity r => exact hl.issued_host r.id k (Option.filter_eq_some_iff.1 hfind).1
    | primitive key =>
      obtain ⟨l, hprim, rfl⟩ := Option.map_eq_some_iff.1 (Option.filter_eq_some_iff.1 hfind).1
      exact hl.issued_primitive key l hprim

/-- A handle stands for a value for as long as both are there. -/
theorem Reaches.standsFor (hr : Reaches ℓ held w w') (hw : w.OK held) (hl : w.Linked)
    (hin : w'.InRange) (hk : w'.isLive k) (hv : ∀ i ∈ v.holds, w'.heap.isAlive i)
    (hs : w.StandsFor k v) : w'.StandsFor k v := by
  obtain ⟨b, hb, hleads⟩ := hs
  refine ⟨b, hr.backlink hw hl hin hk hb ?_, hleads⟩
  rintro r rfl
  obtain rfl : r.toValue = v := hleads
  exact hv _ r.id_mem_holds

/-- **A value keeps its handle** for as long as both are there. -/
theorem Reaches.handle? (hr : Reaches ℓ held w w') (hw : w.OK held) (hl : w.Linked)
    (hin : w'.InRange) (hk : w'.isLive k) (hv : w.heap.Backs (.value v))
    (hv' : ∀ i ∈ v.holds, w'.heap.isAlive i) (hh : w.handle? v = some k) : w'.handle? v = some k := by
  have hin₀ := hr.inRange hw hin hk
  have hissued : ∀ g, w.guest = some g → g.heap.Issued k := fun g hg =>
    World.issued_of_handle? (hl g hg (hin₀ g hg)) hh
  have hk₀ := hr.isLive_of_later hw hin hissued hk
  have hs := (World.handle?_eq_some_iff hw hl hin₀ hv hk₀).1 hh
  have hb' := hv.later hw.heap (hr.later hw) hv'
  refine (World.handle?_eq_some_iff (hr.ok hw) (hr.linked hw hl) hin hb' hk).2 ?_
  exact hr.standsFor hw hl hin hk hv' hs

/-- Values that share a live handle are the same. -/
theorem World.StandsFor.same (hl : w.Linked) (hin : w.InRange) (hk : w.isLive k)
    (hv : w.StandsFor k v) (hx : w.StandsFor k x) : v.sameValueZero x := by
  obtain ⟨b, hb, hleads⟩ := hv
  obtain ⟨b', hb', hleads'⟩ := hx
  obtain rfl := Option.some.inj (hb.symm.trans hb')
  cases b with
  | weak r =>
    obtain rfl : r.toValue = v := hleads
    obtain rfl : r.toValue = x := hleads'
    exact HostValue.sameValueZero_self _
  | primitive y =>
    obtain ⟨g, hg, hlive⟩ := World.isLive_iff.1 hk
    obtain ⟨key, -, hy, -⟩ := (hl g hg (hin g hg)).primitive_back k y hb hlive
    exact (PrimitiveKey.of?_eq_iff (Eq.trans (Eq.symm hleads) hy)).1 (Eq.trans (Eq.symm hleads') hy)

/-- Values that are the same share their handle. -/
theorem World.StandsFor.of_same (hl : w.Linked) (hin : w.InRange) (hk : w.isLive k)
    (hv : w.heap.Backs (.value v)) (hx : w.heap.Backs (.value x)) (hs : w.StandsFor k v)
    (hsame : v.sameValueZero x) : w.StandsFor k x := by
  obtain ⟨g, hg, hlive⟩ := World.isLive_iff.1 hk
  have hlinks := hl g hg (hin g hg)
  obtain ⟨b, hb, hleads⟩ := hs
  cases b with
  | weak r =>
    obtain rfl : r.toValue = v := hleads
    have hid : r.toValue.hasIdentity := by
      rcases hlinks.weak k r hb hlive (hv.isAlive _ r.id_mem_holds) with hinstance | ⟨hid, -, -⟩
      · cases r <;> first | rfl | cases hinstance
      · rw [HostValue.hasIdentity, hid]; rfl
    exact ⟨_, hb, ((HostValue.sameValueZero_iff_eq hv hx hid).1 hsame).symm⟩
  | primitive y =>
    obtain ⟨key, -, hy, -⟩ := hlinks.primitive_back k y hb hlive
    have hkey : PrimitiveKey.of? v = some key := Eq.trans (Eq.symm hleads) hy
    exact ⟨_, hb, hy.trans ((PrimitiveKey.of?_eq_iff hkey).2 hsame).symm⟩

end Handles

namespace BridgeM

/-! ## What a crossing gives -/

section Results

/-- The handle that a value has is given. -/
theorem handleOf_run_of_handle? (create : HostValue → BridgeM Handle) (held : List HostId)
    (hh : w.handle? v = some k) : handleOf create v held w = .ok (some k) w := by
  unfold handleOf
  rw [bind_run, get_run]
  dsimp only
  rcases Option.or_eq_some_iff.1 hh with hinstance | ⟨hplain, hlinked⟩
  · rw [hinstance]
    rfl
  · obtain ⟨l, hlookup, hfind⟩ := Option.bind_eq_some_iff.1 hlinked
    rw [hplain]
    dsimp only
    rw [hlookup]
    dsimp only
    rw [bind_run, recordedHandle_run, hfind]
    rfl

/-- What a handle resolves to, and the state after that: another reclaim at most. -/
theorem resolve_run (k : Handle) (held : List HostId) (w : World) :
    ∃ w', (w' = w ∨ w' = w.settled held) ∧
      resolve k held w = .ok (w.context.registry.resolve? (w.settled held).heap.isAlive k) w' := by
  unfold resolve Registry.resolve?
  rw [bind_run, get_run]
  dsimp only
  cases hb : w.context.registry.guestLinks.find? k with
  | none => exact ⟨w, .inl rfl, rfl⟩
  | some b =>
    cases b with
    | primitive y => exact ⟨w, .inl rfl, rfl⟩
    | weak r =>
      refine ⟨w.settled held, .inr rfl, ?_⟩
      dsimp only
      rw [bind_run, aliveNow_run]
      dsimp only
      rw [bind_run, get_run]
      change EStateM.Result.ok (w.context.registry.resolve? _ k) _ = _
      rw [Registry.resolve?, hb]

/-- **The value of a handle** is what it resolves to. Otherwise it is a new wrapper instance, if the
guest has the object. -/
theorem valueOf_run {class_ d : HostId} (k : Handle) (held : List HostId)
    (hd : w.heap.classDefinition? class_ = some d) :
    ∃ w', (w' = w ∨ w' = w.settled held) ∧
      valueOf k class_ held w =
        match w.context.registry.resolve? (w.settled held).heap.isAlive k with
        | some v => .ok v w'
        | none =>
          if w.isLive k then
            .ok (.object ⟨w'.heap.next⟩) { w' with
              heap := (w'.heap.alloc (.object { kind := .wrapper d k })).2
              context.registry := w'.context.registry.recordWrapper k ⟨w'.heap.next⟩ }
          else .error (.staleHandle k) w' := by
  obtain ⟨w', hw', hrun⟩ := resolve_run k held w
  have hlive : w'.isLive = w.isLive := by rcases hw' with rfl | rfl <;> rfl
  refine ⟨w', hw', ?_⟩
  unfold valueOf
  rw [bind_run, get_run]
  dsimp only
  rw [hd]
  dsimp only
  rw [bind_run, hrun]
  cases w.context.registry.resolve? (w.settled held).heap.isAlive k with
  | some v => rfl
  | none =>
    dsimp only
    rw [bind_run, isLiveNow_run, hlive]
    dsimp only
    -- nothing stands for the handle: its guest object decides
    by_cases hk : w.isLive k
    · rw [if_pos hk, if_neg (by simp [hk])]
      rfl
    · rw [if_neg hk, if_pos (by simp [hk])]
      rfl

/-- An unwrap through something that is no class fails. -/
theorem valueOf_run_of_not_class {class_ : HostId} (k : Handle) (held : List HostId)
    (hd : w.heap.classDefinition? class_ = none) :
    valueOf k class_ held w =
      .error (.typeMismatch "wrapper class" (w.heap.kind (.object class_)).name) w := by
  unfold valueOf
  rw [bind_run, get_run]
  dsimp only
  rw [hd]
  rfl

/-- The state that an action ends in. -/
def final {α : Type} (act : BridgeM α) (held : List HostId) (w : World) : World :=
  match act held w with
  | .ok _ w' | .error _ w' => w'

variable {α : Type} {act : BridgeM α} {P : α → World → Prop}

theorem final_of_ok {a : α} (ha : act held w = .ok a w') : final act held w = w' := by
  rw [final, ha]

theorem Leads.final {R : World → World → Prop} (h : Leads R held w act P) :
    R w (final act held w) := by
  unfold Leads at h
  unfold BridgeM.final
  cases ha : act held w with
  | ok a w' => rw [ha] at h; exact h.1
  | error e w' => rw [ha] at h; exact h

/-- What leads along one relation leads along another that the state it ends in is in. -/
theorem Leads.of_final {R R' : World → World → Prop} (h : Leads R held w act P)
    (hr : R' w (BridgeM.final act held w)) : Leads R' held w act P := by
  unfold Leads at h ⊢
  unfold BridgeM.final at hr
  cases ha : act held w with
  | ok a w' => rw [ha] at h hr; exact ⟨hr, h.2⟩
  | error e w' => rw [ha] at hr; exact hr

/-- The part of a wrap that comes after the crossing has been counted. -/
def wrapCounted (v : HostValue) : BridgeM (Option Handle) :=
  holding v.holds do
    let _ ← guest
    handleOf (createWrapper fun v => discard (wrapWith trackCrossing
      (createWrapper fun _ => Pure.pure ()) v)) v

/-- The part of an unwrap that comes after the crossing has been counted. -/
def unwrapCounted (k : Handle) (class_ : HostId) : BridgeM HostValue :=
  holding [class_] do
    let _ ← guest
    valueOf k class_

/-- **The crossing is counted first**, which does not fail. -/
theorem wrap_run (hw : w.OK held) (hv : w.heap.Backs (.value v)) :
    ∃ w₁, trackCrossing (v.holds ++ held) w = .ok () w₁ ∧
      Reaches .crossing (v.holds ++ held) w w₁ ∧ wrap v held w = wrapCounted v held w₁ := by
  obtain ⟨⟨⟩, w₁, htrack⟩ := trackCrossing_succeeds (v.holds ++ held) w
  have hmoves := trackCrossing_tracks (ℓ := .crossing) (by decide) _ w (hw.hold hv.isAlive)
  refine ⟨w₁, htrack, (hmoves.ok htrack).1, ?_⟩
  unfold wrap wrapWith holding
  rw [bind_run, htrack]
  rfl

theorem unwrap_run (k : Handle) {class_ : HostId} (hw : w.OK held)
    (hc : w.heap.isAlive class_) :
    ∃ w₁, w.OK ([class_] ++ held) ∧ Reaches .crossing ([class_] ++ held) w w₁ ∧ w₁.OK held ∧
      w₁.heap.isAlive class_ ∧
        unwrap (some k) class_ held w = unwrapCounted k class_ held w₁ := by
  obtain ⟨⟨⟩, w₁, htrack⟩ := trackCrossing_succeeds ([class_] ++ held) w
  have hok : w.OK ([class_] ++ held) := hw.hold fun i hi => List.mem_singleton.1 hi ▸ hc
  have hmoves := ((trackCrossing_tracks (ℓ := .crossing) (by decide) _ w hok).ok htrack).1
  have hw₁ := hmoves.ok hok
  have hc₁ := hw₁.held class_ (List.mem_append_left _ (List.mem_singleton_self _))
  refine ⟨w₁, hok, hmoves, hw₁.release fun i hi => List.mem_append_right _ hi, hc₁, ?_⟩
  unfold unwrap holding
  rw [bind_run, htrack]
  rfl

theorem wrapCounted_leads (hw : w.OK held) (hv : w.heap.Backs (.value v)) :
    Leads (Reaches .crossing held) held w (wrapCounted v) fun _ _ => True := by
  refine Leads.hold (fun hw => Leads.guest fun g _ => ?_) hw hv.isAlive
  have hnested := wrapWith_leads (trackCrossing_tracks (ℓ := .crossing) (by decide)) takes_pure
  exact (handleOf_leads hw hv (fun i hi => List.mem_append_left _ hi) hnested.discard).imp
    fun _ _ _ _ => trivial

theorem unwrapCounted_leads (k : Handle) {class_ : HostId} (hw : w.OK held)
    (hc : w.heap.isAlive class_) :
    Leads (Reaches .crossing held) held w (unwrapCounted k class_) fun v w' =>
      w'.heap.Backs (.value v) ∧ w'.StandsFor k v := by
  refine Leads.hold (fun hw => Leads.guest fun g _ => ?_) hw fun i hi => List.mem_singleton.1 hi ▸ hc
  exact valueOf_leads (by decide) hw k (List.mem_append_left _ (List.mem_singleton_self _))

theorem isAlive_of_classDefinition? {class_ d : HostId}
    (hd : h.classDefinition? class_ = some d) : h.isAlive class_ := by
  obtain ⟨o, ho, -⟩ := Heap.classDefinition?_eq_some_iff.1 hd
  exact Heap.isAlive_of_cell? ho

/-- **A value that has a handle is wrapped as that handle**, if the guest has the object. -/
theorem wrap_of_handle? (hw : w.OK held) (hl : w.Linked) (hv : w.heap.Backs (.value v))
    (hh : w.handle? v = some k) (hk : w.isLive k) (hin : (final (wrap v) held w).InRange) :
    ∃ w', wrap v held w = .ok (some k) w' := by
  obtain ⟨w₁, -, h₁, hrun⟩ := wrap_run hw hv
  have hok := hw.hold hv.isAlive
  have hw₁ := h₁.ok hok
  have hv₁ := h₁.backs hok hv fun i hi => List.mem_append_left _ hi
  have hrest := wrapCounted_leads (hw₁.release fun i hi => List.mem_append_right _ hi) hv₁
  -- a crossing only adds guest objects, so the table was in range before the rest of the wrap
  have hin₁ : w₁.InRange := by
    refine hrest.final.inRange_of_crossing (hw₁.release fun i hi => List.mem_append_right _ hi) ?_
    rwa [final, ← hrun]
  have hk₁ := h₁.isLive hok hin₁ hk
  have hh₁ := h₁.handle? hok hl hin₁ hk₁ hv hv₁.isAlive hh
  obtain ⟨g, hg, -⟩ := World.isLive_iff.1 hk₁
  refine ⟨w₁, ?_⟩
  rw [hrun, wrapCounted, holding, bind_run, guest_run, hg]
  exact handleOf_run_of_handle? _ _ hh₁

/-- What a value is unwrapped as: itself, or a primitive of the same content. -/
theorem resolve?_of_standsFor (hl : w.Linked) (hin : w.InRange) (hk : w.isLive k)
    (hs : w.StandsFor k v) {alive : HostId → Bool} (hv : ∀ i ∈ v.holds, alive i) :
    ∃ x, w.context.registry.resolve? alive k = some x ∧ v.sameValueZero x ∧
      (v.hasIdentity → x = v) := by
  obtain ⟨b, hb, hleads⟩ := hs
  unfold Registry.resolve?
  rw [hb]
  cases b with
  | weak r =>
    obtain rfl : r.toValue = v := hleads
    exact ⟨_, if_pos (hv _ r.id_mem_holds), HostValue.sameValueZero_self _, fun _ => rfl⟩
  | primitive y =>
    obtain ⟨g, hg, hlive⟩ := World.isLive_iff.1 hk
    obtain ⟨key, -, hy, -⟩ := (hl g hg (hin g hg)).primitive_back k y hb hlive
    have hkey : PrimitiveKey.of? v = some key := Eq.trans (Eq.symm hleads) hy
    refine ⟨y, rfl, (PrimitiveKey.of?_eq_iff hkey).1 hy, fun hid => ?_⟩
    cases v <;> simp [HostValue.hasIdentity, HostValue.identity?] at hid <;> cases hkey

/-- **The handle of a value is unwrapped as the value**, for as long as both are there. -/
theorem unwrap_of_standsFor {class_ d : HostId} (hw : w.OK held) (hl : w.Linked)
    (hv : w.heap.Backs (.value v)) (hheld : ∀ i ∈ v.holds, i ∈ held) (hs : w.StandsFor k v)
    (hk : w.isLive k) (hd : w.heap.classDefinition? class_ = some d)
    (hin : (final (unwrap (some k) class_) held w).InRange) :
    ∃ x w', unwrap (some k) class_ held w = .ok x w' ∧ v.sameValueZero x ∧
      (v.hasIdentity → x = v) := by
  have hc := isAlive_of_classDefinition? hd
  obtain ⟨w₁, hok, h₁, hw₁', hc₁, hrun⟩ := unwrap_run k hw hc
  have hw₁ := h₁.ok hok
  have hrest := unwrapCounted_leads k hw₁' hc₁
  have hin₁ : w₁.InRange := hrest.final.inRange_of_crossing hw₁' (by rwa [final, ← hrun])
  have hk₁ := h₁.isLive hok hin₁ hk
  have hheld' : ∀ i ∈ v.holds, i ∈ [class_] ++ held := fun i hi =>
    List.mem_append_right _ (hheld i hi)
  have hs₁ := h₁.standsFor hok hl hin₁ hk₁ (h₁.backs hok hv hheld').isAlive hs
  have hd₁ := (h₁.later hok).classDefinition? hw.heap hd hc₁
  -- the value is held, so it is there after the reclaim as well
  have hsettled := (Reaches.settled (ℓ := .crossing) (by decide) w₁ ([class_] ++ held)).ok hw₁
  obtain ⟨x, hx, hsame⟩ := resolve?_of_standsFor (h₁.linked hok hl) hin₁ hk₁ hs₁ fun i hi =>
    hsettled.held i (hheld' i hi)
  obtain ⟨g, hg, -⟩ := World.isLive_iff.1 hk₁
  obtain ⟨w₂, -, hvalue⟩ := valueOf_run k ([class_] ++ held) hd₁
  refine ⟨x, w₂, ?_, hsame⟩
  rw [hrun, unwrapCounted, holding, bind_run, guest_run, hg]
  rw [hx] at hvalue
  exact hvalue

/-- **A live handle can be unwrapped.** -/
theorem unwrapCounted_of_isLive {class_ d : HostId} (held : List HostId) (hk : w.isLive k)
    (hd : w.heap.classDefinition? class_ = some d) :
    ∃ x w', unwrapCounted k class_ held w = .ok x w' := by
  obtain ⟨g, hg, -⟩ := World.isLive_iff.1 hk
  obtain ⟨w', -, hvalue⟩ := valueOf_run k ([class_] ++ held) hd
  rw [unwrapCounted, holding, bind_run, guest_run, hg]
  dsimp only
  rw [hvalue]
  split
  · exact ⟨_, _, rfl⟩
  · rw [if_pos hk]
    exact ⟨_, _, rfl⟩

/-- **What a live handle is unwrapped as is wrapped as the handle.** -/
theorem wrap_of_unwrap {class_ d : HostId} (hw : w.OK held) (hl : w.Linked) (hk : w.isLive k)
    (hd : w.heap.classDefinition? class_ = some d)
    (hin : (final (unwrap (some k) class_ >>= wrap) held w).InRange) :
    ∃ w', (unwrap (some k) class_ >>= wrap) held w = .ok (some k) w' := by
  have hc := isAlive_of_classDefinition? hd
  obtain ⟨w₁, hok, h₁, hw₁', hc₁, hrun⟩ := unwrap_run k hw hc
  have hd₁ := (h₁.later hok).classDefinition? hw.heap hd hc₁
  have hunwrap := unwrapCounted_leads k hw₁' hc₁
  have hrun' : (unwrap (some k) class_ >>= wrap) held w = (unwrapCounted k class_ >>= wrap) held w₁ := by
    rw [bind_run, bind_run, hrun]
  -- the table is in range at the end, so it is after the count and after the unwrap
  have hin₁ : w₁.InRange := by
    have hrest := hunwrap.bind fun v w₂ h₂ hv =>
      (wrap_leads (ℓ := .crossing) (by decide)) held w₂ v (h₂.ok hw₁') hv.1
    exact hrest.final.inRange_of_crossing hw₁' (by rwa [final, ← hrun'])
  have hk₁ := h₁.isLive hok hin₁ hk
  obtain ⟨v, w₂, hv⟩ := unwrapCounted_of_isLive held hk₁ hd₁
  obtain ⟨h₂, hback, hs⟩ := hunwrap.ok hv
  have hw₂ := h₂.ok hw₁'
  have hl₂ := h₂.linked hw₁' (h₁.linked hok hl)
  have hrun₂ : (unwrapCounted k class_ >>= wrap) held w₁ = wrap v held w₂ := by rw [bind_run, hv]
  have hin₂ : w₂.InRange := by
    have hwrap := (wrap_leads (ℓ := .crossing) (by decide)) held w₂ v hw₂ hback
    exact hwrap.final.inRange_of_crossing hw₂ (by rwa [final, ← hrun₂, ← hrun'])
  have hk₂ := h₂.isLive hw₁' hin₂ hk₁
  have hh₂ := (World.handle?_eq_some_iff hw₂ hl₂ hin₂ hback hk₂).2 hs
  rw [hrun', hrun₂]
  exact wrap_of_handle? hw₂ hl₂ hback hh₂ hk₂ (by rwa [final, ← hrun₂, ← hrun'])

/-- **Values share a live handle iff they are the same.** -/
theorem handle?_eq_iff_same (hw : w.OK held) (hl : w.Linked) (hin : w.InRange) (hk : w.isLive k)
    (hv : w.heap.Backs (.value v)) (hx : w.heap.Backs (.value x)) (hh : w.handle? v = some k) :
    w.handle? x = some k ↔ v.sameValueZero x := by
  have hs := (World.handle?_eq_some_iff hw hl hin hv hk).1 hh
  rw [World.handle?_eq_some_iff hw hl hin hx hk]
  exact ⟨hs.same hl hin hk, hs.of_same hl hin hk hv hx⟩

theorem outcome_fst_of_ok {a : α} (ha : act [] w = .ok a w') : (act.outcome w).1 = .ok a := by
  rw [outcome, ha]

theorem run_of_outcome {a : α} (ha : act.outcome w = (.ok a, w')) : act [] w = .ok a w' := by
  unfold outcome at ha
  cases hrun : act [] w with
  | ok b w₁ => rw [hrun] at ha; cases ha; rfl
  | error e w₁ => rw [hrun] at ha; cases ha

theorem outcome_snd (act : BridgeM α) (w : World) : (act.outcome w).2 = final act [] w := by
  unfold outcome final
  cases act [] w <;> rfl

/-- **Wraps and unwraps undo each other**, in every reachable state and over all runs, as long as
the guest's table is in range.

* A value that was wrapped as a handle is wrapped as the same handle ever after, and the handle is
  unwrapped as the value, while the value is alive and the guest has the object. Any other value
  that is wrapped meanwhile gets that handle iff it is the same value.
* What a live handle is unwrapped as, through whatever class, is wrapped as the handle.
* No two wrapper instances stand for one live handle. -/
theorem wrap_unwrap_inverse (hw : w.Reachable) :
    (∀ (v : HostValue) (k : Handle) (w₁ w₂ : World),
      w.heap.Backs (.value v) → (wrap v).outcome w = (.ok (some k), w₁) → w₁.Later w₂ →
      (∀ i ∈ v.holds, w₂.heap.isAlive i) → w₂.isLive k →
      (((wrap v).outcome w₂).2.InRange → ((wrap v).outcome w₂).1 = .ok (some k)) ∧
      (∀ class_ d, w₂.heap.classDefinition? class_ = some d →
        ((holding v.holds (unwrap (some k) class_)).outcome w₂).2.InRange →
        ∃ x, ((holding v.holds (unwrap (some k) class_)).outcome w₂).1 = .ok x ∧
          v.sameValueZero x ∧ (v.hasIdentity → x = v)) ∧
      ∀ x k' w₃, w₂.heap.Backs (.value x) →
        (holding (v.holds ++ x.holds) (wrap x)).outcome w₂ = (.ok (some k'), w₃) → w₃.InRange →
        (k' = k ↔ v.sameValueZero x)) ∧
    (∀ (k : Handle) (class_ d : HostId), w.isLive k → w.heap.classDefinition? class_ = some d →
      ((unwrap (some k) class_ >>= wrap).outcome w).2.InRange →
      ((unwrap (some k) class_ >>= wrap).outcome w).1 = .ok (some k)) ∧
    ∀ (i j : HostId) (k : Handle), w.InRange → w.isLive k → w.heap.wrappedHandle? i = some k →
      w.heap.wrappedHandle? j = some k → i = j := by
  have hok := hw.ok
  have hl := hw.linked
  refine ⟨fun v k w₁ w₂ hv hrun hlater halive hk => ?_, fun k class_ d hk hd hin => ?_,
    fun i j k hin hk hi hj => ?_⟩
  · obtain ⟨h₁, hh₁⟩ := (wrap_finds (ℓ := .crossing) (by decide) hok hv).ok (run_of_outcome hrun)
    have hok₁ := h₁.ok hok
    have hl₁ := h₁.linked hok hl
    have h₂ := hlater.reaches hok₁
    have hok₂ := h₂.ok hok₁
    have hl₂ := h₂.linked hok₁ hl₁
    have hv₂ : w₂.heap.Backs (.value v) :=
      hv.later hok.heap ((h₁.later hok).trans (h₂.later hok₁)) halive
    have hv₁ : w₁.heap.Backs (.value v) := by
      refine hv.later hok.heap (h₁.later hok) fun i hi => ?_
      have hlt := lt_of_lt_of_le (hok.heap.isAlive_lt (hv.isAlive i hi)) (h₁.later hok).next_le
      exact (h₂.later hok₁).isAlive_of_isAlive hlt (halive i hi)
    have hh₂ : w₂.InRange → w₂.handle? v = some k := fun hin =>
      h₂.handle? hok₁ hl₁ hin hk hv₁ halive (hh₁ (h₂.inRange hok₁ hin hk))
    refine ⟨fun hin => ?_, fun class_ d hd hin => ?_, fun x k' w₃ hx hrun₃ hin₃ => ?_⟩
    · have hin' := hin
      rw [outcome_snd] at hin'
      have hwrap := (wrap_leads (ℓ := .crossing) (by decide)) [] w₂ v hok₂ hv₂
      have hin₂ := hwrap.final.inRange_of_crossing hok₂ hin'
      obtain ⟨w₃, h₃⟩ := wrap_of_handle? hok₂ hl₂ hv₂ (hh₂ hin₂) hk hin'
      exact outcome_fst_of_ok h₃
    · have hin' := hin
      rw [outcome_snd] at hin'
      have hokv := hok₂.hold hv₂.isAlive
      have hunwrap := unwrap_leads (ℓ := .crossing) (by decide) hokv (some k)
        (isAlive_of_classDefinition? hd)
      have hin₂ := hunwrap.final.inRange_of_crossing hokv hin'
      have hs := (World.handle?_eq_some_iff hok₂ hl₂ hin₂ hv₂ hk).1 (hh₂ hin₂)
      obtain ⟨x, w₃, h₃, hx⟩ := unwrap_of_standsFor hokv hl₂ hv₂
        (fun i hi => List.mem_append_left _ hi) hs hk hd hin'
      exact ⟨x, outcome_fst_of_ok h₃, hx⟩
    · have hokv := hok₂.hold fun i hi => (List.mem_append.1 hi).elim (hv₂.isAlive i) (hx.isAlive i)
      obtain ⟨h₃, hh₃⟩ := (wrap_finds (ℓ := .crossing) (by decide) hokv hx).ok
        (run_of_outcome hrun₃)
      have hk₃ := h₃.isLive hokv hin₃ hk
      have hv₃ := h₃.backs hokv hv₂ fun i hi =>
        List.mem_append_left _ (List.mem_append_left _ hi)
      have hx₃ := h₃.backs hokv hx fun i hi =>
        List.mem_append_left _ (List.mem_append_right _ hi)
      have hh := h₃.handle? hokv hl₂ hin₃ hk₃ hv₂ hv₃.isAlive
        (hh₂ (h₃.inRange_of_crossing hokv hin₃))
      have hiff := handle?_eq_iff_same (h₃.ok hokv) (h₃.linked hokv hl₂) hin₃ hk₃ hv₃ hx₃ hh
      rw [hh₃ hin₃, Option.some.injEq] at hiff
      exact hiff
  · rw [outcome_snd] at hin
    obtain ⟨w', hrun⟩ := wrap_of_unwrap hok hl hk hd hin
    exact outcome_fst_of_ok hrun
  · obtain ⟨g, hg, hlive⟩ := World.isLive_iff.1 hk
    have hlinks := hl g hg (hin g hg)
    have hij := (hlinks.wrapped i k hi hlive).symm.trans (hlinks.wrapped j k hj hlive)
    exact Referent.object.inj (Backlink.weak.inj (Option.some.inj hij))

/-- A session with a class and an object, and a guest that crosses back when it makes a wrapper. -/
def reentrant : World :=
  let steps : List Step :=
    [.set "class" (.external (.class "C")), .set "object" (.external (.object [])),
      .perform (.setMode { reenter := true }) none]
  (runSteps steps (World.load {} {}).2.2).2

/-- The session after its object has been wrapped, and after a collection. -/
def reentrantLater : World :=
  (runSteps [.perform .collect none] ((wrap (.object ⟨2⟩)).outcome reentrant).2).2

theorem reentrantLater_wraps_and_unwraps :
    ((wrap (.object ⟨2⟩)).outcome reentrantLater).1 = .ok (some ⟨0, 0⟩) ∧
      ∃ x, ((holding [⟨2⟩] (unwrap (some ⟨0, 0⟩) ⟨1⟩)).outcome reentrantLater).1 = .ok x ∧
        (HostValue.object ⟨2⟩).sameValueZero x ∧ (true → x = .object ⟨2⟩) := by
  have hw : reentrant.Reachable := ⟨{}, {}, _, _, rfl, World.later_runSteps _ _⟩
  obtain ⟨hwrap, hunwrap, -⟩ := (wrap_unwrap_inverse hw).1 (.object ⟨2⟩) ⟨0, 0⟩ _ reentrantLater
    ⟨_, rfl⟩ (Prod.ext rfl rfl) (World.later_runSteps _ _) (by decide +kernel) (by decide +kernel)
  exact ⟨hwrap (by decide +kernel), hunwrap ⟨1⟩ ⟨0⟩ rfl (by decide +kernel)⟩

end Results

end BridgeM

end GuestBridge
