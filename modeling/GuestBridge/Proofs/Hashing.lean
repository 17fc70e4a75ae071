import Mathlib.Data.List.Nodup
import Mathlib.Logic.Function.Iterate
import GuestBridge.Proofs.Stale

/-!
# The order of identity hashes

Objects and symbols are numbered by the order in which they are hashed first, over a whole
session, dead ones included. The hash of one is the term of the seed's sequence with its
number, and it stays that as long as the value is alive.

* `HashSequence.term`: the sequence of a seed, by arithmetic on numbers of 32 bits.
* `toNat_xorshift`, `Hasher.toInt_nth`: **what the hasher draws are the terms of that sequence.**
* `World.HashedSince`: the values hashed in a run of moves, in the order of their first
  hashing.
* `Move.sequenced`: **a move keeps hashes and numbers together.**
* `hashCode_run`: what a hashing gives, and whom it numbers.
* `Spares`: actions that hash nothing; wraps, unwraps, weak references and collections
  are such actions if the guest hashes nothing when it is given a notice.
* `hashes_follow_sequence`: **hashes are stable and follow one sequence**, in all sessions.
-/

namespace GuestBridge

/-! ## The sequence -/

namespace HashSequence

/-- The number after one of 32 bits: it is shifted up by thirteen places, down by seventeen and up
by five, and each time the shifted number is added bit by bit. What a shift moves past the 32 bits is
lost. -/
def next (n : ℕ) : ℕ :=
  let a := n ^^^ n * 2 ^ 13 % 2 ^ 32
  let b := a ^^^ a / 2 ^ 17
  b ^^^ b * 2 ^ 5 % 2 ^ 32

/-- The state after so many steps from a seed; zero stands for 2463534242. -/
def state (seed : ℕ) : ℕ → ℕ
  | 0 => if seed = 0 then 2463534242 else seed
  | k + 1 => next (state seed k)

/-- The hash with a number in the sequence of a seed: the state after one step more, as a signed
number of 32 bits. The first hash has number zero. -/
def term (seed k : ℕ) : ℤ := (state seed (k + 1) : ℤ).bmod (2 ^ 32)

end HashSequence

/-- **The step of the hasher is that of the sequence.** -/
theorem toNat_xorshift (x : UInt32) : (xorshift x).toNat = HashSequence.next x.toNat := by
  have up : ∀ y k : UInt32, k.toNat < 32 → (y <<< k).toNat = y.toNat * 2 ^ k.toNat % 2 ^ 32 := by
    intro y k hk
    rw [UInt32.toNat_shiftLeft, Nat.mod_eq_of_lt hk, Nat.shiftLeft_eq]
  have down : ∀ y k : UInt32, k.toNat < 32 → (y >>> k).toNat = y.toNat / 2 ^ k.toNat := by
    intro y k hk
    rw [UInt32.toNat_shiftRight, Nat.mod_eq_of_lt hk, Nat.shiftRight_eq_div_pow]
  unfold xorshift HashSequence.next
  dsimp only
  rw [UInt32.toNat_xor, up _ 5 (by decide), UInt32.toNat_xor, down _ 17 (by decide),
    UInt32.toNat_xor, up _ 13 (by decide)]
  rfl

namespace Hasher

/-- The hash that the hasher of a seed draws after so many others. -/
def nth (seed : UInt32) (k : ℕ) : Int32 := (xorshift^[k + 1] (ofSeed seed).state).toInt32

theorem toNat_iterate (seed : UInt32) (k : ℕ) :
    (xorshift^[k] (ofSeed seed).state).toNat = HashSequence.state seed.toNat k := by
  induction k with
  | zero =>
    have hzero : seed.toNat = 0 ↔ seed = 0 := by rw [← UInt32.toNat_inj]; rfl
    simp only [Function.iterate_zero, id, ofSeed, HashSequence.state, hzero]
    split <;> rfl
  | succ k ih =>
    rw [Function.iterate_succ_apply', toNat_xorshift, ih]
    rfl

/-- **What the hasher draws is the sequence of its seed.** -/
theorem toInt_nth (seed : UInt32) (k : ℕ) : (nth seed k).toInt = HashSequence.term seed.toNat k := by
  have hword : (nth seed k).toInt =
      ((xorshift^[k + 1] (ofSeed seed).state).toNat : ℤ).bmod (2 ^ 32) :=
    BitVec.toInt_eq_toNat_bmod _
  rw [hword, toNat_iterate]
  rfl

end Hasher

/-! ## The order of first hashings -/

/-- The identities that have a hash. -/
def World.hashed (w : World) : List HostId := w.context.hasher.assigned.keys

/-- The identities that get their hash as `w` becomes `w'`. -/
def World.newlyHashed (w w' : World) : List HostId := w'.hashed.filter (· ∉ w.hashed)

/-- Moves lead from `w₀` to a state, and `is` are the identities that got a hash on the way, in that
order. -/
inductive World.HashedSince (w₀ : World) : List HostId → World → Prop
  | start : HashedSince w₀ [] w₀
  | move {is : List HostId} {w w' : World} (h : HashedSince w₀ is w) (m : Move [] .outer w w') :
      HashedSince w₀ (is ++ w.newlyHashed w') w'

variable {held : List HostId} {ℓ : Level} {w₀ w w' w'' : World} {v : HostValue} {r : Referent}
  {is : List HostId} {seed : UInt32}

/-! ## What a move does to the hashes -/

section Moves

theorem Hasher.hash_of_identity (x : Hasher) (hv : v.identity? = some r) :
    x.hash v = x.hashIdentity r.id := by
  cases v <;> simp [HostValue.identity?] at hv <;> subst hv <;> rfl

theorem Hasher.hash_of_primitive (x : Hasher) (hv : v.identity? = none) : (x.hash v).2 = x := by
  cases v <;> simp [HostValue.identity?] at hv <;> rfl

theorem Heap.Backs.isAlive_of_identity {h : Heap} (hv : h.Backs (.value v))
    (hr : v.identity? = some r) : h.isAlive r.id := by
  cases v <;> simp [HostValue.identity?] at hr <;> subst hr <;>
    exact hv.isAlive _ (List.mem_singleton_self _)

/-- **A move leaves the hashes alone, hashes a value, or forgets dead ones.** -/
theorem Move.hasher (m : Move held ℓ w w') :
    w'.context.hasher = w.context.hasher ∨
      (∃ v, w.heap.Backs (.value v) ∧ w'.heap = w.heap ∧
        w'.context.hasher = (w.context.hasher.hash v).2) ∨
      (w'.heap = w.heap ∧ w'.context.hasher = w.context.hasher.sweep w.heap.isAlive) := by
  cases m with
  | quiet m =>
    cases m with
    | hash backs => exact .inr (.inl ⟨_, backs, rfl, rfl⟩)
    | _ => exact .inl rfl
  | cross hℓ m =>
    cases m with
    | sweep => exact .inr (.inr ⟨rfl, rfl⟩)
    | _ => exact .inl rfl
  | outer m => cases m <;> exact .inl rfl

theorem World.newlyHashed_eq_nil (h : ∀ i ∈ w'.hashed, i ∈ w.hashed) : w.newlyHashed w' = [] := by
  refine List.filter_eq_nil_iff.2 fun i hi => ?_
  simpa using h i hi

/-- A value that is hashed first is the only new one. -/
theorem World.newlyHashed_hash {i : HostId} {c : Int32} (hn : w.hashed.Nodup)
    (hi : w.context.hasher.assigned.find? i = none)
    (h : w'.context.hasher.assigned = w.context.hasher.assigned.insert i c) :
    w.newlyHashed w' = [i] := by
  have hmem : ∀ j, j ∈ w'.hashed ↔ j = i ∨ j ∈ w.hashed := by
    intro j
    simp only [World.hashed, h, OrderedMap.mem_keys_iff, OrderedMap.find?_insert]
    by_cases hj : j = i <;> simp [hj]
  have hnew : i ∉ w.hashed := by
    intro hm
    obtain ⟨c', hc'⟩ := OrderedMap.mem_keys_iff.1 hm
    rw [hi] at hc'
    cases hc'
  have hnodup : w'.hashed.Nodup := by
    rw [World.hashed, h]
    exact OrderedMap.nodup_keys_insert hn _ _
  -- both lists are free of repetitions, so it is enough that they have the same members
  refine List.perm_singleton.1 ((List.perm_ext_iff_of_nodup (hnodup.filter _)
    (List.nodup_singleton i)).2 fun j => ?_)
  simp only [List.mem_filter, hmem, decide_eq_true_eq, List.mem_singleton]
  constructor
  · rintro ⟨rfl | hj, hj'⟩
    · rfl
    · exact absurd hj hj'
  · rintro rfl
    exact ⟨.inl rfl, hnew⟩

/-- A call that holds something makes moves that a call that holds nothing can make. -/
theorem Reaches.of_held (hr : Reaches ℓ held w w') : Reaches .outer [] w w' := by
  have hnone : Reaches ℓ [] w w' := hr.weaken nofun
  refine Relation.ReflTransGen.mono (fun _ _ m => ?_) _ _ hnone
  cases m with
  | quiet m => exact .quiet m
  | cross _ m => exact .cross nofun m
  | outer m => exact .outer m

/-- A history goes on. -/
theorem World.HashedSince.reaches (h : w₀.HashedSince is w) (hr : Reaches ℓ held w w') :
    ∃ js, w₀.HashedSince (is ++ js) w' := by
  have hmoves := hr.of_held
  clear hr
  induction hmoves with
  | refl => exact ⟨[], by simpa using h⟩
  | tail _ m ih =>
    obtain ⟨js, hjs⟩ := ih
    exact ⟨_, List.append_assoc .. ▸ hjs.move m⟩

end Moves

/-! ## Hashes and numbers -/

section Sequence

/-- The identities hashed so far are numbered: the sequence has been stepped once for each, each
hash is the term with its number, and those that are alive have their hash. -/
structure World.Sequenced (seed : UInt32) (is : List HostId) (w : World) : Prop where
  ok : w.OK []
  nodup : is.Nodup
  state : w.context.hasher.state = xorshift^[is.length] (Hasher.ofSeed seed).state
  known : ∀ i ∈ is, i.index < w.heap.next
  assigned : ∀ i c, w.context.hasher.assigned.find? i = some c →
    ∃ k, is[k]? = some i ∧ c = Hasher.nth seed k
  alive : ∀ i ∈ is, w.heap.isAlive i → i ∈ w.hashed

/-- A value that is hashed first gets the next number. -/
theorem World.Sequenced.hash (h : w.Sequenced seed is) (hw' : w'.OK [])
    (hheap : w'.heap = w.heap) {i : HostId} (hi : w.heap.isAlive i)
    (hnew : w.context.hasher.assigned.find? i = none)
    (he : w'.context.hasher = (w.context.hasher.hashIdentity i).2) :
    i ∉ is ∧ w'.Sequenced seed (is ++ [i]) := by
  -- a value with a number keeps its hash while it is alive, and this one has no hash
  have hfresh : i ∉ is := by
    intro hm
    obtain ⟨c, hc⟩ := OrderedMap.mem_keys_iff.1 (h.alive i hm hi)
    rw [hnew] at hc
    cases hc
  rw [Hasher.hashIdentity_of_new hnew] at he
  refine ⟨hfresh, hw', ?_, ?_, ?_, ?_, ?_⟩
  · exact List.nodup_append'.2 ⟨h.nodup, List.nodup_singleton i, by simpa using hfresh⟩
  · rw [he, List.length_append, List.length_singleton, Function.iterate_succ_apply', ← h.state]
  · intro j hj
    rw [hheap]
    rcases List.mem_append.1 hj with hj | hj
    · exact h.known j hj
    · exact List.mem_singleton.1 hj ▸ h.ok.heap.isAlive_lt hi
  · intro j c hc
    rw [he, OrderedMap.find?_insert] at hc
    split_ifs at hc with hj
    · refine ⟨is.length, by simp [hj], ?_⟩
      rw [Hasher.nth, Function.iterate_succ_apply', ← h.state]
      exact (Option.some.inj hc).symm
    · obtain ⟨k, hk, hck⟩ := h.assigned j c hc
      refine ⟨k, ?_, hck⟩
      rw [List.getElem?_append_left (List.getElem?_eq_some_iff.1 hk).1, hk]
  · intro j hj ha
    rw [World.hashed, he, OrderedMap.mem_keys_iff]
    rcases List.mem_append.1 hj with hj | hj
    · obtain ⟨c, hc⟩ := OrderedMap.mem_keys_iff.1 (h.alive j hj (hheap ▸ ha))
      have hne : j ≠ i := fun e => hfresh (e ▸ hj)
      exact ⟨c, (OrderedMap.find?_insert_of_ne _ hne _).trans hc⟩
    · rw [List.mem_singleton.1 hj]
      exact ⟨_, OrderedMap.find?_insert_self ..⟩

/-- Where no value is hashed the numbers stay. -/
theorem World.Sequenced.keep (h : w.Sequenced seed is) (hw' : w'.OK [])
    (hl : w.heap.Later w'.heap) (hstate : w'.context.hasher.state = w.context.hasher.state)
    (hkept : ∀ i c, w'.context.hasher.assigned.find? i = some c →
      w.context.hasher.assigned.find? i = some c)
    (halive : ∀ i ∈ w.hashed, w'.heap.isAlive i → i ∈ w'.hashed) : w'.Sequenced seed is where
  ok := hw'
  nodup := h.nodup
  state := hstate.trans h.state
  known i hi := lt_of_lt_of_le (h.known i hi) hl.next_le
  assigned i c hc := h.assigned i c (hkept i c hc)
  alive i hi ha := halive i (h.alive i hi (hl.isAlive_of_isAlive (h.known i hi) ha)) ha

/-- **A move keeps hashes and numbers together.** -/
theorem Move.sequenced (m : Move [] .outer w w') (h : w.Sequenced seed is) :
    w'.Sequenced seed (is ++ w.newlyHashed w') := by
  have hw' : w'.OK [] := m.ok h.ok
  have hl : w.heap.Later w'.heap := m.later h.ok.heap
  have hnodup : w.hashed.Nodup := h.ok.context.nodup_hashes
  have quiet : w'.context.hasher = w.context.hasher → w'.Sequenced seed (is ++ w.newlyHashed w') := by
    intro he
    rw [World.newlyHashed_eq_nil fun i hi => by rwa [World.hashed, he] at hi, List.append_nil]
    exact h.keep hw' hl (by rw [he]) (fun i c hc => by rwa [he] at hc)
      fun i hi _ => by rwa [World.hashed, he]
  -- a move leaves the hashes alone, hashes one value, or sweeps the hashes of the dead
  rcases m.hasher with he | ⟨v, hv, hheap, he⟩ | ⟨hheap, he⟩
  · exact quiet he
  · cases hr : v.identity? with
    | none => exact quiet (he.trans (Hasher.hash_of_primitive _ hr))
    | some r =>
      rw [Hasher.hash_of_identity _ hr] at he
      cases hc : w.context.hasher.assigned.find? r.id with
      | some c =>
        rw [Hasher.hashIdentity_of_assigned hc] at he
        exact quiet he
      | none =>
        have hassigned := congrArg Hasher.assigned he
        rw [Hasher.hashIdentity_of_new hc] at hassigned
        rw [World.newlyHashed_hash hnodup hc hassigned]
        exact (h.hash hw' hheap (hv.isAlive_of_identity hr) hc he).2
  · have hfind : ∀ i, w'.context.hasher.assigned.find? i =
        (w.context.hasher.assigned.find? i).filter fun _ => w.heap.isAlive i := by
      intro i
      rw [he]
      exact OrderedMap.find?_filter hnodup _ i
    have hkept : ∀ i c, w'.context.hasher.assigned.find? i = some c →
        w.context.hasher.assigned.find? i = some c := by
      intro i c hc
      rw [hfind] at hc
      exact (Option.filter_eq_some_iff.1 hc).1
    rw [World.newlyHashed_eq_nil fun i hi => ?_, List.append_nil]
    · refine h.keep hw' hl (by rw [he]; rfl) hkept fun i hi ha => ?_
      obtain ⟨c, hc⟩ := OrderedMap.mem_keys_iff.1 hi
      refine OrderedMap.mem_keys_iff.2 ⟨c, ?_⟩
      rw [hfind, hc, Option.filter_some, ← hheap, ha, if_pos rfl]
    · obtain ⟨c, hc⟩ := OrderedMap.mem_keys_iff.1 hi
      exact OrderedMap.mem_keys_iff.2 ⟨c, hkept i c hc⟩

/-- **Hashes and numbers stay together** over any run of moves. -/
theorem World.HashedSince.sequenced (h : w₀.HashedSince is w) (h₀ : w₀.Sequenced seed []) :
    w.Sequenced seed is := by
  induction h with
  | start => exact h₀
  | move _ m ih => exact m.sequenced ih

/-- A bridge that has been loaded has hashed nothing. -/
theorem World.load_sequenced {s : Setup} {environment : Environment} {o : Options}
    (h : World.load s environment = (some o, .ok (), w)) : w.Sequenced o.hashSeed [] := by
  have hw := World.load_ok h
  obtain ⟨w₁, g, -, -, -, -, rfl⟩ := World.load_cases h
  exact ⟨hw, List.nodup_nil, rfl, by simp, by simp [Hasher.assigned_ofSeed], by simp⟩

end Sequence

/-! ## Actions that hash nothing -/

/-- The guest hashes nothing in the reaction. -/
def Reaction.Hashless : Reaction → Prop
  | .accept => True
  | .reject _ => True
  | .hash _ _ => False
  | .wrap _ next => ∀ result, (next result).Hashless
  | .weakRef _ _ _ next => ∀ result, (next result).Hashless
  | .collect next => next.Hashless

/-- The guest, if there is one, hashes nothing when it is given a notice. -/
def World.Hashless (w : World) : Prop :=
  ∀ g, w.guest = some g → ∀ channel token, (g.mode.onReport channel token).Hashless

/-- The sequence has not been stepped and no identity has got a hash, and a guest that hashes
nothing still does not. -/
structure World.Unhashed (w w' : World) : Prop where
  state : w'.context.hasher.state = w.context.hasher.state
  hashed : ∀ i ∈ w'.hashed, i ∈ w.hashed
  hashless : w.Hashless → w'.Hashless

instance : IsPreorder World World.Unhashed where
  refl _ := ⟨rfl, fun _ => id, id⟩
  trans _ _ _ h h' :=
    ⟨h'.state.trans h.state, fun i hi => h.hashed i (h'.hashed i hi), h'.hashless ∘ h.hashless⟩

theorem World.Unhashed.of_same (hc : w'.context.hasher = w.context.hasher)
    (hg : w'.guest = w.guest) : w.Unhashed w' where
  state := by rw [hc]
  hashed i hi := by rwa [World.hashed, hc] at hi
  hashless h := by rwa [World.Hashless, hg]

theorem World.Unhashed.of_guest {g g' : Guest} (hg : w.guest = some g)
    (hm : g'.mode.onReport = g.mode.onReport) : w.Unhashed { w with guest := some g' } where
  state := rfl
  hashed _ := id
  hashless h := by
    intro g'' hg'' channel token
    obtain rfl := Option.some.inj hg''
    rw [hm]
    exact h g hg channel token

namespace BridgeM

variable {α β : Type} {act : BridgeM α} {f : α → BridgeM β}

/-- The action hashes nothing, as long as the guest hashes nothing when it is given a notice. -/
def Spares (act : BridgeM α) : Prop :=
  ∀ held w, w.Hashless → Leads World.Unhashed held w act fun _ _ => True

section Spares

theorem Observes.spares (h : Observes act) : Spares act := fun _ _ _ =>
  h.leads.imp fun _ _ _ _ => trivial

theorem Spares.bind (h : Spares act) (hf : ∀ a, Spares (f a)) : Spares (act >>= f) :=
  fun held w hw => (h held w hw).bind fun a w' hr _ => hf a held w' (hr.hashless hw)

theorem Spares.holding (h : Spares act) (ids : List HostId) : Spares (holding ids act) :=
  fun held w hw => h (ids ++ held) w hw

theorem Spares.attempt (h : Spares act) : Spares (attempt act) := fun held w hw =>
  (h held w hw).attempt.imp fun _ _ _ _ => trivial

theorem Spares.discard (h : Spares act) : Spares (discard act) :=
  h.bind fun _ => (Observes.pure _).spares

theorem Spares.aliveNow : Spares aliveNow := fun held w _ =>
  Leads.of_ok (aliveNow_run held w) (.of_same rfl rfl) trivial

/-- What leaves context and guest alone hashes nothing. -/
theorem Withdrawn.spares (h : Withdrawn act) : Spares act := by
  refine fun held w _ => ((h held w).mono fun w' hr => ?_)
  refine ⟨by rw [hr.context], fun i hi => by rwa [World.hashed, hr.context] at hi, fun hw g' hg' => ?_⟩
  have hmode := hr.mode
  rw [hg', Option.map_some, eq_comm, Option.map_eq_some_iff] at hmode
  obtain ⟨g, hg, he⟩ := hmode
  exact he ▸ hw g hg

theorem createWrapper_spares {rewrap : HostValue → BridgeM Unit} (h : ∀ v, Spares (rewrap v))
    (v : HostValue) : Spares (createWrapper rewrap v) := by
  have last : Spares (changeGuest fun g => g.alloc (.wrapper v)) := fun _ _ _ =>
    Leads.guest fun _ hg => ⟨.of_guest hg rfl, trivial⟩
  refine fun held w hw => Leads.guest fun g hg => ?_
  dsimp only
  split
  · exact Leads.throw_bind
  · split
    · refine Leads.bind (P := fun _ _ => True) ⟨.of_guest hg rfl, trivial⟩ fun _ w₁ h₁ _ => ?_
      exact (h v).bind (fun _ => last) held w₁ (h₁.hashless hw)
    · exact last held w hw

/-- A sweep forgets hashes of the dead, and does nothing else to the hashes. -/
theorem sweep_spares (r : CollectionReport) : Spares (sweep r) := by
  refine Spares.aliveNow.bind fun alive => Observes.isLiveNow.spares.bind fun isLive => ?_
  refine fun held w hw => Leads.of_ok rfl ⟨rfl, fun i hi => ?_, id⟩ trivial
  exact (List.filter_sublist.map Prod.fst).subset hi

/-- **The steps of a crossing hash nothing.** -/
theorem spares : Congruence.Crossing fun act _ => Spares act where
  pure a := (Observes.pure a).spares
  throw e := (Observes.throw e).spares
  get := Observes.get.spares
  bind := .bind
  holding := .holding
  allocString text := (withdrawn.allocString text).spares
  allocSymbol description := (withdrawn.allocSymbol description).spares
  allocObject hk properties := (withdrawn.allocObject hk properties).spares
  synthesizeClass name := (withdrawn.synthesizeClass name).spares
  allocGuestString text := (withdrawn.allocGuestString text).spares
  attempt := .attempt
  aliveNow := .aliveNow
  modifyContext hf _ w _ := ⟨.of_same (hf w.context) rfl, trivial⟩
  createWrapper := createWrapper_spares
  poll := Spares.aliveNow.bind fun _ _ _ _ => Leads.of_ok rfl (.of_same rfl rfl) trivial
  sweep := sweep_spares

/-- Neither do reactions without a hashing, which crossings in a pass carry out. -/
theorem react_spares (r : Reaction) (hr : r.Hashless) : Spares (react crossingsInPass r) := by
  induction r with
  | accept => exact spares.pure _
  | reject e => exact spares.throw e
  | hash e next => exact hr.elim
  | wrap e next ih =>
    exact (spares.hostExpr e).bind fun v =>
      (spares.rewrap spares.tally v).attempt.bind fun result => ih result (hr result)
  | weakRef channel e token next ih =>
    exact (spares.hostExpr e).bind fun v => (spares.option_mapM spares.guestExpr token).bind
      fun token => (Spares.discard (spares.weakRefWith spares.tally channel v token)).attempt.bind
        fun result => ih result (hr result)
  | collect next ih => exact (spares.pure ()).bind fun _ => ih hr

theorem report_spares (channel : Channel) (token : GuestValue) :
    Spares (report crossingsInPass channel token) := by
  refine Spares.holding (fun held w hw => Leads.guest fun g hg => ?_) _
  have last : Spares (tryGuest fun g => return ((), ← g.takeReport channel token)) := by
    intro held w hw
    refine Leads.askGuest fun g a hg ha => ?_
    obtain ⟨g', hg', ha⟩ := exists_of_bind_eq_ok ha
    obtain ⟨-, -, hg'⟩ := exists_of_bind_eq_ok hg'
    cases ha
    cases hg'
    exact ⟨.of_guest hg rfl, trivial⟩
  dsimp only
  split
  · exact (react_spares _ (hw g hg channel token)).bind (fun _ => last) held w hw
  · exact last held w hw

/-- **A collection hashes nothing itself.** -/
theorem collectGarbage_spares : Spares collectGarbage := spares.collectGarbage report_spares

theorem trackCrossing_spares : Spares trackCrossing := spares.trackCrossing report_spares

theorem wrap_spares (v : HostValue) : Spares (wrap v) := spares.rewrap trackCrossing_spares v

theorem unwrap_spares (k : Option Handle) (class_ : HostId) : Spares (unwrap k class_) :=
  spares.unwrap report_spares (spares.valueOf fun _ _ => (allocCell_withdrawn _).spares) k class_

theorem weakRef_spares (channel : Channel) (v : HostValue) (token : Option GuestValue) :
    Spares (weakRefWith trackCrossing channel v token) :=
  spares.weakRefWith trackCrossing_spares channel v token

end Spares

/-! ## Hashing -/

section Hash

/-- The numbers after a value has been hashed: it gets the next one, unless it has one. -/
def numbered (is : List HostId) (i : HostId) : List HostId := if i ∈ is then is else is ++ [i]

/-- Hashing a primitive changes nothing at all. -/
theorem hashCode_run_of_primitive (hv : v.identity? = none) (held : List HostId) (w : World) :
    hashCode v held w = .ok (w.context.hasher.hash v).1 w := by
  have hsame := Hasher.hash_of_primitive w.context.hasher hv
  have hcount : v.hasIdentity = false := by rw [HostValue.hasIdentity, hv, Option.isSome_none]
  unfold hashCode hashWith
  rw [hcount]
  show EStateM.Result.ok (w.context.hasher.hash v).1
    { w with context.hasher := (w.context.hasher.hash v).2 } = _
  rw [hsame]

/-- Hashing an object or a symbol counts the crossing first. -/
theorem hashCode_run_of_identity (hv : v.identity? = some r)
    (ht : trackCrossing (v.holds ++ held) w = .ok () w') :
    hashCode v held w = .ok (w'.context.hasher.hashIdentity r.id).1
      { w' with context.hasher := (w'.context.hasher.hashIdentity r.id).2 } := by
  have hcount : v.hasIdentity = true := by rw [HostValue.hasIdentity, hv, Option.isSome_some]
  unfold hashCode hashWith
  rw [hcount]
  show (trackCrossing >>= fun _ => modifyGet fun w => ((w.context.hasher.hash v).1,
    { w with context.hasher := (w.context.hasher.hash v).2 })) (v.holds ++ held) w = _
  rw [bind_run, ht, ← Hasher.hash_of_identity w'.context.hasher hv]
  rfl

/-- A value that is hashed in a state has a hash in the state after, and it is the hash given. -/
theorem find?_hashIdentity (x : Hasher) (i : HostId) :
    (x.hashIdentity i).2.assigned.find? i = some (x.hashIdentity i).1 := by
  cases hc : x.assigned.find? i with
  | some c => rw [Hasher.hashIdentity_of_assigned hc, hc]
  | none =>
    rw [Hasher.hashIdentity_of_new hc]
    exact OrderedMap.find?_insert_self ..

/-- A value that is alive is hashed as the numbers say. -/
theorem hashIdentity_numbered (h₀ : w₀.Sequenced seed []) (h : w₀.HashedSince is w)
    (hv : w.heap.Backs (.value v)) (hr : v.identity? = some r) :
    w₀.HashedSince (numbered is r.id)
        { w with context.hasher := (w.context.hasher.hashIdentity r.id).2 } ∧
      ∀ k, (numbered is r.id)[k]? = some r.id →
        (w.context.hasher.hashIdentity r.id).1 = Hasher.nth seed k := by
  have hs := h.sequenced h₀
  have halive := hv.isAlive_of_identity hr
  have hmove : Move [] .outer w
      { w with context.hasher := (w.context.hasher.hashIdentity r.id).2 } := by
    rw [← Hasher.hash_of_identity w.context.hasher hr]
    exact .quiet (.hash hv)
  have hlist : is ++ w.newlyHashed
      { w with context.hasher := (w.context.hasher.hashIdentity r.id).2 } = numbered is r.id := by
    cases hc : w.context.hasher.assigned.find? r.id with
    | some c =>
      obtain ⟨k, hk, -⟩ := hs.assigned r.id c hc
      rw [Hasher.hashIdentity_of_assigned hc, World.newlyHashed_eq_nil fun _ => id, List.append_nil,
        numbered, if_pos (List.mem_of_getElem? hk)]
    | none =>
      have hnew := (hs.hash (hmove.ok hs.ok) rfl halive hc rfl).1
      rw [World.newlyHashed_hash hs.ok.context.nodup_hashes hc
        (by rw [Hasher.hashIdentity_of_new hc]), numbered, if_neg hnew]
  have hafter : w₀.HashedSince (numbered is r.id) _ := hlist ▸ h.move hmove
  refine ⟨hafter, fun k hk => ?_⟩
  have hs' := hafter.sequenced h₀
  obtain ⟨j, hj, hcode⟩ := hs'.assigned r.id _ (find?_hashIdentity w.context.hasher r.id)
  -- no value has two numbers, so the number asked about is the one it was hashed with
  have hkj : k = j := (List.getElem?_inj (List.getElem?_eq_some_iff.1 hk).1 hs'.nodup).1
    (hk.trans hj.symm)
  rw [hcode, hkj]

/-- The crossing of a hashing is counted, and the value that it holds is there afterwards. -/
theorem trackCrossing_holding (hw : w.OK held) (hv : w.heap.Backs (.value v)) :
    ∃ w₁, trackCrossing (v.holds ++ held) w = .ok () w₁ ∧
      Reaches .crossing (v.holds ++ held) w w₁ ∧ w₁.heap.Backs (.value v) := by
  have hheld := hw.hold hv.isAlive
  obtain ⟨⟨⟩, w₁, ht⟩ := trackCrossing_succeeds (v.holds ++ held) w
  have hmoves := ((trackCrossing_tracks (ℓ := .crossing) nofun _ w hheld).ok ht).1
  exact ⟨w₁, ht, hmoves, hmoves.backs hheld hv fun i hi => List.mem_append_left _ hi⟩

/-- **What a hashing gives.** The pass that the crossing may start can have values `js` hashed; after
them the value gets its number, if it has none, and its hash is the term with its number. -/
theorem hashCode_run (h₀ : w₀.Sequenced seed []) (h : w₀.HashedSince is w) (hw : w.OK held)
    (hv : w.heap.Backs (.value v)) (hr : v.identity? = some r) :
    ∃ js code w', hashCode v held w = .ok code w' ∧
      w₀.HashedSince (numbered (is ++ js) r.id) w' ∧
      (∀ k, (numbered (is ++ js) r.id)[k]? = some r.id → code = Hasher.nth seed k) ∧
      (w.context.crossings + 1 < collectInterval ∨ w.context.collecting = true → js = []) := by
  obtain ⟨w₁, ht, hmoves, hv₁⟩ := trackCrossing_holding hw hv
  have hrun := hashCode_run_of_identity hr ht
  by_cases hfree : w.context.crossings + 1 < collectInterval ∨ w.context.collecting = true
  · rw [trackCrossing_run_of_lt _ hfree] at ht
    obtain rfl : w.counted = w₁ := by cases ht; rfl
    have hcounted : w₀.HashedSince (is ++ w.newlyHashed w.counted) w.counted :=
      h.move (.quiet .tally)
    have hnone : w.newlyHashed w.counted = [] := World.newlyHashed_eq_nil fun _ => id
    rw [hnone, List.append_nil] at hcounted
    obtain ⟨hafter, hcode⟩ := hashIdentity_numbered h₀ hcounted hv₁ hr
    rw [← List.append_nil is] at hafter hcode
    exact ⟨[], _, _, hrun, hafter, hcode, fun _ => rfl⟩
  · obtain ⟨js, hjs⟩ := h.reaches hmoves
    obtain ⟨hafter, hcode⟩ := hashIdentity_numbered h₀ hjs hv₁ hr
    exact ⟨js, _, _, hrun, hafter, hcode, fun hf => absurd hf hfree⟩

/-- **Only a value without a hash steps the sequence**, as long as the guest hashes nothing when it
is given a notice: it gets the next term, and a value that has a number leaves the sequence as it
is. -/
theorem hashCode_state (h₀ : w₀.Sequenced seed []) (h : w₀.HashedSince is w) (hw : w.OK held)
    (hv : w.heap.Backs (.value v)) (hr : v.identity? = some r) (hg : w.Hashless) {code : Int32}
    (hrun : hashCode v held w = .ok code w') :
    if r.id ∈ is then w'.context.hasher.state = w.context.hasher.state
    else code = Hasher.nth seed is.length ∧
      w'.context.hasher.state = xorshift w.context.hasher.state := by
  obtain ⟨w₁, ht, hmoves, hv₁⟩ := trackCrossing_holding hw hv
  have hspared := ((trackCrossing_spares _ w hg).ok ht).1
  have hs := h.sequenced h₀
  obtain ⟨js, hjs⟩ := h.reaches hmoves
  have hs₁ := hjs.sequenced h₀
  rw [hashCode_run_of_identity hr ht] at hrun
  cases hrun
  split_ifs with hi
  · -- it is still alive, so it still has its hash
    have hhashed := hs₁.alive r.id (List.mem_append_left _ hi) (hv₁.isAlive_of_identity hr)
    obtain ⟨c, hc⟩ := OrderedMap.mem_keys_iff.1 hhashed
    rw [Hasher.hashIdentity_of_assigned hc]
    exact hspared.state
  -- a pass whose notices hash nothing cannot have given it a hash either
  · have hnew : w₁.context.hasher.assigned.find? r.id = none := by
      rw [Option.eq_none_iff_forall_ne_some]
      intro c hc
      obtain ⟨c', hc'⟩ := OrderedMap.mem_keys_iff.1
        (hspared.hashed r.id (OrderedMap.mem_keys_iff.2 ⟨c, hc⟩))
      obtain ⟨k, hk, -⟩ := hs.assigned r.id c' hc'
      exact hi (List.mem_of_getElem? hk)
    rw [Hasher.hashIdentity_of_new hnew]
    refine ⟨?_, congrArg xorshift hspared.state⟩
    show (xorshift w₁.context.hasher.state).toInt32 = _
    rw [hspared.state, hs.state, Hasher.nth, Function.iterate_succ_apply']

/-- **Identity hashes are stable and follow one sequence**, in every session of a bridge, whatever
the guest does and whichever collections run.

* In every state that the session gets to, the objects and symbols hashed so far are numbered by
  the order in which they were hashed first, each once, and the sequence has been stepped exactly
  once for each. Later steps only add numbers at the end.
* To hash an object or a symbol that is alive gives the term of the sequence with its number. It
  gets the next number first if it has none; values that are hashed in the notices of a pass which
  the crossing starts come before it.
* To hash a primitive changes nothing. A sweep leaves the sequence as it is.
* If the guest hashes nothing when it is given a notice, then collections, wraps, unwraps and weak
  references step nothing, nor does hashing what has a number; any other object or symbol gets the
  very next term. -/
theorem hashes_follow_sequence {s : Setup} {environment : Environment} {o : Options}
    (hload : World.load s environment = (some o, .ok (), w₀)) :
    (∀ w, w₀.Later w → ∃ is, w₀.HashedSince is w) ∧
      ∀ is w, w₀.HashedSince is w →
        (is.Nodup ∧ w.context.hasher.state.toNat =
          HashSequence.state o.hashSeed.toNat is.length) ∧
        (∀ w', w.Later w' → ∃ js, w₀.HashedSince (is ++ js) w') ∧
        (∀ held v r, w.OK held → w.heap.Backs (.value v) → v.identity? = some r →
          ∃ js code w', hashCode v held w = .ok code w' ∧
            w₀.HashedSince (numbered (is ++ js) r.id) w' ∧
            (∀ k, (numbered (is ++ js) r.id)[k]? = some r.id →
              code.toInt = HashSequence.term o.hashSeed.toNat k) ∧
            (w.context.crossings + 1 < collectInterval ∨ w.context.collecting = true → js = []) ∧
            (w.Hashless →
              if r.id ∈ is then w'.context.hasher.state = w.context.hasher.state
              else code.toInt = HashSequence.term o.hashSeed.toNat is.length ∧
                w'.context.hasher.state.toNat =
                  HashSequence.state o.hashSeed.toNat (is.length + 1))) ∧
        (∀ held v, v.identity? = none → ∃ code, hashCode v held w = .ok code w) ∧
        (∀ held r, ∃ r' w', sweep r held w = .ok r' w' ∧
          w'.context.hasher.state = w.context.hasher.state) ∧
        (w.Hashless → ∀ held,
          Leads World.Unhashed held w collectGarbage (fun _ _ => True) ∧
          (∀ v, Leads World.Unhashed held w (wrap v) fun _ _ => True) ∧
          (∀ k class_, Leads World.Unhashed held w (unwrap k class_) fun _ _ => True) ∧
          ∀ channel v token,
            Leads World.Unhashed held w (weakRefWith trackCrossing channel v token)
              fun _ _ => True) := by
  have h₀ := World.load_sequenced hload
  refine ⟨fun w hl => ?_, fun is w h => ?_⟩
  · exact World.HashedSince.start.reaches (hl.reaches h₀.ok)
  have hs := h.sequenced h₀
  have hstate : w.context.hasher.state.toNat = HashSequence.state o.hashSeed.toNat is.length := by
    rw [hs.state, Hasher.toNat_iterate]
  refine ⟨⟨hs.nodup, hstate⟩, fun w' hl => h.reaches (hl.reaches hs.ok), ?_,
    fun held v hv => ⟨_, hashCode_run_of_primitive hv held w⟩, fun held r => ?_, fun hg held => ?_⟩
  · intro held v r hw hv hr
    obtain ⟨js, code, w', hrun, hafter, hcode, hjs⟩ := hashCode_run h₀ h hw hv hr
    refine ⟨js, code, w', hrun, hafter, fun k hk => ?_, hjs, fun hg => ?_⟩
    · rw [hcode k hk, Hasher.toInt_nth]
    · have hnext := hashCode_state h₀ h hw hv hr hg hrun
      split_ifs at hnext ⊢ with hi
      · exact hnext
      · obtain ⟨hcode, hstep⟩ := hnext
        refine ⟨by rw [hcode, Hasher.toInt_nth], ?_⟩
        rw [hstep, toNat_xorshift, hstate]
        rfl
  · obtain ⟨r', hsweep, -⟩ := sweep_run r held w
    exact ⟨r', _, hsweep, rfl⟩
  · exact ⟨collectGarbage_spares held w hg, fun v => wrap_spares v held w hg,
      fun k class_ => unwrap_spares k class_ held w hg,
      fun channel v token => weakRef_spares channel v token held w hg⟩

/-- A bridge with zero as its seed and with two objects among its globals. -/
def twoGlobals : World :=
  (World.load { seed := some 0, bound := [("a", .object []), ("b", .object [])] } {}).2.2

/-- The second object gets the first term, the first object the second one, and the second object
has kept its own. -/
theorem twoGlobals_hashes_two_terms :
    ∃ w₁ w₂ w₃, hashCode (.object ⟨1⟩) [] twoGlobals = .ok 723471715 w₁ ∧
      hashCode (.object ⟨0⟩) [] w₁ = .ok (-1797600390) w₂ ∧
      hashCode (.object ⟨1⟩) [] w₂ = .ok 723471715 w₃ ∧
      w₁.context.hasher.state = 723471715 ∧ w₂.context.hasher.state = 2497366906 ∧
      w₃.context.hasher.state = 2497366906 := by
  have hload : World.load { seed := some 0, bound := [("a", .object []), ("b", .object [])] } {} =
      (some _, .ok (), twoGlobals) := rfl
  have h₀ := World.load_sequenced hload
  obtain ⟨-, hall⟩ := hashes_follow_sequence hload
  obtain ⟨c₁, w₁, c₂, w₂, c₃, w₃, hrun₁, hrun₂, hrun₃, hheap₁, hheap₂, hfree₁, hfree₂⟩ :
      ∃ c₁ w₁ c₂ w₂ c₃ w₃, hashCode (.object ⟨1⟩) [] twoGlobals = .ok c₁ w₁ ∧
        hashCode (.object ⟨0⟩) [] w₁ = .ok c₂ w₂ ∧ hashCode (.object ⟨1⟩) [] w₂ = .ok c₃ w₃ ∧
        w₁.heap = twoGlobals.heap ∧ w₂.heap = twoGlobals.heap ∧
        w₁.context.crossings + 1 < collectInterval ∧ w₂.context.crossings + 1 < collectInterval :=
    ⟨_, _, _, _, _, _, rfl, rfl, rfl, rfl, rfl, by decide +kernel, by decide +kernel⟩
  have hbacks : ∀ i, i = ⟨0⟩ ∨ i = ⟨1⟩ → twoGlobals.heap.Backs (.value (.object i)) := by
    rintro i (rfl | rfl) <;> exact ⟨_, rfl⟩
  -- one hashing more, in a state with the same objects that is far from a collection
  have step : ∀ is w i c w', twoGlobals.HashedSince is w → w.heap = twoGlobals.heap →
      w.context.crossings + 1 < collectInterval → i = ⟨0⟩ ∨ i = ⟨1⟩ →
      hashCode (.object i) [] w = .ok c w' →
      twoGlobals.HashedSince (numbered is i) w' ∧
        w'.context.hasher.state.toNat = HashSequence.state 0 (numbered is i).length ∧
        ∀ k, (numbered is i)[k]? = some i → c.toInt = HashSequence.term 0 k := by
    intro is w i c w' hsince hheap hfree hi hrun
    obtain ⟨-, -, hhash, -⟩ := hall is w hsince
    obtain ⟨js, code, w'', hrun', hafter, hcode, hjs, -⟩ :=
      hhash [] (.object i) (.object i) (hsince.sequenced h₀).ok (hheap ▸ hbacks i hi) rfl
    obtain rfl := hjs (.inl hfree)
    rw [hrun] at hrun'
    cases hrun'
    rw [List.append_nil] at hafter hcode
    exact ⟨hafter, (hall _ _ hafter).1.2, hcode⟩
  obtain ⟨hsince₁, hstate₁, hcode₁⟩ := step [] _ ⟨1⟩ _ _ .start rfl (by decide +kernel) (.inr rfl) hrun₁
  obtain ⟨hsince₂, hstate₂, hcode₂⟩ := step [⟨1⟩] _ ⟨0⟩ _ _ hsince₁ hheap₁ hfree₁ (.inl rfl) hrun₂
  obtain ⟨-, hstate₃, hcode₃⟩ := step [⟨1⟩, ⟨0⟩] _ ⟨1⟩ _ _ hsince₂ hheap₂ hfree₂ (.inr rfl) hrun₃
  have hterm₀ : HashSequence.term 0 0 = 723471715 := by decide
  have hterm₁ : HashSequence.term 0 1 = -1797600390 := by decide
  obtain rfl : c₁ = 723471715 := Int32.toInt_inj.1 ((hcode₁ 0 rfl).trans hterm₀)
  obtain rfl : c₂ = -1797600390 := Int32.toInt_inj.1 ((hcode₂ 1 rfl).trans hterm₁)
  obtain rfl : c₃ = 723471715 := Int32.toInt_inj.1 ((hcode₃ 0 rfl).trans hterm₀)
  exact ⟨w₁, w₂, w₃, hrun₁, hrun₂, hrun₃, UInt32.toNat_inj.1 hstate₁, UInt32.toNat_inj.1 hstate₂,
    UInt32.toNat_inj.1 hstate₃⟩

end Hash

end BridgeM

end GuestBridge
