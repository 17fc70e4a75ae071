import Mathlib.Data.Nat.Prime.Basic
import Mathlib.Data.Set.Finite.Basic
import Mathlib.Dynamics.PeriodicPts.Lemmas
import Mathlib.Tactic.IntervalCases
import Mathlib.Tactic.NormNum.Prime
import Mathlib.Tactic.Ring
import GuestBridge.Proofs.Hashing

/-!
# The period of the hash sequence

The step of the hash sequence is additive for the bitwise sum, so it is given by what it does to
the thirty-two bits. A step made many times is then computed by squaring, and the orbit of one
turns out to have as many states as there are words other than zero. It is the only orbit besides
that of zero.

* `Word.advance_eq`: what many steps of an additive map do, by squaring.
* `minimalPeriod_eq_of_prime_div`: a period none of whose quotients by a prime is one is the least.
* `minimalPeriod_xorshift`: **the least period of a state that is not zero is `2 ^ 32 - 1`.**
* `World.Hashes.numbered`: the hashes given in a session are terms of the sequence, by number.
* `hashes_are_distinct`: **no hash is given to two values** among the first `2 ^ 32 - 1`.
-/

namespace GuestBridge

open Function

/-! ## Additive maps on words -/

namespace Word

/-- Maps that take bitwise sums to bitwise sums. -/
def Additive (f : UInt32 → UInt32) : Prop := ∀ x y, f (x ^^^ y) = f x ^^^ f y

/-- What a map does to the first `k` bits, from the lowest one on. -/
def columns : ℕ → (UInt32 → UInt32) → List ℕ
  | 0, _ => []
  | k + 1, f => (f 1).toNat :: columns k fun x => f (x <<< 1)

/-- The bitwise sum of the columns at which a number has a bit. -/
def combine : List ℕ → ℕ → ℕ
  | [], _ => 0
  | c :: cs, n => n % 2 * c ^^^ combine cs (n / 2)

/-- The columns of a map made twice. -/
def square (cs : List ℕ) : List ℕ := cs.map (combine cs)

/-- Makes a map with the given columns `n` times, for `n` of `k` bits. -/
def advance : ℕ → List ℕ → ℕ → ℕ → ℕ
  | 0, _, _, x => x
  | k + 1, cs, n, x => advance k (square cs) (n / 2) (if n % 2 = 1 then combine cs x else x)

variable {f g : UInt32 → UInt32}

section Additive

theorem Additive.zero (h : Additive f) : f 0 = 0 := by
  have hsum := h 0 0
  rwa [UInt32.xor_self, UInt32.xor_self] at hsum

theorem Additive.comp (hg : Additive g) (hf : Additive f) : Additive (g ∘ f) := by
  intro x y
  show g (f (x ^^^ y)) = g (f x) ^^^ g (f y)
  rw [hf, hg]

theorem Additive.iterate (h : Additive f) (n : ℕ) : Additive f^[n] := by
  induction n with
  | zero => exact fun _ _ => rfl
  | succ n ih => exact ih.comp h

theorem additive_shiftLeft (k : UInt32) : Additive (· <<< k) := fun _ _ => UInt32.shiftLeft_xor

theorem additive_shiftRight (k : UInt32) : Additive (· >>> k) := fun _ _ => UInt32.shiftRight_xor

/-- What a map gives may be added to what it is given. -/
theorem Additive.self_xor (h : Additive f) : Additive fun x => x ^^^ f x := by
  intro x y
  show x ^^^ y ^^^ f (x ^^^ y) = x ^^^ f x ^^^ (y ^^^ f y)
  rw [h, UInt32.xor_assoc x y, ← UInt32.xor_assoc y, UInt32.xor_comm y, UInt32.xor_assoc (f x),
    ← UInt32.xor_assoc x]

end Additive

section Columns

/-- The lowest bit of a number, and the others. -/
theorem ofNat_eq_xor (n : ℕ) :
    UInt32.ofNat n = UInt32.ofNat (n % 2) ^^^ (UInt32.ofNat (n / 2) <<< 1) := by
  refine UInt32.toNat_inj.1 (Nat.eq_of_testBit_eq fun i => ?_)
  have hrest : (UInt32.ofNat (n / 2) <<< 1).toNat = n / 2 % 2 ^ 32 * 2 % 2 ^ 32 := by
    rw [UInt32.toNat_shiftLeft, UInt32.toNat_ofNat', Nat.shiftLeft_eq]
    rfl
  rw [UInt32.toNat_xor, hrest, UInt32.toNat_ofNat', UInt32.toNat_ofNat']
  simp only [Nat.testBit_xor, Nat.testBit_mod_two_pow]
  -- the lowest bit comes from the remainder, and each other from one place below
  cases i with
  | zero => simp [Nat.testBit_zero]
  | succ i =>
    have hhigh : n % 2 / 2 = 0 := by omega
    rw [Nat.testBit_succ, Nat.testBit_succ, Nat.testBit_succ, hhigh, Nat.zero_testBit,
      Nat.mul_div_cancel _ two_pos, Nat.testBit_mod_two_pow]
    by_cases hi : i + 1 < 32
    · have hi' : i < 32 := by omega
      simp [hi, hi']
    · simp [hi]

/-- **An additive map is given by its columns.** -/
theorem combine_columns (h : Additive f) (k : ℕ) {n : ℕ} (hn : n < 2 ^ k) :
    combine (columns k f) n = (f (UInt32.ofNat n)).toNat := by
  induction k generalizing f n with
  | zero =>
    obtain rfl : n = 0 := by simpa using hn
    have hzero : f (UInt32.ofNat 0) = 0 := h.zero
    rw [hzero]
    rfl
  | succ k ih =>
    have hrest : combine (columns k fun x => f (x <<< 1)) (n / 2) =
        (f (UInt32.ofNat (n / 2) <<< 1)).toNat := ih (h.comp (additive_shiftLeft 1)) (by omega)
    -- the first column counts just if the lowest bit is set
    have hlow : n % 2 * (f 1).toNat = (f (UInt32.ofNat (n % 2))).toNat := by
      rcases Nat.mod_two_eq_zero_or_one n with hzero | hone
      · have hf : f (UInt32.ofNat 0) = 0 := h.zero
        rw [hzero, Nat.zero_mul, hf]
        rfl
      · rw [hone, Nat.one_mul]
        rfl
    rw [columns, combine, ofNat_eq_xor n, h, UInt32.toNat_xor, hlow, hrest]

/-- The columns of a map after another one. -/
theorem map_combine_columns (hg : Additive g) (k : ℕ) :
    (columns k f).map (combine (columns 32 g)) = columns k (g ∘ f) := by
  induction k generalizing f with
  | zero => rfl
  | succ k ih =>
    rw [columns.eq_2 f k, List.map_cons, combine_columns hg 32 (UInt32.toNat_lt _), ih,
      UInt32.ofNat_toNat]
    rfl

theorem square_columns (h : Additive f) : square (columns 32 f) = columns 32 f^[2] :=
  map_combine_columns h 32

/-- **What many steps do**, by squaring. -/
theorem advance_eq (h : Additive f) (k : ℕ) {n : ℕ} (hn : n < 2 ^ k) (x : UInt32) :
    advance k (columns 32 f) n x.toNat = (f^[n] x).toNat := by
  induction k generalizing f n x with
  | zero =>
    obtain rfl : n = 0 := by simpa using hn
    rfl
  | succ k ih =>
    have hfirst : (if n % 2 = 1 then combine (columns 32 f) x.toNat else x.toNat) =
        (f^[n % 2] x).toNat := by
      rcases Nat.mod_two_eq_zero_or_one n with hzero | hone
      · rw [hzero, if_neg (by decide)]
        rfl
      · rw [hone, if_pos rfl, combine_columns h 32 x.toNat_lt, UInt32.ofNat_toNat]
        rfl
    rw [advance, hfirst, square_columns h, ih (h.iterate 2) (by omega), ← iterate_mul,
      ← iterate_add_apply, Nat.div_add_mod]

end Columns

end Word

/-! ## The period -/

section Period

/-- A period is the least one, if none of its quotients by a prime is a period. -/
theorem minimalPeriod_eq_of_prime_div {α : Type} {f : α → α} {x : α} {n : ℕ} (hx : f^[n] x = x)
    (h : ∀ p, p.Prime → p ∣ n → f^[n / p] x ≠ x) : minimalPeriod f x = n := by
  obtain ⟨m, hm⟩ : minimalPeriod f x ∣ n := IsPeriodicPt.minimalPeriod_dvd hx
  by_contra hne
  have hm₁ : m ≠ 1 := by
    rintro rfl
    exact hne (by rw [hm, mul_one])
  obtain ⟨p, hp, k, rfl⟩ := Nat.exists_prime_and_dvd hm₁
  have hsplit : n = p * (k * minimalPeriod f x) := by rw [hm]; ring
  refine h p hp ⟨_, hsplit⟩ ?_
  rw [Nat.div_eq_of_eq_mul_right hp.pos hsplit]
  exact (isPeriodicPt_minimalPeriod f x).const_mul k

theorem additive_xorshift : Word.Additive xorshift :=
  (Word.additive_shiftLeft 5).self_xor.comp
    ((Word.additive_shiftRight 17).self_xor.comp (Word.additive_shiftLeft 13).self_xor)

/-- The number of words other than zero is the product of five primes. -/
theorem eq_of_prime_of_dvd {p : ℕ} (hp : p.Prime) (h : p ∣ 2 ^ 32 - 1) :
    p ∈ [3, 5, 17, 257, 65537] := by
  have hfactors : 2 ^ 32 - 1 = 3 * 5 * 17 * 257 * 65537 := by norm_num
  have heq : ∀ q : ℕ, q.Prime → p ∣ q → p = q := fun q hq hdvd =>
    (Nat.prime_dvd_prime_iff_eq hp hq).1 hdvd
  rw [hfactors, hp.dvd_mul, hp.dvd_mul, hp.dvd_mul, hp.dvd_mul] at h
  rcases h with (((h | h) | h) | h) | h
  · simp [heq 3 (by norm_num) h]
  · simp [heq 5 (by norm_num) h]
  · simp [heq 17 (by norm_num) h]
  · simp [heq 257 (by norm_num) h]
  · simp [heq 65537 (by norm_num) h]

/-- From one, the sequence is back at one after `2 ^ 32 - 1` steps, and after no quotient of that
number by one of its primes. -/
theorem advance_one : ∀ d ∈ [1, 3, 5, 17, 257, 65537],
    (Word.advance 32 (Word.columns 32 xorshift) ((2 ^ 32 - 1) / d) 1 = 1 ↔ d = 1) := by
  decide +kernel

theorem iterate_xorshift_one {d : ℕ} (hd : d ∈ [1, 3, 5, 17, 257, 65537]) :
    xorshift^[(2 ^ 32 - 1) / d] 1 = 1 ↔ d = 1 := by
  have hlt : (2 ^ 32 - 1) / d < 2 ^ 32 := (Nat.div_le_self _ d).trans_lt (by norm_num)
  rw [← advance_one d hd, ← UInt32.toNat_inj, ← Word.advance_eq additive_xorshift 32 hlt 1]
  rfl

theorem minimalPeriod_one : minimalPeriod xorshift 1 = 2 ^ 32 - 1 := by
  refine minimalPeriod_eq_of_prime_div ?_ fun p hp hdvd hperiod => ?_
  · have hone := (iterate_xorshift_one (d := 1) (by decide)).2 rfl
    rwa [Nat.div_one] at hone
  · have hmem := eq_of_prime_of_dvd hp hdvd
    exact hp.ne_one ((iterate_xorshift_one (List.mem_cons_of_mem _ hmem)).1 hperiod)

theorem isPeriodicPt_one : IsPeriodicPt xorshift (2 ^ 32 - 1) 1 :=
  minimalPeriod_one ▸ isPeriodicPt_minimalPeriod xorshift 1

/-- A sequence that gets to zero stays there, so that of one does not. -/
theorem iterate_one_ne_zero (k : ℕ) : xorshift^[k] 1 ≠ 0 := by
  intro hzero
  have hback : xorshift^[(2 ^ 32 - 1) * (k + 1)] 1 = 1 := isPeriodicPt_one.mul_const (k + 1)
  have hsplit : (2 ^ 32 - 1) * (k + 1) = ((2 ^ 32 - 2) * (k + 1) + 1) + k := by ring
  rw [hsplit, iterate_add_apply, hzero, (additive_xorshift.iterate _).zero] at hback
  cases hback

/-- **Every word other than zero is on the orbit of one**: there are as many of them as the orbit
has states. -/
theorem exists_iterate_one {x : UInt32} (hx : x ≠ 0) : ∃ k, xorshift^[k] 1 = x := by
  have hinj : Set.InjOn (fun k => (xorshift^[k] 1).toNat) (Finset.range (2 ^ 32 - 1)) := by
    intro j hj k hk h
    have hj' : j < minimalPeriod xorshift 1 := minimalPeriod_one ▸ Finset.mem_range.1 hj
    have hk' : k < minimalPeriod xorshift 1 := minimalPeriod_one ▸ Finset.mem_range.1 hk
    exact (iterate_eq_iterate_iff_of_lt_minimalPeriod hj' hk').1 (UInt32.toNat_inj.1 h)
  have hsub : (Finset.range (2 ^ 32 - 1)).image (fun k => (xorshift^[k] 1).toNat) ⊆
      Finset.Ico 1 (2 ^ 32) := by
    intro n hn
    obtain ⟨k, -, rfl⟩ := Finset.mem_image.1 hn
    have hne : (xorshift^[k] 1).toNat ≠ 0 := fun h => iterate_one_ne_zero k (UInt32.toNat_inj.1 h)
    exact Finset.mem_Ico.2 ⟨Nat.one_le_iff_ne_zero.2 hne, UInt32.toNat_lt _⟩
  -- distinct states, and all of them words other than zero: none is missed
  have hcard : (Finset.Ico 1 (2 ^ 32)).card ≤
      ((Finset.range (2 ^ 32 - 1)).image fun k => (xorshift^[k] 1).toNat).card := by
    rw [Finset.card_image_of_injOn hinj, Finset.card_range, Nat.card_Ico]
  have hmem : x.toNat ∈ Finset.Ico 1 (2 ^ 32) :=
    Finset.mem_Ico.2 ⟨Nat.one_le_iff_ne_zero.2 fun h => hx (UInt32.toNat_inj.1 h), x.toNat_lt⟩
  rw [← Finset.eq_of_subset_of_card_le hsub hcard] at hmem
  obtain ⟨k, -, hk⟩ := Finset.mem_image.1 hmem
  exact ⟨k, UInt32.toNat_inj.1 hk⟩

/-- A state that is not zero never leads to zero, -/
theorem iterate_xorshift_ne_zero {x : UInt32} (hx : x ≠ 0) (k : ℕ) : xorshift^[k] x ≠ 0 := by
  obtain ⟨j, rfl⟩ := exists_iterate_one hx
  rw [← iterate_add_apply]
  exact iterate_one_ne_zero _

/-- **and it has the full period.** -/
theorem minimalPeriod_xorshift {x : UInt32} (hx : x ≠ 0) :
    minimalPeriod xorshift x = 2 ^ 32 - 1 := by
  obtain ⟨j, rfl⟩ := exists_iterate_one hx
  have hone : (1 : UInt32) ∈ periodicPts xorshift := ⟨_, by norm_num, isPeriodicPt_one⟩
  rw [minimalPeriod_apply_iterate hone, minimalPeriod_one]

end Period

/-! ## Hashes -/

section Hashes

variable {w₀ w : World} {seed : UInt32} {log : List (HostId × Int32)}

/-- No seed starts at zero. -/
theorem Hasher.ofSeed_state_ne_zero (seed : UInt32) : (ofSeed seed).state ≠ 0 := by
  unfold ofSeed
  split_ifs with h
  · decide
  · exact h

theorem Hasher.nth_ne_zero (seed : UInt32) (k : ℕ) : nth seed k ≠ 0 := by
  intro h
  exact iterate_xorshift_ne_zero (ofSeed_state_ne_zero seed) (k + 1) (congrArg Int32.toUInt32 h)

/-- **The first `2 ^ 32 - 1` hashes of a sequence are distinct.** -/
theorem Hasher.nth_injOn (seed : UInt32) : Set.InjOn (nth seed) (Set.Iio (2 ^ 32 - 1)) := by
  intro j hj k hk h
  have hperiod := minimalPeriod_xorshift (iterate_xorshift_ne_zero (ofSeed_state_ne_zero seed) 1)
  have hiterate : xorshift^[j] (xorshift^[1] (ofSeed seed).state) =
      xorshift^[k] (xorshift^[1] (ofSeed seed).state) :=
    congrArg Int32.toUInt32 h
  exact (iterate_eq_iterate_iff_of_lt_minimalPeriod (hperiod ▸ hj) (hperiod ▸ hk)).1 hiterate

/-- A run from `w₀` in which objects and symbols are hashed; the log holds what was hashed with what
was given for it, in that order. -/
inductive World.Hashes (w₀ : World) : List (HostId × Int32) → World → Prop
  | start : Hashes w₀ [] w₀
  | moves {log : List (HostId × Int32)} {w w' : World} {ℓ : Level} {held : List HostId}
      (h : Hashes w₀ log w) (hr : Reaches ℓ held w w') : Hashes w₀ log w'
  | hash {log : List (HostId × Int32)} {w w' : World} {held : List HostId} {v : HostValue}
      {r : Referent} {code : Int32} (h : Hashes w₀ log w) (hw : w.OK held)
      (hv : w.heap.Backs (.value v)) (hr : v.identity? = some r)
      (hc : BridgeM.hashCode v held w = .ok code w') : Hashes w₀ (log ++ [(r.id, code)]) w'

/-- A value that is hashed with the number of its place in `is`. -/
def Hasher.Numbers (seed : UInt32) (is : List HostId) (e : HostId × Int32) : Prop :=
  ∃ k, is[k]? = some e.1 ∧ e.2 = nth seed k

theorem Hasher.Numbers.append {is : List HostId} {e : HostId × Int32} (h : Numbers seed is e)
    (js : List HostId) : Numbers seed (is ++ js) e := by
  obtain ⟨k, hk, hcode⟩ := h
  refine ⟨k, ?_, hcode⟩
  rw [List.getElem?_append_left (List.getElem?_eq_some_iff.1 hk).1, hk]

/-- **The hashes given are terms of the sequence**, by the number of the first hashing. -/
theorem World.Hashes.numbered (h₀ : w₀.Sequenced seed []) (h : w₀.Hashes log w) :
    ∃ is, w₀.HashedSince is w ∧ ∀ e ∈ log, Hasher.Numbers seed is e := by
  induction h with
  | start => exact ⟨[], .start, nofun⟩
  | moves _ hr ih =>
    obtain ⟨is, hsince, hlog⟩ := ih
    obtain ⟨js, hjs⟩ := hsince.reaches hr
    exact ⟨is ++ js, hjs, fun e he => (hlog e he).append js⟩
  | @hash log w w' held v r code _ hw hv hr hc ih =>
    obtain ⟨is, hsince, hlog⟩ := ih
    obtain ⟨js, code', w'', hrun, hafter, hcode, -⟩ :=
      BridgeM.hashCode_run h₀ hsince hw hv hr
    rw [hc] at hrun
    cases hrun
    refine ⟨_, hafter, fun e he => ?_⟩
    rcases List.mem_append.1 he with he | he
    · -- a new number comes after those that there are
      have hkept := (hlog e he).append js
      unfold BridgeM.numbered
      split_ifs
      · exact hkept
      · exact hkept.append _
    · obtain rfl := List.mem_singleton.1 he
      have hmem : r.id ∈ BridgeM.numbered (is ++ js) r.id := by
        unfold BridgeM.numbered
        split_ifs with h
        · exact h
        · simp
      obtain ⟨k, hk⟩ := List.mem_iff_getElem?.1 hmem
      exact ⟨k, hk, hcode k hk⟩

/-- Values numbered below the period have equal hashes only if they are the same. -/
theorem Hasher.Numbers.eq_iff {is : List HostId} {e e' : HostId × Int32} (his : is.Nodup)
    (h : Numbers seed is e) (h' : Numbers seed is e') (he : e.1 ∈ is.take (2 ^ 32 - 1))
    (he' : e'.1 ∈ is.take (2 ^ 32 - 1)) : e.2 = e'.2 ↔ e.1 = e'.1 := by
  obtain ⟨k, hk, hcode⟩ := h
  obtain ⟨j, hj, hcode'⟩ := h'
  have below : ∀ {n : ℕ} {i : HostId}, is[n]? = some i → i ∈ is.take (2 ^ 32 - 1) →
      n < 2 ^ 32 - 1 := by
    intro n i hn hi
    obtain ⟨m, hm⟩ := List.mem_iff_getElem?.1 hi
    rw [List.getElem?_take] at hm
    split_ifs at hm with hlt
    obtain rfl : n = m :=
      (List.getElem?_inj (List.getElem?_eq_some_iff.1 hn).1 his).1 (hn.trans hm.symm)
    exact hlt
  constructor
  · intro h
    obtain rfl : k = j := nth_injOn seed (below hk he) (below hj he') (hcode ▸ hcode' ▸ h)
    exact Option.some.inj (hk.symm.trans hj)
  · intro h
    rw [← h] at hj
    obtain rfl : k = j :=
      (List.getElem?_inj (List.getElem?_eq_some_iff.1 hk).1 his).1 (hk.trans hj.symm)
    rw [hcode, hcode']

/-- **The hash sequence has the full period, and hashes are distinct.**

* A state that is not zero never leads to zero, and is back after `2 ^ 32 - 1` steps, not before.
* From every seed, no hash is zero and the first `2 ^ 32 - 1` of them are distinct.
* In every session of a bridge, whatever its seed, an object or a symbol that is alive can be hashed
  at any time. What is given for one is never zero. Among the `2 ^ 32 - 1` values that were hashed
  first, dead ones included, two hashings give the same exactly if they are of the same value. -/
theorem hashes_are_distinct :
    (∀ x, x ≠ 0 → (∀ k, xorshift^[k] x ≠ 0) ∧ minimalPeriod xorshift x = 2 ^ 32 - 1) ∧
    (∀ seed, (∀ k, Hasher.nth seed k ≠ 0) ∧
      Set.InjOn (Hasher.nth seed) (Set.Iio (2 ^ 32 - 1))) ∧
    ∀ s environment o w₀, World.load s environment = (some o, .ok (), w₀) →
      (∀ log w held v r, w₀.Hashes log w → w.OK held → w.heap.Backs (.value v) →
        v.identity? = some r → ∃ code w', BridgeM.hashCode v held w = .ok code w') ∧
      ∀ log w, w₀.Hashes log w → ∃ is, w₀.HashedSince is w ∧ is.Nodup ∧
        ∀ e ∈ log, e.1 ∈ is ∧ e.2 ≠ 0 ∧
          ∀ e' ∈ log, e.1 ∈ is.take (2 ^ 32 - 1) → e'.1 ∈ is.take (2 ^ 32 - 1) →
            (e.2 = e'.2 ↔ e.1 = e'.1) := by
  refine ⟨fun x hx => ⟨iterate_xorshift_ne_zero hx, minimalPeriod_xorshift hx⟩,
    fun seed => ⟨Hasher.nth_ne_zero seed, Hasher.nth_injOn seed⟩,
    fun s environment o w₀ hload => ?_⟩
  have h₀ := World.load_sequenced hload
  refine ⟨fun log w held v r h hw hv hr => ?_, fun log w h => ?_⟩
  · obtain ⟨is, hsince, -⟩ := h.numbered h₀
    obtain ⟨-, code, w', hrun, -⟩ := BridgeM.hashCode_run h₀ hsince hw hv hr
    exact ⟨code, w', hrun⟩
  · obtain ⟨is, hsince, hlog⟩ := h.numbered h₀
    have hnodup := (hsince.sequenced h₀).nodup
    refine ⟨is, hsince, hnodup, fun e he => ?_⟩
    obtain ⟨k, hk, hcode⟩ := hlog e he
    refine ⟨List.mem_of_getElem? hk, hcode ▸ Hasher.nth_ne_zero _ k, fun e' he' => ?_⟩
    exact (hlog e he).eq_iff hnodup (hlog e' he')

/-- On a bridge with zero as its seed, two globals get different hashes. -/
theorem twoGlobals_hash_apart : minimalPeriod xorshift 1 = 2 ^ 32 - 1 ∧
    ∃ c w₁ d w₂, BridgeM.hashCode (.object ⟨0⟩) [] BridgeM.twoGlobals = .ok c w₁ ∧
      BridgeM.hashCode (.object ⟨1⟩) [] w₁ = .ok d w₂ ∧ c ≠ 0 ∧ d ≠ 0 ∧ c ≠ d := by
  obtain ⟨hperiod, -, hsessions⟩ := hashes_are_distinct
  have hload : World.load { seed := some 0, bound := [("a", .object []), ("b", .object [])] } {} =
      (some _, .ok (), BridgeM.twoGlobals) := rfl
  have h₀ := World.load_sequenced hload
  obtain ⟨c, w₁, d, w₂, hc, hd, hheap, hnext⟩ : ∃ c w₁ d w₂,
      BridgeM.hashCode (.object ⟨0⟩) [] BridgeM.twoGlobals = .ok c w₁ ∧
        BridgeM.hashCode (.object ⟨1⟩) [] w₁ = .ok d w₂ ∧
        w₁.heap = BridgeM.twoGlobals.heap ∧ w₂.heap.next = 2 :=
    ⟨_, _, _, _, rfl, rfl, rfl, rfl⟩
  have hbacks : ∀ i, i = ⟨0⟩ ∨ i = ⟨1⟩ → BridgeM.twoGlobals.heap.Backs (.value (.object i)) := by
    rintro i (rfl | rfl) <;> exact ⟨_, rfl⟩
  have hfirst : BridgeM.twoGlobals.Hashes [(⟨0⟩, c)] w₁ :=
    World.Hashes.start.hash (World.load_ok hload) (hbacks _ (.inl rfl)) rfl hc
  obtain ⟨is₁, hsince₁, -⟩ := hfirst.numbered h₀
  have hboth : BridgeM.twoGlobals.Hashes [(⟨0⟩, c), (⟨1⟩, d)] w₂ :=
    hfirst.hash (r := .object ⟨1⟩) (hsince₁.sequenced h₀).ok (hheap ▸ hbacks _ (.inr rfl)) rfl hd
  obtain ⟨is, hsince, hnodup, hdistinct⟩ := (hsessions _ _ _ _ hload).2 _ _ hboth
  obtain ⟨hc₁, hc₀, happart⟩ := hdistinct (⟨0⟩, c) (by simp)
  obtain ⟨hd₁, hd₀, -⟩ := hdistinct (⟨1⟩, d) (by simp)
  -- only two values have been made, so that all that were hashed are among the first
  have hall : is.take (2 ^ 32 - 1) = is := by
    have hknown : is ⊆ [⟨0⟩, ⟨1⟩] := by
      rintro ⟨i⟩ hi
      have hlt : i < 2 := hnext ▸ (hsince.sequenced h₀).known _ hi
      interval_cases i <;> simp
    have hlength := (hnodup.subperm hknown).length_le
    exact List.take_of_length_le (hlength.trans (by norm_num))
  refine ⟨(hperiod 1 (by decide)).2, c, w₁, d, w₂, hc, hd, hc₀, hd₀, fun h => ?_⟩
  have hsame := (happart (⟨1⟩, d) (by simp) (by rwa [hall]) (by rwa [hall])).1 h
  cases hsame

end Hashes

end GuestBridge
