import Mathlib.Data.Int.ModEq
import GuestBridge.IdentityHash
import GuestBridge.Proofs.Nearest

/-!
# Hashes of numbers

The hash of a number is computed in floating point: the integer part, its remainder by `2 ^ 32`,
and a subtraction that brings it among the signed words. None of these steps rounds anything,
however large the number is. The hash of a big integer is read off its lowest bits. Both are the
signed word that is congruent to the integer modulo `2 ^ 32`.

* `Format.toRat_strictMono`: codes and magnitudes are ordered alike.
* `Binary.toRat?_ofRat_toRat?`: the value of a number is not rounded.
* `Binary.less_iff`: the test for less compares the values.
* `Binary.IsInt.rem`, `Binary.IsInt.remEuclid`: remainders are exact.
* `hashes_are_residues`: **hashes of numbers are residues modulo `2 ^ 32`**.
-/

namespace GuestBridge

/-! ## Codes and magnitudes -/

namespace Format

variable {f : Format} {c : ℕ}

/-- A code is an exponent and a significand. -/
theorem exponent_mul_add_significand (f : Format) (c : ℕ) :
    (f.exponent c - f.leastExponent).toNat * 2 ^ f.fractionBits + f.significand c = c := by
  have hexponent : (f.exponent c - f.leastExponent).toNat = c / 2 ^ f.fractionBits - 1 := by
    unfold exponent
    omega
  have hdiv := Nat.div_add_mod' c (2 ^ f.fractionBits)
  rw [hexponent]
  unfold significand
  split_ifs with h
  · simp [Nat.div_eq_of_lt h]
  · obtain ⟨e, he⟩ := Nat.exists_eq_succ_of_ne_zero
      (Nat.div_pos (not_lt.1 h) (Nat.two_pow_pos f.fractionBits)).ne'
    rw [he, Nat.succ_mul] at hdiv
    rw [he, Nat.succ_sub_one]
    omega

/-- The next code has the next multiple of the same unit. -/
theorem toRat_succ (f : Format) (c : ℕ) :
    f.toRat (c + 1) = (f.significand c + 1 : ℕ) * 2 ^ f.exponent c := by
  have hlt : f.significand c < 2 ^ (f.fractionBits + 1) := by
    have hmod := Nat.mod_lt c (Nat.two_pow_pos f.fractionBits)
    rw [pow_succ]
    unfold significand
    split <;> omega
  have hleast : f.leastExponent ≤ f.exponent c := by unfold exponent; omega
  have hnormal : 2 ^ f.fractionBits ≤ f.significand c + 1 ∨ f.exponent c = f.leastExponent := by
    unfold significand exponent
    split_ifs with h
    · exact .inr (by simp [Nat.div_eq_of_lt h])
    · exact .inl (by omega)
  have hcode := toRat_code (k := f.significand c + 1) hleast hlt hnormal
  rwa [← Nat.add_assoc, exponent_mul_add_significand] at hcode

/-- **Codes and magnitudes are ordered alike.** -/
theorem toRat_strictMono (f : Format) : StrictMono f.toRat := by
  refine strictMono_nat_of_lt_succ fun c => ?_
  rw [toRat_succ, toRat]
  gcongr
  exact Nat.lt_succ_self _

theorem toRat_zero (f : Format) : f.toRat 0 = 0 := by
  unfold toRat significand
  simp

/-- The value of a code is rounded to the code. -/
theorem roundRatio_toRat (hc : 0 < f.toRat c) :
    f.roundRatio (f.toRat c).num.natAbs (f.toRat c).den = c := by
  have hn := Binary.natAbs_num_pos hc
  have hratio := (Binary.natAbs_num_div_den (f.toRat c)).trans (abs_of_pos hc)
  refine f.toRat_strictMono.injective (le_antisymm ?_ ?_)
  · exact (onGrid_toRat c).toRat_roundRatio_le hn (Rat.den_pos _) hratio.le
  · exact (onGrid_toRat c).le_toRat_roundRatio hn (Rat.den_pos _) hratio.ge

end Format

namespace Binary

variable {x y : Double} {p q : ℚ} {m n : ℤ}

/-! ## Comparison -/

section Less

/-- The test for less compares the places. -/
theorem less_eq_decide {a b : ℤ} (hx : x.place? = some a) (hy : y.place? = some b) :
    x.less y = decide (a < b) := by
  have hcompare : x.compare? y = some (compare a b) := by
    unfold compare?
    rw [hx, hy]
    rfl
  unfold less
  rw [hcompare, Bool.eq_iff_iff, beq_iff_eq, Option.some_inj, decide_eq_true_iff]
  exact Int.compare_eq_lt

/-- Places and values are ordered alike. -/
theorem place_lt_iff (s t : Bool) (c d : ℕ) :
    (if s then -(c : ℤ) else c) < (if t then -(d : ℤ) else d) ↔
      (if s then -Format.double.toRat c else Format.double.toRat c) <
        if t then -Format.double.toRat d else Format.double.toRat d := by
  have hlt : ∀ {a b : ℕ}, Format.double.toRat a < Format.double.toRat b ↔ a < b :=
    Format.double.toRat_strictMono.lt_iff_lt
  have hnonneg : ∀ a, 0 ≤ Format.double.toRat a := Double.toRat_nonneg
  have hpos : ∀ {a : ℕ}, 0 < Format.double.toRat a ↔ 0 < a := fun {a} => by
    rw [← hlt, Format.toRat_zero]
  -- two signs alike compare codes; unlike ones are apart, but for the two zeros
  cases s <;> cases t <;> simp only [if_true, if_false, Bool.false_eq_true]
  · rw [hlt, Int.ofNat_lt]
  · have hc := hnonneg c
    have hd := hnonneg d
    constructor <;> intro h <;> exfalso
    · omega
    · linarith
  · constructor
    · intro h
      rcases Nat.eq_zero_or_pos c with rfl | hc
      · have hd : 0 < Format.double.toRat d := hpos.2 (by omega)
        rwa [Format.toRat_zero, neg_zero]
      · exact (neg_neg_of_pos (hpos.2 hc)).trans_le (hnonneg d)
    · intro h
      by_contra hle
      obtain ⟨rfl, rfl⟩ : c = 0 ∧ d = 0 := by omega
      simp [Format.toRat_zero] at h
  · rw [neg_lt_neg_iff, neg_lt_neg_iff, hlt, Int.ofNat_lt]

/-- **The test for less compares the values.** -/
theorem less_iff (hx : x.toRat? = some p) (hy : y.toRat? = some q) : x.less y ↔ p < q := by
  obtain ⟨s, c, rfl⟩ := exists_eq_finite hx
  obtain ⟨t, d, rfl⟩ := exists_eq_finite hy
  have hplace : ∀ (s : Bool) c,
      (finite s c : Double).place? = some (if s then -(c : ℤ) else c) := by
    rintro (_ | _) c <;> rfl
  have hvalue : ∀ (s : Bool) c r, (finite s c : Double).toRat? = some r →
      r = if s then -Format.double.toRat c else Format.double.toRat c := by
    rintro (_ | _) c r h <;> exact (Option.some.inj h).symm
  rw [less_eq_decide (hplace s c) (hplace t d), decide_eq_true_iff, hvalue s c p hx,
    hvalue t d q hy]
  exact place_lt_iff s t c d

theorem IsInt.less_iff (hx : x.IsInt m) (hy : y.IsInt n) : x.less y ↔ m < n := by
  rw [Binary.less_iff hx hy, Int.cast_lt]

end Less

/-! ## Integer parts -/

section Trunc

/-- **The value of a number is not rounded**, however large it is. -/
theorem toRat?_ofRat_toRat? (hx : x.toRat? = some q) (s : Bool) :
    (ofRat q s : Double).toRat? = some q := by
  obtain ⟨t, ⟨c, hc⟩, rfl⟩ := exists_eq_finite hx
  have hq : q = if t then -Format.double.toRat c else Format.double.toRat c := by
    cases t <;> exact (Option.some.inj hx).symm
  rcases (Double.toRat_nonneg c).eq_or_lt with hzero | hpos
  · obtain rfl : q = 0 := by rw [hq, ← hzero]; simp
    exact_mod_cast toRat?_ofRat_int (n := 0) (by norm_num) s
  · rw [← hx, hq, ofRat_signed hpos, Format.roundRatio_toRat hpos, ofCode_of_lt hc]

/-- The integer part of a ratio is no larger than the ratio. -/
theorem natAbs_tdiv_lt {k : ℕ} (h : |q| < k) : (q.num.tdiv q.den).natAbs < k := by
  have hden : (0 : ℚ) < q.den := by exact_mod_cast q.den_pos
  rw [← natAbs_num_div_den, div_lt_iff₀ hden] at h
  rw [Int.natAbs_tdiv, Int.natAbs_natCast]
  exact Nat.div_lt_of_lt_mul (by rw [Nat.mul_comm]; exact_mod_cast h)

theorem tdiv_intCast (n : ℤ) : (n : ℚ).num.tdiv (n : ℚ).den = n := by
  rw [Rat.num_intCast, Rat.den_intCast]
  exact Int.tdiv_one n

/-- A number is whole, or it is less than `2 ^ 53`. -/
theorem isInt_or_abs_lt (hx : x.toRat? = some q) : (∃ n : ℤ, q = n) ∨ |q| < (2 ^ 53 : ℕ) := by
  obtain ⟨t, c, rfl⟩ := exists_eq_finite hx
  have habs : |q| = Format.double.toRat c := by
    cases t <;> rw [← Option.some.inj hx]
    · exact abs_of_nonneg (Double.toRat_nonneg c)
    · rw [abs_neg, abs_of_nonneg (Double.toRat_nonneg c)]
  obtain ⟨k, e, hk, hlt, -⟩ := Format.onGrid_toRat (f := .double) c.val
  -- with a unit of one or more the number is whole; below, the significand bounds it
  rcases le_or_gt 0 e with he | he
  · left
    obtain ⟨j, rfl⟩ := Int.eq_ofNat_of_zero_le he
    have hwhole : |q| = ((k * 2 ^ j : ℕ) : ℤ) := by
      rw [habs, hk]
      push_cast
      rw [zpow_natCast]
    rcases abs_choice q with h | h
    · exact ⟨_, h ▸ hwhole⟩
    · refine ⟨-((k * 2 ^ j : ℕ) : ℤ), ?_⟩
      rw [Int.cast_neg, ← hwhole, h, neg_neg]
  · right
    rw [habs, hk]
    calc (k : ℚ) * 2 ^ e ≤ k * 1 := by
          gcongr
          exact zpow_le_one_of_nonpos₀ one_le_two he.le
      _ < (2 ^ 53 : ℕ) := by
          rw [mul_one]
          exact_mod_cast hlt

/-- **The integer part is not rounded**, however large it is. -/
theorem isInt_trunc_of_toRat? (hx : x.toRat? = some q) : x.trunc.IsInt (q.num.tdiv q.den) := by
  rcases isInt_or_abs_lt hx with ⟨n, rfl⟩ | hlt
  · rw [IsInt, trunc, integral_eq hx, tdiv_intCast]
    exact toRat?_ofRat_toRat? hx _
  · exact isInt_trunc (by rw [truncate?, hx, Option.map_some]) (natAbs_tdiv_lt hlt)

end Trunc

/-! ## Remainders -/

section Remainder

/-- The integer part of a quotient of integers. -/
theorem tdiv_num_den_div (m : ℤ) (hn : 0 < n) :
    ((m : ℚ) / n).num.tdiv ((m : ℚ) / n).den = m.tdiv n := by
  obtain ⟨k, hm, hk⟩ := Rat.num_den_mk hn.ne' (Rat.divInt_eq_div m n).symm
  generalize (m : ℚ) / n = r at hm hk ⊢
  have hden : (0 : ℤ) < r.den := by exact_mod_cast r.den_pos
  have hpos : 0 < k := pos_of_mul_pos_left (hk ▸ hn) hden.le
  rw [hm, hk, Int.mul_tdiv_mul_of_pos _ _ hpos]

/-- The remainder that is not negative, from the one with the sign of the dividend. -/
theorem emod_eq_tmod (m : ℤ) (hn : 0 < n) :
    m % n = if m.tmod n < 0 then m.tmod n + n else m.tmod n := by
  have hlow : -n < m.tmod n := Int.lt_tmod_of_pos m hn
  have hhigh : m.tmod n < n := Int.tmod_lt_of_pos m hn
  have hsame : m % n = m.tmod n % n := by
    conv_lhs => rw [← Int.mul_tdiv_add_tmod m n, Int.mul_add_emod_self_left]
  rw [hsame]
  split_ifs with h
  · rw [← Int.add_emod_right, Int.emod_eq_of_lt (by omega) (by omega)]
  · exact Int.emod_eq_of_lt (not_lt.1 h) hhigh

/-- **The remainder of whole numbers is exact.** -/
theorem IsInt.rem (hx : x.IsInt m) (hy : y.IsInt n) (hn : 0 < n) (hsmall : n.natAbs < 2 ^ 53) :
    (x.rem y).IsInt (m.tmod n) := by
  obtain ⟨s, c, rfl⟩ := exists_eq_finite hx
  obtain ⟨t, d, rfl⟩ := exists_eq_finite hy
  have hd : d.val ≠ 0 := code_ne_zero hy (by exact_mod_cast hn.ne')
  have hrem : (finite s c : Double).rem (finite t d) =
      ofRat ((m : ℚ) - n * (((m : ℚ) / n).num.tdiv ((m : ℚ) / n).den : ℤ)) s := by
    rw [← exact_eq hx, ← exact_eq hy]
    change (if d.val = 0 then _ else _) = _
    rw [if_neg hd]
  have hvalue : (m : ℚ) - n * (m.tdiv n : ℤ) = (m.tmod n : ℤ) := by
    rw [Int.tmod_def]
    push_cast
    ring
  rw [IsInt, hrem, tdiv_num_den_div m hn, hvalue]
  refine toRat?_ofRat_int ?_ s
  have hlt := Nat.mod_lt m.natAbs (Int.natAbs_pos.2 hn.ne')
  rw [Int.natAbs_tmod]
  omega

theorem IsInt.abs (hx : x.IsInt n) (hn : 0 ≤ n) : x.abs.IsInt n := by
  obtain ⟨s, c, rfl⟩ := exists_eq_finite hx
  cases s with
  | false => exact hx
  | true =>
    -- only zero has a negative sign and is not negative
    have hc : (n : ℚ) = -Format.double.toRat c := (Option.some.inj hx).symm
    have hzero : Format.double.toRat c = 0 := by
      have hle : (0 : ℚ) ≤ n := by exact_mod_cast hn
      linarith [Double.toRat_nonneg c]
    show some (Format.double.toRat c) = some (n : ℚ)
    rw [hc, hzero, neg_zero]

/-- **So is the one that is not negative.** -/
theorem IsInt.remEuclid (hx : x.IsInt m) (hy : y.IsInt n) (hn : 0 < n)
    (hsmall : n.natAbs < 2 ^ 53) : (x.remEuclid y).IsInt (m % n) := by
  have hrem := hx.rem hy hn hsmall
  have hzero : (0 : Double).IsInt 0 := isInt_ofNat (k := 0) (by norm_num)
  unfold Binary.remEuclid
  dsimp only
  rw [emod_eq_tmod m hn]
  by_cases h : m.tmod n < 0
  · rw [if_pos h, if_pos ((hrem.less_iff hzero).2 h)]
    have hlow := Int.lt_tmod_of_pos m hn
    exact hrem.add (hy.abs hn.le) (by omega)
  · rw [if_neg h, if_neg fun hless => h ((hrem.less_iff hzero).1 hless)]
    exact hrem

/-- A whole number that is a signed word is taken for that word. -/
theorem IsInt.toInt32 (hx : x.IsInt n) (hlow : -2 ^ 31 ≤ n) (hhigh : n < 2 ^ 31) :
    x.toInt32 = Int32.ofInt n := by
  obtain ⟨s, c, rfl⟩ := exists_eq_finite hx
  have hmin : Int32.minValue.toInt = -2 ^ 31 := by decide
  have hmax : Int32.maxValue.toInt = 2 ^ 31 - 1 := by decide
  rw [Binary.toInt32, hx.truncate?, Option.getD_some, hmin, hmax, min_eq_right (by omega),
    max_eq_right hlow]

end Remainder

end Binary

/-! ## Hashes -/

namespace Hasher

variable {x : Double} {q : ℚ} {m n : ℤ}

/-- A rational number with its fraction cut off, toward zero. -/
def cutOff (q : ℚ) : ℤ := if 0 ≤ q then ⌊q⌋ else ⌈q⌉

theorem tdiv_eq_cutOff (q : ℚ) : q.num.tdiv q.den = cutOff q := by
  unfold cutOff
  split_ifs with h
  · rw [Rat.floor_def', Int.tdiv_eq_ediv_of_nonneg (Rat.num_nonneg.2 h)]
  · have hnum : 0 ≤ -q.num := by
      have := Rat.num_neg.2 (not_le.1 h)
      omega
    rw [Rat.ceil_def', ← Int.tdiv_eq_ediv_of_nonneg hnum, Int.neg_tdiv, neg_neg]

/-! ### Words and residues -/

/-- Integers give the same word if they are congruent. -/
theorem ofInt_congr (h : m ≡ n [ZMOD 2 ^ 32]) : Int32.ofInt m = Int32.ofInt n := by
  have hsize : ((Int32.size : ℕ) : ℤ) = 2 ^ 32 := rfl
  rw [← Int32.toInt_inj, Int32.toInt_ofInt, Int32.toInt_ofInt, ← Int.emod_bmod m, hsize, h, ← hsize,
    Int.emod_bmod]

/-- **There is one signed word in each residue class.** -/
theorem eq_ofInt_iff {k : Int32} : k = Int32.ofInt n ↔ k.toInt ≡ n [ZMOD 2 ^ 32] := by
  constructor
  · rintro rfl
    rw [Int32.toInt_ofInt]
    exact Int.bmod_emod
  · intro h
    rw [← Int32.ofInt_toInt k]
    exact ofInt_congr h

/-! ### Numbers -/

/-- **The hash of a number**, however large it is. -/
theorem hashNumber_eq (hx : x.toRat? = some q) : hashNumber x = Int32.ofInt (cutOff q) := by
  have hfinite : x.isFinite = true := by
    obtain ⟨s, c, rfl⟩ := Binary.exists_eq_finite hx
    rfl
  have hcount : wordCount.IsInt (2 ^ 32) := Binary.isInt_ofNat (k := 4294967296) (by norm_num)
  have hhalf : (wordCount / 2).IsInt (2 ^ 31) := by
    show (wordCount / 2).toRat? = _
    decide +kernel
  have hmodulo : (x.trunc.remEuclid wordCount).IsInt (cutOff q % 2 ^ 32) := by
    rw [← tdiv_eq_cutOff]
    exact (Binary.isInt_trunc_of_toRat? hx).remEuclid hcount (by norm_num) (by norm_num)
  have hlow : 0 ≤ cutOff q % 2 ^ 32 := Int.emod_nonneg _ (by norm_num)
  have hhigh : cutOff q % 2 ^ 32 < 2 ^ 32 := Int.emod_lt_of_pos _ (by norm_num)
  have hsame : cutOff q % 2 ^ 32 ≡ cutOff q [ZMOD 2 ^ 32] := Int.mod_modEq _ _
  unfold hashNumber
  rw [if_pos hfinite]
  dsimp only
  by_cases hless : cutOff q % 2 ^ 32 < 2 ^ 31
  · rw [if_pos ((hmodulo.less_iff hhalf).2 hless), hmodulo.toInt32 (by omega) hless]
    exact ofInt_congr hsame
  · rw [if_neg fun h => hless ((hmodulo.less_iff hhalf).1 h),
      (hmodulo.sub hcount (by omega)).toInt32 (by omega) (by omega)]
    exact ofInt_congr ((Int.sub_modulus_modEq_iff).2 hsame)

/-! ### Integers -/

/-- The lowest bits of an integer are its remainder, also if it is negative. -/
theorem masked_eq (n : ℤ) : (masked 0xffffffff n : ℤ) = n % 2 ^ 32 := by
  have hmask : ∀ m : ℕ, m &&& 0xffffffff = m % 2 ^ 32 := fun m =>
    Nat.and_two_pow_sub_one_eq_mod m 32
  cases n with
  | ofNat m =>
    rw [masked, hmask]
    push_cast
    rfl
  | negSucc m =>
    have hflip : (m % 2 ^ 32) ^^^ 0xffffffff = 2 ^ 32 - (m % 2 ^ 32 + 1) := by
      have hlt := Nat.mod_lt m (Nat.two_pow_pos 32)
      refine Nat.eq_of_testBit_eq fun i => ?_
      rw [Nat.testBit_two_pow_sub_succ hlt, Nat.testBit_xor,
        show 0xffffffff = 2 ^ 32 - 1 from rfl, Nat.testBit_two_pow_sub_one, Nat.testBit_mod_two_pow]
      cases decide (i < 32) <;> simp
    rw [masked, hmask, hflip, Int.negSucc_eq]
    omega

/-- **The hash of an integer.** -/
theorem hashInt_eq (n : ℤ) : hashInt n = Int32.ofInt n := by
  have hlow := masked_eq n
  have hlt : masked 0xffffffff n < UInt32.size := by
    have hmod := Int.emod_lt_of_pos n (b := 2 ^ 32) (by norm_num)
    have hsize : UInt32.size = 2 ^ 32 := rfl
    omega
  unfold hashInt
  dsimp only
  rw [if_pos hlt]
  have hword : (masked 0xffffffff n).toUInt32.toInt32 = Int32.ofInt (masked 0xffffffff n : ℕ) :=
    UInt32.toInt32_ofNat'.trans Int32.ofInt_eq_ofNat.symm
  rw [hword, hlow]
  exact ofInt_congr (Int.mod_modEq _ _)

/-- **Hashes of numbers are residues modulo `2 ^ 32`.** `cutOff` is the integer part of the exact
value of a number.

* The hash of a finite number is the one signed word that is congruent to its integer part, and the
  hash of any other number is zero.
* The hash of a big integer is the one signed word that is congruent to it.
* A finite number has the hash of its integer part.
* Hashes stay the same when multiples of `2 ^ 32` are added to the integer. -/
theorem hashes_are_residues :
    (∀ (x : Double) q, x.toRat? = some q →
      ∀ k : Int32, k = hashNumber x ↔ k.toInt ≡ cutOff q [ZMOD 2 ^ 32]) ∧
    (hashNumber .nan = 0 ∧ ∀ s, hashNumber (.infinity s) = 0) ∧
    (∀ (b : ℤ) (k : Int32), k = hashInt b ↔ k.toInt ≡ b [ZMOD 2 ^ 32]) ∧
    (∀ (x : Double) q, x.toRat? = some q → hashNumber x = hashInt (cutOff q)) ∧
    (∀ (x y : Double) q r, x.toRat? = some q → y.toRat? = some r →
      (∃ j, cutOff r = cutOff q + j * 2 ^ 32) → hashNumber y = hashNumber x) ∧
    ∀ b j, hashInt (b + j * 2 ^ 32) = hashInt b := by
  have hshift : ∀ b j : ℤ, Int32.ofInt (b + j * 2 ^ 32) = Int32.ofInt b := fun b j =>
    ofInt_congr (Int.add_mul_emod_self_right b j (2 ^ 32))
  refine ⟨fun x q hx k => ?_, ⟨rfl, fun _ => rfl⟩, fun b k => ?_, fun x q hx => ?_,
    fun x y q r hx hy hj => ?_, fun b j => ?_⟩
  · rw [hashNumber_eq hx, eq_ofInt_iff]
  · rw [hashInt_eq, eq_ofInt_iff]
  · rw [hashNumber_eq hx, hashInt_eq]
  · obtain ⟨j, hj⟩ := hj
    rw [hashNumber_eq hx, hashNumber_eq hy, hj, hshift]
  · rw [hashInt_eq, hashInt_eq, hshift]

/-- A number one and a half below the least signed word. -/
def belowLeast : Double := .ofRat (-4294967299 / 2)

/-- A number half above the greatest one. -/
def aboveGreatest : Double := .ofRat (4294967295 / 2)

theorem belowLeast_wraps : belowLeast.toRat? = some (-4294967299 / 2) ∧
    hashNumber belowLeast = 2147483647 ∧ hashNumber belowLeast = hashInt (-2147483649) ∧
    hashNumber aboveGreatest = hashNumber belowLeast := by
  obtain ⟨hnumber, -, -, hagree, hshift, -⟩ := hashes_are_residues
  have hbelow : belowLeast.toRat? = some (-4294967299 / 2) := by decide +kernel
  have habove : aboveGreatest.toRat? = some (4294967295 / 2) := by decide +kernel
  have hcut : cutOff (-4294967299 / 2) = -2147483649 := by decide +kernel
  have hcut' : cutOff (4294967295 / 2) = 2147483647 := by decide +kernel
  refine ⟨hbelow, ?_, hcut ▸ hagree _ _ hbelow, ?_⟩
  · refine ((hnumber _ _ hbelow 2147483647).2 ?_).symm
    rw [hcut]
    decide
  · exact hshift _ _ _ _ hbelow habove ⟨1, by rw [hcut, hcut']; norm_num⟩

end Hasher

end GuestBridge
