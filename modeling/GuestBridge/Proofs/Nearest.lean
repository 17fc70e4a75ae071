import GuestBridge.Number.Decimal
import GuestBridge.Proofs.Exact

/-!
# Nearest numbers

A ratio is rounded to the nearest multiple of its unit. No point of the grid is nearer: a coarser
one is a multiple too, and a finer one is further away than the power of two below the ratio.

* `Format.multiple_nearest`: the nearest multiple, and an even one if two are equally near.
* `Double.nearest_ofRat`: **a rational number is rounded to the number nearest to it.**
* `Decimal.toDouble_eq`: **a literal is rounded once**, however many digits it has and however
  large its exponent is.
-/

namespace GuestBridge

namespace Format

section Integers

variable {n d : ℕ}

/-- Within half a unit nothing is nearer, and something equally near is half a unit away too. -/
theorem le_abs_sub_of_half {a m k d : ℤ} (h : 2 * |a - m * d| ≤ d) :
    |a - m * d| ≤ |a - k * d| ∧ (|a - m * d| = |a - k * d| → k = m ∨ 2 * |a - m * d| = d) := by
  rcases eq_or_ne k m with rfl | hk
  · exact ⟨le_rfl, fun _ => .inl rfl⟩
  · have hd : 0 ≤ d := by linarith [abs_nonneg (a - m * d)]
    have hstep : d ≤ |(k - m) * d| := by
      rw [abs_mul, abs_of_nonneg hd]
      exact le_mul_of_one_le_left hd (Int.one_le_abs (sub_ne_zero.2 hk))
    have htriangle : |(k - m) * d| ≤ |a - m * d| + |a - k * d| := by
      have heq : (k - m) * d = (a - m * d) - (a - k * d) := by ring
      rw [heq]
      exact abs_sub _ _
    exact ⟨by linarith, fun heq => .inr (by linarith)⟩

theorem two_mul_abs_sub_nearestEven (hd : 0 < d) :
    2 * |(n : ℤ) - nearestEven n d * d| ≤ d := by
  obtain ⟨hlow, hhigh⟩ := nearestEven_spec (n := n) hd
  have hlow' : 2 * ((nearestEven n d : ℤ) * d) ≤ 2 * n + d := by exact_mod_cast hlow
  have hhigh' : 2 * (n : ℤ) ≤ 2 * (nearestEven n d * d) + d := by exact_mod_cast hhigh
  have habs : |(n : ℤ) - nearestEven n d * d| ≤ |2 * ((n : ℤ) - nearestEven n d * d)| := by
    rw [abs_mul]
    exact le_mul_of_one_le_left (abs_nonneg _) (by decide)
  calc 2 * |(n : ℤ) - nearestEven n d * d| = |2 * ((n : ℤ) - nearestEven n d * d)| := by
        rw [abs_mul]
        rfl
    _ ≤ d := abs_le.2 ⟨by linarith, by linarith⟩

/-- A tie goes to the even integer. -/
theorem even_nearestEven (hd : 0 < d) (h : 2 * |(n : ℤ) - nearestEven n d * d| = d) :
    nearestEven n d % 2 = 0 := by
  have hn : (n : ℤ) = d * (n / d : ℕ) + (n % d : ℕ) := by exact_mod_cast (Nat.div_add_mod n d).symm
  have hlt := Nat.mod_lt n hd
  unfold nearestEven at h ⊢
  -- half a unit away, the remainder is half the denominator, and the guard asks for parity
  split_ifs at h ⊢ with hdown
  · have hrest : (n : ℤ) - (n / d : ℕ) * d = (n % d : ℕ) := by
      linarith [mul_comm (d : ℤ) (n / d : ℕ)]
    rw [hrest, abs_of_nonneg (by positivity)] at h
    have htie : 2 * (n % d) = d := by exact_mod_cast h
    omega
  · have hrest : (n : ℤ) - (n / d + 1 : ℕ) * d = -((d : ℤ) - (n % d : ℕ)) := by
      push_cast at hn ⊢
      linarith [mul_comm (d : ℤ) (n / d : ℤ)]
    rw [hrest, abs_neg, abs_of_nonneg (by omega)] at h
    omega

end Integers

section Ratio

variable {f : Format} {n d : ℕ}

/-- Distances from a ratio in terms of integers. -/
theorem abs_ratio_sub (hd : 0 < d) (u k : ℤ) :
    |(n : ℚ) / d - k * 2 ^ u| =
      (|((n * 2 ^ (-u).toNat : ℕ) : ℤ) - k * (d * 2 ^ u.toNat : ℕ)| : ℤ) *
        (2 ^ u / (d * 2 ^ u.toNat : ℕ)) := by
  have hunit : (0 : ℚ) < 2 ^ u := by positivity
  have hD : (0 : ℚ) < (d * 2 ^ u.toNat : ℕ) := by positivity
  have hratio : (n : ℚ) / d = (n * 2 ^ (-u).toNat : ℕ) / (d * 2 ^ u.toNat : ℕ) * 2 ^ u := by
    rw [← div_two_zpow, div_mul_cancel₀ _ hunit.ne']
  have hsplit : (n : ℚ) / d - k * 2 ^ u =
      (((n * 2 ^ (-u).toNat : ℕ) : ℚ) - k * (d * 2 ^ u.toNat : ℕ)) *
        (2 ^ u / (d * 2 ^ u.toNat : ℕ)) := by
    rw [hratio]
    field_simp
  rw [hsplit, abs_mul, abs_of_pos (div_pos hunit hD)]
  push_cast
  rfl

/-- **A ratio is rounded to the nearest multiple of its unit**, and to an even one if two are
equally near. -/
theorem multiple_nearest (hd : 0 < d) (k : ℤ) :
    |(n : ℚ) / d - f.multiple n d * 2 ^ f.unitExponent n d| ≤
        |(n : ℚ) / d - k * 2 ^ f.unitExponent n d| ∧
      (|(n : ℚ) / d - f.multiple n d * 2 ^ f.unitExponent n d| =
          |(n : ℚ) / d - k * 2 ^ f.unitExponent n d| →
        k = f.multiple n d ∨ f.multiple n d % 2 = 0) := by
  have hD : 0 < d * 2 ^ (f.unitExponent n d).toNat := by positivity
  have hhalf := two_mul_abs_sub_nearestEven (n := n * 2 ^ (-f.unitExponent n d).toNat) hD
  obtain ⟨hle, htie⟩ := le_abs_sub_of_half (k := k) hhalf
  have hscale : (0 : ℚ) < 2 ^ f.unitExponent n d / (d * 2 ^ (f.unitExponent n d).toNat : ℕ) :=
    div_pos (by positivity) (by exact_mod_cast hD)
  have hmultiple := abs_ratio_sub (n := n) hd (f.unitExponent n d) (f.multiple n d)
  rw [Int.cast_natCast] at hmultiple
  rw [hmultiple, abs_ratio_sub hd]
  refine ⟨mul_le_mul_of_nonneg_right (by exact_mod_cast hle) hscale.le, fun heq => ?_⟩
  have heq' := mul_right_cancel₀ hscale.ne' heq
  exact (htie (by exact_mod_cast heq')).imp_right (even_nearestEven hD)

/-- The values of codes are on the grid. -/
theorem onGrid_toRat (c : ℕ) : f.OnGrid (f.toRat c) := by
  refine ⟨f.significand c, f.exponent c, rfl, ?_, ?_⟩
  · have hmod := Nat.mod_lt c (Nat.two_pow_pos f.fractionBits)
    rw [pow_succ]
    unfold significand
    split <;> omega
  · unfold exponent
    omega

/-- **No point of the grid is nearer to a ratio than what it is rounded to.** -/
theorem OnGrid.nearest {p : ℚ} (hn : 0 < n) (hd : 0 < d) (hp : f.OnGrid p) :
    |(n : ℚ) / d - f.multiple n d * 2 ^ f.unitExponent n d| ≤ |(n : ℚ) / d - p| ∧
      (|(n : ℚ) / d - f.multiple n d * 2 ^ f.unitExponent n d| = |(n : ℚ) / d - p| →
        p = f.multiple n d * 2 ^ f.unitExponent n d ∨ f.multiple n d % 2 = 0) := by
  obtain ⟨s, e, rfl, hs, he⟩ := hp
  rcases le_or_gt (f.unitExponent n d) e with hu | hu
  · -- a coarser point is a multiple of the unit
    rw [mul_two_zpow_eq s hu]
    have hk := multiple_nearest (f := f) (n := n) hd (s * 2 ^ (e - f.unitExponent n d).toNat : ℕ)
    rw [Int.cast_natCast] at hk
    refine ⟨hk.1, fun heq => (hk.2 heq).imp_left fun h => ?_⟩
    rw [Int.natCast_inj.1 h]
  · -- a finer one is below the leading power of two, which is a multiple
    have hlead : f.unitExponent n d = leadingExponent n d - f.fractionBits :=
      (max_choice _ _).resolve_left fun h => by
        rw [unitExponent] at hu
        omega
    have hpower : ((2 ^ f.fractionBits : ℕ) : ℚ) * 2 ^ f.unitExponent n d =
        2 ^ leadingExponent n d := by
      push_cast
      rw [hlead, ← zpow_natCast, ← zpow_add₀ two_ne_zero]
      congr 1
      ring
    have hbelow : (s : ℚ) * 2 ^ e < 2 ^ leadingExponent n d := by
      calc (s : ℚ) * 2 ^ e < (2 ^ (f.fractionBits + 1) : ℕ) * 2 ^ e := by gcongr
        _ = 2 ^ ((f.fractionBits + 1 : ℕ) + e) := by
          rw [zpow_add₀ two_ne_zero, zpow_natCast]
          push_cast
          rfl
        _ ≤ 2 ^ leadingExponent n d :=
          zpow_le_zpow_right₀ one_le_two (by push_cast; omega)
    have hspec := (leadingExponent_spec hn hd).1
    have hnear := (multiple_nearest (f := f) (n := n) hd (2 ^ f.fractionBits : ℕ)).1
    rw [Int.cast_natCast, hpower, abs_of_nonneg (sub_nonneg.2 hspec)] at hnear
    have hfar : |(n : ℚ) / d - s * 2 ^ e| = n / d - s * 2 ^ e :=
      abs_of_nonneg (by linarith)
    rw [hfar]
    exact ⟨by linarith, fun heq => absurd heq (by linarith)⟩

/-- The code has the parity of the multiple. -/
theorem roundRatio_mod_two (hf : 0 < f.fractionBits) :
    f.roundRatio n d % 2 = f.multiple n d % 2 := by
  obtain ⟨b, hb⟩ := Nat.exists_eq_succ_of_ne_zero hf.ne'
  have heven : 2 ^ f.fractionBits = 2 * 2 ^ b := by rw [hb, pow_succ, mul_comm]
  change
    ((f.unitExponent n d - f.leastExponent).toNat * 2 ^ f.fractionBits + f.multiple n d) % 2 = _
  rw [heven, Nat.mul_left_comm, Nat.mul_add_mod]

end Ratio

end Format

namespace Binary

variable {m : ℚ}

/-- Magnitudes are rounded alike with either sign. -/
theorem ofRat_signed (hm : 0 < m) (negative s : Bool) :
    (ofRat (if negative then -m else m) s : Double) =
      ofCode negative (Format.double.roundRatio m.num.natAbs m.den) := by
  have hnum : 0 < m.num := Rat.num_pos.2 hm
  cases negative
  · rw [if_neg Bool.false_ne_true, ofRat, if_neg hnum.ne', decide_eq_false (not_lt.2 hnum.le)]
  · rw [if_pos rfl, ofRat, Rat.neg_num, Int.natAbs_neg, Rat.neg_den,
      if_neg (neg_ne_zero.2 hnum.ne'), decide_eq_true (neg_neg_of_pos hnum)]

/-- What is rounded is a number. -/
theorem ofRat_ne_nan (q : ℚ) (s : Bool) : (ofRat q s : Double) ≠ .nan := by
  have hcode : ∀ (s : Bool) (c : ℕ), (ofCode s c : Double) ≠ .nan := by
    intro s c
    unfold ofCode
    split <;> exact fun h => by cases h
  unfold ofRat
  split
  · exact hcode _ _
  · exact hcode _ _

theorem ofInt_ne_nan (n : ℤ) : (ofInt n : Double) ≠ .nan := ofRat_ne_nan n false

theorem neg_ofCode {f : Format} (s : Bool) (c : ℕ) : -(ofCode s c : Binary f) = ofCode (!s) c := by
  unfold ofCode
  split <;> rfl

/-- A number that is not zero is rounded alike with the other sign. -/
theorem neg_ofRat {q : ℚ} (hq : q ≠ 0) (s : Bool) : -(ofRat q s : Double) = ofRat (-q) s := by
  have hnum := Rat.num_ne_zero.2 hq
  rw [ofRat, ofRat, if_neg hnum, if_neg (Rat.num_ne_zero.2 (neg_ne_zero.2 hq)), neg_ofCode,
    Rat.neg_num, Int.natAbs_neg, Rat.neg_den]
  congr 1
  rw [← decide_not]
  exact decide_eq_decide.2 (by omega)

end Binary

namespace Double

open Binary

/-- `x` is the finite number nearest to `q`, and has an even code if another one is equally near. -/
def Nearest (q : ℚ) (x : Double) : Prop :=
  ∃ s c r, x = .finite s c ∧ x.toRat? = some r ∧
    ∀ (y : Double) (p : ℚ), y.toRat? = some p →
      |q - r| ≤ |q - p| ∧ (|q - r| = |q - p| → p = r ∨ c.val % 2 = 0)

section Nearest

variable {q : ℚ} {x : Double}

/-- The exact value of a number is a magnitude with a sign. -/
theorem exists_of_toRat? {y : Double} {p : ℚ} (hy : y.toRat? = some p) :
    ∃ c : ℕ, p = Format.double.toRat c ∨ p = -Format.double.toRat c := by
  obtain ⟨s, c, rfl⟩ := exists_eq_finite hy
  refine ⟨c, ?_⟩
  cases s
  · exact .inl (Option.some.inj hy).symm
  · exact .inr (Option.some.inj hy).symm

theorem Nearest.neg (h : Nearest q x) : Nearest (-q) (-x) := by
  obtain ⟨s, c, r, rfl, hr, hnear⟩ := h
  refine ⟨!s, c, -r, rfl, by rw [toRat?_neg, hr]; rfl, fun y p hy => ?_⟩
  have hy' : (-y).toRat? = some (-p) := by rw [toRat?_neg, hy]; rfl
  have hdistance : ∀ a : ℚ, |-q - a| = |q - -a| := fun a => by
    rw [← abs_neg]
    congr 1
    ring
  obtain ⟨hle, htie⟩ := hnear (-y) (-p) hy'
  rw [hdistance, hdistance, neg_neg]
  exact ⟨hle, fun heq => (htie heq).imp_left fun h => by rw [← h, neg_neg]⟩

theorem nearest_of_pos (hq : 0 < q) (hsmall : q ≤ 2 ^ 1000) (s : Bool) : Nearest q (ofRat q s) := by
  have hn := natAbs_num_pos hq
  have hratio := (natAbs_num_div_den q).trans (abs_of_pos hq)
  have hcode := (rounds_of_pos hq hsmall).1
  have hvalue := Format.toRat_roundRatio (f := .double) hn q.den_pos
  have hparity :=
    Format.roundRatio_mod_two (f := .double) (n := q.num.natAbs) (d := q.den) (by decide)
  have hfinite : (ofRat q s : Double) = .finite false ⟨_, hcode⟩ :=
    (ofRat_signed hq false s).trans (ofCode_of_lt hcode)
  refine ⟨false, ⟨_, hcode⟩, _, hfinite, by rw [hfinite]; rfl, fun y p hy => ?_⟩
  obtain ⟨c, hc⟩ := exists_of_toRat? hy
  dsimp only
  rw [hvalue, hparity]
  have hgrid := Format.onGrid_toRat (f := .double) c
  rcases hc with rfl | rfl
  · have hnear := hgrid.nearest hn q.den_pos
    rwa [hratio] at hnear
  · -- zero is nearer than a negative number, and on the grid
    have hzero := Format.multiple_nearest (f := .double) (n := q.num.natAbs) q.den_pos 0
    rw [hratio, Int.cast_zero, zero_mul, sub_zero] at hzero
    have hle : |q| ≤ |q - -Format.double.toRat c| := by
      rw [sub_neg_eq_add, abs_of_pos hq]
      exact (le_add_of_nonneg_right (toRat_nonneg c)).trans (le_abs_self _)
    refine ⟨hzero.1.trans hle, fun heq => ?_⟩
    rcases hzero.2 (le_antisymm hzero.1 (hle.trans heq.symm.le)) with hm | heven
    · right
      rw [← Int.natCast_inj.1 hm]
    · exact .inr heven

/-- **A rational number is rounded to the number nearest to it.** -/
theorem nearest_ofRat (q : ℚ) (s : Bool) (hsmall : |q| ≤ 2 ^ 1000) : Nearest q (ofRat q s) := by
  rcases lt_trichotomy q 0 with hq | rfl | hq
  · have hpos := (nearest_of_pos (neg_pos.2 hq) ((neg_le_abs q).trans hsmall) s).neg
    rwa [neg_ofRat (neg_ne_zero.2 hq.ne), neg_neg] at hpos
  · have hzero : (ofRat 0 s : Double).toRat? = some 0 := by cases s <;> decide +kernel
    obtain ⟨t, c, hfinite⟩ := exists_eq_finite hzero
    refine ⟨t, c, 0, hfinite, hzero, fun y p _ => ?_⟩
    rw [sub_self, abs_zero, zero_sub, abs_neg]
    exact ⟨abs_nonneg p, fun heq => .inl (abs_eq_zero.1 heq.symm)⟩
  · exact nearest_of_pos hq ((le_abs_self q).trans hsmall) s

end Nearest

/-! ## Outside the range -/

/-- Finite magnitudes are below the first power of two that is past the range. -/
theorem toRat_lt_of_lt {c : ℕ} (hc : c < Format.double.infinityCode) :
    Format.double.toRat c < 2 ^ 1024 := by
  have hinf : Format.double.infinityCode = 2047 * 2 ^ 52 := rfl
  have hfrac : Format.double.fractionBits = 52 := rfl
  have hleast : Format.double.leastExponent = -1074 := by decide
  have hsignificand : Format.double.significand c < 2 ^ 53 := by
    unfold Format.significand
    rw [hfrac]
    split <;> omega
  have hexponent : Format.double.exponent c ≤ 971 := by
    unfold Format.exponent
    rw [hfrac, hleast]
    omega
  calc Format.double.toRat c < (2 ^ 53 : ℕ) * 2 ^ Format.double.exponent c := by
        unfold Format.toRat
        gcongr
    _ ≤ (2 ^ 53 : ℕ) * 2 ^ (971 : ℤ) := by
        gcongr
        exact one_le_two
    _ = 2 ^ 1024 := by
        rw [Nat.cast_pow, Nat.cast_ofNat, ← zpow_natCast, ← zpow_natCast (2 : ℚ) 1024,
          ← zpow_add₀ two_ne_zero]
        norm_num

section Range

variable {m : ℚ}

/-- What is past the range is rounded to infinity, -/
theorem ofRat_of_large (hm : 2 ^ 1024 ≤ m) (negative s : Bool) :
    (ofRat (if negative then -m else m) s : Double) = .infinity negative := by
  have hpos : 0 < m := lt_of_lt_of_le (by positivity) hm
  have hgrid : Format.double.OnGrid ((2 : ℚ) ^ (1024 : ℤ)) := by
    have h := onGrid_two_zpow (e := 1024) (by norm_num)
    rwa [OnGrid, abs_of_pos (by positivity)] at h
  have hle := hgrid.le_toRat_roundRatio (natAbs_num_pos hpos) m.den_pos
    (((natAbs_num_div_den m).trans (abs_of_pos hpos)).symm ▸ by exact_mod_cast hm)
  rw [ofRat_signed hpos, ofCode, dif_neg]
  intro hlt
  have hsmall := toRat_lt_of_lt hlt
  rw [← zpow_natCast] at hsmall
  exact absurd hle (not_le.2 hsmall)

/-- and what is less than half of the least magnitude to zero. -/
theorem ofRat_of_small (hpos : 0 < m) (hm : 2 * m < 2 ^ (-1074 : ℤ)) (negative s : Bool) :
    (ofRat (if negative then -m else m) s : Double) = .zero negative := by
  have hn := natAbs_num_pos hpos
  have hleast : Format.double.leastExponent = -1074 := by decide
  have hunit : Format.double.leastExponent ≤ Format.double.unitExponent m.num.natAbs m.den :=
    le_max_left _ _
  -- zero is as near as the magnitude is large
  have hnear := (Format.multiple_nearest (f := .double) (n := m.num.natAbs) m.den_pos 0).1
  rw [natAbs_num_div_den, abs_of_pos hpos, Int.cast_zero, zero_mul, sub_zero, abs_of_pos hpos]
    at hnear
  have hzero : Format.double.multiple m.num.natAbs m.den = 0 := by
    by_contra hne
    have hone : (1 : ℚ) ≤ Format.double.multiple m.num.natAbs m.den := by
      exact_mod_cast Nat.one_le_iff_ne_zero.2 hne
    have hle : (2 : ℚ) ^ (-1074 : ℤ) ≤ Format.double.multiple m.num.natAbs m.den *
        2 ^ Format.double.unitExponent m.num.natAbs m.den := by
      calc (2 : ℚ) ^ (-1074 : ℤ) ≤ 2 ^ Format.double.unitExponent m.num.natAbs m.den :=
            zpow_le_zpow_right₀ one_le_two (hleast ▸ hunit)
        _ ≤ _ := le_mul_of_one_le_left (by positivity) hone
    have hdistance := neg_le_of_abs_le hnear
    linarith
  have hcode : Format.double.roundRatio m.num.natAbs m.den = 0 := by
    have hnormal := Format.multiple_normal (f := .double) hn m.den_pos
    rw [hzero] at hnormal
    have hu := hnormal.resolve_left (by decide)
    change (Format.double.unitExponent m.num.natAbs m.den - Format.double.leastExponent).toNat *
      2 ^ Format.double.fractionBits + Format.double.multiple m.num.natAbs m.den = 0
    rw [hu, hzero, sub_self]
    rfl
  rw [ofRat_signed hpos, hcode, zero]

end Range

end Double

namespace Decimal

open Binary

/-- The number that a literal denotes. -/
def value (d : Decimal) : ℚ :=
  if d.negative then -(d.digits * 10 ^ d.exponent) else d.digits * 10 ^ d.exponent

theorem magnitude_pos {d : Decimal} (hd : d.digits ≠ 0) : (0 : ℚ) < d.digits * 10 ^ d.exponent := by
  have hdigits : (0 : ℚ) < d.digits := by exact_mod_cast Nat.pos_of_ne_zero hd
  positivity

theorem value_ne_zero {d : Decimal} (hd : d.digits ≠ 0) : d.value ≠ 0 := by
  have hpos := magnitude_pos hd
  unfold value
  split
  · exact neg_ne_zero.2 hpos.ne'
  · exact hpos.ne'

/-- The magnitude of a literal, by its number of digits. -/
theorem magnitude_bounds {d : Decimal} (hd : d.digits ≠ 0) :
    (10 : ℚ) ^ (((Nat.toDigits 10 d.digits).length : ℤ) + d.exponent - 1) ≤
        d.digits * 10 ^ d.exponent ∧
      (d.digits : ℚ) * 10 ^ d.exponent <
        10 ^ (((Nat.toDigits 10 d.digits).length : ℤ) + d.exponent) := by
  have hlength : 0 < (Nat.toDigits 10 d.digits).length := Nat.length_toDigits_pos
  obtain ⟨k, hk⟩ := Nat.exists_eq_succ_of_ne_zero hlength.ne'
  -- below this power there would be a digit less, unless there is only one
  have hlow : 10 ^ k ≤ d.digits := by
    rcases Nat.eq_zero_or_pos k with rfl | hpos
    · exact Nat.one_le_iff_ne_zero.2 hd
    · refine not_lt.1 fun hlt => ?_
      have hle := (Nat.length_toDigits_le_iff (by decide) hpos).2 hlt
      omega
  have hhigh : d.digits < 10 ^ (k + 1) :=
    (Nat.length_toDigits_le_iff (by decide) k.succ_pos).1 hk.le
  rw [hk]
  constructor
  · calc (10 : ℚ) ^ (((k + 1 : ℕ) : ℤ) + d.exponent - 1) = (10 ^ k : ℕ) * 10 ^ d.exponent := by
          rw [Nat.cast_pow, ← zpow_natCast, Nat.cast_ofNat, ← zpow_add₀ (by norm_num)]
          congr 1
          push_cast
          ring
      _ ≤ d.digits * 10 ^ d.exponent := by gcongr
  · calc (d.digits : ℚ) * 10 ^ d.exponent < (10 ^ (k + 1) : ℕ) * 10 ^ d.exponent := by gcongr
      _ = 10 ^ (((k + 1 : ℕ) : ℤ) + d.exponent) := by
          rw [Nat.cast_pow, ← zpow_natCast, Nat.cast_ofNat, ← zpow_add₀ (by norm_num)]

theorem two_pow_le_ten_pow (k : ℕ) : (2 : ℚ) ^ (3 * k) ≤ 10 ^ k := by
  rw [pow_mul]
  gcongr
  norm_num

/-- **A literal is rounded once.** -/
theorem toDouble_eq (d : Decimal) : d.toDouble = ofRat d.value d.negative := by
  unfold toDouble
  dsimp only
  -- zero, and the two guards that answer without computing the ratio, then the ratio itself
  split_ifs with hzero hlarge hsmall hneg
  · have hvalue : d.value = 0 := by simp [value, hzero]
    rw [hvalue]
    rfl
  · have hlow := (magnitude_bounds hzero).1
    refine (Double.ofRat_of_large (le_trans ?_ hlow) d.negative _).symm
    calc (2 : ℚ) ^ 1024 ≤ 2 ^ (3 * 400) := pow_le_pow_right₀ one_le_two (by norm_num)
      _ ≤ 10 ^ 400 := two_pow_le_ten_pow 400
      _ = 10 ^ (400 : ℤ) := (zpow_natCast 10 400).symm
      _ ≤ _ := zpow_le_zpow_right₀ (by norm_num) (by unfold exponentBound at hlarge; omega)
  · have hhigh := (magnitude_bounds hzero).2
    refine (Double.ofRat_of_small (magnitude_pos hzero) ?_ d.negative _).symm
    calc 2 * ((d.digits : ℚ) * 10 ^ d.exponent)
        < 2 * 10 ^ (((Nat.toDigits 10 d.digits).length : ℤ) + d.exponent) := by linarith
      _ ≤ 2 * 10 ^ (-401 : ℤ) := by
        gcongr
        · norm_num
        · unfold exponentBound at hsmall
          omega
      _ = 2 * (10 ^ 401)⁻¹ := by rw [zpow_neg, ← zpow_natCast 10 401, Nat.cast_ofNat]
      _ ≤ 2 * (2 ^ 1075)⁻¹ := by
        have hle : (2 : ℚ) ^ 1075 ≤ 10 ^ 401 :=
          (pow_le_pow_right₀ one_le_two (by norm_num)).trans (two_pow_le_ten_pow 401)
        gcongr
      _ = 2 ^ (-1074 : ℤ) := by
        rw [pow_succ, mul_inv, mul_comm (((2 : ℚ) ^ 1074)⁻¹), mul_inv_cancel_left₀ two_ne_zero,
          zpow_neg, ← zpow_natCast 2 1074, Nat.cast_ofNat]
  · rw [ofRat_of_ne_zero (value_ne_zero hzero) d.negative false, value, if_pos hneg]
  · rw [ofRat_of_ne_zero (value_ne_zero hzero) d.negative false, value, if_neg hneg]

end Decimal

end GuestBridge
