import Mathlib.Data.Rat.Floor
import GuestBridge.Proofs.Rounding

/-!
# Exact arithmetic in floating point

A number that is computed has the exact value wherever that is on the grid of the format, and
otherwise lies on the same side of every point of the grid. Whole numbers of up to fifty-three
bits are on the grid, so sums and products of them are exact while they stay below that.

* `Double.exists_toRat?_ofRat`: **what a rational number is rounded to.**
* `Binary.IsInt`: the numbers that have a whole value; `IsInt.add`, `IsInt.mul` and so on say what
  is computed with them.
* `Binary.IsInt.floor_div_twelve`: the quotient of a division by twelve, which is rounded, is the
  right one.
-/

namespace GuestBridge

open Binary

namespace Binary

/-! ## Ratios -/

/-- The magnitude of a number is the ratio of its parts. -/
theorem natAbs_num_div_den (q : ℚ) : (q.num.natAbs : ℚ) / q.den = |q| := by
  rw [Rat.abs_def, Rat.divInt_eq_div, Int.cast_natCast, Int.cast_natCast]

theorem natAbs_num_pos {q : ℚ} (hq : 0 < q) : 0 < q.num.natAbs :=
  Int.natAbs_pos.2 (Rat.num_pos.2 hq).ne'

end Binary

namespace Double

/-! ## Rounding with a sign -/

/-- Where the exact values lie, however large. -/
def OnGrid (q : ℚ) : Prop := Format.double.OnGrid |q|

/-- One number lies on the same side of all points of the grid as another. -/
structure Rounds (q r : ℚ) : Prop where
  le : ∀ a, OnGrid a → a ≤ q → a ≤ r
  ge : ∀ a, OnGrid a → q ≤ a → r ≤ a

section Rounds

variable {q r : ℚ}

theorem OnGrid.neg (h : OnGrid q) : OnGrid (-q) := by rwa [OnGrid, abs_neg]

theorem Rounds.neg (h : Rounds q r) : Rounds (-q) (-r) where
  le a ha hle := le_neg.1 (h.ge (-a) ha.neg (le_neg.1 hle))
  ge a ha hle := neg_le.1 (h.le (-a) ha.neg (neg_le.1 hle))

/-- A point of the grid is not rounded. -/
theorem Rounds.eq (h : Rounds q r) (hq : OnGrid q) : r = q :=
  le_antisymm (h.ge q hq le_rfl) (h.le q hq le_rfl)

/-- Whole multiples of powers of two are on the grid. -/
theorem onGrid_mul_zpow {n e : ℤ} (hn : n.natAbs < 2 ^ 53) (he : -1074 ≤ e) :
    OnGrid (n * 2 ^ e) := by
  refine ⟨n.natAbs, e, ?_, hn, he⟩
  rw [abs_mul, abs_of_pos (a := (2 : ℚ) ^ e) (by positivity), Nat.cast_natAbs, Int.cast_abs]

theorem onGrid_int {n : ℤ} (hn : n.natAbs < 2 ^ 53) : OnGrid n := by
  simpa using onGrid_mul_zpow (e := 0) hn (by norm_num)

theorem onGrid_two_zpow {e : ℤ} (he : -1074 ≤ e) : OnGrid (2 ^ e) := by
  simpa using onGrid_mul_zpow (n := 1) (by norm_num) he

end Rounds

section Codes

/-- Small magnitudes are finite. -/
theorem lt_infinityCode {c : ℕ} (h : Format.double.toRat c < 2 ^ 1024) :
    c < Format.double.infinityCode := by
  have hinf : Format.double.infinityCode = 2047 * 2 ^ 52 := rfl
  have hfrac : Format.double.fractionBits = 52 := rfl
  by_contra hge
  rw [hinf, not_lt] at hge
  refine absurd h (not_lt.2 ?_)
  have hnormal : ¬ c < 2 ^ 52 := by omega
  have hdiv : 2047 ≤ c / 2 ^ 52 := by omega
  have hleast : Format.double.leastExponent = -1074 := by decide
  unfold Format.toRat Format.significand Format.exponent
  rw [hfrac, if_neg hnormal, hleast]
  calc (2 : ℚ) ^ 1024 = (2 ^ 52 : ℕ) * (2 : ℚ) ^ (972 : ℤ) := by
        rw [Nat.cast_pow, Nat.cast_ofNat, ← zpow_natCast, ← zpow_natCast (2 : ℚ) 52,
          ← zpow_add₀ two_ne_zero]
        norm_num
    _ ≤ (2 ^ 52 + c % 2 ^ 52 : ℕ) * (2 : ℚ) ^ ((-1074 : ℤ) + (c / 2 ^ 52 - 1 : ℕ)) := by
      gcongr
      · exact Nat.le_add_right _ _
      · exact one_le_two
      · omega

theorem toRat_nonneg (c : ℕ) : 0 ≤ Format.double.toRat c := by
  unfold Format.toRat
  positivity

/-- A positive number is rounded to a finite one, if it is not too large. -/
theorem rounds_of_pos {q : ℚ} (hq : 0 < q) (hsmall : q ≤ 2 ^ 1000) :
    Format.double.roundRatio q.num.natAbs q.den < Format.double.infinityCode ∧
      Rounds q (Format.double.toRat (Format.double.roundRatio q.num.natAbs q.den)) := by
  have hn := natAbs_num_pos hq
  have hratio := (natAbs_num_div_den q).trans (abs_of_pos hq)
  -- it is finite as a power of two above it is on the grid; the bounds are on the grid anyway
  refine ⟨lt_infinityCode ?_, fun a ha hle => ?_, fun a ha hge => ?_⟩
  · have hgrid : Format.double.OnGrid ((2 : ℚ) ^ (1000 : ℤ)) := by
      have h := onGrid_two_zpow (e := 1000) (by norm_num)
      rwa [OnGrid, abs_of_pos (by positivity)] at h
    have hle := hgrid.toRat_roundRatio_le hn q.den_pos (hratio.le.trans (by exact_mod_cast hsmall))
    refine lt_of_le_of_lt hle ?_
    rw [← zpow_natCast]
    exact zpow_lt_zpow_right₀ one_lt_two (by norm_num)
  · rcases le_or_gt a 0 with ha₀ | ha₀
    · exact ha₀.trans (toRat_nonneg _)
    · rw [OnGrid, abs_of_pos ha₀] at ha
      exact ha.le_toRat_roundRatio hn q.den_pos (hle.trans hratio.ge)
  · rw [OnGrid, abs_of_nonneg (hq.le.trans hge)] at ha
    exact ha.toRat_roundRatio_le hn q.den_pos (hratio.le.trans hge)

/-- **What a rational number is rounded to.** -/
theorem exists_toRat?_ofRat (q : ℚ) (s : Bool) (hsmall : |q| ≤ 2 ^ 1000) :
    ∃ r, (ofRat q s : Double).toRat? = some r ∧ Rounds q r := by
  rcases lt_trichotomy q 0 with hq | rfl | hq
  · obtain ⟨hlt, hr⟩ := rounds_of_pos (neg_pos.2 hq) ((neg_le_abs q).trans hsmall)
    rw [Rat.neg_num, Int.natAbs_neg, Rat.neg_den] at hlt hr
    refine ⟨_, ?_, by simpa using hr.neg⟩
    have hnum : q.num < 0 := Rat.num_neg.2 hq
    rw [ofRat, if_neg hnum.ne, decide_eq_true hnum, ofCode_of_lt hlt]
    rfl
  · refine ⟨0, ?_, fun a _ h => h, fun a _ h => h⟩
    cases s <;> decide +kernel
  · obtain ⟨hlt, hr⟩ := rounds_of_pos hq ((le_abs_self q).trans hsmall)
    refine ⟨_, ?_, hr⟩
    have hnum : 0 < q.num := Rat.num_pos.2 hq
    rw [ofRat, if_neg hnum.ne', decide_eq_false (not_lt.2 hnum.le), ofCode_of_lt hlt]
    rfl

/-- A point of the grid is the value of a number. -/
theorem toRat?_ofRat {q : ℚ} (hq : OnGrid q) (hsmall : |q| ≤ 2 ^ 1000) (s : Bool) :
    (ofRat q s : Double).toRat? = some q := by
  obtain ⟨r, hr, hrounds⟩ := exists_toRat?_ofRat q s hsmall
  rw [hr, hrounds.eq hq]

end Codes

end Double

namespace Binary

open Double

/-! ## Arithmetic -/

section Arithmetic

variable {x y : Double} {p q : ℚ}

theorem exact_eq (hx : x.toRat? = some p) : x.exact = p := by
  rw [exact, hx, Option.getD_some]

theorem exists_eq_finite (hx : x.toRat? = some p) : ∃ s c, x = .finite s c := by
  cases x with
  | nan => cases hx
  | infinity s => cases hx
  | finite s c => exact ⟨s, c, rfl⟩

/-- The code zero has the value zero. -/
theorem code_ne_zero {s : Bool} {c : Fin Format.double.infinityCode}
    (hx : (finite s c : Double).toRat? = some p) (hp : p ≠ 0) : c.val ≠ 0 := by
  intro hc
  have hzero : Format.double.toRat c.val = 0 := by rw [hc]; decide +kernel
  refine hp ?_
  rw [← exact_eq hx, exact, toRat?.eq_def]
  cases s <;> simp [hzero]

/-- A sum is the exact sum, rounded. -/
theorem add_eq (hx : x.toRat? = some p) (hy : y.toRat? = some q) :
    x + y = ofRat (p + q) (x.isNegative && y.isNegative) := by
  obtain ⟨s, c, rfl⟩ := exists_eq_finite hx
  obtain ⟨t, d, rfl⟩ := exists_eq_finite hy
  rw [← exact_eq hx, ← exact_eq hy]
  rfl

/-- A product is the exact product, rounded. -/
theorem mul_eq (hx : x.toRat? = some p) (hy : y.toRat? = some q) :
    x * y = ofRat (p * q) (x.isNegative != y.isNegative) := by
  obtain ⟨s, c, rfl⟩ := exists_eq_finite hx
  obtain ⟨t, d, rfl⟩ := exists_eq_finite hy
  rw [← exact_eq hx, ← exact_eq hy]
  rfl

/-- A quotient is the exact quotient, rounded. -/
theorem div_eq (hx : x.toRat? = some p) (hy : y.toRat? = some q) (hq : q ≠ 0) :
    ∃ s, x / y = ofRat (p / q) s := by
  obtain ⟨s, c, rfl⟩ := exists_eq_finite hx
  obtain ⟨t, d, rfl⟩ := exists_eq_finite hy
  have hd := code_ne_zero hy hq
  rw [← exact_eq hx, ← exact_eq hy]
  refine ⟨s != t, ?_⟩
  change (if d.val = 0 then _ else _) = _
  rw [if_neg hd]

theorem integral_eq (hx : x.toRat? = some p) (g : ℚ → ℤ) :
    x.integral g = ofRat (g p) x.isNegative := by
  unfold integral
  rw [hx]

end Arithmetic

/-! ## Whole numbers -/

/-- A number has a whole value. -/
def IsInt {f : Format} (x : Binary f) (n : ℤ) : Prop := x.toRat? = some (n : ℚ)

section IsInt

variable {x y : Double} {m n : ℤ} {q : ℚ}

/-- Fifty-three bits with zeros behind them are exact. -/
theorem toRat?_ofRat_shift {k : ℕ} (hn : n.natAbs < 2 ^ 53) (hk : k ≤ 900) (s : Bool) :
    (ofRat (n * 2 ^ k : ℤ) s : Double).toRat? = some ((n * 2 ^ k : ℤ) : ℚ) := by
  have hcast : ((n * 2 ^ k : ℤ) : ℚ) = n * 2 ^ (k : ℤ) := by
    push_cast
    rw [zpow_natCast]
  rw [hcast]
  refine toRat?_ofRat (onGrid_mul_zpow hn (by omega)) ?_ s
  rw [abs_mul, abs_of_pos (a := (2 : ℚ) ^ (k : ℤ)) (by positivity), ← Int.cast_abs,
    Int.abs_eq_natAbs, zpow_natCast]
  calc ((n.natAbs : ℤ) : ℚ) * 2 ^ k ≤ 2 ^ 53 * 2 ^ 900 := by
        gcongr
        · exact_mod_cast hn.le
        · exact one_le_two
    _ = 2 ^ (53 + 900) := (pow_add 2 53 900).symm
    _ ≤ 2 ^ 1000 := pow_le_pow_right₀ one_le_two (by norm_num)

theorem toRat?_ofRat_int (hn : n.natAbs < 2 ^ 53) (s : Bool) :
    (ofRat n s : Double).toRat? = some (n : ℚ) := by
  simpa using toRat?_ofRat_shift (k := 0) hn (Nat.zero_le _) s

theorem isInt_ofInt (hn : n.natAbs < 2 ^ 53) : (ofInt n : Double).IsInt n :=
  toRat?_ofRat_int hn false

theorem isInt_ofNat {k : ℕ} (hk : k < 2 ^ 53) : (Binary.ofNat k : Double).IsInt k :=
  isInt_ofInt hk

theorem IsInt.isFinite (hx : x.IsInt n) : x.isFinite = true := by
  obtain ⟨s, c, rfl⟩ := exists_eq_finite hx
  rfl

theorem IsInt.truncate? (hx : x.IsInt n) : x.truncate? = some n := by
  rw [Binary.truncate?, hx, Option.map_some, Rat.num_intCast, Rat.den_intCast]
  simp

/-- A finite number of which the integer part is known. -/
theorem exists_of_truncate? (hx : x.truncate? = some n) :
    ∃ q, x.toRat? = some q ∧ q.num.tdiv q.den = n := Option.map_eq_some_iff.1 hx

theorem isFinite_of_truncate? (hx : x.truncate? = some n) : x.isFinite = true := by
  obtain ⟨q, hq, -⟩ := exists_of_truncate? hx
  obtain ⟨s, c, rfl⟩ := exists_eq_finite hq
  rfl

/-- The integer part of a number is a whole number. -/
theorem isInt_trunc (hx : x.truncate? = some n) (hn : n.natAbs < 2 ^ 53) : x.trunc.IsInt n := by
  obtain ⟨q, hq, hdiv⟩ := exists_of_truncate? hx
  rw [IsInt, Binary.trunc, integral_eq hq, hdiv]
  exact toRat?_ofRat_int hn _

theorem IsInt.add (hx : x.IsInt m) (hy : y.IsInt n) (h : (m + n).natAbs < 2 ^ 53) :
    (x + y).IsInt (m + n) := by
  rw [IsInt, add_eq hx hy, ← Int.cast_add]
  exact toRat?_ofRat_int h _

theorem IsInt.neg (hx : x.IsInt n) : (-x).IsInt (-n) := by
  rw [IsInt, toRat?_neg, hx, Option.map_some, Int.cast_neg]

theorem IsInt.sub (hx : x.IsInt m) (hy : y.IsInt n) (h : (m - n).natAbs < 2 ^ 53) :
    (x - y).IsInt (m - n) := by
  rw [sub_eq_add_neg m n] at h ⊢
  exact hx.add hy.neg h

/-- A product is exact also beyond fifty-three bits, if the last ones are zero. -/
theorem IsInt.mul {l : ℤ} {k : ℕ} (hx : x.IsInt m) (hy : y.IsInt n) (h : m * n = l * 2 ^ k)
    (hl : l.natAbs < 2 ^ 53) (hk : k ≤ 900) : (x * y).IsInt (m * n) := by
  rw [IsInt, mul_eq hx hy, ← Int.cast_mul, h]
  exact toRat?_ofRat_shift hl hk _

/-- **The quotient of a division by twelve is rounded, but not past a whole number.** -/
theorem IsInt.floor_div_twelve (hx : x.IsInt m) (hm : m.natAbs < 2 ^ 40) :
    (x / 12).floor.IsInt (m / 12) := by
  have htwelve : (12 : Double).IsInt 12 := isInt_ofNat (k := 12) (by norm_num)
  obtain ⟨s, hs⟩ := div_eq hx htwelve (by norm_num)
  have hlow : 12 * (m / 12) ≤ m := by omega
  have hhigh : m ≤ 12 * (m / 12) + 11 := by omega
  have hlow' : ((12 * (m / 12) : ℤ) : ℚ) ≤ m := by exact_mod_cast hlow
  have hhigh' : (m : ℚ) ≤ ((12 * (m / 12) + 11 : ℤ) : ℚ) := by exact_mod_cast hhigh
  push_cast at hlow' hhigh'
  have hsmall : |(m : ℚ) / ((12 : ℤ) : ℚ)| ≤ 2 ^ 1000 := by
    have hle : |(m : ℚ)| ≤ 2 ^ 40 := by
      rw [← Int.cast_abs, Int.abs_eq_natAbs]
      exact_mod_cast hm.le
    rw [abs_div]
    refine (div_le_self (abs_nonneg _) (by norm_num)).trans (hle.trans ?_)
    exact pow_le_pow_right₀ one_le_two (by norm_num)
  obtain ⟨r, hr, hrounds⟩ := exists_toRat?_ofRat _ s hsmall
  have hfloor : r.floor = m / 12 := by
    refine Int.floor_eq_iff.2 ⟨hrounds.le _ (onGrid_int (by omega)) ?_, ?_⟩
    · push_cast
      linarith
    · -- eleven twelfths are less than fifteen sixteenths, which are on the grid
      have hgrid := onGrid_mul_zpow (n := 16 * (m / 12) + 15) (e := -4) (by omega) (by norm_num)
      have hle := hrounds.ge _ hgrid (by push_cast; norm_num; linarith)
      push_cast at hle
      norm_num at hle
      linarith
  rw [IsInt, Binary.floor, hs, integral_eq hr, hfloor]
  exact toRat?_ofRat_int (by omega) _

/-- A number that is not zero has the sign of its value. -/
theorem ofRat_of_ne_zero (hq : q ≠ 0) (s t : Bool) : (ofRat q s : Double) = ofRat q t := by
  rw [ofRat, ofRat, if_neg (Rat.num_ne_zero.2 hq), if_neg (Rat.num_ne_zero.2 hq)]

theorem isNegative_ofInt (n : ℤ) : (ofInt n : Double).isNegative = decide (n < 0) := by
  have hcode : ∀ (s : Bool) (c : ℕ), (ofCode s c : Double).isNegative = s := by
    intro s c
    unfold ofCode
    split <;> rfl
  unfold ofInt ofRat
  rw [Rat.num_intCast]
  split_ifs with hn
  · rw [hn]
    exact hcode false 0
  · exact hcode _ _

/-- Sums of whole numbers. -/
theorem ofInt_add (hm : m.natAbs < 2 ^ 53) (hn : n.natAbs < 2 ^ 53) :
    (ofInt m + ofInt n : Double) = ofInt (m + n) := by
  rw [add_eq (isInt_ofInt hm) (isInt_ofInt hn), ← Int.cast_add]
  rcases eq_or_ne (m + n) 0 with hzero | hne
  · -- a sum that is zero has not two negative terms
    have hsign : ((ofInt m : Double).isNegative && (ofInt n : Double).isNegative) = false := by
      rw [isNegative_ofInt, isNegative_ofInt, Bool.and_eq_false_iff, decide_eq_false_iff_not,
        decide_eq_false_iff_not]
      omega
    rw [hsign]
    rfl
  · exact ofRat_of_ne_zero (by exact_mod_cast hne) _ _

/-- Products of whole numbers that are not zero. -/
theorem ofInt_mul (hm : m.natAbs < 2 ^ 53) (hn : n.natAbs < 2 ^ 53) (h : m * n ≠ 0) :
    (ofInt m * ofInt n : Double) = ofInt (m * n) := by
  rw [mul_eq (isInt_ofInt hm) (isInt_ofInt hn), ← Int.cast_mul]
  exact ofRat_of_ne_zero (by exact_mod_cast h) _ _

end IsInt

end Binary

end GuestBridge
