import Mathlib.Algebra.Order.Field.Power
import Mathlib.Algebra.Order.Ring.Rat
import Mathlib.Tactic.FieldSimp
import Mathlib.Tactic.Linarith
import Mathlib.Tactic.NormNum
import Mathlib.Tactic.Positivity
import Mathlib.Tactic.Ring
import GuestBridge.Number.Binary

/-!
# Rounding

The numbers of a format lie on a grid: multiples of the least magnitude that have no more bits
than a significand. A ratio is rounded to a multiple of the power of two that its leading bit
asks for, and that never takes it past a point of the grid.

* `Format.leadingExponent_spec`: the exponent of the leading bit.
* `Format.toRat_roundRatio`: what a ratio is rounded to.
* `Format.OnGrid.le_toRat_roundRatio`, `Format.OnGrid.toRat_roundRatio_le`: **rounding does not
  cross a point of the grid.**
-/

namespace GuestBridge.Format

/-! ## Powers of two -/

section Powers

/-- A power of two as a ratio of natural numbers. -/
theorem two_zpow_eq (k : ℤ) : (2 : ℚ) ^ k = (2 ^ k.toNat : ℕ) / (2 ^ (-k).toNat : ℕ) := by
  rcases le_total 0 k with hk | hk
  · obtain ⟨n, rfl⟩ := Int.eq_ofNat_of_zero_le hk
    simp
  · obtain ⟨n, hn⟩ := Int.eq_ofNat_of_zero_le (neg_nonneg.2 hk)
    obtain rfl : k = -(n : ℤ) := by omega
    simp

/-- A ratio of natural numbers over a power of two. -/
theorem div_two_zpow (n d : ℕ) (k : ℤ) :
    (n : ℚ) / d / 2 ^ k = (n * 2 ^ (-k).toNat : ℕ) / (d * 2 ^ k.toNat : ℕ) := by
  rw [two_zpow_eq]
  push_cast
  field_simp

/-- **The exponent of the leading bit of a ratio.** -/
theorem leadingExponent_spec {n d : ℕ} (hn : 0 < n) (hd : 0 < d) :
    (2 : ℚ) ^ leadingExponent n d ≤ n / d ∧ (n : ℚ) / d < 2 ^ (leadingExponent n d + 1) := by
  have hn₁ : (2 : ℚ) ^ (n.log2 : ℤ) ≤ n := by exact_mod_cast Nat.log2_self_le hn.ne'
  have hn₂ : (n : ℚ) < 2 ^ ((n.log2 : ℤ) + 1) := by exact_mod_cast Nat.lt_log2_self (n := n)
  have hd₁ : (2 : ℚ) ^ (d.log2 : ℤ) ≤ d := by exact_mod_cast Nat.log2_self_le hd.ne'
  have hd₂ : (d : ℚ) < 2 ^ ((d.log2 : ℤ) + 1) := by exact_mod_cast Nat.lt_log2_self (n := d)
  have hd₀ : (0 : ℚ) < d := by exact_mod_cast hd
  unfold leadingExponent
  dsimp only
  set gap : ℤ := (n.log2 : ℤ) - d.log2 with hgap
  -- the test compares the ratio with the power that the lengths suggest
  have htest : d * 2 ^ gap.toNat ≤ n * 2 ^ (-gap).toNat ↔ (2 : ℚ) ^ gap ≤ n / d := by
    rw [two_zpow_eq, div_le_div_iff₀ (by positivity) hd₀, mul_comm d]
    exact_mod_cast Iff.rfl
  split_ifs with h
  · refine ⟨htest.1 h, ?_⟩
    rw [div_lt_iff₀ hd₀]
    calc (n : ℚ) < 2 ^ ((n.log2 : ℤ) + 1) := hn₂
      _ = 2 ^ (gap + 1) * 2 ^ (d.log2 : ℤ) := by
        rw [← zpow_add₀ two_ne_zero, hgap]; congr 1; ring
      _ ≤ 2 ^ (gap + 1) * d := by gcongr
  · refine ⟨?_, ?_⟩
    · rw [le_div_iff₀ hd₀]
      calc (2 : ℚ) ^ (gap - 1) * d ≤ 2 ^ (gap - 1) * 2 ^ ((d.log2 : ℤ) + 1) := by gcongr
        _ = 2 ^ (n.log2 : ℤ) := by rw [← zpow_add₀ two_ne_zero, hgap]; congr 1; ring
        _ ≤ n := hn₁
    · rw [sub_add_cancel]
      exact not_le.1 fun hle => h (htest.2 hle)

end Powers

/-! ## The nearest integer -/

section Nearest

variable {n d m : ℕ}

/-- The nearest integer is at most half a unit away. -/
theorem nearestEven_spec (hd : 0 < d) :
    2 * (nearestEven n d * d) ≤ 2 * n + d ∧ 2 * n ≤ 2 * (nearestEven n d * d) + d := by
  have hn := Nat.div_add_mod n d
  have hlt := Nat.mod_lt n hd
  rw [Nat.mul_comm] at hn
  unfold nearestEven
  split_ifs with h
  · omega
  · rw [Nat.add_mul, Nat.one_mul]
    omega

theorem le_nearestEven (hd : 0 < d) (h : m * d ≤ n) : m ≤ nearestEven n d := by
  have hspec := (nearestEven_spec (n := n) hd).2
  by_contra hlt
  have hstep : (nearestEven n d + 1) * d ≤ m * d := Nat.mul_le_mul_right d (by omega)
  rw [Nat.add_mul, Nat.one_mul] at hstep
  omega

theorem nearestEven_le (hd : 0 < d) (h : n ≤ m * d) : nearestEven n d ≤ m := by
  have hspec := (nearestEven_spec (n := n) hd).1
  by_contra hlt
  have hstep : (m + 1) * d ≤ nearestEven n d * d := Nat.mul_le_mul_right d (by omega)
  rw [Nat.add_mul, Nat.one_mul] at hstep
  omega

end Nearest

/-! ## Codes -/

section Codes

variable {f : Format}

/-- The value of a code that is put together of an exponent and a significand, which may have
carried into the next power of two. -/
theorem toRat_code {u : ℤ} {k : ℕ} (hu : f.leastExponent ≤ u) (hk : k ≤ 2 ^ (f.fractionBits + 1))
    (hnormal : 2 ^ f.fractionBits ≤ k ∨ u = f.leastExponent) :
    f.toRat ((u - f.leastExponent).toNat * 2 ^ f.fractionBits + k) = k * 2 ^ u := by
  obtain ⟨e, he⟩ := Int.eq_ofNat_of_zero_le (sub_nonneg.2 hu)
  have hpos : 0 < 2 ^ f.fractionBits := Nat.two_pow_pos _
  rw [pow_succ] at hk
  unfold toRat significand exponent
  rw [he, Int.toNat_natCast]
  generalize hb : 2 ^ f.fractionBits = b at *
  have hcode : ∀ r, r < b → ∀ q, (q * b + r) / b = q ∧ (q * b + r) % b = r := fun r hr q =>
    ⟨by rw [Nat.add_comm, Nat.add_mul_div_right _ _ hpos, Nat.div_eq_of_lt hr, Nat.zero_add],
      by rw [Nat.add_comm, Nat.add_mul_mod_self_right, Nat.mod_eq_of_lt hr]⟩
  rcases lt_or_ge k b with hlt | hge
  · -- a significand without its leading bit
    obtain rfl := hnormal.resolve_left (not_le.2 hlt)
    obtain rfl : e = 0 := by omega
    simp [hlt, Nat.div_eq_of_lt hlt]
  · rcases lt_or_eq_of_le (show k ≤ b * 2 from hk) with hlt | rfl
    · obtain ⟨hdiv, hmod⟩ := hcode (k - b) (by omega) (e + 1)
      have hsplit : e * b + k = (e + 1) * b + (k - b) := by rw [Nat.add_mul]; omega
      rw [hsplit, hdiv, hmod, if_neg (by rw [Nat.add_mul]; omega), Nat.add_sub_cancel' hge]
      congr 2
      omega
    · obtain ⟨hdiv, hmod⟩ := hcode 0 hpos (e + 2)
      have hsplit : e * b + b * 2 = (e + 2) * b + 0 := by rw [Nat.add_mul]; omega
      rw [hsplit, hdiv, hmod, if_neg (by rw [Nat.add_mul]; omega)]
      have hexp : f.leastExponent + ((e + 2 - 1 : ℕ) : ℤ) = u + 1 := by omega
      rw [hexp, zpow_add₀ two_ne_zero]
      push_cast
      ring

/-- The exponent of two of the unit that a ratio is rounded to multiples of. -/
def unitExponent (f : Format) (n d : ℕ) : ℤ :=
  max f.leastExponent (leadingExponent n d - f.fractionBits)

/-- The multiple of the unit that a ratio is rounded to. -/
def multiple (f : Format) (n d : ℕ) : ℕ :=
  nearestEven (n * 2 ^ (-f.unitExponent n d).toNat) (d * 2 ^ (f.unitExponent n d).toNat)

section Ratio

variable {n d m : ℕ}

/-- An integer below the ratio, in units, is below the multiple. -/
theorem le_multiple (hd : 0 < d) (h : (m : ℚ) * 2 ^ f.unitExponent n d ≤ n / d) :
    m ≤ f.multiple n d := by
  have hpos : 0 < d * 2 ^ (f.unitExponent n d).toNat := by positivity
  refine le_nearestEven hpos ?_
  rw [← le_div_iff₀ (by positivity), div_two_zpow, le_div_iff₀ (by exact_mod_cast hpos)] at h
  exact_mod_cast h

/-- An integer above the ratio, in units, is above the multiple. -/
theorem multiple_le (hd : 0 < d) (h : (n : ℚ) / d ≤ m * 2 ^ f.unitExponent n d) :
    f.multiple n d ≤ m := by
  have hpos : 0 < d * 2 ^ (f.unitExponent n d).toNat := by positivity
  refine nearestEven_le hpos ?_
  rw [← div_le_iff₀ (by positivity), div_two_zpow, div_le_iff₀ (by exact_mod_cast hpos)] at h
  exact_mod_cast h

/-- The multiple has all bits of a significand, unless the unit is the least one. -/
theorem multiple_normal (hn : 0 < n) (hd : 0 < d) :
    2 ^ f.fractionBits ≤ f.multiple n d ∨ f.unitExponent n d = f.leastExponent := by
  rcases max_choice f.leastExponent (leadingExponent n d - f.fractionBits) with hu | hu
  · exact .inr hu
  · refine .inl (le_multiple hd ?_)
    rw [unitExponent, hu]
    calc ((2 ^ f.fractionBits : ℕ) : ℚ) * 2 ^ (leadingExponent n d - f.fractionBits)
        = 2 ^ leadingExponent n d := by
          push_cast
          rw [← zpow_natCast, ← zpow_add₀ two_ne_zero]
          congr 1
          ring
      _ ≤ n / d := (leadingExponent_spec hn hd).1

/-- **What a ratio is rounded to**, however large. -/
theorem toRat_roundRatio (hn : 0 < n) (hd : 0 < d) :
    f.toRat (f.roundRatio n d) = f.multiple n d * 2 ^ f.unitExponent n d := by
  refine toRat_code (le_max_left _ _) (multiple_le hd ?_) (multiple_normal hn hd)
  calc (n : ℚ) / d ≤ 2 ^ (leadingExponent n d + 1) := (leadingExponent_spec hn hd).2.le
    _ ≤ 2 ^ ((f.fractionBits + 1 : ℕ) + f.unitExponent n d) := by
      refine zpow_le_zpow_right₀ one_le_two ?_
      have hu : leadingExponent n d - f.fractionBits ≤ f.unitExponent n d := le_max_right _ _
      push_cast
      omega
    _ = ((2 ^ (f.fractionBits + 1) : ℕ) : ℚ) * 2 ^ f.unitExponent n d := by
      rw [zpow_add₀ two_ne_zero, zpow_natCast]
      push_cast
      rfl

end Ratio

end Codes

/-! ## The grid -/

/-- Where the magnitudes of a format lie, however large. -/
def OnGrid (f : Format) (q : ℚ) : Prop :=
  ∃ (s : ℕ) (e : ℤ), q = s * 2 ^ e ∧ s < 2 ^ (f.fractionBits + 1) ∧ f.leastExponent ≤ e

section Grid

variable {f : Format} {n d : ℕ} {q : ℚ}

/-- A multiple of a power of two in terms of a smaller one. -/
theorem mul_two_zpow_eq (s : ℕ) {e u : ℤ} (h : u ≤ e) :
    (s : ℚ) * 2 ^ e = ((s * 2 ^ (e - u).toNat : ℕ) : ℚ) * 2 ^ u := by
  obtain ⟨k, hk⟩ := Int.eq_ofNat_of_zero_le (sub_nonneg.2 h)
  obtain rfl : e = k + u := by omega
  rw [hk, Int.toNat_natCast, zpow_add₀ two_ne_zero, zpow_natCast]
  push_cast
  ring

/-- **Rounding does not go below a point of the grid**, -/
theorem OnGrid.le_toRat_roundRatio (hn : 0 < n) (hd : 0 < d) (hq : f.OnGrid q)
    (h : q ≤ n / d) : q ≤ f.toRat (f.roundRatio n d) := by
  obtain ⟨s, e, rfl, hs, he⟩ := hq
  rw [toRat_roundRatio hn hd]
  rcases le_or_gt (f.unitExponent n d) e with hu | hu
  · rw [mul_two_zpow_eq s hu] at h ⊢
    gcongr
    exact le_multiple hd h
  · -- a finer point has a smaller leading bit than the ratio
    have hk := (multiple_normal (f := f) hn hd).resolve_right (by omega)
    calc (s : ℚ) * 2 ^ e ≤ (2 ^ (f.fractionBits + 1) : ℕ) * 2 ^ (f.unitExponent n d - 1) := by
          gcongr
          · exact one_le_two
          · omega
      _ = (2 ^ f.fractionBits : ℕ) * 2 ^ f.unitExponent n d := by
          rw [zpow_sub_one₀ two_ne_zero]
          push_cast
          ring
      _ ≤ f.multiple n d * 2 ^ f.unitExponent n d := by gcongr

/-- **nor above one.** -/
theorem OnGrid.toRat_roundRatio_le (hn : 0 < n) (hd : 0 < d) (hq : f.OnGrid q)
    (h : n / d ≤ q) : f.toRat (f.roundRatio n d) ≤ q := by
  obtain ⟨s, e, rfl, hs, he⟩ := hq
  rw [toRat_roundRatio hn hd]
  -- the unit of the ratio is no coarser than that of the point
  have hu : f.unitExponent n d ≤ e := by
    refine max_le he ?_
    have hlt : (2 : ℚ) ^ leadingExponent n d < 2 ^ (f.fractionBits + 1 + e) := by
      calc (2 : ℚ) ^ leadingExponent n d ≤ n / d := (leadingExponent_spec hn hd).1
        _ ≤ s * 2 ^ e := h
        _ < (2 ^ (f.fractionBits + 1) : ℕ) * 2 ^ e := by gcongr
        _ = 2 ^ (f.fractionBits + 1 + e) := by
          rw [zpow_add₀ two_ne_zero, zpow_add_one₀ two_ne_zero, zpow_natCast]
          push_cast
          ring
    have hlead := (zpow_lt_zpow_iff_right₀ one_lt_two).1 hlt
    omega
  rw [mul_two_zpow_eq s hu] at h ⊢
  gcongr
  exact multiple_le hd h

end Grid

end GuestBridge.Format
