import GuestBridge.Number.Binary

/-!
# Long integers as numbers

A long integer is kept in limbs of 64 bits. Before it is rounded to a number it is
cut to its leading 64 bits, the last of which is set if the rest is seen to be other
than zero. In each limb of the rest only as many low bits are looked at as the top
limb holds, so an integer just past a tie may be taken for the tie.

* `cut_of_dvd`: an integer with nothing but zeros after its leading 64 bits stays.
* `toDouble_of_natAbs_lt`: an integer of one limb becomes the nearest number.
-/

namespace GuestBridge.Limbs

-- Powers are those of the core library, whatever is imported besides.
attribute [local instance (high)] instPowNat

/-- How many bits the top limb holds. -/
def topBits (n : Nat) : Nat := n.log2 % 64 + 1

/-- How many bits come after the leading 64. -/
def restBits (n : Nat) : Nat := n.log2 - 63

/-- Whether a bit is set among the low `width` bits of some of the lowest `count` limbs. -/
def anySet (width : Nat) : Nat → Nat → Bool
  | 0, _ => false
  | count + 1, n => n % 2 ^ width != 0 || anySet width count (n / 2 ^ (64 : Nat))

/-- The leading 64 bits, the last of them set if the rest is seen to be other than zero. -/
def leading (n : Nat) : Nat :=
  let head := n / 2 ^ restBits n
  if anySet (topBits n) (n.log2 / 64) n then head ||| 1 else head

/-- The leading 64 bits, with zeros after them. -/
def cut (n : Nat) : Nat := leading n * 2 ^ restBits n

/-- The number of an integer of any length. -/
def toDouble (n : Int) : Double := .ofInt (n.sign * cut n.natAbs)

theorem anySet_eq_false {width : Nat} (count n : Nat)
    (h : ∀ i < count, 2 ^ (64 * i + width) ∣ n) : anySet width count n = false := by
  induction count generalizing n with
  | zero => rfl
  | succ count ih =>
    have h0 : n % 2 ^ width = 0 := Nat.mod_eq_zero_of_dvd (by simpa using h 0 (by omega))
    have ht : anySet width count (n / 2 ^ (64 : Nat)) = false := ih _ fun i hi => by
      apply Nat.dvd_div_of_mul_dvd
      rw [← Nat.pow_add, show 64 + (64 * i + width) = 64 * (i + 1) + width by omega]
      exact h (i + 1) (by omega)
    rw [anySet, h0, ht]
    rfl

/-- **An integer with nothing but zeros after its leading 64 bits stays** as it is. -/
theorem cut_of_dvd {n : Nat} (h : 2 ^ restBits n ∣ n) : cut n = n := by
  have hs : anySet (topBits n) (n.log2 / 64) n = false := by
    refine anySet_eq_false _ _ fun i hi => Nat.dvd_trans (Nat.pow_dvd_pow 2 ?_) h
    unfold topBits restBits
    omega
  simp [cut, leading, hs, Nat.div_mul_cancel h]

/-- **An integer of one limb becomes the nearest number.** -/
theorem toDouble_of_natAbs_lt {n : Int} (h : n.natAbs < 2 ^ (64 : Nat)) : toDouble n = .ofInt n := by
  have hr : restBits n.natAbs = 0 := by
    by_cases h0 : n.natAbs = 0
    · simp [restBits, h0]
    · have := (Nat.log2_lt h0).mpr h
      unfold restBits
      omega
  rw [toDouble, cut_of_dvd (by simp [hr]), Int.sign_mul_natAbs]

end GuestBridge.Limbs
