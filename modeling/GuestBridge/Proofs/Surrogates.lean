import GuestBridge.Text.Units

/-!
# Units that make up a text

Units are well formed if every surrogate stands next to its partner. Reading units back loses
nothing but the surrogates that stand alone, and those only, each for the replacement
character.

* `encode_decode`: **units read and written again are the units, with every surrogate that
  stands alone replaced.**
* `encode_decode_eq_self_iff`: they are the same units exactly if those were well formed.
-/

namespace GuestBridge.Text

variable {u v : UInt16} {us : List UInt16} {before : Option UInt16}

/-- Every first half of a pair is followed by a second half, and there are no other second
halves. -/
inductive WellFormed : List UInt16 → Prop
  | nil : WellFormed []
  | basic {u : UInt16} {us : List UInt16} (leading : isLeading u = false)
      (trailing : isTrailing u = false) (rest : WellFormed us) : WellFormed (u :: us)
  | pair {u v : UInt16} {us : List UInt16} (leading : isLeading u) (trailing : isTrailing v)
      (rest : WellFormed us) : WellFormed (u :: v :: us)

/-- Whether a unit is a surrogate without its partner, between the units next to it. -/
def isAlone (before : Option UInt16) (u : UInt16) (after : Option UInt16) : Bool :=
  (isLeading u && !after.any isTrailing) || (isTrailing u && !before.any isLeading)

/-- The units after `before`, with the replacement character for every surrogate that stands
alone. -/
def mendAfter (before : Option UInt16) : List UInt16 → List UInt16
  | [] => []
  | u :: us => (if isAlone before u us.head? then 0xFFFD else u) :: mendAfter (some u) us

/-- The units with the replacement character for every surrogate that stands alone. -/
def mend (us : List UInt16) : List UInt16 := mendAfter none us

/-! ## Characters and their units -/

section Characters

/-- No unit is both halves of a pair. -/
theorem isTrailing_of_isLeading (hu : isLeading u) : isTrailing u = false := by
  simp only [isLeading, isTrailing, Bool.and_eq_true, Bool.and_eq_false_iff, decide_eq_true_eq,
    decide_eq_false_iff_not] at hu ⊢
  omega

theorem toNat_ofNat_of_isValidChar {n : Nat} (h : n.isValidChar) : (Char.ofNat n).toNat = n := by
  rw [Char.ofNat, dif_pos h]
  rfl

theorem unitsOfChar_replacement : unitsOfChar replacement = [0xFFFD] := by decide

/-- A unit that is no surrogate is the character of its number. -/
theorem unitsOfChar_of_basic (hl : isLeading u = false) (ht : isTrailing u = false) :
    unitsOfChar (Char.ofNat u.toNat) = [u] := by
  have hlt : u.toNat < 0x10000 := u.toNat_lt
  have hvalid : u.toNat.isValidChar := by
    simp only [isLeading, isTrailing, Bool.and_eq_false_iff, decide_eq_false_iff_not] at hl ht
    unfold Nat.isValidChar
    omega
  have hchar : (Char.ofNat u.toNat).toNat = u.toNat := toNat_ofNat_of_isValidChar hvalid
  rw [unitsOfChar, hchar, if_pos hlt]
  simp

/-- A pair of surrogates is the units of its character. -/
theorem unitsOfChar_charOfPair (hu : isLeading u) (hv : isTrailing v) :
    unitsOfChar (charOfPair u v) = [u, v] := by
  simp only [isLeading, isTrailing, Bool.and_eq_true, decide_eq_true_eq] at hu hv
  -- a pair gives a number past the first plane, and none past the last
  have hvalid :
      (0x10000 + (u.toNat - 0xD800) * 0x400 + (v.toNat - 0xDC00)).isValidChar := by
    unfold Nat.isValidChar
    omega
  have hchar : (charOfPair u v).toNat =
      0x10000 + (u.toNat - 0xD800) * 0x400 + (v.toNat - 0xDC00) :=
    toNat_ofNat_of_isValidChar hvalid
  have hfirst : 0xD800 + ((charOfPair u v).toNat - 0x10000) / 0x400 = u.toNat := by
    rw [hchar]
    omega
  have hsecond : 0xDC00 + ((charOfPair u v).toNat - 0x10000) % 0x400 = v.toNat := by
    rw [hchar]
    omega
  rw [unitsOfChar, if_neg (by rw [hchar]; omega)]
  simp only [hfirst, hsecond]
  simp

theorem wellFormed_unitsOfChar_append (c : Char) (hus : WellFormed us) :
    WellFormed (unitsOfChar c ++ us) := by
  have hc := toNat_lt_or c
  rw [unitsOfChar]
  -- characters of the first plane are no surrogates; the others are given by a pair
  split
  · next hlt =>
    have hn : c.toNat.toUInt16.toNat = c.toNat := UInt16.toNat_ofNat_of_lt' hlt
    refine .basic ?_ ?_ hus
    · simp only [isLeading, hn, Bool.and_eq_false_iff, decide_eq_false_iff_not]
      omega
    · simp only [isTrailing, hn, Bool.and_eq_false_iff, decide_eq_false_iff_not]
      omega
  · next hge =>
    have hu : (0xD800 + (c.toNat - 0x10000) / 0x400).toUInt16.toNat =
        0xD800 + (c.toNat - 0x10000) / 0x400 :=
      UInt16.toNat_ofNat_of_lt' (by rw [UInt16.size]; omega)
    have hv : (0xDC00 + (c.toNat - 0x10000) % 0x400).toUInt16.toNat =
        0xDC00 + (c.toNat - 0x10000) % 0x400 :=
      UInt16.toNat_ofNat_of_lt' (by rw [UInt16.size]; omega)
    refine .pair ?_ ?_ hus
    · simp only [isLeading, hu, Bool.and_eq_true, decide_eq_true_eq]
      omega
    · simp only [isTrailing, hv, Bool.and_eq_true, decide_eq_true_eq]
      omega

/-- The units of a text are well formed. -/
theorem wellFormed_encode (s : String) : WellFormed (encode s) := by
  rw [encode, unitsOf]
  induction s.toList with
  | nil => exact .nil
  | cons c cs ih => exact wellFormed_unitsOfChar_append c ih

end Characters

/-! ## Reading units back -/

section Decode

theorem encode_decode_eq (us : List UInt16) : encode (decode us) = unitsOf (charsOf us) := by
  rw [encode, decode, String.toList_ofList]

theorem unitsOf_cons (c : Char) (cs : List Char) :
    unitsOf (c :: cs) = unitsOfChar c ++ unitsOf cs :=
  List.flatMap_cons

/-- Units after `before` that do not begin with the partner of `before` are read back by
themselves. -/
theorem unitsOf_charsOf (us : List UInt16) (before : Option UInt16)
    (hb : before.any isLeading = false ∨ us.head?.any isTrailing = false) :
    unitsOf (charsOf us) = mendAfter before us := by
  -- along the reader: what follows a unit is read by itself, unless the unit is a first half
  -- and what follows is its partner
  fun_induction charsOf us generalizing before with
  | case1 => rfl
  | case2 u v us hu hv ih =>
    have hu' := isTrailing_of_isLeading hu
    have hv' : isLeading v = false := by
      rw [← Bool.not_eq_true]
      intro hlead
      simp [isTrailing_of_isLeading hlead] at hv
    rw [unitsOf_cons, unitsOfChar_charOfPair hu hv, ih (some v) (.inl hv')]
    simp [mendAfter, isAlone, hu, hv, hu', hv']
  | case3 u v us hu hv ih =>
    rw [Bool.not_eq_true] at hv
    rw [unitsOf_cons, unitsOfChar_replacement, ih (some u) (.inr hv)]
    simp [mendAfter, isAlone, hu, hv]
  | case4 u v us hu ht ih =>
    rw [Bool.not_eq_true] at hu
    have hbefore : before.any isLeading = false := hb.resolve_right (by simp [ht])
    rw [unitsOf_cons, unitsOfChar_replacement, ih (some u) (.inl hu)]
    simp [mendAfter, isAlone, ht, hbefore]
  | case5 u v us hu ht ih =>
    rw [Bool.not_eq_true] at hu ht
    rw [unitsOf_cons, unitsOfChar_of_basic hu ht, ih (some u) (.inl hu)]
    simp [mendAfter, isAlone, hu, ht]
  | case6 u h =>
    have halone : isAlone before u none := by
      rcases Bool.or_eq_true_iff.1 h with hu | ht
      · simp [isAlone, hu]
      · have hbefore : before.any isLeading = false := hb.resolve_right (by simp [ht])
        simp [isAlone, ht, hbefore]
    simp [unitsOf, unitsOfChar_replacement, mendAfter, halone]
  | case7 u h =>
    obtain ⟨hu, ht⟩ := Bool.or_eq_false_iff.1 (Bool.not_eq_true _ ▸ h)
    simp [unitsOf, unitsOfChar_of_basic hu ht, mendAfter, isAlone, hu, ht]

/-- **Units read and written again are the units, with every surrogate that stands alone
replaced.** -/
theorem encode_decode (us : List UInt16) : encode (decode us) = mend us := by
  rw [encode_decode_eq, unitsOf_charsOf us none (.inl rfl), mend]

/-- **Exactly the well-formed units are the same again.** -/
theorem encode_decode_eq_self_iff (us : List UInt16) :
    encode (decode us) = us ↔ WellFormed us := by
  constructor
  · intro h
    rw [← h]
    exact wellFormed_encode _
  · intro h
    rw [encode_decode_eq]
    induction h with
    | nil => rfl
    | basic hl ht _ ih =>
      rw [charsOf_cons_of_basic hl ht, unitsOf_cons, unitsOfChar_of_basic hl ht, ih]
      rfl
    | pair hu hv _ ih =>
      rw [charsOf, if_pos hu, if_pos hv, unitsOf_cons, unitsOfChar_charOfPair hu hv, ih]
      rfl

end Decode

end GuestBridge.Text
