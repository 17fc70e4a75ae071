import Mathlib.Data.Int.Notation
import Mathlib.Data.List.Basic
import Mathlib.Tactic.SplitIfs
import GuestBridge.Number.Decimal

/-!
# The grammar of decimal literals

A literal is a sign, digits, a fraction and an exponent, all but the digits of the first two
optional. A text is read as one literal just if it is one, and the longest prefix that is a literal
is found among the characters that literals are made of.

* `Decimal.read?_eq_some_iff`: **what is read is a literal**, with its digits and its exponent.
* `Decimal.Literal.isLiteralChar`: the characters of literals.
* `Decimal.readLongest?_eq_some_iff`: **the longest prefix of the whole text**, not only of the
  characters that are looked at.
-/

namespace GuestBridge.Decimal

variable {negative : Bool} {s ds rest whole fraction cs p : List Char} {d : Decimal} {e : ℤ}
  {c : Char}

/-! ## The grammar -/

/-- A sign, if there is one, and whether it is a minus. -/
inductive Sign : Bool → List Char → Prop
  | none : Sign false []
  | plus : Sign false ['+']
  | minus : Sign true ['-']

/-- Decimal digits and nothing else. -/
def Digits (ds : List Char) : Prop := ∀ c ∈ ds, c.isDigit = true

/-- A point and the digits after it, or nothing. -/
inductive Fraction : List Char → List Char → Prop
  | none : Fraction [] []
  | point {ds : List Char} (digits : Digits ds) : Fraction ds ('.' :: ds)

/-- A mark, a sign and digits, or nothing. -/
inductive Exponent : ℤ → List Char → Prop
  | none : Exponent 0 []
  | mark {m : Char} {negative : Bool} {s ds : List Char} (mark : m = 'e' ∨ m = 'E')
      (sign : Sign negative s) (digits : Digits ds) (nonempty : ds ≠ []) :
      Exponent (if negative then -(ofDigits ds : ℤ) else ofDigits ds) (m :: (s ++ ds))

/-- **A decimal literal** and what it denotes. -/
inductive Literal : Decimal → List Char → Prop
  | mk {negative : Bool} {s whole fraction point : List Char} {e : ℤ} {exponent : List Char}
      (sign : Sign negative s) (whole_digits : Digits whole)
      (fraction_part : Fraction fraction point)
      (nonempty : whole ≠ [] ∨ fraction ≠ []) (exponent_part : Exponent e exponent) :
      Literal ⟨negative, ofDigits (whole ++ fraction), e - fraction.length⟩
        (s ++ (whole ++ (point ++ exponent)))

/-! ## The parts -/

/-- A sign is split off, and so is none if what follows does not look like one. -/
theorem splitSign_append (hs : Sign negative s)
    (hrest : s = [] → ∀ c ∈ rest.head?, c ≠ '+' ∧ c ≠ '-') :
    splitSign (s ++ rest) = (negative, rest) := by
  cases hs with
  | none =>
    cases rest with
    | nil => rfl
    | cons c rest =>
      obtain ⟨hplus, hminus⟩ := hrest rfl c rfl
      rw [List.nil_append, splitSign.eq_def]
      split
      · next h => exact absurd (List.cons.inj h).1 hminus
      · next h => exact absurd (List.cons.inj h).1 hplus
      · rfl
  | plus => rfl
  | minus => rfl

/-- Every text begins with a sign or none. -/
theorem exists_sign (cs : List Char) :
    ∃ negative s rest, cs = s ++ rest ∧ Sign negative s ∧
      (s = [] → ∀ c ∈ rest.head?, c ≠ '+' ∧ c ≠ '-') := by
  cases cs with
  | nil => exact ⟨false, [], [], rfl, .none, fun _ c hc => by cases hc⟩
  | cons c cs =>
    by_cases hplus : c = '+'
    · exact ⟨false, ['+'], cs, by rw [hplus]; rfl, .plus, fun h => by cases h⟩
    · by_cases hminus : c = '-'
      · exact ⟨true, ['-'], cs, by rw [hminus]; rfl, .minus, fun h => by cases h⟩
      · refine ⟨false, [], c :: cs, rfl, .none, fun _ c' hc' => ?_⟩
        obtain rfl := Option.some.inj hc'
        exact ⟨hplus, hminus⟩

theorem splitDigits_of_digits (hds : Digits ds) (hrest : ∀ c ∈ rest.head?, c.isDigit = false) :
    splitDigits (ds ++ rest) = (ds, rest) := by
  have hstop : rest.takeWhile Char.isDigit = [] ∧ rest.dropWhile Char.isDigit = rest := by
    cases rest with
    | nil => exact ⟨rfl, rfl⟩
    | cons c rest =>
      have hc : ¬ c.isDigit = true := Bool.eq_false_iff.1 (hrest c rfl)
      exact ⟨List.takeWhile_cons_of_neg hc, List.dropWhile_cons_of_neg hc⟩
  rw [splitDigits, List.takeWhile_append_of_pos hds, List.dropWhile_append_of_pos hds, hstop.1,
    hstop.2, List.append_nil]

theorem digits_splitDigits (cs : List Char) : Digits (splitDigits cs).1 :=
  fun _ hc => isDigit_of_mem_splitDigits hc

/-- A digit is neither a sign nor a point. -/
theorem ne_of_isDigit (h : c.isDigit = true) : (c ≠ '+' ∧ c ≠ '-') ∧ c ≠ '.' := by
  refine ⟨⟨?_, ?_⟩, ?_⟩ <;> rintro rfl <;> exact absurd h (by decide)

/-- **A whole text as an exponent part.** -/
theorem readExponent?_eq_some_iff : readExponent? cs = some e ↔ Exponent e cs := by
  constructor
  · intro h
    cases cs with
    | nil =>
      obtain rfl := Option.some.inj h
      exact .none
    | cons m cs =>
      obtain ⟨negative, s, rest, rfl, hs, hrest⟩ := exists_sign cs
      have hdigits := digits_splitDigits rest
      have hsplit := splitDigits_append rest
      rw [readExponent?, splitSign_append hs hrest] at h
      dsimp only at h
      simp only [Option.ite_none_right_eq_some] at h
      obtain ⟨hmark, ⟨hne, hnil⟩, h⟩ := h
      obtain rfl := Option.some.inj h
      rw [hnil, List.append_nil] at hsplit
      have hexponent := Exponent.mark hmark hs hdigits hne
      rw [hsplit] at hexponent ⊢
      exact hexponent
  · intro h
    cases h with
    | none => rfl
    | @mark m negative s ds hmark hs hds hne =>
      have hsign : splitSign (s ++ ds) = (negative, ds) := splitSign_append hs fun _ c hc =>
        (ne_of_isDigit (hds c (List.mem_of_mem_head? hc))).1
      have hdigits : splitDigits (ds ++ []) = (ds, []) :=
        splitDigits_of_digits hds fun c hc => by cases hc
      rw [List.append_nil] at hdigits
      rw [readExponent?, if_pos hmark, hsign]
      dsimp only
      rw [hdigits]
      exact if_pos ⟨hne, rfl⟩

/-- An exponent part begins with its mark. -/
theorem Exponent.head (h : Exponent e cs) (hc : c ∈ cs.head?) : c = 'e' ∨ c = 'E' := by
  cases h with
  | none => cases hc
  | mark hmark => exact (Option.some.inj hc) ▸ hmark

theorem splitFraction_append {point : List Char} (h : Fraction fraction point)
    (hrest : ∀ c ∈ rest.head?, c.isDigit = false ∧ c ≠ '.') :
    splitFraction (point ++ rest) = (fraction, rest) := by
  cases h with
  | none =>
    cases rest with
    | nil => rfl
    | cons c rest =>
      have hc := (hrest c rfl).2
      rw [List.nil_append, splitFraction.eq_def]
      split
      · next h => exact absurd (List.cons.inj h).1 hc
      · rfl
  | point hds => exact splitDigits_of_digits hds fun c hc => (hrest c hc).1

theorem exists_fraction (cs : List Char) :
    ∃ fraction point rest, cs = point ++ rest ∧ Fraction fraction point ∧
      splitFraction cs = (fraction, rest) := by
  by_cases hpoint : ∃ rest, cs = '.' :: rest
  · obtain ⟨rest, rfl⟩ := hpoint
    refine ⟨_, '.' :: (splitDigits rest).1, (splitDigits rest).2, ?_,
      .point (digits_splitDigits rest), rfl⟩
    rw [List.cons_append, splitDigits_append]
  · refine ⟨[], [], cs, rfl, .none, ?_⟩
    rw [splitFraction.eq_def]
    split
    · next rest => exact absurd ⟨rest, rfl⟩ hpoint
    · rfl

/-! ## Whole texts -/

theorem read?_eq {rest' rest'' : List Char} (hsign : splitSign cs = (negative, rest))
    (hwhole : splitDigits rest = (whole, rest'))
    (hfraction : splitFraction rest' = (fraction, rest'')) :
    read? cs =
      if whole ≠ [] ∨ fraction ≠ [] then
        (readExponent? rest'').map fun e =>
          ⟨negative, ofDigits (whole ++ fraction), e - fraction.length⟩
      else none := by
  unfold read?
  rw [hsign]
  dsimp only
  rw [hwhole]
  dsimp only
  rw [hfraction]
  dsimp only
  by_cases h : whole ≠ [] ∨ fraction ≠ []
  · rw [guard, if_pos h, if_pos h]
    cases readExponent? rest'' <;> rfl
  · rw [guard, if_neg h, if_neg h]
    rfl

/-- **What is read is a literal.** -/
theorem read?_eq_some_iff : read? cs = some d ↔ Literal d cs := by
  constructor
  · intro h
    obtain ⟨negative, s, rest, rfl, hs, hrest⟩ := exists_sign cs
    obtain ⟨whole, rest', hsplit⟩ : ∃ whole rest', splitDigits rest = (whole, rest') := ⟨_, _, rfl⟩
    have hwhole := digits_splitDigits rest
    have happend := splitDigits_append rest
    rw [hsplit] at hwhole happend
    obtain rfl := happend
    obtain ⟨fraction, point, rest'', rfl, hfraction, hsplit'⟩ := exists_fraction rest'
    rw [read?_eq (splitSign_append hs hrest) hsplit hsplit'] at h
    split_ifs at h with hne
    obtain ⟨e, he, rfl⟩ := Option.map_eq_some_iff.1 h
    exact .mk hs hwhole hfraction hne (readExponent?_eq_some_iff.1 he)
  · rintro ⟨hs, hwhole, hfraction, hne, he⟩
    rename_i negative s whole fraction point e exponent
    -- no part can be mistaken for the beginning of the part that comes after it
    have hmark : ∀ c ∈ exponent.head?, c.isDigit = false ∧ c ≠ '.' := fun c hc => by
      rcases he.head hc with rfl | rfl <;> decide
    have hpoint : ∀ c ∈ (point ++ exponent).head?, c.isDigit = false := fun c hc => by
      cases hfraction with
      | none => exact (hmark c hc).1
      | point => obtain rfl := Option.some.inj hc; decide
    have hsign : s = [] → ∀ c ∈ (whole ++ (point ++ exponent)).head?, c ≠ '+' ∧ c ≠ '-' := by
      intro _ c hc
      cases whole with
      | nil =>
        cases hfraction with
        | none => exact absurd hne (by simp)
        | point => obtain rfl := Option.some.inj hc; decide
      | cons a whole =>
        obtain rfl := Option.some.inj hc
        exact (ne_of_isDigit (hwhole _ List.mem_cons_self)).1
    rw [read?_eq (splitSign_append hs hsign) (splitDigits_of_digits hwhole hpoint)
      (splitFraction_append hfraction hmark), if_pos hne, readExponent?_eq_some_iff.2 he]
    rfl

/-! ## The characters of literals -/

theorem isLiteralChar_of_isDigit (h : c.isDigit = true) : isLiteralChar c = true := by
  simp [isLiteralChar, h]

/-- **Literals are made of literal characters.** -/
theorem Literal.isLiteralChar (h : Literal d cs) : ∀ c ∈ cs, isLiteralChar c = true := by
  have hsign : ∀ {negative s}, Sign negative s → ∀ c ∈ s, Decimal.isLiteralChar c = true := by
    intro negative s hs c hc
    cases hs with
    | none => cases hc
    | plus => obtain rfl := List.mem_singleton.1 hc; decide
    | minus => obtain rfl := List.mem_singleton.1 hc; decide
  have hdigits : ∀ {ds}, Digits ds → ∀ c ∈ ds, Decimal.isLiteralChar c = true :=
    fun hds c hc => isLiteralChar_of_isDigit (hds c hc)
  obtain ⟨hs, hwhole, hfraction, -, he⟩ := h
  intro c hc
  rw [List.mem_append, List.mem_append, List.mem_append] at hc
  rcases hc with hc | hc | hc | hc
  · exact hsign hs c hc
  · exact hdigits hwhole c hc
  · cases hfraction with
    | none => cases hc
    | point hds =>
      rcases List.mem_cons.1 hc with rfl | hc
      · decide
      · exact hdigits hds c hc
  · cases he with
    | none => cases hc
    | mark hmark hs hds =>
      rcases List.mem_cons.1 hc with rfl | hc
      · rcases hmark with rfl | rfl <;> decide
      · exact (List.mem_append.1 hc).elim (hsign hs c) (hdigits hds c)

theorem Literal.ne_nil (h : Literal d cs) : cs ≠ [] := by
  rintro rfl
  rw [← read?_eq_some_iff] at h
  cases h

/-- A sign alone is no literal. -/
theorem Sign.not_literal (hs : Sign negative s) (h : Literal d p) : ¬ p <+: s := by
  intro hp
  cases hs with
  | none => exact h.ne_nil (List.prefix_nil.1 hp)
  | plus | minus =>
    rcases List.prefix_cons_iff.1 hp with hnil | ⟨t, rfl, ht⟩
    · exact h.ne_nil hnil
    · rw [List.prefix_nil.1 ht, ← read?_eq_some_iff] at h
      cases h

/-! ## The longest prefix -/

/-- A prefix is a literal, and no longer one is. -/
def Longest (d : Decimal) (p cs : List Char) : Prop :=
  p <+: cs ∧ Literal d p ∧ ∀ q d', q <+: cs → Literal d' q → q.length ≤ p.length

/-- Trying from `n` downwards finds the greatest number that is accepted. -/
theorem findSome?_reverse_range {α : Type} (f : ℕ → Option α) (n : ℕ) (a : α) :
    (List.range (n + 1)).reverse.findSome? f = some a ↔
      ∃ k ≤ n, f k = some a ∧ ∀ j ≤ n, (f j).isSome → j ≤ k := by
  induction n with
  | zero =>
    have hrange : (List.range (0 + 1)).reverse.findSome? f = f 0 := by
      cases h : f 0 <;> simp [h]
    rw [hrange]
    constructor
    · exact fun h => ⟨0, Nat.le_refl 0, h, fun j hj _ => hj⟩
    · rintro ⟨k, hk, h, -⟩
      rwa [Nat.le_zero.1 hk] at h
  | succ n ih =>
    have hrange : (List.range (n + 1 + 1)).reverse.findSome? f =
        (f (n + 1)).or ((List.range (n + 1)).reverse.findSome? f) := by
      rw [List.range_succ, List.reverse_append, List.reverse_singleton, List.singleton_append,
        List.findSome?_cons]
      cases f (n + 1) <;> rfl
    rw [hrange]
    cases hlast : f (n + 1) with
    | some b =>
      constructor
      · intro h
        obtain rfl := Option.some.inj h
        exact ⟨n + 1, Nat.le_refl _, hlast, fun j hj _ => hj⟩
      · rintro ⟨k, hk, h, hmax⟩
        have hge := hmax (n + 1) (Nat.le_refl _) (by rw [hlast]; rfl)
        obtain rfl : k = n + 1 := Nat.le_antisymm hk hge
        rw [Option.some_or, ← h, hlast]
    | none =>
      rw [Option.none_or, ih]
      -- the last number is not accepted
      have hlt : ∀ j ≤ n + 1, (f j).isSome → j ≤ n := fun j hj hsome => by
        rcases Nat.lt_or_ge n j with h | h
        · obtain rfl : j = n + 1 := by omega
          rw [hlast] at hsome
          cases hsome
        · exact h
      constructor
      · rintro ⟨k, hk, h, hmax⟩
        exact ⟨k, by omega, h, fun j hj hsome => hmax j (hlt j hj hsome) hsome⟩
      · rintro ⟨k, hk, h, hmax⟩
        exact ⟨k, hlt k hk (by rw [h]; rfl), h, fun j hj => hmax j (by omega)⟩

/-- A prefix that is a literal lies among the first literal characters. -/
theorem Literal.eq_take (h : Literal d p) (hp : p <+: cs) :
    p.length ≤ (cs.takeWhile Decimal.isLiteralChar).length ∧
      (cs.takeWhile Decimal.isLiteralChar).take p.length = p := by
  obtain ⟨rest, rfl⟩ := hp
  rw [List.takeWhile_append_of_pos h.isLiteralChar]
  exact ⟨by simp, List.take_left⟩

/-- **The longest prefix that is a literal**, among all prefixes of the text. -/
theorem readLongest?_eq_some_iff : readLongest? cs = some d ↔ ∃ p, Longest d p cs := by
  have hinitial : ∀ k, (cs.takeWhile Decimal.isLiteralChar).take k <+: cs := fun k =>
    (List.take_prefix _ _).trans (List.takeWhile_prefix _)
  unfold readLongest?
  dsimp only
  -- lengths are tried from above, so the first that is read is the greatest
  rw [findSome?_reverse_range]
  constructor
  · rintro ⟨k, hk, h, hmax⟩
    refine ⟨_, hinitial k, read?_eq_some_iff.1 h, fun q d' hq hlit => ?_⟩
    obtain ⟨hle, htake⟩ := hlit.eq_take hq
    rw [List.length_take_of_le hk]
    exact hmax _ hle (by rw [htake, read?_eq_some_iff.2 hlit]; rfl)
  · rintro ⟨p, hp, hlit, hmax⟩
    obtain ⟨hle, htake⟩ := hlit.eq_take hp
    refine ⟨p.length, hle, by rw [htake, read?_eq_some_iff.2 hlit], fun j hj hsome => ?_⟩
    obtain ⟨d', hd'⟩ := Option.isSome_iff_exists.1 hsome
    have hlength := hmax _ d' (hinitial j) (read?_eq_some_iff.1 hd')
    rwa [List.length_take_of_le hj] at hlength

/-- No prefix is a literal if none is found. -/
theorem readLongest?_eq_none_iff : readLongest? cs = none ↔ ∀ p d, p <+: cs → ¬ Literal d p := by
  unfold readLongest?
  dsimp only
  rw [List.findSome?_eq_none_iff]
  constructor
  · intro h p d hp hlit
    obtain ⟨hle, htake⟩ := hlit.eq_take hp
    have hnone := h p.length (by simpa using Nat.lt_succ_of_le hle)
    rw [htake, read?_eq_some_iff.2 hlit] at hnone
    cases hnone
  · intro h k _
    rw [Option.eq_none_iff_forall_ne_some]
    intro d hd
    exact h _ d ((List.take_prefix _ _).trans (List.takeWhile_prefix _)) (read?_eq_some_iff.1 hd)

/-- A literal in front of a character that is none of a literal is the longest one. -/
theorem Literal.longest (h : Literal d p) {rest : List Char}
    (hrest : ∀ c ∈ rest.head?, Decimal.isLiteralChar c = false) : Longest d p (p ++ rest) := by
  refine ⟨List.prefix_append p rest, h, fun q d' hq hlit => ?_⟩
  have hstop : rest.takeWhile Decimal.isLiteralChar = [] := by
    cases rest with
    | nil => rfl
    | cons c rest => exact List.takeWhile_cons_of_neg (Bool.eq_false_iff.1 (hrest c rfl))
  have hle := (hlit.eq_take hq).1
  rwa [List.takeWhile_append_of_pos h.isLiteralChar, hstop, List.append_nil] at hle

end GuestBridge.Decimal
