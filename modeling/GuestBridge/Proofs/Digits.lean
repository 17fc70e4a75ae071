import Mathlib.Data.Nat.Digits.Lemmas
import GuestBridge.Host.Conversion

/-!
# Digits of a radix

In radixes up to thirty-six the digits are those of ten and then the letters, small or capital. A
run of them stands for its value by position.

* `Conversion.digitIn?_eq_some_iff`: **the digit of a character.**
* `Conversion.leadingDigits_append`, `Conversion.exists_leading`: the longest run of digits.
* `Conversion.afterHexMark?_eq_some_iff`, `Conversion.hexWord?_eq_some_iff`: the mark of a
  hexadecimal number, and a whole text of hexadecimal digits that fits in a word.
-/

namespace GuestBridge.Conversion

variable {r d n : ℕ} {c : Char} {cs run rest : List Char} {ds : List ℕ}

/-! ## Digits -/

/-- The character of a digit. -/
def digitChar (capital : Bool) (d : ℕ) : Char :=
  if d < 10 then Char.ofNat (48 + d)
  else if capital then Char.ofNat (55 + d)
  else Char.ofNat (87 + d)

/-- A character stands for a digit of a radix. -/
def Stands (r d : ℕ) (c : Char) : Prop := d < r ∧ ∃ capital, c = digitChar capital d

theorem toNat_lt_of_digit? (h : digit? c = some d) : c.toNat < 128 := by
  simp only [digit?, Char.isDigit, ge_iff_le, Char.le_def, UInt32.le_iff_toNat_le, Char.reduceVal,
    UInt32.reduceToNat, Bool.and_eq_true, decide_eq_true_eq] at h
  unfold Char.toNat
  split_ifs at h <;> omega

theorem digit?_eq_some_iff : digit? c = some d ↔ d < 36 ∧ ∃ capital, c = digitChar capital d := by
  constructor
  · intro h
    have table : ∀ n : Fin 128, (digit? (Char.ofNat n)).all fun d =>
        d < 36 && (Char.ofNat n == digitChar false d || Char.ofNat n == digitChar true d) := by
      decide
    have hc := table ⟨c.toNat, toNat_lt_of_digit? h⟩
    rw [Char.ofNat_toNat, h] at hc
    simp only [Option.all_some, Bool.and_eq_true, decide_eq_true_eq, Bool.or_eq_true,
      beq_iff_eq] at hc
    exact ⟨hc.1, hc.2.elim (fun h => ⟨false, h⟩) fun h => ⟨true, h⟩⟩
  · rintro ⟨hd, capital, rfl⟩
    have table : ∀ (d : Fin 36) (capital : Bool), digit? (digitChar capital d) = some d.val := by
      decide
    exact table ⟨d, hd⟩ capital

/-- **The digit of a character.** -/
theorem digitIn?_eq_some_iff (hr : r ≤ 36) : digitIn? r c = some d ↔ Stands r d c := by
  rw [digitIn?, Option.filter_eq_some_iff, digit?_eq_some_iff, decide_eq_true_eq]
  exact ⟨fun ⟨⟨_, hc⟩, hd⟩ => ⟨hd, hc⟩, fun ⟨hd, hc⟩ => ⟨⟨hd.trans_le hr, hc⟩, hd⟩⟩

/-- A character stands for one digit at most. -/
theorem Stands.unique {d' : ℕ} (hr : r ≤ 36) (h : Stands r d c) (h' : Stands r d' c) : d = d' :=
  Option.some.inj
    (((digitIn?_eq_some_iff hr).2 h).symm.trans ((digitIn?_eq_some_iff hr).2 h'))

theorem not_stands_iff (hr : r ≤ 36) : (∀ d, ¬ Stands r d c) ↔ digitIn? r c = none := by
  rw [Option.eq_none_iff_forall_ne_some]
  exact forall_congr' fun d => not_congr (digitIn?_eq_some_iff hr).symm

/-! ## Runs of digits -/

/-- A run of characters stands for digits, the one of the highest place first. -/
def Numeral (r : ℕ) (ds : List ℕ) (run : List Char) : Prop := List.Forall₂ (Stands r) ds run

/-- The value of digits by position, the one of the highest place first. -/
def positional (r : ℕ) (ds : List ℕ) : ℕ := Nat.ofDigits r ds.reverse

theorem positional_concat (r : ℕ) (ds : List ℕ) (d : ℕ) :
    positional r (ds ++ [d]) = r * positional r ds + d := by
  rw [positional, List.reverse_append, List.reverse_singleton, List.singleton_append,
    Nat.ofDigits_cons, add_comm]
  rfl

theorem foldl_eq_positional (r : ℕ) (ds : List ℕ) :
    ds.foldl (fun n d => r * n + d) 0 = positional r ds := by
  induction ds using List.reverseRecOn with
  | nil => rfl
  | append_singleton ds d ih => rw [List.foldl_append, ih, positional_concat]; rfl

/-- The empty run, and no other, stands for no digits. -/
theorem Numeral.eq_nil_iff (h : Numeral r ds run) : run = [] ↔ ds = [] := by
  cases h <;> simp

/-- A run of characters stands for one list of digits at most. -/
theorem Numeral.unique {ds' : List ℕ} (hr : r ≤ 36) (h : Numeral r ds run)
    (h' : Numeral r ds' run) : ds = ds' := by
  induction h generalizing ds' with
  | nil => exact (List.forall₂_nil_right_iff.1 h').symm
  | cons hd _ ih =>
    cases h' with
    | cons hd' htail => rw [hd.unique hr hd', ih htail]

theorem mapM_digitIn?_eq_some_iff (hr : r ≤ 36) :
    run.mapM (digitIn? r) = some ds ↔ Numeral r ds run := by
  induction run generalizing ds with
  | nil =>
    rw [List.mapM_nil, Numeral, List.forall₂_nil_right_iff]
    exact ⟨fun h => (Option.some.inj h).symm, fun h => by rw [h]; rfl⟩
  | cons c run ih =>
    simp only [List.mapM_cons, Option.bind_eq_bind, Option.bind_eq_some_iff,
      digitIn?_eq_some_iff hr, ih]
    constructor
    · rintro ⟨d, hd, ds, hds, h⟩
      obtain rfl := Option.some.inj h
      exact .cons hd hds
    · intro h
      cases h with
      | @cons d _ ds _ hd hds => exact ⟨d, hd, ds, hds, rfl⟩

/-- **The longest run of digits**, up to a character that stands for none. -/
theorem leadingDigits_append (hr : r ≤ 36) (h : Numeral r ds run)
    (hrest : ∀ c ∈ rest.head?, ∀ d, ¬ Stands r d c) : leadingDigits r (run ++ rest) = ds := by
  induction h with
  | nil =>
    cases rest with
    | nil => rfl
    | cons c rest =>
      have hnone := (not_stands_iff hr).1 (hrest c rfl)
      rw [List.nil_append, leadingDigits, hnone]
  | @cons d c ds run hd _ ih =>
    rw [List.cons_append, leadingDigits, (digitIn?_eq_some_iff hr).2 hd, ih]

/-- Every text begins with a longest run of digits. -/
theorem exists_leading (hr : r ≤ 36) (cs : List Char) :
    ∃ ds run rest, cs = run ++ rest ∧ Numeral r ds run ∧
      ∀ c ∈ rest.head?, ∀ d, ¬ Stands r d c := by
  induction cs with
  | nil => exact ⟨[], [], [], rfl, .nil, fun c hc => by cases hc⟩
  | cons c cs ih =>
    cases hc : digitIn? r c with
    | none =>
      refine ⟨[], [], c :: cs, rfl, .nil, fun c' hc' => ?_⟩
      obtain rfl := Option.some.inj hc'
      exact (not_stands_iff hr).2 hc
    | some d =>
      obtain ⟨ds, run, rest, rfl, hrun, hrest⟩ := ih
      exact ⟨d :: ds, c :: run, rest, rfl, .cons ((digitIn?_eq_some_iff hr).1 hc) hrun, hrest⟩

/-! ## Hexadecimal words -/

/-- The mark of a hexadecimal number. -/
def HexMark (mark : List Char) : Prop := mark = ['0', 'x'] ∨ mark = ['0', 'X']

theorem afterHexMark?_append {mark : List Char} (h : HexMark mark) (rest : List Char) :
    afterHexMark? (mark ++ rest) = some rest := by
  rcases h with rfl | rfl <;> rfl

/-- **A mark in front of a text.** -/
theorem afterHexMark?_eq_some_iff :
    afterHexMark? cs = some rest ↔ ∃ mark, HexMark mark ∧ cs = mark ++ rest := by
  constructor
  · intro h
    unfold afterHexMark? at h
    split at h
    · obtain rfl := Option.some.inj h
      exact ⟨['0', 'x'], .inl rfl, rfl⟩
    · obtain rfl := Option.some.inj h
      exact ⟨['0', 'X'], .inr rfl, rfl⟩
    · cases h
  · rintro ⟨mark, hmark, rfl⟩
    exact afterHexMark?_append hmark rest

theorem afterHexMark?_eq_none_iff :
    afterHexMark? cs = none ↔ ∀ mark, HexMark mark → ¬ mark <+: cs := by
  rw [Option.eq_none_iff_forall_ne_some]
  constructor
  · rintro h mark hmark ⟨rest, rfl⟩
    exact h rest (afterHexMark?_append hmark rest)
  · intro h rest hrest
    obtain ⟨mark, hmark, rfl⟩ := afterHexMark?_eq_some_iff.1 hrest
    exact h mark hmark (List.prefix_append mark rest)

/-- What comes after a guard. -/
theorem guard_bind_eq_some_iff {p : Prop} [Decidable p] {x : Option ℕ} :
    (guard p >>= fun _ => x) = some n ↔ p ∧ x = some n := by
  by_cases hp : p
  · rw [guard, if_pos hp]
    exact (and_iff_right hp).symm
  · rw [guard, if_neg hp]
    exact iff_of_false (fun h => by cases h) fun h => hp h.1

/-- Hexadecimal digits that fit in a word, without a sign. -/
theorem word?_eq_some_iff :
    (do
      guard (run ≠ [])
      let digits ← run.mapM (digitIn? 16)
      guard (digits.foldl (fun n d => 16 * n + d) 0 < 2 ^ (64 : ℕ))
      return digits.foldl (fun n d => 16 * n + d) 0 : Option ℕ) = some n ↔
      ∃ ds, ds ≠ [] ∧ Numeral 16 ds run ∧ positional 16 ds = n ∧ n < 2 ^ 64 := by
  have hmap : ∀ ds, run.mapM (digitIn? 16) = some ds ↔ Numeral 16 ds run := fun ds =>
    mapM_digitIn?_eq_some_iff (by decide)
  rw [guard_bind_eq_some_iff]
  constructor
  · rintro ⟨hne, h⟩
    obtain ⟨ds, hds, h⟩ := Option.bind_eq_some_iff.1 h
    rw [guard_bind_eq_some_iff, foldl_eq_positional] at h
    obtain ⟨hlt, h⟩ := h
    obtain rfl := Option.some.inj h
    have hnumeral := (hmap ds).1 hds
    exact ⟨ds, fun hnil => hne (hnumeral.eq_nil_iff.2 hnil), hnumeral, rfl, hlt⟩
  · rintro ⟨ds, hne, hds, rfl, hlt⟩
    refine ⟨fun hnil => hne (hds.eq_nil_iff.1 hnil),
      Option.bind_eq_some_iff.2 ⟨ds, (hmap ds).2 hds, ?_⟩⟩
    rw [guard_bind_eq_some_iff, foldl_eq_positional]
    exact ⟨hlt, rfl⟩

theorem not_numeral_plus : ¬ Numeral 16 ds ('+' :: run) := by
  rintro (_ | ⟨hd, -⟩)
  have hsome := (digitIn?_eq_some_iff (by decide)).2 hd
  have hnone : digitIn? 16 '+' = none := by decide
  rw [hnone] at hsome
  cases hsome

/-- **A whole text of hexadecimal digits**, with a plus sign or without, that fits in a word. -/
theorem hexWord?_eq_some_iff :
    hexWord? cs = some n ↔
      ∃ ds run, (cs = run ∨ cs = '+' :: run) ∧ ds ≠ [] ∧ Numeral 16 ds run ∧
        positional 16 ds = n ∧ n < 2 ^ 64 := by
  by_cases hplus : ∃ run, cs = '+' :: run
  · obtain ⟨run, rfl⟩ := hplus
    have hword : hexWord? ('+' :: run) = some n ↔
        ∃ ds, ds ≠ [] ∧ Numeral 16 ds run ∧ positional 16 ds = n ∧ n < 2 ^ 64 := word?_eq_some_iff
    refine hword.trans ⟨?_, ?_⟩
    · rintro ⟨ds, hds⟩
      exact ⟨ds, run, .inr rfl, hds⟩
    · rintro ⟨ds, run', hrun, hne, hds, hn⟩
      rcases hrun with rfl | hrun
      · exact absurd hds not_numeral_plus
      · obtain rfl := (List.cons.inj hrun).2
        exact ⟨ds, hne, hds, hn⟩
  · have hword : hexWord? cs = some n ↔
        ∃ ds, ds ≠ [] ∧ Numeral 16 ds cs ∧ positional 16 ds = n ∧ n < 2 ^ 64 := by
      unfold hexWord?
      split
      · next run => exact absurd ⟨run, rfl⟩ hplus
      · exact word?_eq_some_iff
    refine hword.trans ⟨fun ⟨ds, hds⟩ => ⟨ds, cs, .inl rfl, hds⟩, ?_⟩
    rintro ⟨ds, run, rfl | rfl, hds⟩
    · exact ⟨ds, hds⟩
    · exact absurd ⟨run, rfl⟩ hplus

end GuestBridge.Conversion
