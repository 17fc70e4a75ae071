import GuestBridge.Proofs.Blanks
import GuestBridge.Proofs.Digits
import GuestBridge.Proofs.Literals
import GuestBridge.Proofs.Nearest

/-!
# Reading integers

An integer is read off the digits that a text begins with, after blanks, a sign and the mark of a
hexadecimal number. Every digit is taken in with two roundings, but none of them changes anything
while the value is at most `2 ^ 53`.

* `Conversion.Spells`: **the parts of a text**, for a radix that is asked for.
* `Conversion.foldl_pushDigit`: digits of a small value are taken in exactly.
* `Conversion.integers_are_read`: **the value of the digits is read**, with its sign, of every text;
  what is printed in a radix is read back.
-/

namespace GuestBridge.Conversion

open Binary Decimal

variable {argument : Option Double} {text : String} {negative : Bool} {r d n : ℕ} {z : ℤ}
  {c : Char} {cs s mark run rest : List Char} {ds : List ℕ} {x : Double}

/-! ## The radix -/

/-- No radix is asked for: there is no argument, or it is not finite, or it has no integer part. -/
def Unasked (argument : Option Double) : Prop :=
  argument.bind truncate? = none ∨ argument.bind truncate? = some 0

/-- The integer part of the argument is no radix. -/
def Refused (argument : Option Double) : Prop :=
  ∃ z, argument.bind truncate? = some z ∧ z ≠ 0 ∧ ¬ (2 ≤ z ∧ z ≤ 36)

/-- The radix of digits without a mark: the one that is asked for, or ten. -/
inductive Asks (argument : Option Double) : ℕ → Prop
  | ten (unasked : Unasked argument) : Asks argument 10
  | radix {r : ℕ} (least : 2 ≤ r) (greatest : r ≤ 36)
      (asked : argument.bind truncate? = some (r : ℤ)) : Asks argument r

/-- A mark is passed over if no radix is asked for, or sixteen. -/
def TakesMark (argument : Option Double) : Prop :=
  Unasked argument ∨ argument.bind truncate? = some 16

theorem radixOf_of_unasked (h : Unasked argument) : radixOf argument = .ok none := by
  unfold radixOf
  rcases h with h | h
  · rw [h]
  · rw [h]
    rfl

theorem radixOf_of_asked (hleast : 2 ≤ r) (hgreatest : r ≤ 36)
    (h : argument.bind truncate? = some (r : ℤ)) : radixOf argument = .ok (some r) := by
  unfold radixOf
  rw [h]
  split
  · next heq => cases heq
  · next heq =>
    have hzero := Option.some.inj heq
    omega
  · next heq =>
    obtain rfl := Option.some.inj heq
    rw [if_pos (by omega), Int.toNat_natCast]

theorem radixOf_of_refused (h : Refused argument) : radixOf argument = .error () := by
  obtain ⟨z, hz, hne, hrange⟩ := h
  unfold radixOf
  rw [hz]
  split
  · next heq => cases heq
  · next heq => exact absurd (Option.some.inj heq) hne
  · next heq =>
    obtain rfl := Option.some.inj heq
    exact if_neg hrange

theorem Asks.bounds (h : Asks argument r) : 2 ≤ r ∧ r ≤ 36 := by
  cases h with
  | ten => decide
  | radix hleast hgreatest => exact ⟨hleast, hgreatest⟩

/-- Every argument asks for a radix or is refused. -/
theorem exists_asks (argument : Option Double) (h : ¬ Refused argument) : ∃ r, Asks argument r := by
  cases hz : argument.bind truncate? with
  | none => exact ⟨10, .ten (.inl hz)⟩
  | some z =>
    by_cases hzero : z = 0
    · exact ⟨10, .ten (.inr (hzero ▸ hz))⟩
    · have hrange : 2 ≤ z ∧ z ≤ 36 := not_not.1 fun hrange => h ⟨z, hz, hzero, hrange⟩
      have hcast : (z.toNat : ℤ) = z := Int.toNat_of_nonneg (by omega)
      exact ⟨z.toNat, .radix (by omega) (by omega) (by rw [hcast, hz])⟩

/-! ## The parts of a text -/

/-- What stands in front of the digits, the radix that it leaves, and what follows it. -/
inductive Marked (argument : Option Double) : List Char → ℕ → List Char → Prop
  | taken {mark cs : List Char} (takes : TakesMark argument) (hexadecimal : HexMark mark) :
      Marked argument mark 16 cs
  | none {r : ℕ} {cs : List Char} (asks : Asks argument r)
      (unmarked : TakesMark argument → ∀ mark, HexMark mark → ¬ mark <+: cs) :
      Marked argument [] r cs

/-- **The parts of a text**: blanks, a sign, a mark, the longest run of digits and a tail. It gives
the sign, the radix and the digits. -/
inductive Spells (argument : Option Double) : Bool → ℕ → List ℕ → List Char → Prop
  | mk {blanks s mark run rest : List Char} {negative : Bool} {r : ℕ} {ds : List ℕ}
      (blank : ∀ c ∈ blanks, Text.isBlank c = true)
      (no_blank : Text.NoBlank (s ++ (mark ++ (run ++ rest))))
      (sign : Sign negative s)
      (no_sign : s = [] → ∀ c ∈ (mark ++ (run ++ rest)).head?, c ≠ '+' ∧ c ≠ '-')
      (marked : Marked argument mark r (run ++ rest))
      (digits : Numeral r ds run)
      (longest : ∀ c ∈ rest.head?, ∀ d, ¬ Stands r d c) :
      Spells argument negative r ds (blanks ++ (s ++ (mark ++ (run ++ rest))))

theorem Marked.bounds (h : Marked argument mark r cs) : 2 ≤ r ∧ r ≤ 36 := by
  cases h with
  | taken => decide
  | none hasks => exact hasks.bounds

theorem Spells.bounds (h : Spells argument negative r ds cs) : 2 ≤ r ∧ r ≤ 36 := by
  cases h with
  | mk _ _ _ _ hmark => exact hmark.bounds

/-- Every text has such parts, for an argument that is not refused. -/
theorem exists_spells (h : ¬ Refused argument) (cs : List Char) :
    ∃ negative r ds, Spells argument negative r ds cs := by
  obtain ⟨blanks, cs, rfl, hblanks, hnoblank⟩ := Text.exists_blanks cs
  obtain ⟨negative, s, cs, rfl, hs, hnosign⟩ := exists_sign cs
  obtain ⟨mark, r, cs, rfl, hmark⟩ :
      ∃ mark r rest, cs = mark ++ rest ∧ Marked argument mark r rest := by
    obtain ⟨r, hasks⟩ := exists_asks argument h
    by_cases hmarked : TakesMark argument ∧ ∃ mark, HexMark mark ∧ mark <+: cs
    · obtain ⟨htakes, mark, hmark, rest, rfl⟩ := hmarked
      exact ⟨mark, 16, rest, rfl, .taken htakes hmark⟩
    · exact ⟨[], r, cs, rfl, .none hasks fun htakes mark hmark hprefix =>
        hmarked ⟨htakes, mark, hmark, hprefix⟩⟩
  obtain ⟨ds, run, rest, rfl, hds, hrest⟩ := exists_leading hmark.bounds.2 cs
  exact ⟨negative, r, ds, .mk hblanks hnoblank hs hnosign hmark hds hrest⟩

/-! ## Taking in digits -/

/-- Whole numbers up to the first one that has a neighbour two away. -/
theorem isInt_ofNat_of_le (hn : n ≤ 2 ^ 53) : (Binary.ofNat n : Double).IsInt n := by
  rcases hn.lt_or_eq with hlt | rfl
  · exact isInt_ofNat hlt
  · exact toRat?_ofRat_shift (n := 1) (k := 53) (by decide) (by decide) false

theorem isNegative_ofNat (n : ℕ) : (Binary.ofNat n : Double).isNegative = false :=
  (isNegative_ofInt n).trans (decide_eq_false (by omega))

/-- **One digit more** is taken in exactly. -/
theorem pushDigit_ofNat (hr : 0 < r) (hr' : r ≤ 36) (h : r * n + d ≤ 2 ^ 53) :
    pushDigit r (.ofNat n) d = .ofNat (r * n + d) := by
  have hn : n ≤ 2 ^ 53 := (Nat.le_mul_of_pos_left n hr).trans (by omega)
  have hproduct : (Binary.ofNat n * Binary.ofNat r : Double) = .ofNat (r * n) := by
    rw [mul_eq (isInt_ofNat_of_le hn) (isInt_ofNat_of_le (by omega)), isNegative_ofNat,
      isNegative_ofNat, ← Int.cast_mul, ← Nat.cast_mul, Nat.mul_comm]
    rfl
  rw [pushDigit, hproduct, add_eq (isInt_ofNat_of_le (by omega)) (isInt_ofNat_of_le (by omega)),
    isNegative_ofNat, ← Int.cast_add, ← Nat.cast_add]
  rfl

/-- **Digits of a small value are taken in exactly.** -/
theorem foldl_pushDigit (hr : 0 < r) (hr' : r ≤ 36) (h : positional r ds ≤ 2 ^ 53) :
    ds.foldl (pushDigit r) 0 = .ofNat (positional r ds) := by
  induction ds using List.reverseRecOn with
  | nil => rfl
  | append_singleton ds d ih =>
    rw [positional_concat] at h ⊢
    -- the value of the first digits is no greater than that of all
    have hinit : positional r ds ≤ 2 ^ 53 :=
      (Nat.le_mul_of_pos_left _ hr).trans (by omega)
    rw [List.foldl_append, ih hinit]
    exact pushDigit_ofNat hr hr' h

/-! ## Texts -/

/-- A number with a sign in front. -/
def signed (negative : Bool) (x : Double) : Double := if negative then -x else x

/-- The radix of the digits and the text that they stand in front of. -/
def skipMark (asked : Option ℕ) (cs : List Char) : ℕ × List Char :=
  match asked, afterHexMark? cs with
  | none, some rest => (16, rest)
  | none, none => (10, cs)
  | some 16, some rest => (16, rest)
  | some r, _ => (r, cs)

theorem skipMark_of_asked (h : r = 16 → afterHexMark? cs = none) :
    skipMark (some r) cs = (r, cs) := by
  unfold skipMark
  split
  · next hasked _ => cases hasked
  · next hasked _ => cases hasked
  · next hasked hafter =>
    rw [h (Option.some.inj hasked)] at hafter
    cases hafter
  · next hasked _ => rw [Option.some.inj hasked]

/-- **A mark is passed over just where it is taken.** -/
theorem exists_skipMark (h : Marked argument mark r rest) :
    ∃ asked, radixOf argument = .ok asked ∧ skipMark asked (mark ++ rest) = (r, rest) := by
  cases h with
  | taken htakes hmark =>
    rcases htakes with hunasked | hsixteen
    · refine ⟨none, radixOf_of_unasked hunasked, ?_⟩
      rw [skipMark.eq_def, afterHexMark?_append hmark]
    · refine ⟨some 16, radixOf_of_asked (r := 16) (by decide) (by decide) hsixteen, ?_⟩
      rw [skipMark.eq_def, afterHexMark?_append hmark]
      rfl
  | none hasks hunmarked =>
    rw [List.nil_append]
    cases hasks with
    | ten hunasked =>
      refine ⟨none, radixOf_of_unasked hunasked, ?_⟩
      rw [skipMark.eq_def, afterHexMark?_eq_none_iff.2 (hunmarked (.inl hunasked))]
    | radix hleast hgreatest hasked =>
      refine ⟨some r, radixOf_of_asked hleast hgreatest hasked, skipMark_of_asked ?_⟩
      rintro rfl
      exact afterHexMark?_eq_none_iff.2 (hunmarked (.inr hasked))

/-- **What is read of a text** depends on its parts. -/
theorem parseInt_of_spells (h : Spells argument negative r ds cs) (hcs : text.toList = cs) :
    parseInt text argument =
      if ds = [] then .nan else signed negative (ds.foldl (pushDigit r) 0) := by
  obtain ⟨hblanks, hnoblank, hs, hnosign, hmark, hds, hrest⟩ := h
  obtain ⟨asked, hradix, hskip⟩ := exists_skipMark hmark
  unfold parseInt
  rw [hradix, hcs, Text.trimStart_append hblanks hnoblank]
  dsimp only
  rw [splitSign_append hs hnosign]
  change (if leadingDigits (skipMark asked _).1 (skipMark asked _).2 = [] then _ else
    signed _ (List.foldl (pushDigit (skipMark asked _).1) _ (leadingDigits (skipMark asked _).1
      (skipMark asked _).2))) = _
  rw [hskip]
  dsimp only
  rw [leadingDigits_append hmark.bounds.2 hds hrest]

theorem parseInt_of_refused (h : Refused argument) : parseInt text argument = .nan := by
  unfold parseInt
  rw [radixOf_of_refused h]

/-! ## Printing -/

/-- The digits of a number, the one of the highest place first. -/
def digitsOf (r n : ℕ) : List ℕ := if n = 0 then [0] else (Nat.digits r n).reverse

/-- **A text that is printed for an integer**: a minus if it is negative, and its digits, each in
either case. -/
inductive Prints (r : ℕ) (z : ℤ) : List Char → Prop
  | natural {run : List Char} (nonneg : 0 ≤ z) (digits : Numeral r (digitsOf r z.natAbs) run) :
      Prints r z run
  | minus {run : List Char} (negative : z < 0) (digits : Numeral r (digitsOf r z.natAbs) run) :
      Prints r z ('-' :: run)

theorem positional_digitsOf (r n : ℕ) : positional r (digitsOf r n) = n := by
  unfold digitsOf positional
  split_ifs with hn
  · rw [hn]
    rfl
  · rw [List.reverse_reverse, Nat.ofDigits_digits]

theorem digitsOf_ne_nil (r n : ℕ) : digitsOf r n ≠ [] := by
  unfold digitsOf
  split_ifs with hn
  · exact List.cons_ne_nil _ _
  · exact fun h => hn (Nat.digits_eq_nil_iff_eq_zero.1 (List.reverse_eq_nil_iff.1 h))

/-- The first digit is no zero, but for zero. -/
theorem eq_zero_of_head_digitsOf (h : 0 ∈ (digitsOf r n).head?) : n = 0 := by
  unfold digitsOf at h
  by_contra hn
  rw [if_neg hn, List.head?_reverse, Option.mem_def, List.getLast?_eq_some_iff] at h
  obtain ⟨ds, hds⟩ := h
  have hlast := Nat.getLast_digit_ne_zero r hn
  simp only [hds, List.getLast_append_singleton] at hlast
  exact hlast rfl

/-- Digits are neither blanks nor signs. -/
theorem Stands.plain (hr : r ≤ 36) (h : Stands r d c) :
    Text.isBlank c = false ∧ c ≠ '+' ∧ c ≠ '-' := by
  obtain ⟨hd, capital, rfl⟩ := h
  have table : ∀ (d : Fin 36) (capital : Bool), Text.isBlank (digitChar capital d) = false ∧
      digitChar capital d ≠ '+' ∧ digitChar capital d ≠ '-' := by
    decide
  exact table ⟨d, hd.trans_le hr⟩ capital

/-- The digits that are printed do not look like a mark. -/
theorem Numeral.no_mark (hr : r ≤ 36) (hrun : Numeral r (digitsOf r n) run)
    (hrest : ∀ c ∈ rest.head?, c ≠ 'x' ∧ c ≠ 'X') (hmark : HexMark mark) :
    ¬ mark <+: run ++ rest := by
  rintro ⟨tail, htail⟩
  have hne := digitsOf_ne_nil r n
  have hzero := eq_zero_of_head_digitsOf (r := r) (n := n)
  generalize hds : digitsOf r n = ds at hrun hne hzero
  cases hrun with
  | nil => exact hne rfl
  | @cons d c ds run hd hrun =>
    have hfirst : c = '0' := by
      rcases hmark with rfl | rfl <;> exact (List.cons.inj htail).1.symm
    subst hfirst
    obtain rfl : d = 0 := hd.unique hr ⟨by have := hd.1; omega, false, rfl⟩
    -- only zero has the first digit zero, and it has no other
    rw [hzero rfl, digitsOf, if_pos rfl] at hds
    obtain rfl := (List.cons.inj hds).2
    cases hrun
    rcases hmark with rfl | rfl
    · obtain rfl : 'x' :: tail = rest := (List.cons.inj htail).2
      exact (hrest 'x' rfl).1 rfl
    · obtain rfl : 'X' :: tail = rest := (List.cons.inj htail).2
      exact (hrest 'X' rfl).2 rfl

/-- **What is printed has its own parts**, a sign before it and a tail after it. -/
theorem spells_of_numeral (hasks : Asks argument r) (hs : Sign negative s)
    (hrun : Numeral r (digitsOf r n) run)
    (hrest : ∀ c ∈ rest.head?, (∀ d, ¬ Stands r d c) ∧ c ≠ 'x' ∧ c ≠ 'X') :
    Spells argument negative r (digitsOf r n) (s ++ (run ++ rest)) := by
  have hr := hasks.bounds.2
  -- there is a digit, and it is neither a blank nor a sign
  have hplain : ∀ c ∈ (run ++ rest).head?, Text.isBlank c = false ∧ c ≠ '+' ∧ c ≠ '-' := by
    have hne := digitsOf_ne_nil r n
    revert hrun hne
    generalize digitsOf r n = ds
    rintro (_ | ⟨hd, -⟩) hne c hc
    · exact absurd rfl hne
    · obtain rfl := Option.some.inj hc
      exact hd.plain hr
  have hnoblank : Text.NoBlank (s ++ (run ++ rest)) := by
    intro c hc
    cases hs with
    | none => exact (hplain c hc).1
    | plus => obtain rfl := Option.some.inj hc; decide
    | minus => obtain rfl := Option.some.inj hc; decide
  have hmarked : Marked argument [] r (run ++ rest) :=
    .none hasks fun _ mark hmark => hrun.no_mark hr (fun c hc => (hrest c hc).2) hmark
  exact .mk (List.forall_mem_nil _) hnoblank hs (fun _ c hc => (hplain c hc).2) hmarked hrun
    fun c hc => (hrest c hc).1

/-- The magnitude with the sign in front is the number. -/
theorem signed_natAbs (z : ℤ) : signed (decide (z < 0)) (.ofNat z.natAbs) = .ofInt z := by
  unfold signed Binary.ofNat ofInt
  by_cases hz : z < 0
  · have hne : ((z.natAbs : ℤ) : ℚ) ≠ 0 := by
      rw [Int.cast_ne_zero]
      omega
    rw [decide_eq_true hz, if_pos rfl, neg_ofRat hne, ← Int.cast_neg]
    congr 2
    omega
  · rw [decide_eq_false hz, if_neg Bool.false_ne_true, Int.natAbs_of_nonneg (not_lt.1 hz)]

/-- **What is printed is read back.** -/
theorem parseInt_of_prints (hasks : Asks argument r) (hz : z.natAbs ≤ 2 ^ 53) (h : Prints r z cs)
    (hrest : ∀ c ∈ rest.head?, (∀ d, ¬ Stands r d c) ∧ c ≠ 'x' ∧ c ≠ 'X') :
    parseInt (String.ofList (cs ++ rest)) argument = .ofInt z := by
  have hspells : Spells argument (decide (z < 0)) r (digitsOf r z.natAbs) (cs ++ rest) := by
    cases h with
    | natural hnonneg hrun =>
      rw [decide_eq_false (not_lt.2 hnonneg)]
      exact spells_of_numeral hasks .none hrun hrest
    | minus hneg hrun =>
      rw [decide_eq_true hneg]
      exact spells_of_numeral hasks .minus hrun hrest
  obtain ⟨hleast, hgreatest⟩ := hasks.bounds
  have hvalue := positional_digitsOf r z.natAbs
  rw [parseInt_of_spells hspells String.toList_ofList, if_neg (digitsOf_ne_nil _ _),
    foldl_pushDigit (by omega) hgreatest (hvalue.trans_le hz), hvalue, signed_natAbs]

/-! ## Main result -/

theorem isInt_signed (h : x.IsInt z) (negative : Bool) :
    (signed negative x).IsInt (if negative then -z else z) := by
  cases negative
  · exact h
  · exact h.neg

/-- **An integer is read by the value of its digits.** Every text has parts for every argument that
is not refused; it is no number if there are no digits, and their value with the sign otherwise,
exactly. For an argument that is refused no text is a number. What is printed in a radix, in either
case, is read back in front of a tail that does not go on with a digit or a mark. -/
theorem integers_are_read (argument : Option Double) :
    (∀ text : String, ¬ Refused argument →
      ∃ negative r ds, Spells argument negative r ds text.toList) ∧
    (∀ (text : String) (negative : Bool) (r : ℕ) (ds : List ℕ),
      Spells argument negative r ds text.toList →
        (ds = [] → parseInt text argument = .nan) ∧
        (ds ≠ [] → positional r ds ≤ 2 ^ 53 →
          parseInt text argument = signed negative (.ofNat (positional r ds)) ∧
          (parseInt text argument).IsInt
            (if negative then -(positional r ds : ℤ) else positional r ds))) ∧
    (∀ text : String, Refused argument → parseInt text argument = .nan) ∧
    (∀ (r : ℕ) (z : ℤ) (cs rest : List Char), 2 ≤ r → r ≤ 36 →
      argument.bind truncate? = some (r : ℤ) → z.natAbs ≤ 2 ^ 53 → Prints r z cs →
      (∀ c ∈ rest.head?, (∀ d, ¬ Stands r d c) ∧ c ≠ 'x' ∧ c ≠ 'X') →
      parseInt (String.ofList (cs ++ rest)) argument = .ofInt z) := by
  refine ⟨fun text h => exists_spells h _, fun text negative r ds h => ⟨fun hnil => ?_,
    fun hne hsmall => ?_⟩, fun text h => parseInt_of_refused h,
    fun r z cs rest hleast hgreatest hasked hz hprints hrest =>
      parseInt_of_prints (.radix hleast hgreatest hasked) hz hprints hrest⟩
  · rw [parseInt_of_spells h rfl, if_pos hnil]
  · obtain ⟨hleast, hgreatest⟩ := h.bounds
    have hread : parseInt text argument = signed negative (.ofNat (positional r ds)) := by
      rw [parseInt_of_spells h rfl, if_neg hne, foldl_pushDigit (by omega) hgreatest hsmall]
    rw [hread]
    exact ⟨rfl, isInt_signed (isInt_ofNat_of_le hsmall) negative⟩

/-- Hexadecimal digits behind a mark, an argument that is no radix, and a number that is printed. -/
theorem hexadecimal_integers_are_read :
    (parseInt " -0x1Fz" none).IsInt (-31) ∧
      parseInt "12" (some 40) = .nan ∧
      parseInt (String.ofList ("-fF".toList ++ "g".toList)) (some 16) = .ofInt (-255) := by
  have hdigits : ∀ run ds, run.mapM (digitIn? 16) = some ds → Numeral 16 ds run :=
    fun _ _ => (mapM_digitIn?_eq_some_iff (by decide)).1
  have hstop : ∀ c, digitIn? 16 c = none → ∀ d, ¬ Stands 16 d c :=
    fun _ => (not_stands_iff (by decide)).2
  have hmarked : Marked none ['0', 'x'] 16 (['1', 'F'] ++ ['z']) :=
    .taken (.inl (.inl rfl)) (.inl rfl)
  have hspells : Spells none true 16 [1, 15]
      ([' '] ++ (['-'] ++ (['0', 'x'] ++ (['1', 'F'] ++ ['z'])))) :=
    .mk (List.forall_mem_singleton.2 (by decide)) (by rintro _ ⟨⟩; decide) .minus (by simp) hmarked
      (hdigits _ _ (by decide)) (by rintro _ ⟨⟩; exact hstop 'z' (by decide))
  have hrefused : Refused (some 40) :=
    ⟨40, (isInt_ofNat_of_le (n := 40) (by norm_num)).truncate?, by decide, by decide⟩
  have hsixteen : (some 16 : Option Double).bind truncate? = some 16 :=
    (isInt_ofNat_of_le (n := 16) (by norm_num)).truncate?
  have hprints : Prints 16 (-255) "-fF".toList :=
    .minus (by decide) (by
      have htwo : digitsOf 16 255 = [15, 15] := by norm_num [digitsOf]
      exact htwo ▸ hdigits ['f', 'F'] [15, 15] (by decide))
  have hread := (integers_are_read none).2.1 " -0x1Fz" true 16 [1, 15] hspells
  refine ⟨(hread.2 (by decide) (by decide)).2, (integers_are_read _).2.2.1 _ hrefused, ?_⟩
  refine (integers_are_read _).2.2.2 16 (-255) _ _ (by decide) (by decide) hsixteen (by decide)
    hprints ?_
  rintro _ ⟨⟩
  exact ⟨hstop 'g' (by decide), by decide, by decide⟩

end GuestBridge.Conversion
