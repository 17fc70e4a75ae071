import GuestBridge.Proofs.Blanks
import GuestBridge.Proofs.Digits
import GuestBridge.Proofs.Literals
import GuestBridge.Proofs.Nearest

/-!
# Texts that denote numbers

A whole text denotes a number if, blanks aside, it is empty, infinity by name, a decimal literal or
a hexadecimal number. It is read so, but for two kinds of hexadecimal numbers: too large ones are no
number, and a sign after the mark is passed over. The longest prefix of a text is read as the same
literals are as whole texts.

* `Conversion.Denotes`: **what a whole text denotes.**
* `Conversion.Slips`: where the reading of a whole text slips.
* `Conversion.number_texts`: a text is read as what it denotes just where the reading does not slip.
* `Conversion.longest_prefix_is_read`: **a prefix that is read is the longest literal**, and texts
  that are read as a whole are read alike in front of other text.
-/

namespace GuestBridge.Conversion

open Binary Decimal

variable {cs run rest mark : List Char} {ds : List ℕ} {d : Decimal} {x : Double} {text : String}

/-- The names of infinity without a minus. -/
def IsInfinity (cs : List Char) : Prop := cs = "Infinity".toList ∨ cs = "+Infinity".toList

instance (cs : List Char) : Decidable (IsInfinity cs) := inferInstanceAs (Decidable (_ ∨ _))

/-- **What a whole text denotes**, blanks aside. -/
inductive Denotes : List Char → Double → Prop
  | empty : Denotes [] 0
  | infinity {cs : List Char} (name : IsInfinity cs) : Denotes cs (.infinity false)
  | minusInfinity : Denotes "-Infinity".toList (.infinity true)
  | decimal {d : Decimal} {cs : List Char} (literal : Literal d cs) :
      Denotes cs (.ofRat d.value d.negative)
  | hexadecimal {mark run : List Char} {ds : List ℕ} (marked : HexMark mark)
      (digits : Numeral 16 ds run) (nonempty : ds ≠ []) :
      Denotes (mark ++ run) (.ofNat (positional 16 ds))

/-- Where the reading of a whole text slips, and what is read there: numbers of more than sixty-four
bits are none, and a plus sign after the mark is passed over. -/
inductive Slips : List Char → Double → Prop
  | large {mark run : List Char} {ds : List ℕ} (marked : HexMark mark) (digits : Numeral 16 ds run)
      (nonempty : ds ≠ []) (large : 2 ^ 64 ≤ positional 16 ds) : Slips (mark ++ run) .nan
  | signed {mark run : List Char} {ds : List ℕ} (marked : HexMark mark) (digits : Numeral 16 ds run)
      (nonempty : ds ≠ []) (small : positional 16 ds < 2 ^ 64) :
      Slips (mark ++ '+' :: run) (.ofNat (positional 16 ds))

/-! ## What the kinds of texts look like -/

theorem Denotes.ne_nan (h : Denotes cs x) : x ≠ .nan := by
  cases h with
  | empty => decide
  | infinity => exact fun h => by cases h
  | minusInfinity => exact fun h => by cases h
  | decimal => exact ofRat_ne_nan _ _
  | hexadecimal => exact ofRat_ne_nan _ _

theorem isForeignLetter_of_isDigit {c : Char} (h : c.isDigit = true) :
    isForeignLetter c = false := by
  have table : ∀ n : Fin 128, (Char.ofNat n).isDigit = true →
      isForeignLetter (Char.ofNat n) = false := by
    decide
  have hdigit : digit? c = some (c.toNat - '0'.toNat) := if_pos h
  have hc := table ⟨c.toNat, toNat_lt_of_digit? hdigit⟩
  rw [Char.ofNat_toNat] at hc
  exact hc h

theorem isForeignLetter_of_isLiteralChar {c : Char} (h : isLiteralChar c = true) :
    isForeignLetter c = false := by
  simp only [isLiteralChar, Bool.or_eq_true, beq_iff_eq] at h
  rcases h with ((((h | rfl) | rfl) | rfl) | rfl) | rfl
  · exact isForeignLetter_of_isDigit h
  all_goals decide

/-- A literal has no mark and no letter but that of the exponent. -/
theorem literal_no_mark (h : Literal d cs) :
    afterHexMark? cs = none ∧ cs.any isForeignLetter = false := by
  have hchars := h.isLiteralChar
  refine ⟨afterHexMark?_eq_none_iff.2 ?_, List.any_eq_false.2 fun c hc => ?_⟩
  · rintro mark hmark ⟨rest, rfl⟩
    rcases hmark with rfl | rfl
    · exact absurd (hchars 'x' (by simp)) (by decide)
    · exact absurd (hchars 'X' (by simp)) (by decide)
  · rw [isForeignLetter_of_isLiteralChar (hchars c hc)]
    exact Bool.false_ne_true

/-- No literal stands in front of a text that begins with a name of infinity. -/
theorem literal_not_infinity {p : List Char} (h : Literal d p) (hp : p <+: cs) :
    ¬ "Infinity".toList <+: cs ∧ ¬ "+Infinity".toList <+: cs ∧ ¬ "-Infinity".toList <+: cs := by
  have hrun : p <+: cs.takeWhile isLiteralChar := (h.eq_take hp).2 ▸ List.take_prefix _ _
  refine ⟨?_, ?_, ?_⟩ <;> rintro ⟨rest, rfl⟩
  · exact Sign.none.not_literal h hrun
  · exact Sign.plus.not_literal h hrun
  · exact Sign.minus.not_literal h hrun

/-- What has slipped is a number just if the text denotes none. -/
theorem Slips.ne_nan_iff (h : Slips cs x) : x ≠ .nan ↔ ∀ y, ¬ Denotes cs y := by
  cases h with
  | large hmark hds hne =>
    exact ⟨fun h => absurd rfl h, fun h => absurd (Denotes.hexadecimal hmark hds hne) (h _)⟩
  | @signed mark run ds hmark hds hne hsmall =>
    refine ⟨fun _ y hy => ?_, fun _ => ofRat_ne_nan _ _⟩
    have hafter := afterHexMark?_append hmark ('+' :: run)
    -- no other way to denote a number starts with a mark, and digits are not a sign
    generalize hcs : mark ++ '+' :: run = cs at hy hafter
    cases hy with
    | empty => cases hafter
    | infinity name => rcases name with rfl | rfl <;> cases hafter
    | minusInfinity => cases hafter
    | decimal literal =>
      rw [(literal_no_mark literal).1] at hafter
      cases hafter
    | hexadecimal hmark' hds' =>
      rw [afterHexMark?_append hmark'] at hafter
      rw [Option.some.inj hafter] at hds'
      exact not_numeral_plus hds'

/-! ## Whole texts -/

section Whole

variable (htrim : Text.trim text.toList = cs)

include htrim

theorem numberOfText_of_mark (h : afterHexMark? cs = some rest) :
    numberOfText text = ((hexWord? rest).map Binary.ofNat).getD .nan := by
  have hne : cs ≠ [] := by
    rintro rfl
    cases h
  unfold numberOfText
  dsimp only
  rw [htrim, if_neg hne, h]

theorem numberOfText_of_no_mark (hne : cs ≠ []) (h : afterHexMark? cs = none) :
    numberOfText text =
      if IsInfinity cs then .infinity false
      else if cs = "-Infinity".toList then .infinity true
      else if cs.any isForeignLetter then .nan
      else ((read? cs).map toDouble).getD .nan := by
  unfold numberOfText
  dsimp only
  rw [htrim, if_neg hne, h]
  rfl

/-- A text is read as what it denotes, if the reading does not slip. -/
theorem numberOfText_of_denotes (h : Denotes cs x) (hslip : ∀ y, ¬ Slips cs y) :
    numberOfText text = x := by
  cases h with
  | empty => exact numberOfText_blank htrim
  | infinity name =>
    have hne : cs ≠ [] := by rcases name with rfl | rfl <;> decide
    have hmark : afterHexMark? cs = none := by rcases name with rfl | rfl <;> rfl
    rw [numberOfText_of_no_mark htrim hne hmark, if_pos name]
  | minusInfinity => rw [numberOfText_of_no_mark htrim (by decide) rfl]; decide
  | @decimal d _ literal =>
    obtain ⟨hmark, hletters⟩ := literal_no_mark literal
    obtain ⟨hinfinity, hplus, hminus⟩ := literal_not_infinity literal (List.prefix_refl cs)
    have hname : ¬ IsInfinity cs := by
      rintro (rfl | rfl)
      · exact hinfinity (List.prefix_refl _)
      · exact hplus (List.prefix_refl _)
    have hminus' : cs ≠ "-Infinity".toList := fun h => hminus (h ▸ List.prefix_refl _)
    rw [numberOfText_of_no_mark htrim literal.ne_nil hmark, if_neg hname, if_neg hminus', hletters,
      if_neg Bool.false_ne_true, read?_eq_some_iff.2 literal, ← toDouble_eq]
    rfl
  | @hexadecimal mark run ds hmark hds hne =>
    have hsmall : positional 16 ds < 2 ^ 64 :=
      not_le.1 fun hlarge => hslip _ (.large hmark hds hne hlarge)
    have hword := hexWord?_eq_some_iff.2 ⟨ds, run, .inl rfl, hne, hds, rfl, hsmall⟩
    rw [numberOfText_of_mark htrim (afterHexMark?_append hmark run), hword]
    rfl

/-- What is read is what the text denotes, if the reading does not slip. -/
theorem denotes_of_numberOfText (h : numberOfText text ≠ .nan) (hslip : ∀ y, ¬ Slips cs y) :
    Denotes cs (numberOfText text) := by
  rcases eq_or_ne cs [] with rfl | hne
  · rw [numberOfText_blank htrim]
    exact .empty
  · cases hafter : afterHexMark? cs with
    | some rest =>
      obtain ⟨mark, hmark, rfl⟩ := afterHexMark?_eq_some_iff.1 hafter
      rw [numberOfText_of_mark htrim hafter] at h ⊢
      cases hword : hexWord? rest with
      | none =>
        rw [hword] at h
        exact absurd rfl h
      | some n =>
        obtain ⟨ds, run, hrun, hdigits, hds, rfl, hsmall⟩ := hexWord?_eq_some_iff.1 hword
        -- a sign after the mark is one of the slips
        rcases hrun with rfl | rfl
        · exact .hexadecimal hmark hds hdigits
        · exact absurd (.signed hmark hds hdigits hsmall) (hslip _)
    | none =>
      rw [numberOfText_of_no_mark htrim hne hafter] at h ⊢
      split_ifs at h ⊢ with hname hminus hletters
      · exact .infinity hname
      · exact hminus ▸ .minusInfinity
      · exact absurd rfl h
      · cases hread : read? cs with
        | none =>
          rw [hread] at h
          exact absurd rfl h
        | some d =>
          rw [Option.map_some, Option.getD_some, toDouble_eq]
          exact .decimal (read?_eq_some_iff.1 hread)

/-- What is read where the reading slips. -/
theorem numberOfText_of_slips (h : Slips cs x) : numberOfText text = x := by
  cases h with
  | @large mark run ds hmark hds hne hlarge =>
    have hword : hexWord? run = none := by
      rw [Option.eq_none_iff_forall_ne_some]
      intro n hn
      obtain ⟨ds', run', hrun, -, hds', rfl, hsmall⟩ := hexWord?_eq_some_iff.1 hn
      rcases hrun with rfl | rfl
      · rw [hds.unique (by decide) hds'] at hlarge
        exact absurd hsmall (not_lt.2 hlarge)
      · exact not_numeral_plus hds
    rw [numberOfText_of_mark htrim (afterHexMark?_append hmark run), hword]
    rfl
  | @signed mark run ds hmark hds hne hsmall =>
    have hword := hexWord?_eq_some_iff.2 ⟨ds, run, .inr rfl, hne, hds, rfl, hsmall⟩
    rw [numberOfText_of_mark htrim (afterHexMark?_append hmark _), hword]
    rfl

end Whole

/-- **A text is read as the number that it denotes, and no other text is read**, except where the
reading slips; there it refuses a text that denotes a number, or reads one that denotes none. A
hexadecimal number that fits in a word is read as the number nearest to its value. -/
theorem number_texts (s : HostString) :
    (∀ x, Slips (Text.trim s.text.toList) x →
      toNumber (.string s) = x ∧ (x ≠ .nan ↔ ∀ y, ¬ Denotes (Text.trim s.text.toList) y)) ∧
    ((∀ x, ¬ Slips (Text.trim s.text.toList) x) →
      ∀ x, toNumber (.string s) = x ∧ x ≠ .nan ↔ Denotes (Text.trim s.text.toList) x) ∧
    (∀ mark run ds, HexMark mark → Numeral 16 ds run → ds ≠ [] → positional 16 ds < 2 ^ 64 →
      Text.trim s.text.toList = mark ++ run →
      Double.Nearest (positional 16 ds) (toNumber (.string s))) := by
  refine ⟨fun x hx => ⟨numberOfText_of_slips rfl hx, hx.ne_nan_iff⟩,
    fun hslip x => ⟨?_, fun hx => ?_⟩, fun mark run ds hmark hds hne hsmall htrim => ?_⟩
  · rintro ⟨rfl, hnan⟩
    exact denotes_of_numberOfText rfl hnan hslip
  · exact ⟨numberOfText_of_denotes rfl hx hslip, hx.ne_nan⟩
  · have hword := hexWord?_eq_some_iff.2 ⟨ds, run, .inl rfl, hne, hds, rfl, hsmall⟩
    have hread : toNumber (.string s) = Binary.ofNat (positional 16 ds) :=
      (numberOfText_of_mark htrim (afterHexMark?_append hmark run)).trans (by rw [hword]; rfl)
    rw [hread]
    refine Double.nearest_ofRat _ false ?_
    rw [Nat.abs_cast]
    calc (positional 16 ds : ℚ) ≤ 2 ^ 64 := by exact_mod_cast hsmall.le
      _ ≤ 2 ^ 1000 := pow_le_pow_right₀ one_le_two (by norm_num)

/-- The text of a number past sixty-four bits, -/
def seventeenDigits : HostString := ⟨⟨0⟩, "0x10000000000000000"⟩

/-- of one with a sign after the mark, -/
def signedDigit : HostString := ⟨⟨1⟩, "0x+1"⟩

/-- and of one that is read as it should be. -/
def twoDigits : HostString := ⟨⟨2⟩, " 0xFf "⟩

theorem seventeenDigits_slips :
    toNumber (.string seventeenDigits) = .nan ∧
      (∃ y, Denotes (Text.trim seventeenDigits.text.toList) y) ∧
      toNumber (.string signedDigit) = 1 ∧
      (∀ y, ¬ Denotes (Text.trim signedDigit.text.toList) y) ∧
      Double.Nearest 255 (toNumber (.string twoDigits)) := by
  have hdigits : ∀ run ds, run.mapM (digitIn? 16) = some ds → Numeral 16 ds run :=
    fun _ _ => (mapM_digitIn?_eq_some_iff (by decide)).1
  have hlong := hdigits "10000000000000000".toList (1 :: List.replicate 16 0) (by decide)
  have hone := hdigits ['1'] [1] (by decide)
  have hlarge : Slips (Text.trim seventeenDigits.text.toList) .nan :=
    .large (.inl rfl) hlong (by decide) (by decide)
  have hsigned : Slips (Text.trim signedDigit.text.toList) (.ofNat (positional 16 [1])) :=
    .signed (.inl rfl) hone (by decide) (by decide)
  obtain ⟨hread, hnone⟩ := (number_texts signedDigit).1 _ hsigned
  refine ⟨((number_texts seventeenDigits).1 _ hlarge).1,
    ⟨_, .hexadecimal (.inl rfl) hlong (by decide)⟩, hread, hnone.1 (ofRat_ne_nan _ _), ?_⟩
  exact (number_texts twoDigits).2.2 ['0', 'x'] ['F', 'f'] [15, 15] (.inl rfl)
    (hdigits _ _ (by decide)) (by decide) (by decide) (by decide)

/-! ## Prefixes -/

/-- The text begins with a name of infinity; whether with a minus. -/
def BeginsInfinite (negative : Bool) (cs : List Char) : Prop :=
  if negative then "-Infinity".toList <+: cs
  else "Infinity".toList <+: cs ∨ "+Infinity".toList <+: cs

section Prefix

variable (hstart : Text.trimStart text.toList = cs)

include hstart

theorem parseFloat_of_infinite {negative : Bool} (h : BeginsInfinite negative cs) :
    parseFloat text = .infinity negative := by
  unfold parseFloat
  dsimp only
  rw [hstart]
  cases negative with
  | false =>
    rw [if_pos]
    rcases h with h | h
    · rw [List.isPrefixOf_iff_prefix.2 h, Bool.true_or]
    · rw [List.isPrefixOf_iff_prefix.2 h, Bool.or_true]
  | true =>
    obtain ⟨rest, rfl⟩ : "-Infinity".toList <+: cs := h
    rfl

theorem parseFloat_of_finite (h : ∀ negative, ¬ BeginsInfinite negative cs) :
    parseFloat text = ((readLongest? cs).map toDouble).getD .nan := by
  have hplus : ("Infinity".toList.isPrefixOf cs || "+Infinity".toList.isPrefixOf cs) = false := by
    rw [Bool.or_eq_false_iff, Bool.eq_false_iff, Bool.eq_false_iff, Ne, Ne,
      List.isPrefixOf_iff_prefix, List.isPrefixOf_iff_prefix, ← not_or]
    exact h false
  have hminus : "-Infinity".toList.isPrefixOf cs = false := by
    rw [Bool.eq_false_iff, Ne, List.isPrefixOf_iff_prefix]
    exact h true
  unfold parseFloat
  dsimp only
  rw [hstart, hplus, hminus]
  rfl

/-- A prefix that is read as a whole is read alike in front of what cannot continue it. -/
theorem parseFloat_of_denotes (hcs : cs = run ++ rest) (hrun : run ≠ [])
    (hmark : afterHexMark? run = none) (h : Denotes run x)
    (hrest : ∀ c ∈ rest.head?, isLiteralChar c = false) : parseFloat text = x := by
  have hbegins : run <+: cs := hcs ▸ List.prefix_append run rest
  cases h with
  | empty => exact absurd rfl hrun
  | infinity name =>
    have hinfinite : BeginsInfinite false cs := by
      rcases name with rfl | rfl
      · exact .inl hbegins
      · exact .inr hbegins
    exact parseFloat_of_infinite hstart hinfinite
  | minusInfinity =>
    have hinfinite : BeginsInfinite true cs := hbegins
    exact parseFloat_of_infinite hstart hinfinite
  | @decimal d _ literal =>
    obtain ⟨hinfinity, hplus, hminus⟩ := literal_not_infinity literal hbegins
    -- a literal has no letter of a name in front, so the text begins with none
    have hfinite : ∀ negative, ¬ BeginsInfinite negative cs := by
      rintro (_ | _)
      · exact not_or.2 ⟨hinfinity, hplus⟩
      · exact hminus
    have hread := readLongest?_eq_some_iff.2 ⟨run, literal.longest hrest⟩
    rw [parseFloat_of_finite hstart hfinite, hcs, hread, Option.map_some, Option.getD_some,
      toDouble_eq]
  | hexadecimal marked =>
    rw [afterHexMark?_append marked] at hmark
    cases hmark

end Prefix

/-- A blank is no character of a literal. -/
theorem isLiteralChar_of_isBlank {c : Char} (h : Text.isBlank c = true) :
    isLiteralChar c = false := by
  refine Bool.eq_false_iff.2 fun hlit => ?_
  simp only [isLiteralChar, Bool.or_eq_true, beq_iff_eq] at hlit
  rcases hlit with ((((hdigit | rfl) | rfl) | rfl) | rfl) | rfl
  · simp only [Char.isDigit, ge_iff_le, UInt32.le_iff_toNat_le, Char.reduceVal, UInt32.reduceToNat,
      Bool.and_eq_true, decide_eq_true_eq] at hdigit
    simp only [Text.isBlank, Char.toNat, Bool.or_eq_true, Bool.and_eq_true, decide_eq_true_eq,
      beq_iff_eq] at h
    omega
  all_goals exact absurd h (by decide)

/-- A text that is a number as a whole, and not a hexadecimal one, denotes it. -/
theorem denotes_of_no_mark (htrim : Text.trim text.toList = cs) (hmark : afterHexMark? cs = none)
    (h : numberOfText text ≠ .nan) : Denotes cs (numberOfText text) := by
  refine denotes_of_numberOfText htrim h fun y hy => ?_
  cases hy with
  | large marked =>
    rw [afterHexMark?_append marked] at hmark
    cases hmark
  | signed marked =>
    rw [afterHexMark?_append marked] at hmark
    cases hmark

/-- **A prefix that is read is the longest literal**: after leading blanks a text is read as
infinity if it begins so, else as its longest prefix that is a literal, and as no number if no
prefix is one. So a text that is a number as a whole, and not a hexadecimal one, is read alike, and
alike also in front of any text that does not begin with a character of literals. -/
theorem longest_prefix_is_read (s : HostString) :
    (∀ negative, BeginsInfinite negative (Text.trimStart s.text.toList) →
      parseFloat s.text = .infinity negative) ∧
    ((∀ negative, ¬ BeginsInfinite negative (Text.trimStart s.text.toList)) →
      (∃ d p, Longest d p (Text.trimStart s.text.toList) ∧
        parseFloat s.text = .ofRat d.value d.negative) ∨
      ((∀ p d, p <+: Text.trimStart s.text.toList → ¬ Literal d p) ∧ parseFloat s.text = .nan)) ∧
    (Text.trim s.text.toList ≠ [] → (∀ mark, HexMark mark → ¬ mark <+: Text.trim s.text.toList) →
      toNumber (.string s) ≠ .nan →
      parseFloat s.text = toNumber (.string s) ∧
      ∀ c rest, isLiteralChar c = false →
        parseFloat (String.ofList (Text.trim s.text.toList ++ c :: rest)) =
          toNumber (.string s)) := by
  refine ⟨fun negative h => parseFloat_of_infinite rfl h, fun hfinite => ?_,
    fun hne hmark hnan => ?_⟩
  · have hread := parseFloat_of_finite rfl hfinite
    cases hlongest : readLongest? (Text.trimStart s.text.toList) with
    | none =>
      rw [hlongest] at hread
      exact .inr ⟨readLongest?_eq_none_iff.1 hlongest, hread⟩
    | some d =>
      obtain ⟨p, hp⟩ := readLongest?_eq_some_iff.1 hlongest
      rw [hlongest, Option.map_some, Option.getD_some, toDouble_eq] at hread
      exact .inl ⟨d, p, hp, hread⟩
  · have hmark' := afterHexMark?_eq_none_iff.2 hmark
    have hdenotes := denotes_of_no_mark rfl hmark' hnan
    obtain ⟨blanks, hstart, hblanks⟩ := Text.exists_trim s.text.toList
    constructor
    · refine parseFloat_of_denotes hstart rfl hne hmark' hdenotes fun c hc => ?_
      exact isLiteralChar_of_isBlank (hblanks c (List.mem_of_mem_head? hc))
    · intro c rest hc
      have hnoBlank : Text.NoBlank (Text.trim s.text.toList ++ c :: rest) := by
        have hhead := Text.noBlank_trim s.text.toList
        cases htrim : Text.trim s.text.toList with
        | nil => exact absurd htrim hne
        | cons a run =>
          rw [htrim] at hhead
          exact hhead
      have hlist : Text.trimStart (String.ofList (Text.trim s.text.toList ++ c :: rest)).toList =
          Text.trim s.text.toList ++ c :: rest := by
        rw [String.toList_ofList]
        exact Text.trimStart_of_noBlank hnoBlank
      refine parseFloat_of_denotes hlist rfl hne hmark' hdenotes fun c' hc' => ?_
      obtain rfl := Option.some.inj hc'
      exact hc

/-- A number with a mark of an exponent that has no digits. -/
def brokenExponent : HostString := ⟨⟨3⟩, " -1.5e+x"⟩

/-- The same number alone. -/
def alone : HostString := ⟨⟨4⟩, "-1.5 "⟩

/-- The mark is left over, so both texts are read as the number in front of it, and so is the number
in front of a letter. -/
theorem brokenExponent_is_read :
    (parseFloat brokenExponent.text).toRat? = some (-3 / 2) ∧
      (toNumber (.string alone)).toRat? = some (-3 / 2) ∧
      parseFloat alone.text = toNumber (.string alone) ∧
      parseFloat "-1.5px" = toNumber (.string alone) := by
  have hlongest : readLongest? (Text.trimStart brokenExponent.text.toList) =
      some ⟨true, 15, -1⟩ := by
    decide
  have hfinite : ∀ negative,
      ¬ BeginsInfinite negative (Text.trimStart brokenExponent.text.toList) := by
    unfold BeginsInfinite
    decide
  obtain ⟨hwhole, hfront⟩ := (longest_prefix_is_read alone).2.2 (by decide)
    (afterHexMark?_eq_none_iff.1 (by decide)) (by decide +kernel)
  refine ⟨?_, by decide +kernel, hwhole, hfront 'p' ['x'] (by decide)⟩
  rcases (longest_prefix_is_read brokenExponent).2.1 hfinite with ⟨d, p, hp, hread⟩ | ⟨hnone, -⟩
  · have hd := hlongest.symm.trans (readLongest?_eq_some_iff.2 ⟨p, hp⟩)
    rw [hread, ← Option.some.inj hd]
    decide +kernel
  · rw [readLongest?_eq_none_iff.2 hnone] at hlongest
    cases hlongest

end GuestBridge.Conversion
