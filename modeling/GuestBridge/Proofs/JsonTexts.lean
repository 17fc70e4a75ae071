import GuestBridge.Json
import GuestBridge.Proofs.Literals

/-!
# JSON texts

A value without floating-point numbers has a compact text. What is written is read back, whatever
ends the value behind it.

* `Json.render?`: **the compact text** of a value.
* `Json.readString?_quote`: a string is read back, escapes and all.
* `Json.readNumber?_digits`: so is a whole number.
* `Json.readValue?_render?`: so is a value. The text bounds how many values there are.
* `Json.read?_of_text?`: **what is written is read back** as a whole text.
-/

namespace GuestBridge.Json

variable {c : Char} {cs rest : List Char} {ps : List Piece} {n depth fuel : ℕ} {j : Json}
  {items : List Json} {fields : List (String × Json)}

/-! ## Writing -/

/-- A character in a string. -/
def escape : Char → List Char
  | '"' => ['\\', '"']
  | '\\' => ['\\', '\\']
  | '\x08' => ['\\', 'b']
  | '\x0c' => ['\\', 'f']
  | '\n' => ['\\', 'n']
  | '\r' => ['\\', 'r']
  | '\t' => ['\\', 't']
  | c =>
    if c.toNat < 0x20 then ['\\', 'u', '0', '0', (c.toNat / 16).digitChar, (c.toNat % 16).digitChar]
    else [c]

/-- A string between its quotes. -/
def quote (s : String) : List Char := '"' :: (s.toList.flatMap escape ++ ['"'])

mutual

/-- The compact text of a value; none for a floating-point number, a whole number past 64 bits, and
nesting deeper than `depth`. -/
def render? : ℕ → Json → Option (List Char)
  | _, null => some "null".toList
  | _, bool b => some (if b then "true".toList else "false".toList)
  | _, natural n => if n < wordSize then some (Nat.toDigits 10 n) else none
  | _, negative z =>
    if z < 0 ∧ z.natAbs ≤ wordSize / 2 then some ('-' :: Nat.toDigits 10 z.natAbs) else none
  | _, real _ => none
  | _, string s => some (quote s)
  | 0, array _ => none
  | _ + 1, array [] => some ['[', ']']
  | depth + 1, array (item :: items) => do
    return '[' :: ((← render? depth item) ++ (← renderItems? depth items))
  | 0, object _ => none
  | _ + 1, object [] => some ['\x7b', '\x7d']
  | depth + 1, object ((key, value) :: fields) => do
    return '\x7b' :: (quote key ++
      ':' :: ((← render? depth value) ++ (← renderFields? depth fields)))

/-- The text of further items, with the closing bracket. -/
def renderItems? : ℕ → List Json → Option (List Char)
  | _, [] => some [']']
  | depth, item :: items => do
    return ',' :: ((← render? depth item) ++ (← renderItems? depth items))

/-- The text of further fields, with the closing brace. -/
def renderFields? : ℕ → List (String × Json) → Option (List Char)
  | _, [] => some ['\x7d']
  | depth, (key, value) :: fields => do
    return ',' :: (quote key ++ ':' :: ((← render? depth value) ++ (← renderFields? depth fields)))

end

/-- The compact text of a value, nested no deeper than what can be read. -/
def text? (j : Json) : Option String := (render? depthLimit j).map String.ofList

/-- A text that is put together from two has both. -/
theorem exists_of_texts {x y : Option (List Char)} {f : List Char → List Char → List Char}
    (h : (do return f (← x) (← y)) = some cs) :
    ∃ vs ds, x = some vs ∧ y = some ds ∧ f vs ds = cs := by
  obtain ⟨vs, hx, h⟩ := Option.bind_eq_some_iff.1 h
  obtain ⟨ds, hy, h⟩ := Option.bind_eq_some_iff.1 h
  exact ⟨vs, ds, hx, hy, Option.some.inj h⟩

/-! ## Strings -/

/-- A character below the space, with its number written out. -/
theorem escape_cases (c : Char) :
    (∃ e, escape c = ['\\', e] ∧ e ≠ 'u' ∧ shortEscape? e = some c) ∨
    (c.toNat < 0x20 ∧
      escape c = ['\\', 'u', '0', '0', (c.toNat / 16).digitChar, (c.toNat % 16).digitChar]) ∨
    (¬ c.toNat < 0x20 ∧ c ≠ '"' ∧ c ≠ '\\' ∧ escape c = [c]) := by
  unfold escape
  split
  iterate 7 exact .inl ⟨_, rfl, by decide, by decide⟩
  · next hquote hback _ _ _ _ _ =>
    split
    · next hc => exact .inr (.inl ⟨hc, rfl⟩)
    · next hc => exact .inr (.inr ⟨hc, hquote, hback, rfl⟩)

theorem hex4?_of_lt : ∀ n < 0x20, hex4? '0' '0' (n / 16).digitChar (n % 16).digitChar = some n := by
  decide

theorem digitChar_plain : ∀ n < 0x10, n.digitChar ≠ '"' ∧ n.digitChar ≠ '\\' := by decide

theorem splitString_cons (hquote : c ≠ '"') (hback : c ≠ '\\') (cs : List Char) :
    splitString (c :: cs) = (splitString cs).map fun p => (c :: p.1, p.2) := by
  rw [splitString.eq_def]
  split
  · next h => cases h
  · next h => exact absurd (List.cons.inj h).1 hquote
  · next h => exact absurd (List.cons.inj h).1 hback
  · next h => cases h; rfl

/-- A character does not end a string. -/
theorem splitString_escape (c : Char) (cs : List Char) :
    splitString (escape c ++ cs) = (splitString cs).map fun p => (escape c ++ p.1, p.2) := by
  -- the ways to write a character: two letters, six, or as it is
  rcases escape_cases c with ⟨e, he, -⟩ | ⟨hc, he⟩ | ⟨-, hquote, hback, he⟩
  · rw [he]
    rfl
  · obtain ⟨hhigh, hhigh'⟩ := digitChar_plain (c.toNat / 16) (by omega)
    obtain ⟨hlow, hlow'⟩ := digitChar_plain (c.toNat % 16) (by omega)
    have hzero : ('0' : Char) ≠ '"' ∧ ('0' : Char) ≠ '\\' := by decide
    rw [he]
    simp only [List.cons_append, List.nil_append]
    rw [splitString, splitString_cons hzero.1 hzero.2, splitString_cons hzero.1 hzero.2,
      splitString_cons hhigh hhigh', splitString_cons hlow hlow']
    simp only [Option.map_map]
    rfl
  · rw [he]
    exact splitString_cons hquote hback cs

theorem splitString_flatMap (s rest : List Char) :
    splitString (s.flatMap escape ++ '"' :: rest) = some (s.flatMap escape, rest) := by
  induction s with
  | nil => rfl
  | cons c s ih =>
    rw [List.flatMap_cons, List.append_assoc, splitString_escape, ih]
    rfl

theorem pieces?_cons (hc : ¬ c.toNat < 0x20) (hback : c ≠ '\\') (cs : List Char) :
    pieces? (c :: cs) = (pieces? cs).map (.char c :: ·) := by
  rw [pieces?.eq_def]
  split
  · next h => cases h
  · next h => exact absurd (List.cons.inj h).1 hback
  · next h => exact absurd (List.cons.inj h).1 hback
  · next h =>
    cases h
    rw [if_neg (not_or.2 ⟨hc, hback⟩)]

theorem pieces?_short {e : Char} (hu : e ≠ 'u') (he : shortEscape? e = some c) (cs : List Char) :
    pieces? ('\\' :: e :: cs) = (pieces? cs).map (.char c :: ·) := by
  rw [pieces?.eq_def]
  split
  · next h => cases h
  · next h => exact absurd (List.cons.inj (List.cons.inj h).2).1 hu
  · next h =>
    cases h
    rw [he]
    cases pieces? cs <;> rfl
  · next hne heq =>
    cases heq
    exact (hne _ _ rfl rfl).elim

/-- A number that is no half of a pair stands for its character. -/
theorem joinPieces?_unit (hn : n < 0xD800) (ps : List Piece) :
    joinPieces? (.unit n :: ps) = (joinPieces? ps).map (Char.ofNat n :: ·) := by
  have hlow : ¬ (0xD800 ≤ n ∧ n < 0xDC00) := by omega
  have hhigh : ¬ (0xDC00 ≤ n ∧ n < 0xE000) := by omega
  have hnone : ¬ (0xD800 ≤ n ∧ n < 0xE000) := by omega
  cases ps with
  | nil => simp only [joinPieces?, if_neg hnone]
  | cons p ps =>
    cases p with
    | char c => simp only [joinPieces?, if_neg hnone]
    | unit m => simp only [joinPieces?, if_neg hlow, if_neg hhigh]

/-- A character is one piece: itself, or its number if it is written out. -/
theorem exists_piece (c : Char) : ∃ p,
    (∀ cs, pieces? (escape c ++ cs) = (pieces? cs).map (p :: ·)) ∧
    ∀ ps, joinPieces? (p :: ps) = (joinPieces? ps).map (c :: ·) := by
  rcases escape_cases c with ⟨e, he, hu, hshort⟩ | ⟨hc, he⟩ | ⟨hc, -, hback, he⟩
  · refine ⟨.char c, fun cs => ?_, fun ps => rfl⟩
    rw [he]
    exact pieces?_short hu hshort cs
  · refine ⟨.unit c.toNat, fun cs => ?_, fun ps => ?_⟩
    · rw [he]
      simp only [List.cons_append, List.nil_append]
      rw [pieces?, hex4?_of_lt c.toNat hc]
      cases pieces? cs <;> rfl
    · rw [joinPieces?_unit (by omega), Char.ofNat_toNat]
  · refine ⟨.char c, fun cs => ?_, fun ps => rfl⟩
    rw [he]
    exact pieces?_cons hc hback cs

/-- A string is the characters of its pieces. -/
theorem exists_pieces (s : List Char) :
    ∃ ps, pieces? (s.flatMap escape) = some ps ∧ joinPieces? ps = some s := by
  induction s with
  | nil => exact ⟨[], rfl, rfl⟩
  | cons c s ih =>
    obtain ⟨ps, hpieces, hjoin⟩ := ih
    obtain ⟨p, hpiece, hchar⟩ := exists_piece c
    refine ⟨p :: ps, ?_, ?_⟩
    · rw [List.flatMap_cons, hpiece, hpieces]
      rfl
    · rw [hchar, hjoin]
      rfl

/-- **A string is read back.** -/
theorem readString?_quote (s : String) (rest : List Char) :
    readString? (s.toList.flatMap escape ++ '"' :: rest) = some (s, rest) := by
  obtain ⟨ps, hpieces, hjoin⟩ := exists_pieces s.toList
  unfold readString?
  rw [splitString_flatMap]
  simp only [Option.bind_eq_bind, Option.bind_some, hpieces, hjoin, String.ofList_toList]
  rfl

/-! ## Numbers -/

/-- What can stand behind a value in a text. -/
def Ends (rest : List Char) : Prop := ∀ c ∈ rest.head?, c = ',' ∨ c = ']' ∨ c = '\x7d'

theorem ofDigits_toDigits (n : ℕ) : Decimal.ofDigits (Nat.toDigits 10 n) = n :=
  Nat.ofDigitChars_ten_toDigits

/-- Only zero begins with a zero. -/
theorem eq_zero_of_head_toDigits (h : (Nat.toDigits 10 n).head? = some '0') : n = 0 := by
  induction n using Nat.strongRecOn with
  | ind n ih =>
    rw [Nat.toDigits_eq_if (by decide)] at h
    split at h
    · next hlt =>
      have hzero : ∀ d < 10, d.digitChar = '0' → d = 0 := by decide
      exact hzero n hlt (Option.some.inj h)
    · next hge =>
      have hne : Nat.toDigits 10 (n / 10) ≠ [] := Nat.toDigits_ne_nil
      rw [List.head?_append_of_ne_nil _ hne] at h
      have hquotient := ih (n / 10) (by omega) h
      omega

/-- No character that can stand behind a value belongs to a number. -/
theorem Ends.plain (h : Ends rest) {c : Char} (hc : c ∈ rest.head?) :
    c.isDigit = false ∧ c ≠ '.' ∧ ¬ (c = 'e' ∨ c = 'E') := by
  rcases h c hc with rfl | rfl | rfl <;> decide

theorem splitDigits_toDigits (h : Ends rest) (n : ℕ) :
    Decimal.splitDigits (Nat.toDigits 10 n ++ rest) = (Nat.toDigits 10 n, rest) :=
  Decimal.splitDigits_of_digits
    (fun _ hc => Nat.isDigit_of_mem_toDigits (by decide) (by decide) hc)
    fun _ hc => (h.plain hc).1

theorem splitFraction_of_ends (h : Ends rest) : Decimal.splitFraction rest = ([], rest) :=
  Decimal.splitFraction_append .none fun _ hc => ⟨(h.plain hc).1, (h.plain hc).2.1⟩

theorem readExponent?_of_ends (h : Ends rest) : readExponent? rest = some ((false, []), rest) := by
  cases rest with
  | nil => rfl
  | cons c rest => rw [readExponent?, if_neg (h.plain rfl).2.2]

/-- The digits of a number are what may stand in front of a point. -/
theorem whole_toDigits (n : ℕ) : Nat.toDigits 10 n ≠ [] ∧
    ((Nat.toDigits 10 n).head? = some '0' → (Nat.toDigits 10 n).length = 1) := by
  refine ⟨Nat.toDigits_ne_nil, fun h => ?_⟩
  rw [eq_zero_of_head_toDigits h]
  rfl

/-- A number begins with a digit. -/
theorem exists_toDigits_eq_cons (n : ℕ) :
    ∃ d ds, Nat.toDigits 10 n = d :: ds ∧ d.isDigit = true := by
  cases h : Nat.toDigits 10 n with
  | nil => exact absurd h Nat.toDigits_ne_nil
  | cons d ds =>
    have hd : d ∈ Nat.toDigits 10 n := h ▸ List.mem_cons_self
    exact ⟨d, ds, rfl, Nat.isDigit_of_mem_toDigits (by decide) (by decide) hd⟩

/-- **A whole number is settled by its sign and its digits.** -/
theorem readNumber?_digits (minus : Bool) (n : ℕ) (h : Ends rest) :
    readNumber? ((if minus then ['-'] else []) ++ (Nat.toDigits 10 n ++ rest)) =
      if ¬ minus ∧ n < wordSize then some (natural n, rest)
      else if minus ∧ n ≠ 0 ∧ n ≤ wordSize / 2 then some (negative (-n), rest)
      else (realOf? minus (Nat.toDigits 10 n) [] false 0).map fun x => (real x, rest) := by
  have hpoint : rest.head? ≠ some '.' := fun hc => (h.plain hc).2.1 rfl
  unfold readNumber?
  split
  next minus' cs heq =>
  obtain ⟨rfl, rfl⟩ : minus' = minus ∧ cs = Nat.toDigits 10 n ++ rest := by
    cases minus with
    | true => exact ⟨(congrArg Prod.fst heq).symm, (congrArg Prod.snd heq).symm⟩
    | false =>
      split at heq
      · next hminus =>
        -- a digit is no sign
        obtain ⟨d, ds, hds, hd⟩ := exists_toDigits_eq_cons n
        rw [hds] at hminus
        cases hminus
        exact absurd hd (by decide)
      · cases heq
        exact ⟨rfl, rfl⟩
  rw [splitDigits_toDigits h]
  dsimp only
  rw [guard, if_pos (whole_toDigits n), splitFraction_of_ends h]
  dsimp only
  rw [guard, if_pos (fun hc => absurd hc hpoint), readExponent?_of_ends h, ofDigits_toDigits]
  -- there is no fraction, and no exponent
  simp only [Option.pure_def, Option.bind_eq_bind, Option.bind_some, and_self, if_true]
  rw [Option.map_eq_bind]
  rfl

/-- A number below zero is read back. -/
theorem readNumber?_negative (hn : n ≠ 0) (hle : n ≤ wordSize / 2) (h : Ends rest) :
    readNumber? ('-' :: (Nat.toDigits 10 n ++ rest)) = some (negative (-n), rest) := by
  refine (readNumber?_digits true n h).trans ?_
  rw [if_neg (by simp), if_pos ⟨rfl, hn, hle⟩]

/-- **A whole number is read back.** -/
theorem readNumber?_natural (hn : n < wordSize) (h : Ends rest) :
    readNumber? (Nat.toDigits 10 n ++ rest) = some (natural n, rest) := by
  refine (readNumber?_digits false n h).trans ?_
  rw [if_pos ⟨by decide, hn⟩]

/-! ## Values -/

theorem skipSpace_cons (hc : isSpace c = false) (cs : List Char) : skipSpace (c :: cs) = c :: cs :=
  List.dropWhile_cons_of_neg (Bool.eq_false_iff.1 hc)

/-- A digit is not passed over. -/
theorem isSpace_of_isDigit (h : c.isDigit = true) : isSpace c = false := by
  rw [Bool.eq_false_iff]
  intro hspace
  simp only [isSpace, Bool.or_eq_true, beq_iff_eq] at hspace
  rcases hspace with ((rfl | rfl) | rfl) | rfl <;> exact absurd h (by decide)

/-- What begins like a number is read as one. -/
theorem readValue?_number (hc : c.isDigit = true ∨ c = '-') (fuel depth : ℕ) (cs : List Char) :
    readValue? (fuel + 1) depth (c :: cs) = readNumber? (c :: cs) := by
  have hspace : isSpace c = false := by
    rcases hc with hc | rfl
    · exact isSpace_of_isDigit hc
    · decide
  rw [readValue?, skipSpace_cons hspace]
  split
  iterate 6
    next heq =>
      cases heq
      exact absurd hc (by decide)
  rfl

theorem readValue?_quote (s : String) (fuel depth : ℕ) (rest : List Char) :
    readValue? (fuel + 1) depth (quote s ++ rest) = some (string s, rest) := by
  rw [quote, List.cons_append, List.append_assoc, readValue?, skipSpace_cons (by decide)]
  show (readString? (s.toList.flatMap escape ++ '"' :: rest)).map _ = _
  rw [readString?_quote]
  rfl

/-- The text of a value begins with a character that neither is passed over nor closes an array. -/
theorem exists_render?_eq_cons (h : render? depth j = some cs) :
    ∃ c ds, cs = c :: ds ∧ isSpace c = false ∧ c ≠ ']' := by
  cases j with
  | null =>
    cases h
    exact ⟨_, _, rfl, by decide, by decide⟩
  | bool b =>
    cases h
    cases b <;> exact ⟨_, _, rfl, by decide, by decide⟩
  | natural n =>
    rw [render?, Option.ite_none_right_eq_some] at h
    obtain ⟨d, ds, hds, hd⟩ := exists_toDigits_eq_cons n
    obtain rfl := Option.some.inj h.2
    refine ⟨d, ds, hds, isSpace_of_isDigit hd, ?_⟩
    rintro rfl
    exact absurd hd (by decide)
  | negative z =>
    rw [render?, Option.ite_none_right_eq_some] at h
    obtain rfl := Option.some.inj h.2
    exact ⟨_, _, rfl, by decide, by decide⟩
  | real x => cases h
  | string s =>
    cases h
    exact ⟨_, _, rfl, by decide, by decide⟩
  | array items =>
    match depth, items, h with
    | _ + 1, [], h =>
      cases h
      exact ⟨_, _, rfl, by decide, by decide⟩
    | _ + 1, item :: items, h =>
      rw [render?] at h
      obtain ⟨_, _, -, -, rfl⟩ := exists_of_texts h
      exact ⟨_, _, rfl, by decide, by decide⟩
  | object fields =>
    match depth, fields, h with
    | _ + 1, [], h =>
      cases h
      exact ⟨_, _, rfl, by decide, by decide⟩
    | _ + 1, (key, value) :: fields, h =>
      rw [render?] at h
      obtain ⟨_, _, -, -, rfl⟩ := exists_of_texts h
      exact ⟨_, _, rfl, by decide, by decide⟩

theorem readValue?_array (hc : isSpace c = false) (hclose : c ≠ ']') (fuel depth : ℕ)
    (cs : List Char) : readValue? (fuel + 1) (depth + 1) ('[' :: c :: cs) =
      (readItems? fuel depth (c :: cs)).map fun p => (array p.1, p.2) := by
  rw [readValue?, skipSpace_cons (by decide)]
  simp only [skipSpace_cons hc]
  split
  · next heq => exact absurd (List.cons.inj heq).1 hclose
  · rfl

theorem readValue?_object (fuel depth : ℕ) (cs : List Char) :
    readValue? (fuel + 1) (depth + 1) ('\x7b' :: '"' :: cs) =
      (readFields? fuel depth ('"' :: cs)).map fun p => (object p.1, p.2) := by
  rw [readValue?, skipSpace_cons (by decide)]
  rfl

theorem readItems?_last {item : Json} (h : readValue? fuel depth cs = some (item, ']' :: rest)) :
    readItems? (fuel + 1) depth cs = some ([item], rest) := by
  rw [readItems?, h]
  rfl

theorem readItems?_next {item : Json} {ds : List Char}
    (h : readValue? fuel depth cs = some (item, ',' :: ds)) :
    readItems? (fuel + 1) depth cs =
      (readItems? fuel depth ds).map fun p => (item :: p.1, p.2) := by
  rw [readItems?, h]
  show ((readItems? fuel depth ds).bind fun p => some (item :: p.1, p.2)) = _
  cases readItems? fuel depth ds <;> rfl

/-- A field, up to what follows its value. -/
theorem readFields?_field {key : String} {value : Json} {ds : List Char}
    (h : readValue? fuel depth cs = some (value, ds)) :
    readFields? (fuel + 1) depth (quote key ++ ':' :: cs) = match skipSpace ds with
      | ',' :: cs => (readFields? fuel depth cs).map fun p => ((key, value) :: p.1, p.2)
      | '\x7d' :: rest => some ([(key, value)], rest)
      | _ => none := by
  rw [quote, List.cons_append, List.append_assoc, readFields?, skipSpace_cons (by decide)]
  show (readString? (key.toList.flatMap escape ++ '"' :: (':' :: cs)) >>= fun p => _) = _
  rw [readString?_quote]
  show (readValue? fuel depth cs >>= fun p => _) = _
  rw [h]
  show (match skipSpace ds with
    | ',' :: cs => (readFields? fuel depth cs).bind fun p => some ((key, value) :: p.1, p.2)
    | '\x7d' :: rest => some ([(key, value)], rest)
    | _ => none) = _
  split
  · next cs _ => cases readFields? fuel depth cs <;> rfl
  · rfl
  · rfl

/-- Further items begin with what can stand behind a value. -/
theorem ends_renderItems? {ds : List Char} (h : renderItems? depth items = some ds)
    (rest : List Char) :
    0 < ds.length ∧ Ends (ds ++ rest) := by
  cases items with
  | nil =>
    cases h
    exact ⟨by decide, fun c hc => .inr (.inl (Option.some.inj hc).symm)⟩
  | cons item items =>
    rw [renderItems?] at h
    obtain ⟨_, _, -, -, rfl⟩ := exists_of_texts h
    exact ⟨Nat.zero_lt_succ _, fun c hc => .inl (Option.some.inj hc).symm⟩

theorem ends_renderFields? {ds : List Char} (h : renderFields? depth fields = some ds)
    (rest : List Char) :
    0 < ds.length ∧ Ends (ds ++ rest) := by
  cases fields with
  | nil =>
    cases h
    exact ⟨by decide, fun c hc => .inr (.inr (Option.some.inj hc).symm)⟩
  | cons field fields =>
    rw [renderFields?] at h
    obtain ⟨_, _, -, -, rfl⟩ := exists_of_texts h
    exact ⟨Nat.zero_lt_succ _, fun c hc => .inl (Option.some.inj hc).symm⟩

/-- **What is written is read back**, with so much fuel. -/
structure ReadsBack (fuel : ℕ) : Prop where
  value {depth : ℕ} {j : Json} {cs : List Char} (rest : List Char)
    (text : render? depth j = some cs) (enough : cs.length < fuel) (ends : Ends rest) :
    readValue? fuel depth (cs ++ rest) = some (j, rest)
  items {depth : ℕ} {item : Json} {items : List Json} {cs ds : List Char} (rest : List Char)
    (first : render? depth item = some cs) (others : renderItems? depth items = some ds)
    (enough : cs.length + ds.length < fuel) :
    readItems? fuel depth (cs ++ (ds ++ rest)) = some (item :: items, rest)
  fields {depth : ℕ} {value : Json} {fields : List (String × Json)} {cs ds : List Char}
    (key : String) (rest : List Char) (first : render? depth value = some cs)
    (others : renderFields? depth fields = some ds)
    (enough : cs.length + ds.length < fuel) :
    readFields? fuel depth (quote key ++ ':' :: (cs ++ (ds ++ rest))) =
      some ((key, value) :: fields, rest)

theorem ReadsBack.value_succ (ih : ReadsBack fuel) (h : render? depth j = some cs)
    (hfuel : cs.length < fuel + 1) (hrest : Ends rest) :
    readValue? (fuel + 1) depth (cs ++ rest) = some (j, rest) := by
  cases j with
  | null =>
    cases h
    rfl
  | bool b =>
    cases h
    cases b <;> rfl
  | natural n =>
    rw [render?, Option.ite_none_right_eq_some] at h
    obtain ⟨hn, h⟩ := h
    cases h
    obtain ⟨d, ds, hds, hd⟩ := exists_toDigits_eq_cons n
    have hread := readNumber?_natural hn hrest
    rw [hds] at hread ⊢
    rw [List.cons_append] at hread ⊢
    rw [readValue?_number (.inl hd), hread]
  | negative z =>
    rw [render?, Option.ite_none_right_eq_some] at h
    obtain ⟨⟨hneg, hle⟩, h⟩ := h
    cases h
    have hread := readNumber?_negative (n := z.natAbs) (by omega) hle hrest
    have hz : -(z.natAbs : ℤ) = z := by omega
    rw [List.cons_append, readValue?_number (.inr rfl), hread, hz]
  | real x => cases h
  | string s =>
    cases h
    exact readValue?_quote s fuel _ rest
  | array items =>
    match depth, items, h with
    | depth + 1, [], h =>
      cases h
      rfl
    | depth + 1, item :: items, h =>
      rw [render?] at h
      obtain ⟨vs, ds, hitem, hitems, rfl⟩ := exists_of_texts h
      rw [List.length_cons, List.length_append] at hfuel
      have hread := ih.items rest hitem hitems (by omega)
      obtain ⟨c, vs, rfl, hc, hclose⟩ := exists_render?_eq_cons hitem
      rw [List.cons_append, List.append_assoc, List.cons_append, readValue?_array hc hclose,
        ← List.cons_append, hread]
      rfl
  | object fields =>
    match depth, fields, h with
    | depth + 1, [], h =>
      cases h
      rfl
    | depth + 1, (key, value) :: fields, h =>
      rw [render?] at h
      obtain ⟨vs, ds, hvalue, hfields, rfl⟩ := exists_of_texts h
      simp only [List.length_cons, List.length_append] at hfuel
      have hread := ih.fields key rest hvalue hfields (by omega)
      simp only [quote, List.cons_append, List.append_assoc] at hread ⊢
      rw [readValue?_object, hread]
      rfl

theorem ReadsBack.items_succ {item : Json} {ds : List Char} (ih : ReadsBack fuel)
    (hitem : render? depth item = some cs) (hitems : renderItems? depth items = some ds)
    (hfuel : cs.length + ds.length < fuel + 1) :
    readItems? (fuel + 1) depth (cs ++ (ds ++ rest)) = some (item :: items, rest) := by
  obtain ⟨hpos, hends⟩ := ends_renderItems? hitems rest
  have hread := ih.value _ hitem (by omega) hends
  -- what follows the item is the bracket, or a comma and the next item
  cases items with
  | nil =>
    cases hitems
    exact readItems?_last hread
  | cons next items =>
    rw [renderItems?] at hitems
    obtain ⟨vs, ds, hnext, hitems', rfl⟩ := exists_of_texts hitems
    rw [List.length_cons, List.length_append] at hfuel
    rw [List.cons_append, List.append_assoc] at hread ⊢
    rw [readItems?_next hread, ih.items rest hnext hitems' (by omega)]
    rfl

theorem ReadsBack.fields_succ {key : String} {value : Json} {ds : List Char} (ih : ReadsBack fuel)
    (hvalue : render? depth value = some cs) (hfields : renderFields? depth fields = some ds)
    (hfuel : cs.length + ds.length < fuel + 1) :
    readFields? (fuel + 1) depth (quote key ++ ':' :: (cs ++ (ds ++ rest))) =
      some ((key, value) :: fields, rest) := by
  obtain ⟨hpos, hends⟩ := ends_renderFields? hfields rest
  rw [readFields?_field (ih.value _ hvalue (by omega) hends)]
  cases fields with
  | nil =>
    cases hfields
    rfl
  | cons field fields =>
    obtain ⟨key', value'⟩ := field
    rw [renderFields?] at hfields
    obtain ⟨vs, ds, hnext, hfields', rfl⟩ := exists_of_texts hfields
    simp only [List.length_cons, List.length_append] at hfuel
    have hmore := ih.fields key' rest hnext hfields' (by omega)
    simp only [List.cons_append, List.append_assoc]
    rw [skipSpace_cons (by decide)]
    show (readFields? fuel depth _).map _ = _
    rw [hmore]
    rfl

/-- **What is written is read back**, if the text is shorter than the fuel. -/
theorem readsBack (fuel : ℕ) : ReadsBack fuel := by
  induction fuel with
  | zero =>
    exact ⟨fun _ _ h _ => absurd h (Nat.not_lt_zero _),
      fun _ _ _ h => absurd h (Nat.not_lt_zero _), fun _ _ _ _ h => absurd h (Nat.not_lt_zero _)⟩
  | succ fuel ih =>
    exact ⟨fun _ => ih.value_succ, fun _ => ih.items_succ, fun _ _ => ih.fields_succ⟩

/-- **What is written is read back** as a whole text. -/
theorem read?_of_text? {text : String} (h : text? j = some text) : read? text = some j := by
  obtain ⟨cs, hcs, rfl⟩ := Option.map_eq_some_iff.1 h
  have hread := (readsBack (2 * cs.length + 1)).value [] hcs (by omega)
    fun c hc => nomatch hc
  rw [List.append_nil] at hread
  unfold read?
  rw [String.toList_ofList]
  dsimp only
  rw [hread]
  rfl

/-! ## Values with a text -/

theorem isSome_renderItems? (h : ∀ item ∈ items, (render? depth item).isSome) :
    (renderItems? depth items).isSome := by
  induction items with
  | nil => rfl
  | cons item items ih =>
    obtain ⟨cs, hcs⟩ := Option.isSome_iff_exists.1 (h item List.mem_cons_self)
    obtain ⟨ds, hds⟩ := Option.isSome_iff_exists.1 (ih fun i hi => h i (List.mem_cons_of_mem _ hi))
    rw [renderItems?, hcs, hds]
    rfl

theorem isSome_renderFields? (h : ∀ f ∈ fields, (render? depth f.2).isSome) :
    (renderFields? depth fields).isSome := by
  induction fields with
  | nil => rfl
  | cons field fields ih =>
    obtain ⟨cs, hcs⟩ := Option.isSome_iff_exists.1 (h field List.mem_cons_self)
    obtain ⟨ds, hds⟩ := Option.isSome_iff_exists.1 (ih fun f hf => h f (List.mem_cons_of_mem _ hf))
    rw [renderFields?, hcs, hds]
    rfl

/-- An array has a text if its items have. -/
theorem isSome_render?_array (depth : ℕ) (h : ∀ item ∈ items, (render? depth item).isSome) :
    (render? (depth + 1) (array items)).isSome := by
  cases items with
  | nil => rfl
  | cons item items =>
    obtain ⟨cs, hcs⟩ := Option.isSome_iff_exists.1 (h item List.mem_cons_self)
    obtain ⟨ds, hds⟩ := Option.isSome_iff_exists.1
      (isSome_renderItems? fun i hi => h i (List.mem_cons_of_mem _ hi))
    rw [render?, hcs, hds]
    rfl

/-- An object has a text if its values have. -/
theorem isSome_render?_object (depth : ℕ) (h : ∀ f ∈ fields, (render? depth f.2).isSome) :
    (render? (depth + 1) (object fields)).isSome := by
  cases fields with
  | nil => rfl
  | cons field fields =>
    obtain ⟨cs, hcs⟩ := Option.isSome_iff_exists.1 (h field List.mem_cons_self)
    obtain ⟨ds, hds⟩ := Option.isSome_iff_exists.1
      (isSome_renderFields? fun f hf => h f (List.mem_cons_of_mem _ hf))
    rw [render?, hcs, hds]
    rfl

/-- An escaped newline, a number below zero, and an empty array. -/
example : (text? (.object [("a\n", .negative (-7)), ("b", .array [])])) =
    some "\x7b\"a\\n\":-7,\"b\":[]\x7d" := by
  decide

end GuestBridge.Json
