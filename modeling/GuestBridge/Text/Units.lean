/-!
# Texts as UTF-16 code units

A guest keeps texts as sequences of 16-bit units. Characters past the basic plane
become a pair of surrogates. Reading units back joins such pairs and puts the
replacement character for a surrogate that stands alone.

* `decode_encode`: a text written as units reads back.
-/

namespace GuestBridge.Text

/-- The character that stands for a surrogate without its partner. -/
def replacement : Char := '\uFFFD'

/-- Whether a unit is the first half of a pair. -/
def isLeading (u : UInt16) : Bool := 0xD800 ≤ u.toNat && u.toNat < 0xDC00

/-- Whether a unit is the second half of a pair. -/
def isTrailing (u : UInt16) : Bool := 0xDC00 ≤ u.toNat && u.toNat < 0xE000

/-- The units of one character. -/
def unitsOfChar (c : Char) : List UInt16 :=
  if c.toNat < 0x10000 then [c.toNat.toUInt16]
  else
    let offset := c.toNat - 0x10000
    [(0xD800 + offset / 0x400).toUInt16, (0xDC00 + offset % 0x400).toUInt16]

/-- The units of a list of characters. -/
def unitsOf (cs : List Char) : List UInt16 := cs.flatMap unitsOfChar

/-- The character of a pair of surrogates. -/
def charOfPair (u v : UInt16) : Char :=
  Char.ofNat (0x10000 + (u.toNat - 0xD800) * 0x400 + (v.toNat - 0xDC00))

/-- The characters of a sequence of units. -/
def charsOf : List UInt16 → List Char
  | [] => []
  | u :: v :: us =>
    if isLeading u then
      if isTrailing v then charOfPair u v :: charsOf us else replacement :: charsOf (v :: us)
    else if isTrailing u then replacement :: charsOf (v :: us)
    else Char.ofNat u.toNat :: charsOf (v :: us)
  | [u] => if isLeading u || isTrailing u then [replacement] else [Char.ofNat u.toNat]

/-- The units of a text. -/
def encode (s : String) : List UInt16 := unitsOf s.toList

/-- The text of a sequence of units. -/
def decode (us : List UInt16) : String := String.ofList (charsOf us)

/-- A character is no surrogate. -/
theorem toNat_lt_or (c : Char) : c.toNat < 0xD800 ∨ (0xE000 ≤ c.toNat ∧ c.toNat < 0x110000) := by
  have h := c.valid
  rw [UInt32.isValidChar, Nat.isValidChar] at h
  unfold Char.toNat
  omega

theorem charsOf_cons_of_basic {u : UInt16} (h1 : isLeading u = false) (h2 : isTrailing u = false)
    (us : List UInt16) : charsOf (u :: us) = Char.ofNat u.toNat :: charsOf us := by
  cases us <;> simp [charsOf, h1, h2]

theorem charsOf_append_unitsOfChar (c : Char) (us : List UInt16) :
    charsOf (unitsOfChar c ++ us) = c :: charsOf us := by
  have hc := toNat_lt_or c
  unfold unitsOfChar
  split
  · next h =>
    have hn : (c.toNat.toUInt16).toNat = c.toNat :=
      UInt16.toNat_ofNat_of_lt' h
    rw [List.singleton_append, charsOf_cons_of_basic]
    · rw [hn, Char.ofNat_toNat]
    · simp [isLeading, hn]; omega
    · simp [isTrailing, hn]; omega
  · next h =>
    have hu : (0xD800 + (c.toNat - 0x10000) / 0x400).toUInt16.toNat =
        0xD800 + (c.toNat - 0x10000) / 0x400 :=
      UInt16.toNat_ofNat_of_lt' (by rw [UInt16.size]; omega)
    have hv : (0xDC00 + (c.toNat - 0x10000) % 0x400).toUInt16.toNat =
        0xDC00 + (c.toNat - 0x10000) % 0x400 :=
      UInt16.toNat_ofNat_of_lt' (by rw [UInt16.size]; omega)
    have h1 : isLeading (0xD800 + (c.toNat - 0x10000) / 0x400).toUInt16 = true := by
      simp only [isLeading, hu, Bool.and_eq_true, decide_eq_true_eq]; omega
    have h2 : isTrailing (0xDC00 + (c.toNat - 0x10000) % 0x400).toUInt16 = true := by
      simp only [isTrailing, hv, Bool.and_eq_true, decide_eq_true_eq]; omega
    have hp : charOfPair (0xD800 + (c.toNat - 0x10000) / 0x400).toUInt16
        (0xDC00 + (c.toNat - 0x10000) % 0x400).toUInt16 = c := by
      rw [charOfPair, hu, hv]
      have : 0x10000 + (0xD800 + (c.toNat - 0x10000) / 0x400 - 0xD800) * 0x400 +
          (0xDC00 + (c.toNat - 0x10000) % 0x400 - 0xDC00) = c.toNat := by omega
      rw [this, Char.ofNat_toNat]
    simp only [List.cons_append, List.nil_append, charsOf, h1, h2, hp, if_true]

theorem charsOf_unitsOf (cs : List Char) : charsOf (unitsOf cs) = cs := by
  induction cs with
  | nil => rfl
  | cons c cs ih => rw [unitsOf, List.flatMap_cons, charsOf_append_unitsOfChar]; exact congrArg _ ih

/-- **A text written as units reads back.** -/
theorem decode_encode (s : String) : decode (encode s) = s := by
  rw [decode, encode, charsOf_unitsOf, String.ofList_toList]

end GuestBridge.Text
