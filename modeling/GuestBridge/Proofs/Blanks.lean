import Mathlib.Data.List.TakeWhile
import GuestBridge.Host.Conversion

/-!
# Texts between blanks

* `Text.trimStart_append`: blanks in front are cut off, up to a character that is none.
* `Text.exists_trim`: what is cut off at the end are blanks.
-/

namespace GuestBridge.Text

variable {cs blanks rest : List Char} {c : Char}

/-- The text does not begin with a blank. -/
def NoBlank (cs : List Char) : Prop := ∀ c ∈ cs.head?, isBlank c = false

/-- **Blanks in front are cut off.** -/
theorem trimStart_append (hblanks : ∀ c ∈ blanks, isBlank c = true) (hrest : NoBlank rest) :
    trimStart (blanks ++ rest) = rest := by
  rw [trimStart, List.dropWhile_append_of_pos hblanks]
  cases rest with
  | nil => rfl
  | cons c rest => exact List.dropWhile_cons_of_neg (Bool.eq_false_iff.1 (hrest c rfl))

theorem trimStart_of_noBlank (h : NoBlank cs) : trimStart cs = cs :=
  trimStart_append (List.forall_mem_nil _) h

theorem noBlank_trimStart (cs : List Char) : NoBlank (trimStart cs) := by
  intro c hc
  induction cs with
  | nil => cases hc
  | cons a cs ih =>
    cases ha : isBlank a with
    | true =>
      rw [trimStart, List.dropWhile_cons_of_pos ha] at hc
      exact ih hc
    | false =>
      rw [trimStart, List.dropWhile_cons_of_neg (by rw [ha]; exact Bool.false_ne_true)] at hc
      exact Option.some.inj hc ▸ ha

/-- Every text begins with blanks or none. -/
theorem exists_blanks (cs : List Char) :
    ∃ blanks rest, cs = blanks ++ rest ∧ (∀ c ∈ blanks, isBlank c = true) ∧ NoBlank rest := by
  refine ⟨cs.takeWhile isBlank, trimStart cs, List.takeWhile_append_dropWhile.symm, fun c hc => ?_,
    noBlank_trimStart cs⟩
  exact List.mem_takeWhile_imp hc

/-- **What is cut off at the end are blanks.** -/
theorem exists_trim (cs : List Char) :
    ∃ blanks, trimStart cs = trim cs ++ blanks ∧ ∀ c ∈ blanks, isBlank c = true := by
  refine ⟨((trimStart cs).reverse.takeWhile isBlank).reverse, ?_, fun c hc => ?_⟩
  · rw [trim, trimStart.eq_def (trimStart cs).reverse, ← List.reverse_append,
      List.takeWhile_append_dropWhile, List.reverse_reverse]
  · exact List.mem_takeWhile_imp (List.mem_reverse.1 hc)

theorem noBlank_trim (cs : List Char) : NoBlank (trim cs) := by
  obtain ⟨blanks, hblanks, -⟩ := exists_trim cs
  have hstart := noBlank_trimStart cs
  intro c hc
  refine hstart c ?_
  rw [hblanks]
  cases htrim : trim cs with
  | nil => rw [htrim] at hc; cases hc
  | cons a rest => rw [htrim] at hc; exact hc

end GuestBridge.Text
