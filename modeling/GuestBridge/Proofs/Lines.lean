import GuestBridge.CommandLine
import GuestBridge.Proofs.Marshalling

/-!
# The lines of a console

What has been written to a stream, character by character, is there to read: the delivered lines
with a newline each, and behind them what waits for its newline.

* `Wrote.units`: whatever is written, a stream keeps all of it, and no line has a newline in it.
* `Wrote.printed`: **texts that are written with a newline each are delivered as lines that spell
  the same**, and nothing waits.
-/

namespace GuestBridge

/-- The characters of texts with a newline each. -/
theorem RunReport.toList_unlines (texts : List String) :
    (RunReport.unlines texts).toList = texts.flatMap fun text => text.toList ++ ['\n'] := by
  rw [unlines, String.toList_join, List.flatMap_map]
  simp only [String.toList_append]
  rfl

namespace Console

variable {c : Console} {s s' : Stream} {u : UInt16} {us : List UInt16} {cs : List Char}

/-! ## Units -/

section Units

@[simp] theorem pending_setPending (c : Console) (s s' : Stream) (us : Array UInt16) :
    (c.setPending s us).pending s' = if s' = s then us else c.pending s' := by
  cases s <;> cases s' <;> rfl

@[simp] theorem linesOf_setPending (c : Console) (s s' : Stream) (us : Array UInt16) :
    (c.setPending s us).linesOf s' = c.linesOf s' := by
  cases s <;> rfl

@[simp] theorem pending_deliver (c : Console) (s s' : Stream) :
    (c.deliver s).pending s' = if s' = s then #[] else c.pending s' :=
  pending_setPending c s s' #[]

@[simp] theorem linesOf_deliver (c : Console) (s s' : Stream) :
    (c.deliver s).linesOf s' =
      if s' = s then c.linesOf s ++ [Text.decode (c.pending s).toList] else c.linesOf s' := by
  cases s <;> cases s' <;> simp [deliver, linesOf]

/-- Takes units one after the other. -/
def write (c : Console) (s : Stream) (us : List UInt16) : Console :=
  us.foldl (fun c u => c.put s (Int32.ofNat u.toNat)) c

theorem write_cons (c : Console) (s : Stream) (u : UInt16) (us : List UInt16) :
    c.write s (u :: us) = (c.put s (Int32.ofNat u.toNat)).write s us := rfl

theorem write_append (c : Console) (s : Stream) (us vs : List UInt16) :
    c.write s (us ++ vs) = (c.write s us).write s vs := List.foldl_append

theorem put_newline (c : Console) (s : Stream) :
    c.put s (Int32.ofNat newline.toNat) = c.deliver s := by
  rw [put, unitOfCode_ofNat, if_pos rfl]

theorem put_of_ne (hu : u ≠ newline) :
    c.put s (Int32.ofNat u.toNat) = c.setPending s ((c.pending s).push u) := by
  rw [put, unitOfCode_ofNat, if_neg hu]

/-- Units without a newline among them wait. -/
theorem write_of_notMem (hus : newline ∉ us) :
    (∀ s', (c.write s us).pending s' =
      if s' = s then c.pending s ++ us.toArray else c.pending s') ∧
      ∀ s', (c.write s us).linesOf s' = c.linesOf s' := by
  induction us generalizing c with
  | nil => simp +contextual [write]
  | cons u us ih =>
    rw [List.mem_cons, not_or] at hus
    obtain ⟨hpending, hlines⟩ := ih (c := c.put s (Int32.ofNat u.toNat)) hus.2
    rw [put_of_ne (Ne.symm hus.1)] at hpending hlines
    rw [write_cons, put_of_ne (Ne.symm hus.1)]
    refine ⟨fun s' => ?_, fun s' => by rw [hlines, linesOf_setPending]⟩
    rw [hpending, pending_setPending, pending_setPending, if_pos rfl]
    split_ifs <;> simp

end Units

/-! ## Characters -/

section Characters

open Text

theorem unitsOfChar_newline : unitsOfChar '\n' = [newline] := by decide

/-- Only the newline has the unit of one. -/
theorem newline_notMem_unitsOfChar {ch : Char} (hch : ch ≠ '\n') : newline ∉ unitsOfChar ch := by
  intro hmem
  refine hch (Char.toNat_inj.1 ?_)
  have hvalid := toNat_lt_or ch
  rw [unitsOfChar] at hmem
  split at hmem
  · next hlt =>
    have hunit := congrArg UInt16.toNat (List.mem_singleton.1 hmem)
    rw [UInt16.toNat_ofNat_of_lt' hlt] at hunit
    exact hunit.symm
  -- surrogates are past ten
  · next hge =>
    rcases List.mem_pair.1 hmem with hunit | hunit
    all_goals
      have hunit := congrArg UInt16.toNat hunit
      rw [UInt16.toNat_ofNat_of_lt' (by rw [UInt16.size]; omega)] at hunit
      have hten : newline.toNat = 10 := rfl
      omega

/-- All that has been written are these characters, to this stream. What waits has no newline, and
neither has any line. -/
structure Wrote (c : Console) (s : Stream) (cs : List Char) : Prop where
  shown : ∃ rest, (RunReport.unlines (c.linesOf s)).toList ++ rest = cs ∧
    c.pending s = (unitsOf rest).toArray ∧ '\n' ∉ rest
  whole : ∀ line ∈ c.linesOf s, '\n' ∉ line.toList
  other : ∀ s', s' ≠ s → c.pending s' = #[] ∧ c.linesOf s' = []

theorem Wrote.empty (s : Stream) : Wrote {} s [] where
  shown := ⟨[], rfl, by cases s <;> rfl, by simp⟩
  whole := by simp [linesOf]
  other s' _ := ⟨by cases s' <;> rfl, rfl⟩

theorem Wrote.char (h : c.Wrote s cs) (ch : Char) :
    (c.write s (unitsOfChar ch)).Wrote s (cs ++ [ch]) := by
  obtain ⟨rest, hcs, hpending, hrest⟩ := h.shown
  by_cases hch : ch = '\n'
  · -- what waited is the new line
    have hline : decode (c.pending s).toList = String.ofList rest := by
      rw [hpending, List.toList_toArray, decode, charsOf_unitsOf]
    have hwrite : c.write s (unitsOfChar ch) = c.deliver s := by
      rw [hch, unitsOfChar_newline, write_cons, put_newline]
      rfl
    have hlines : (c.deliver s).linesOf s = c.linesOf s ++ [String.ofList rest] := by
      rw [linesOf_deliver, if_pos rfl, hline]
    rw [hwrite, hch]
    refine ⟨⟨[], ?_, by simp [unitsOf], by simp⟩, fun line hmem => ?_, fun s' hs' => ?_⟩
    · rw [hlines, ← hcs]
      simp [RunReport.toList_unlines]
    · rw [hlines] at hmem
      rcases List.mem_append.1 hmem with hold | hnew
      · exact h.whole line hold
      · rwa [List.mem_singleton.1 hnew, String.toList_ofList]
    · simpa [hs'] using h.other s' hs'
  · obtain ⟨hpending', hlines'⟩ := write_of_notMem (c := c) (s := s)
      (newline_notMem_unitsOfChar hch)
    refine ⟨⟨rest ++ [ch], ?_, ?_, ?_⟩, ?_, fun s' hs' => ?_⟩
    · rw [hlines', ← hcs, List.append_assoc]
    · rw [hpending', if_pos rfl, hpending]
      simp [unitsOf]
    · simpa [Ne.symm hch] using hrest
    · rw [hlines']
      exact h.whole
    · rw [hpending', hlines', if_neg hs']
      exact h.other s' hs'

/-- **A stream keeps all that is written to it.** -/
theorem Wrote.units (h : c.Wrote s cs) (cs' : List Char) :
    (c.write s (unitsOf cs')).Wrote s (cs ++ cs') := by
  induction cs' generalizing c cs with
  | nil => simpa [unitsOf, write] using h
  | cons ch cs' ih =>
    have hrest := ih (h.char ch)
    rwa [List.append_assoc, ← write_append] at hrest

/-- The lines that have been delivered to standard output spell the texts with a newline each, and
nothing else has been written. -/
structure Prints (c : Console) (texts : List String) : Prop where
  stdout : RunReport.unlines (c.linesOf .stdout) = RunReport.unlines texts
  whole : ∀ line ∈ c.linesOf .stdout, '\n' ∉ line.toList
  stderr : c.linesOf .stderr = []
  pending : ∀ s, c.pending s = #[]

/-- **Texts written with a newline each have been printed.** -/
theorem Wrote.printed {texts : List String}
    (h : c.Wrote .stdout (RunReport.unlines texts).toList) : c.Prints texts := by
  obtain ⟨rest, hcs, hpending, hrest⟩ := h.shown
  -- what is written last is a newline, and what waits has none
  have hnil : rest = [] := by
    rcases List.eq_nil_or_concat texts with rfl | ⟨front, last, rfl⟩
    · exact (List.append_eq_nil_iff.1 hcs).2
    · by_contra hne
      have hlast := congrArg List.getLast? hcs
      rw [List.getLast?_append_of_ne_nil _ hne] at hlast
      have hnewline : rest.getLast? = some '\n' := by
        simpa [RunReport.toList_unlines] using hlast
      exact hrest (List.mem_of_getLast? hnewline)
  subst hnil
  rw [List.append_nil] at hcs
  refine ⟨String.toList_injective hcs, h.whole, (h.other .stderr (by decide)).2, fun s => ?_⟩
  cases s with
  | stdout => exact hpending
  | stderr => exact (h.other .stderr (by decide)).1

/-- Nothing is left over. -/
theorem Prints.flush_eq {texts : List String} (h : c.Prints texts) : c.flush = c := by
  rw [flush, flushStream_of_pending_eq (h.pending .stdout),
    flushStream_of_pending_eq (h.pending .stderr)]

/-- The units of texts with a newline each. -/
theorem unitsOf_unlines (texts : List String) :
    unitsOf (RunReport.unlines texts).toList =
      texts.flatMap fun text => encode text ++ [newline] := by
  rw [RunReport.toList_unlines, unitsOf, List.flatMap_assoc]
  refine List.flatMap_congr fun text _ => ?_
  rw [List.flatMap_append, encode, unitsOf, List.flatMap_singleton, unitsOfChar_newline]

end Characters

end Console

end GuestBridge
