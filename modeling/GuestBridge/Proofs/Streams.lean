import GuestBridge.Proofs.Echo

/-!
# The streams of a console

A guest writes to two streams in any order. Each stream is split at its newlines as if there were no
other: all pieces but the last have been delivered as lines, and the last one waits.

* `Console.putAll_splitOn`: **what a stream delivers are the pieces between its newlines.**
* `Console.fst_lines_putAll`: lines of different streams come in the order of their newlines.
* `Console.lines_flush`: a flush delivers what waits, standard output first.
* `BridgeM.putChars_run`: the codes that a guest gives to the imports are the ones that its console
  takes.
* `Console.streams_split`: all of it, for any codes in any order.
-/

namespace GuestBridge

namespace Console

/-- Takes codes one after the other, each for its stream. -/
def putAll (c : Console) (calls : List (Stream × Int32)) : Console :=
  calls.foldl (fun c x => c.put x.1 x.2) c

/-- The units that a stream is given. -/
def unitsOn (s : Stream) (calls : List (Stream × Int32)) : List UInt16 :=
  (calls.filter fun x => x.1 = s).map fun x => unitOfCode x.2

/-- The units of a stream from its last newline on, with the ones that it is given now. -/
def given (c : Console) (s : Stream) (calls : List (Stream × Int32)) : List UInt16 :=
  (c.pending s).toList ++ unitsOn s calls

/-- What waits, for each stream that something waits on. -/
def leftover (c : Console) : List (Stream × String) :=
  [Stream.stdout, Stream.stderr].flatMap fun s =>
    if (c.pending s).isEmpty then [] else [(s, Text.decode (c.pending s).toList)]

/-- No newline waits. -/
def Clean (c : Console) : Prop := ∀ s, newline ∉ (c.pending s).toList

section Streams

variable {c : Console} {s s' : Stream} {code : Int32} {calls : List (Stream × Int32)}

theorem putAll_cons (c : Console) (x : Stream × Int32) (calls : List (Stream × Int32)) :
    c.putAll (x :: calls) = (c.put x.1 x.2).putAll calls := rfl

/-! ## One code -/

theorem put_of_newline (h : unitOfCode code = newline) : c.put s code = c.deliver s := if_pos h

theorem put_of_unit (h : unitOfCode code ≠ newline) :
    c.put s code = c.setPending s ((c.pending s).push (unitOfCode code)) := if_neg h

theorem clean_empty : Clean {} := fun s => by cases s <;> exact List.not_mem_nil

/-- A newline is taken as the end of a line, and does not wait. -/
theorem Clean.put (hc : c.Clean) (s : Stream) (code : Int32) : (c.put s code).Clean := by
  intro s'
  have hwaits := hc s'
  by_cases hcode : unitOfCode code = newline
  · rw [put_of_newline hcode, pending_deliver]
    split
    · exact List.not_mem_nil
    · exact hwaits
  · rw [put_of_unit hcode, pending_setPending]
    split
    · next hs =>
      rw [hs] at hwaits
      simp [hwaits, Ne.symm hcode]
    · exact hwaits

theorem Clean.flush (c : Console) : c.flush.Clean := by
  intro s
  rw [pending_flush]
  exact List.not_mem_nil

/-- A code is given to its stream only. -/
theorem given_cons (c : Console) (s s' : Stream) (code : Int32) (calls : List (Stream × Int32)) :
    c.given s' ((s, code) :: calls) =
      if s = s' then (c.pending s').toList ++ unitOfCode code :: unitsOn s' calls
      else c.given s' calls := by
  by_cases hs : s = s' <;> simp [given, unitsOn, hs]

/-! ## All codes -/

/-- **What a stream delivers are the pieces between its newlines**, and the last piece waits. -/
theorem putAll_splitOn (hc : c.Clean) (s : Stream) (calls : List (Stream × Int32)) :
    ∃ pieces, (c.given s calls).splitOn newline =
        pieces ++ [((c.putAll calls).pending s).toList] ∧
      (c.putAll calls).linesOf s = c.linesOf s ++ pieces.map Text.decode := by
  induction calls generalizing c with
  | nil =>
    refine ⟨[], ?_, by simp [putAll]⟩
    rw [given, show unitsOn s [] = [] from rfl, List.append_nil, List.splitOn_eq_singleton (hc s)]
    rfl
  | cons x calls ih =>
    obtain ⟨s', code⟩ := x
    obtain ⟨pieces, hsplit, hlines⟩ := ih (hc.put s' code)
    rw [putAll_cons, given_cons]
    by_cases hs : s' = s
    · subst hs
      rw [if_pos rfl]
      by_cases hcode : unitOfCode code = newline
      · -- the units that waited are the first piece
        refine ⟨(c.pending s').toList :: pieces, ?_, ?_⟩
        · rw [hcode, List.splitOn_append_cons_self_of_not_mem (hc s'), List.cons_append, ← hsplit,
            put_of_newline hcode, given, pending_deliver, if_pos rfl]
          rfl
        · rw [hlines, put_of_newline hcode, linesOf_deliver, if_pos rfl, List.append_assoc]
          rfl
      · -- the unit waits behind the others
        refine ⟨pieces, ?_, ?_⟩
        · rw [← hsplit, put_of_unit hcode, given, pending_setPending, if_pos rfl]
          simp
        · rw [hlines, put_of_unit hcode, linesOf_setPending]
    · -- the other stream
      have hother : (c.put s' code).pending s = c.pending s ∧
          (c.put s' code).linesOf s = c.linesOf s := by
        by_cases hcode : unitOfCode code = newline
        · rw [put_of_newline hcode, pending_deliver, linesOf_deliver]
          simp [Ne.symm hs]
        · rw [put_of_unit hcode, pending_setPending, linesOf_setPending]
          simp [Ne.symm hs]
      refine ⟨pieces, ?_, by rw [hlines, hother.2]⟩
      rw [if_neg hs, ← hsplit, given, given, hother.1]

/-- In whatever order two streams are written to, each of them is as if it were alone. -/
theorem putAll_interleaved {calls' : List (Stream × Int32)} (hc : c.Clean)
    (h : unitsOn s calls = unitsOn s calls') :
    (c.putAll calls).linesOf s = (c.putAll calls').linesOf s ∧
      (c.putAll calls).pending s = (c.putAll calls').pending s := by
  obtain ⟨pieces, hsplit, hlines⟩ := putAll_splitOn hc s calls
  obtain ⟨pieces', hsplit', hlines'⟩ := putAll_splitOn hc s calls'
  have hgiven : c.given s calls = c.given s calls' := by rw [given, given, h]
  rw [hgiven, hsplit'] at hsplit
  obtain ⟨hpieces, hlast⟩ := List.append_inj' hsplit rfl
  exact ⟨by rw [hlines, hlines', hpieces], Array.toList_inj.1 (List.singleton_inj.1 hlast).symm⟩

/-- **Lines of different streams come in the order of their newlines.** -/
theorem fst_lines_putAll (c : Console) (calls : List (Stream × Int32)) :
    (c.putAll calls).lines.toList.map Prod.fst =
      c.lines.toList.map Prod.fst ++
        (calls.filter fun x => unitOfCode x.2 = newline).map Prod.fst := by
  induction calls generalizing c with
  | nil => simp [putAll]
  | cons x calls ih =>
    obtain ⟨s, code⟩ := x
    rw [putAll_cons, ih]
    by_cases hcode : unitOfCode code = newline
    · simp [put_of_newline hcode, deliver, hcode]
    · simp [lines_put_of_ne hcode, hcode]

/-! ## Flushing -/

/-- **A flush delivers what waits**, standard output first. -/
theorem lines_flush (c : Console) : c.flush.lines.toList = c.lines.toList ++ c.leftover := by
  have hstream : ∀ (c : Console) (s : Stream), (c.flushStream s).lines.toList = c.lines.toList ++
      if (c.pending s).isEmpty then [] else [(s, Text.decode (c.pending s).toList)] := by
    intro c s
    unfold flushStream
    split <;> simp [deliver]
  have hstderr : (c.flushStream .stdout).pending .stderr = c.pending .stderr := by
    unfold flushStream
    split <;> rfl
  rw [flush, hstream, hstream, hstderr, leftover, List.flatMap_cons, List.flatMap_singleton,
    List.append_assoc]

end Streams

end Console

/-! ## The imports -/

/-- The import for a stream. -/
def Stream.importName : Stream → String
  | stdout => "putcharStdout"
  | stderr => "putcharStderr"

theorem ImportObject.get?_defaults_importName (s : Stream) :
    defaults.get? consoleModule s.importName = some (.putChar s) := by
  cases s <;> rfl

namespace BridgeM

variable {held : List HostId} {w : World} {g : Guest}

/-- **What a guest writes through its imports is what its console takes**, code by code. -/
theorem putChars_run (hg : w.guest = some g)
    (himports : ∀ s : Stream, g.imports.get? ImportObject.consoleModule s.importName =
      some (.putChar s))
    (run : Runner) (calls : List (Stream × Int32)) :
    (calls.forM fun x =>
      discard (callImport run ImportObject.consoleModule x.1.importName [.i32 x.2])) held w =
        .ok () (w.withConsole (w.context.console.putAll calls)) := by
  induction calls generalizing w with
  | nil => rfl
  | cons x calls ih =>
    obtain ⟨s, code⟩ := x
    have hcall := callImport_run_of_putChar hg (himports s) run code held
    refine (forM_cons_run _ (s, code) calls (discard_run_of_ok hcall)).trans ?_
    exact ih (w := w.withConsole _) hg

end BridgeM

/-! ## What a guest writes -/

namespace Console

section Streams

variable {c : Console}

/-- **Streams are split into lines independently of each other**, whatever codes they are given and
in whatever order.

* What each stream has delivered are the pieces between the newlines of its own units, decoded whole,
  and what waits is the piece after the last newline; so no unit is lost, written twice or moved to
  the other stream, and the order in which the two are written to does not matter to either.
* The lines of the two streams are in the order of their newlines.
* A flush delivers what waits on either stream, standard output first, and then nothing waits, so
  that another flush changes nothing.
* A guest whose import object has the imports for both streams, as the one that a bridge makes has,
  does this and nothing else to the state when it calls them. -/
theorem streams_split (hc : c.Clean) (calls : List (Stream × Int32)) :
    (∀ s, ∃ pieces,
      (c.given s calls).splitOn newline = pieces ++ [((c.putAll calls).pending s).toList] ∧
      (c.putAll calls).linesOf s = c.linesOf s ++ pieces.map Text.decode ∧
      [newline].intercalate (pieces ++ [((c.putAll calls).pending s).toList]) =
        c.given s calls) ∧
    (c.putAll calls).lines.toList.map Prod.fst = c.lines.toList.map Prod.fst ++
      (calls.filter fun x => unitOfCode x.2 = newline).map Prod.fst ∧
    (c.putAll calls).flush.lines.toList =
      (c.putAll calls).lines.toList ++ (c.putAll calls).leftover ∧
    (∀ s, (c.putAll calls).flush.pending s = #[]) ∧
    (c.putAll calls).flush.flush = (c.putAll calls).flush ∧
    (∀ s calls', unitsOn s calls = unitsOn s calls' →
      (c.putAll calls).linesOf s = (c.putAll calls').linesOf s ∧
        (c.putAll calls).pending s = (c.putAll calls').pending s) ∧
    (∀ s : Stream, ImportObject.defaults.get? ImportObject.consoleModule s.importName =
      some (.putChar s)) ∧
    ∀ (w : World) (g : Guest), w.guest = some g → w.context.console = c →
      (∀ s : Stream, g.imports.get? ImportObject.consoleModule s.importName = some (.putChar s)) →
      ∀ run held, (calls.forM fun x => discard (BridgeM.callImport run
        ImportObject.consoleModule x.1.importName [.i32 x.2])) held w =
          .ok () (w.withConsole (c.putAll calls)) := by
  refine ⟨fun s => ?_, fst_lines_putAll c calls, lines_flush _, pending_flush _, flush_flush _,
    fun s calls' => putAll_interleaved hc, ImportObject.get?_defaults_importName, ?_⟩
  · obtain ⟨pieces, hsplit, hlines⟩ := putAll_splitOn hc s calls
    refine ⟨pieces, hsplit, hlines, ?_⟩
    rw [← hsplit, List.intercalate_splitOn]
  · rintro w g hg rfl himports run held
    exact BridgeM.putChars_run hg himports run calls

/-- A pair of surrogates with a unit for the other stream between them, a newline that is one only
after its high bits have been cut off, and what no newline follows: half a pair, and a letter. -/
def mingled : List (Stream × Int32) :=
  [(.stdout, 0xD83D), (.stderr, 0x41), (.stdout, 0xDE00), (.stderr, 0x1000A), (.stdout, 0xA),
    (.stderr, 0xD83D), (.stdout, 0x42)]

/-- A bridge of which nothing has been asked. -/
def unused : World := (World.load {} {}).2.2

/-- The guest of the bridge calls the imports, and its console has the lines. -/
theorem mingled_splits :
    (({} : Console).putAll mingled).flush.lines.toList =
      [(.stderr, "A"), (.stdout, "😀"), (.stdout, "B"), (.stderr, "\uFFFD")] ∧
    (({} : Console).putAll mingled).linesOf .stdout = ["😀"] ∧
    (∃ pieces, (unitsOn .stdout mingled).splitOn newline = pieces ++ [[0x42]] ∧
      (({} : Console).putAll mingled).linesOf .stdout = pieces.map Text.decode) ∧
    ∀ run, (mingled.forM fun x => discard (BridgeM.callImport run
      ImportObject.consoleModule x.1.importName [.i32 x.2])) [] unused =
        .ok () (unused.withConsole (({} : Console).putAll mingled)) := by
  obtain ⟨hstreams, -, hflush, -, -, -, himports, hguest⟩ := streams_split clean_empty mingled
  obtain ⟨pieces, hsplit, hlines, -⟩ := hstreams .stdout
  refine ⟨?_, by decide, ⟨pieces, hsplit, hlines⟩, fun run => ?_⟩
  · rw [hflush]
    decide
  · exact hguest unused _ rfl rfl himports run []

end Streams

end Console

end GuestBridge
