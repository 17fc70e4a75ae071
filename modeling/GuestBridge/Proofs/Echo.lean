import GuestBridge.Proofs.Growth
import GuestBridge.Proofs.Lines
import GuestBridge.Proofs.Options

/-!
# The guest that writes its arguments

Its arguments are an array of strings in its own heap. It reads them, and writes the units of each
and a newline through the import for standard output.

* `echo_run`: what the guest writes, once the array is in its heap.
* `runMain_run`: the entry point given texts, from the making of the array on.
* `runEcho_run`: a run of the program, with the collection and the unloading at its end.
* `arguments_are_echoed`: **what comes out are the arguments**, on a bridge that has been loaded
  and on the command line.
-/

namespace GuestBridge

/-- The state with another console. -/
def World.withConsole (w : World) (c : Console) : World :=
  { w with context := { w.context with console := c } }

/-- A state with a guest that writes its arguments, and nothing made yet. -/
def World.withEcho (w : World) (o : Options) : World :=
  { w with
    context := { w.context with globals := o.globals, hasher := .ofSeed o.hashSeed }
    guest := some { imports := .defaults, program := .echo } }

namespace BridgeM

variable {held : List HostId} {w : World} {g : Guest} {texts : List String}

/-! ## Writing -/

section Writing

/-- The guest can write to standard output. -/
def Writes (w : World) : Prop :=
  ∃ g, w.guest = some g ∧
    g.imports.get? ImportObject.consoleModule "putcharStdout" = some (.putChar .stdout)

/-- The console takes a unit that the guest gives to an import for a stream. -/
theorem callImport_run_of_putChar {module name : String} {s : Stream} (hg : w.guest = some g)
    (himport : g.imports.get? module name = some (.putChar s)) (run : Runner) (code : Int32)
    (held : List HostId) :
    callImport run module name [.i32 code] held w =
      .ok none (w.withConsole (w.context.console.put s code)) := by
  have hresolve : g.imports.resolve module name = .ok (.putChar s) := by
    rw [ImportObject.resolve, himport]
    rfl
  rw [callImport, bind_run, guest_run_of_some hg]
  dsimp only
  rw [callFrom, hresolve]
  rfl

/-- Actions one after the other, the first of which succeeds. -/
theorem forM_cons_run {ι : Type} (f : ι → BridgeM Unit) (i : ι) (is : List ι) {w' : World}
    (hi : f i held w = .ok () w') : (i :: is).forM f held w = is.forM f held w' := by
  show (f i >>= fun _ => is.forM f) held w = _
  rw [bind_run, hi]

/-- Units, and the newline. -/
theorem printUnits_run (hw : Writes w) (us : List UInt16) (held : List HostId) :
    printUnits us held w =
      .ok () (w.withConsole (w.context.console.write .stdout (us ++ [Console.newline]))) := by
  unfold printUnits
  generalize us ++ [Console.newline] = us
  induction us generalizing w with
  | nil => rfl
  | cons u us ih =>
    have ⟨g, hg, himport⟩ := hw
    have hput := discard_run_of_ok
      (callImport_run_of_putChar hg himport runner (Int32.ofNat u.toNat) held)
    refine Eq.trans (forM_cons_run _ u us hput) ?_
    exact ih (w := w.withConsole _) hw

/-- One item of the array, and the ones after it. -/
theorem printItems_run {items : List Handle} (hw : Writes w) (hg : w.guest = some g)
    (hitems : List.Forall₂ (fun h text => g.Spells h text) items texts) (held : List HostId) :
    ((items.map some).forM fun item => do
      let text ← match item with
        | some h => askGuest fun g => g.stringValue h
        | none => pure "null"
      printUnits (Text.encode text)) held w =
      .ok () (w.withConsole (w.context.console.write .stdout
        (Text.unitsOf (RunReport.unlines texts).toList))) := by
  rw [Console.unitsOf_unlines]
  -- on the items: writing one leaves the guest, and so the strings of the others
  induction hitems generalizing w with
  | nil => rfl
  | @cons h text items texts hspells _ ih =>
    have hread : askGuest (fun g => g.stringValue h) held w = .ok text w := by
      rw [askGuest, bind_run, guest_run_of_some hg]
      dsimp only
      rw [(Guest.Spells.decodes hspells).value]
      rfl
    rw [List.map_cons, List.flatMap_cons, Console.write_append]
    have hfirst : (askGuest (fun g => g.stringValue h) >>= fun text =>
        printUnits (Text.encode text)) held w = .ok () (w.withConsole
          (w.context.console.write .stdout (Text.encode text ++ [Console.newline]))) := by
      rw [bind_run, hread]
      exact printUnits_run hw (Text.encode text) held
    refine Eq.trans (forM_cons_run _ (some h) (items.map some) hfirst) ?_
    exact ih (w := w.withConsole _) hw hg

/-- **What the guest writes are its arguments**, with a newline each. -/
theorem echo_run {array : Handle} {items : List Handle} (hw : Writes w) (hg : w.guest = some g)
    (harray : g.heap.get? array = some (.stringArray (items.map some).toArray))
    (hitems : List.Forall₂ (fun h text => g.Spells h text) items texts) (held : List HostId) :
    echo array held w =
      .ok () (w.withConsole (w.context.console.write .stdout
        (Text.unitsOf (RunReport.unlines texts).toList))) := by
  have hread : askGuest (fun g => g.stringArray array) held w = .ok (items.map some).toArray w := by
    rw [askGuest, bind_run, guest_run_of_some hg]
    dsimp only
    rw [Guest.stringArray, Guest.object_of_get? harray]
    rfl
  rw [echo, bind_run, hread]
  exact printItems_run hw hg hitems held

end Writing

/-! ## Running -/

section Running

theorem callMain_run_of_echo (hg : w.guest = some g) (hecho : g.program = .echo) (array : Handle)
    (held : List HostId) :
    callMain array held w = (attempt (echo array) >>= fun r => pure ([], r)) held
      { w with guest := some { g with mainArgs := some array } } := by
  rw [callMain, bind_run, guest_run_of_some hg]
  dsimp only
  rw [hecho]
  rfl

/-- **The entry point given texts.** The context keeps all but its console. -/
theorem runMain_run (hw : Writes w) (hg : w.guest = some g) (hheap : g.heap.OK)
    (hecho : g.program = .echo) (hlength : texts.length < 2 ^ 31)
    (hfits : g.heap.Fits (2 * texts.length + 1)) (held : List HostId) :
    ∃ g', runMain texts held w = .ok ([], .ok ())
      { w.withConsole (w.context.console.write .stdout
        (Text.unitsOf (RunReport.unlines texts).toList)) with guest := some g' } := by
  obtain ⟨array, g₁, items, hmake, hext, -, harray, hitems⟩ :=
    Guest.makeStringArray_run (n := 0) hheap hlength (hfits.mono (by omega))
  have himports : g₁.imports = g.imports := by rw [hext.rest]
  have hprogram : g₁.program = .echo := by rw [hext.rest]; exact hecho
  -- making the arguments leaves the imports alone, and so does storing them
  have hwrites : Writes { w with guest := some { g₁ with mainArgs := some array } } := by
    obtain ⟨g₀, hg₀, himport⟩ := hw
    obtain rfl := Option.some.inj (hg.symm.trans hg₀)
    exact ⟨_, rfl, himports ▸ himport⟩
  have hrun := echo_run hwrites rfl harray hitems held
  refine ⟨{ g₁ with mainArgs := some array }, ?_⟩
  rw [runMain, bind_run, tryGuest_run hg, hmake]
  dsimp only
  rw [callMain_run_of_echo rfl hprogram, bind_run, attempt, hrun]
  rfl

/-- **A guest that has just been loaded** prints the texts that its entry point is given. -/
theorem runMain_prints (hw : Writes w) (hg : w.guest = some g) (hheap : g.heap = {})
    (hecho : g.program = .echo) (hc : w.context.console = {}) (hlength : texts.length < 2 ^ 31)
    (held : List HostId) :
    ∃ w', runMain texts held w = .ok ([], .ok ()) w' ∧ w'.context.console.Prints texts ∧
      w'.context = { w.context with console := w'.context.console } := by
  have hfits : g.heap.Fits (2 * texts.length + 1) := by
    rw [hheap]
    show 0 + (2 * texts.length + 1 - 0) ≤ 2 ^ 32
    omega
  obtain ⟨g', hmain⟩ :=
    runMain_run hw hg (hheap ▸ HandleTable.ok_empty) hecho hlength hfits held
  refine ⟨_, hmain, ?_, rfl⟩
  show (w.context.console.write _ _).Prints texts
  rw [hc]
  exact ((Console.Wrote.empty .stdout).units _).printed

end Running

/-! ## The program -/

section Program

variable {config : Config} {args : List String}

/-- A collection with nothing to give notice of writes nothing. -/
theorem collectGarbage_run_of_unwatched (hc : w.context.collecting = false)
    (hw : w.context.watched = []) (held : List HostId) :
    ∃ r w', collectGarbage held w = .ok r w' ∧ w'.context.console = w.context.console := by
  have hdeliver : deliverAll {} (w.context.watched.filter fun x =>
      !(w.settled held).heap.isAlive x.target.id) held (w.polled held) =
        .ok {} (w.polled held) := by
    rw [hw]
    rfl
  obtain ⟨r, hrun, -⟩ := collectGarbage_run_of_deliver hc hdeliver
  exact ⟨r, _, hrun, rfl⟩

theorem instantiate_run_of_echo (o : Options) (held : List HostId) (w : World) :
    instantiate { locator := "echo", program := some .echo } o held w = .ok () (w.withEcho o) := by
  rw [instantiate_run]
  simp only [Option.getD_none, List.foldl_nil]
  rfl

/-- **A run of the program** with a configuration that can be used. -/
theorem runEcho_run (hconfig : config.Usable) (hlength : args.length < 2 ^ 31)
    (environment : Environment) :
    ∃ w', runEcho config args [] (World.initial environment) = .ok () w' ∧
      w'.context.console.Prints args := by
  obtain ⟨o, w₁, hoptions, -, -, hcontext⟩ := optionsOf_run hconfig [] (World.initial environment)
  have hload := instantiate_run_of_echo o [] w₁
  obtain ⟨w₂, hmain, hprints, hsame⟩ := runMain_prints (w := w₁.withEcho o) ⟨_, rfl, rfl⟩ rfl rfl
    rfl (congrArg Context.console hcontext) hlength []
  -- the collection at the end has nothing to give notice of
  have hcollecting : w₂.context.collecting = false := by
    rw [hsame]
    exact congrArg Context.collecting hcontext
  have hwatched : w₂.context.watched = [] := by
    rw [hsame]
    exact congrArg Context.watched hcontext
  obtain ⟨r, w₃, hcollect, hconsole⟩ := collectGarbage_run_of_unwatched hcollecting hwatched []
  refine ⟨{ w₃ with guest := none, context.console := w₃.context.console.flush }, ?_, ?_⟩
  · rw [runEcho, bind_run, hoptions]
    dsimp only
    rw [bind_run, hload]
    dsimp only
    rw [bind_run, attempt, hmain]
    dsimp only
    rw [bind_run, discard_run_of_ok hcollect]
    rfl
  · show w₃.context.console.flush.Prints args
    rwa [hconsole, hprints.flush_eq]

end Program

end BridgeM

/-! ## What comes out -/

section Output

variable {w : World} {config : Config} {args : List String} {console : Console}

/-- The guest of a bridge that has been loaded. -/
theorem World.load_guest {s : Setup} {environment : Environment} {o : Options}
    (h : World.load s environment = (some o, .ok (), w)) :
    ∃ program, s.program = some program ∧ w.guest = some
      { imports := (s.hook.getD []).foldl ImportObject.edit .defaults, program,
        hasOptional := s.hasOptional } := by
  obtain ⟨w₀, program, -, hprogram, rfl⟩ := World.load_run h
  exact ⟨program, hprogram, rfl⟩

/-- Without lines for standard error, the lines are those for standard output. -/
theorem Console.map_snd_lines (h : console.linesOf .stderr = []) :
    console.lines.toList.map Prod.snd = console.linesOf .stdout := by
  unfold linesOf at h ⊢
  generalize console.lines.toList = lines at h ⊢
  induction lines with
  | nil => rfl
  | cons line lines ih =>
    obtain ⟨s, text⟩ := line
    cases s with
    | stdout => simpa using ih (by simpa using h)
    | stderr => simp at h

/-- The report of a run that has printed the arguments. -/
theorem RunReport.ofConsole_of_prints (mode : ConsoleMode) (h : console.Prints args) :
    ofConsole mode console (.ok ()) =
      { code := 0
        stdout := if mode = .stdio then unlines args else ""
        diagnostics := if mode = .log ∧ console.linesOf .stdout ≠ [] then
          [.log (console.linesOf .stdout)] else [] } := by
  have hlines := Console.map_snd_lines h.stderr
  unfold ofConsole
  rw [hlines]
  cases mode with
  | stdio => simp [h.stdout]
  | silent => simp
  | log => cases console.linesOf .stdout <;> simp

/-- A run of the program with a configuration that can be used. -/
theorem execute_run (path content : Option String)
    (hconfig : path.elim (.ok .ofProgram) (fun p => Config.ofProgram.overlayFile p content) =
      .ok config)
    (husable : config.Usable) (hlength : args.length < 2 ^ 31) :
    ∃ console : Console, console.Prints args ∧
      (Invocation.run path args).execute content =
        RunReport.ofConsole config.console console (.ok ()) := by
  obtain ⟨w', hrun, hprints⟩ := BridgeM.runEcho_run husable hlength {}
  refine ⟨w'.context.console, hprints, ?_⟩
  rw [Invocation.execute]
  simp only [hconfig, BridgeM.outcome, hrun]

/-- **The arguments are echoed.**

* On a bridge that has been loaded with the program that writes its arguments, and whose import for
  standard output has not been replaced, the entry point succeeds and the console prints the
  arguments.
* The command line does so for all its words, unless the first of them is an option.
* With a configuration file that can be used it does so for the words after the file, and the
  console of the configuration says where the lines go. -/
theorem arguments_are_echoed :
    (∀ s environment o w args, World.load s environment = (some o, .ok (), w) →
      s.program = some .echo →
      ((s.hook.getD []).foldl ImportObject.edit .defaults).get? ImportObject.consoleModule
        "putcharStdout" = some (.putChar .stdout) →
      args.length < 2 ^ 31 →
      ∃ w', (BridgeM.runMain args).outcome w = (.ok ([], .ok ()), w') ∧
        w'.context.console.Prints args) ∧
    (∀ words content, (∀ word ∈ words.head?, word ∉ ["--help", "-h", "--config"]) →
      words.length < 2 ^ 31 →
      (Invocation.ofArgs words).execute content =
        { code := 0, stdout := RunReport.unlines words }) ∧
    ∀ path args text config, Config.ofProgram.overlay text = .ok config → args.length < 2 ^ 31 →
      ∃ lines, RunReport.unlines lines = RunReport.unlines args ∧
        (Invocation.ofArgs ("--config" :: path :: args)).execute (some text) =
          { code := 0
            stdout := if config.console = .stdio then RunReport.unlines args else ""
            diagnostics := if config.console = .log ∧ lines ≠ [] then [.log lines] else [] } := by
  refine ⟨fun s environment o w args hload hecho himport hlength => ?_,
    fun words content hwords hlength => ?_, fun path args text config hconfig hlength => ?_⟩
  · obtain ⟨program, hprogram, hguest⟩ := World.load_guest hload
    obtain rfl := Option.some.inj (hecho.symm.trans hprogram)
    have hconsole : w.context.console = {} := by rw [World.load_context hload]
    obtain ⟨w', hrun, hprints, -⟩ := BridgeM.runMain_prints ⟨_, hguest, himport⟩ hguest rfl rfl
      hconsole hlength []
    exact ⟨w', by rw [BridgeM.outcome, hrun], hprints⟩
  · have hargs : Invocation.ofArgs words = .run none words := by
      cases words with
      | nil => rfl
      | cons word rest =>
        have hword := hwords word rfl
        simp only [List.mem_cons, List.not_mem_nil, or_false, not_or] at hword
        obtain ⟨hhelp, hshort, hoption⟩ := hword
        simp [Invocation.ofArgs, hhelp, hshort, hoption]
    obtain ⟨console, hprints, hreport⟩ :=
      execute_run none content rfl ⟨by decide, by simp [Config.ofProgram]⟩ hlength
    rw [hargs, hreport, RunReport.ofConsole_of_prints _ hprints]
    rfl
  · obtain ⟨console, hprints, hreport⟩ := execute_run (some path) (some text)
      hconfig (Config.usable_of_overlay hconfig) hlength
    refine ⟨console.linesOf .stdout, hprints.stdout, ?_⟩
    rw [Invocation.ofArgs_config, hreport, RunReport.ofConsole_of_prints _ hprints]

/-- Arguments with a newline, with nothing, with a pair of surrogates, and like an option. -/
def mixedWords : List String := ["a\nb", "", "😀", "--config"]

/-- The configuration of a file whose console is silent. -/
def silenced : Config := { console := .silent }

theorem mixedWords_are_echoed :
    (∃ o w w', World.load { program := some .echo } {} = (some o, .ok (), w) ∧
      (BridgeM.runMain mixedWords).outcome w = (.ok ([], .ok ()), w') ∧
      RunReport.unlines (w'.context.console.linesOf .stdout) = "a\nb\n\n😀\n--config\n") ∧
    (Invocation.ofArgs mixedWords).execute none =
      { code := 0, stdout := "a\nb\n\n😀\n--config\n" } ∧
    ((Invocation.ofArgs ("--config" :: "silent.json" :: mixedWords)).execute
      (some "\x7b\"console\": \"silent\"\x7d")).stdout = "" := by
  obtain ⟨hload, hwords, hfile⟩ := arguments_are_echoed
  have hlength : mixedWords.length < 2 ^ 31 := by decide
  have htext : RunReport.unlines mixedWords = "a\nb\n\n😀\n--config\n" := by decide
  refine ⟨?_, ?_, ?_⟩
  · have hloaded : World.load { program := some .echo } {} = (some _, .ok (), _) := rfl
    obtain ⟨w', hrun, hprints⟩ := hload _ _ _ _ mixedWords hloaded rfl rfl hlength
    exact ⟨_, _, w', hloaded, hrun, by rw [hprints.stdout, htext]⟩
  · rw [hwords mixedWords none (by decide) hlength, htext]
  · have hread : (Config.ofProgram.overlay "\x7b\"console\": \"silent\"\x7d").toOption =
        some silenced := by decide +kernel
    have hconfig : Config.ofProgram.overlay "\x7b\"console\": \"silent\"\x7d" = .ok silenced := by
      cases hoverlay : Config.ofProgram.overlay "\x7b\"console\": \"silent\"\x7d" with
      | error problem => rw [hoverlay] at hread; cases hread
      | ok config => rw [hoverlay] at hread; exact congrArg Except.ok (Option.some.inj hread)
    obtain ⟨lines, -, hreport⟩ := hfile "silent.json" mixedWords _ silenced hconfig hlength
    rw [hreport]
    rfl

end Output

end GuestBridge
