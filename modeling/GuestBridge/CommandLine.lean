import GuestBridge.Program
import GuestBridge.Session.Setup

/-!
# The command line

The program runs a guest that writes its arguments to standard output, one on a
line. A configuration file can be laid over the default configuration, in which
console lines go to the standard streams.

* `ofArgs_config`: the two words in front of the arguments are the option and its
  file.
-/

namespace GuestBridge

/-- What the words of a command line ask for. -/
inductive Invocation where
  | help
  /-- The option for a configuration file without a file. -/
  | misuse
  | run (configPath : Option String) (args : List String)
  deriving DecidableEq, Repr

/-- What goes to standard error. -/
inductive Diagnostic where
  | usage
  | failure (error : BridgeError)
  /-- Console lines of a guest whose console goes to the log. -/
  | log (lines : List String)
  deriving DecidableEq, Repr

/-- What a run of the program leaves. -/
structure RunReport where
  code : UInt8 := 0
  stdout : String := ""
  diagnostics : List Diagnostic := []
  deriving DecidableEq, Repr

/-- How the program is called. -/
def usageText : String := "usage: tether [--config FILE] [ARGS...]"

namespace Diagnostic

/-- The text of a diagnostic. -/
def message : Diagnostic → String
  | usage => usageText
  | failure e => "error: " ++ e.message
  | log lines => "\n".intercalate (lines.map fun l => "INFO " ++ l)

end Diagnostic

namespace Invocation

/-- Reads the words of a command line. Only the first one can be an option. -/
def ofArgs : List String → Invocation
  | [] => run none []
  | word :: rest =>
    if word = "--help" ∨ word = "-h" then help
    else if word = "--config" then
      match rest with
      | [] => misuse
      | path :: args => run (some path) args
    else run none (word :: rest)

/-- The file that has to be read. -/
def configPath? : Invocation → Option String
  | run path _ => path
  | _ => none

/-- The two words in front of the arguments are the option and its file. -/
theorem ofArgs_config (path : String) (args : List String) :
    ofArgs ("--config" :: path :: args) = run (some path) args := by
  simp [ofArgs]

end Invocation

namespace RunReport

/-- The report of a run that failed before the guest wrote anything. -/
def failed (e : BridgeError) : RunReport := { code := 1, diagnostics := [.failure e] }

/-- Texts as lines. -/
def unlines (texts : List String) : String := String.join (texts.map fun t => t ++ "\n")

/-- The report of a guest's run with the given console. The guest of this program writes to standard
output only. -/
def ofConsole (mode : ConsoleMode) (console : Console) (result : Except BridgeError Unit) :
    RunReport :=
  let lines := console.lines.toList.map Prod.snd
  let failure := match result with
    | .ok () => []
    | .error e => [Diagnostic.failure e]
  { code := if failure.isEmpty then 0 else 1
    stdout := match mode with
      | .stdio => unlines (console.linesOf .stdout)
      | _ => ""
    diagnostics := match mode with
      | .log => (if lines.isEmpty then [] else [.log lines]) ++ failure
      | _ => failure }

end RunReport

/-- The configuration of the program where no file says otherwise. -/
def Config.ofProgram : Config := { console := .stdio }

/-- Loads the guest that writes its arguments, runs it, and collects. -/
def BridgeM.runEcho (config : Config) (args : List String) : BridgeM Unit := do
  instantiate { locator := "echo", program := some .echo } (← optionsOf config)
  -- The outcome is kept, so that the collection runs also after a failure.
  let run ← attempt (runMain args)
  discard collectGarbage
  unload
  let (_, result) ← ofExcept run
  ofExcept result

/-- Runs the program; `content` is what the configuration file holds, if it is there. -/
def Invocation.execute (content : Option String) : Invocation → RunReport
  | help => { stdout := usageText ++ "\n" }
  | misuse => { code := 1, diagnostics := [.usage] }
  | run path args =>
    let config := path.elim (.ok .ofProgram) fun p => Config.ofProgram.overlayFile p content
    match config with
    | .error problem => .failed (.config problem)
    | .ok config =>
      let (result, w) := (BridgeM.runEcho config args).outcome (.initial {})
      .ofConsole config.console w.context.console result

end GuestBridge
