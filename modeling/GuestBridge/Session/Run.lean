import GuestBridge.Session.Perform
import GuestBridge.Session.Setup

/-!
# Running a session

A session loads a bridge and takes its steps one after the other. When a step is
over, what nothing holds any more is dropped.

* `runSteps_append`: steps are taken in order.
-/

namespace GuestBridge

namespace BridgeM

/-- Carries out an action and keeps its result. -/
def performInto (action : Action) (target : Option String) : BridgeM Answer := do
  let reply ← performAction action
  if let (some name, some v) := (target, reply.result) then setVariable name v
  return reply.answer

/-- Sets a variable, and shows its value as it is then. -/
def setAndShow (name : String) (e : GuestExpr) : BridgeM Answer := do
  let v ← e.read
  setVariable name v
  return .guest ((← get).viewGuest v)

/-- The strings of the array that the guest was last run with, as far as they are still there. -/
def mainArgTexts : BridgeM (List (Option String)) := do
  let some g := (← get).guest | return []
  match g.mainArgs.map g.stringArray with
  | some (.ok items) =>
    return items.toList.map fun item => item.bind fun h => (g.stringValue h).toOption
  | _ => return []

/-- Runs the guest, and tells how the run went. -/
def mainStep (args : List String) : BridgeM StepAnswer := do
  let (trace, result) ← match ← attempt (runMain args) with
    | .ok run => pure run
    | .error e => pure ([], .error e)
  return .main result trace (← mainArgTexts)

/-- Takes an action as a step of its own. -/
def asStep {α : Type} (act : BridgeM α) (w : World) : Except BridgeError α × World :=
  let (result, w) := act.outcome w
  (result, { w with heap := w.heap.reclaim w.holds })

end BridgeM

mutual

/-- Takes a step. -/
def Step.run : Step → World → StepAnswer × World
  | .perform action target, w =>
    let (result, w) := (BridgeM.performInto action target).asStep w
    (.outcome result, w)
  | .set name e, w =>
    let (result, w) := (BridgeM.setAndShow name e).asStep w
    (.outcome result, w)
  | .main args, w =>
    match (BridgeM.mainStep args).asStep w with
    | (.ok answer, w) => (answer, w)
    | (.error e, w) => (.outcome (.error e), w)
  | .rounds count steps, w =>
    let (answers, w) := count.repeat (fun r => runSteps steps r.2) ([], w)
    (.last answers, w)

/-- Takes steps one after the other. -/
def runSteps : List Step → World → List StepAnswer × World
  | [], w => ([], w)
  | step :: steps, w =>
    let (answer, w) := step.run w
    let (answers, w) := runSteps steps w
    (answer :: answers, w)

end

/-- Steps are taken in order. -/
theorem runSteps_append (ss ts : List Step) (w : World) :
    runSteps (ss ++ ts) w =
      ((runSteps ss w).1 ++ (runSteps ts (runSteps ss w).2).1,
        (runSteps ts (runSteps ss w).2).2) := by
  induction ss generalizing w with
  | nil => simp [runSteps]
  | cons s ss ih => simp [runSteps, ih]

/-- What a session tells: its options, whether the bridge could be loaded, and then the answers of
its steps. -/
structure Transcript where
  options : Option Options
  load : Except BridgeError Unit
  answers : List StepAnswer := []

/-- Runs a session. -/
def runSession (s : Setup) (steps : List Step) (environment : Environment) : Transcript :=
  match World.load s environment with
  | (options, .error e, _) => { options, load := .error e }
  | (options, .ok (), w) => { options, load := .ok (), answers := (runSteps steps w).1 }

end GuestBridge
