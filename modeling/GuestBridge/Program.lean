import GuestBridge.Call
import GuestBridge.View

/-!
# Guest programs

What a guest does when its entry point is called with an array of strings.
-/

namespace GuestBridge

namespace BridgeM

/-- Writes units to standard output through the guest's import, and ends the line. -/
def printUnits (units : List UInt16) : BridgeM Unit :=
  (units ++ [Console.newline]).forM fun u =>
    discard (callImport runner ImportObject.consoleModule "putcharStdout"
      [.i32 (Int32.ofNat u.toNat)])

/-- Writes the strings of an array to standard output, one on a line. -/
def echo (args : Handle) : BridgeM Unit := do
  let items ← askGuest fun g => g.stringArray args
  items.toList.forM fun item => do
    let text ← match item with
      | some h => askGuest fun g => g.stringValue h
      | none => pure "null"
    printUnits (Text.encode text)

/-- Makes one call of a program, keeps its result, and tells what can be seen of it. -/
def performCall (c : ProgramCall) : BridgeM ImportView := do
  let args ← c.args.mapM GuestExpr.read
  holding (args.flatMap GuestValue.holds) do
    let result ← callImport runner c.module c.name args
    let view := (← get).viewImport c.module c.name result
    if let (some name, some v) := (c.target, result) then setVariable name v
    return view

/-- Makes calls up to the first that fails; gives what can be seen of the results. -/
def performCalls : List ProgramCall → BridgeM (List ImportView × Except BridgeError Unit)
  | [] => return ([], .ok ())
  | c :: cs => do
    match ← attempt (performCall c) with
    | .ok view =>
      let (views, outcome) ← performCalls cs
      return (view :: views, outcome)
    | .error e => return ([], .error e)

/-- Calls the guest's entry point: the results of its calls, and the outcome. -/
def callMain (args : Handle) : BridgeM (List ImportView × Except BridgeError Unit) := do
  let g ← guest
  setGuest { g with mainArgs := some args }
  match g.program with
  | .idle => return ([], .ok ())
  | .fail text => return ([], .error (.guest text))
  | .echo => return ([], ← attempt (echo args))
  | .calls calls => performCalls calls

/-- Runs the guest with texts as arguments. -/
def runMain (texts : List String) : BridgeM (List ImportView × Except BridgeError Unit) := do
  callMain (← tryGuest fun g => g.makeStringArray texts)

/-- Drops the guest and its heap. What is left on the console is delivered. -/
def unload : BridgeM Unit :=
  modify fun w =>
    { w with guest := none, context := { w.context with console := w.context.console.flush } }

end BridgeM

end GuestBridge
