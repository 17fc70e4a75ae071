import GuestBridge.Crossing
import GuestBridge.View

/-!
# Answers of a session

What an observer is told after each step.
-/

namespace GuestBridge

/-- Sizes of the parts of a bridge. -/
structure Stats where
  registry : LinkCounts
  hashes : Nat
  watched : Nat
  /-- The number of guest objects, while there is a guest. -/
  heap : Option Nat
  deriving DecidableEq, Repr

/-- What an object is. -/
structure About where
  /-- The name of a function or a class. -/
  name : Option String
  handle : Option Handle
  isCallable : Bool
  isClass : Bool
  /-- The property that a callable was extracted from, and the object that has it. -/
  origin : Option (String × HostView)
  deriving DecidableEq, Repr

/-- What a step answers when it succeeds. -/
inductive Answer where
  | nothing
  | bool (b : Bool)
  | int (n : Int)
  | text (s : String)
  | texts (ss : List String)
  | handle (h : Option Handle)
  | handles (hs : List (Option Handle))
  | host (v : HostView)
  | guest (v : GuestView)
  | importResult (v : ImportView)
  | kinds (shown own : Kind)
  | about (a : About)
  | stats (s : Stats)
  | collected (r : CollectionReport)
  | notices (ns : List (Channel × GuestView))
  | lines (ls : List (Stream × String))
  deriving DecidableEq, Repr

/-- What is told after a step. -/
inductive StepAnswer where
  | outcome (result : Except BridgeError Answer)
  /-- The outcome of a run of the guest, the results of its import calls, and the strings that it
  was given, as far as they are still there. -/
  | main (result : Except BridgeError Unit) (trace : List ImportView)
    (args : List (Option String))
  /-- The answers of the last round. -/
  | last (answers : List StepAnswer)

end GuestBridge
