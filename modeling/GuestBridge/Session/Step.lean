import GuestBridge.Crossing
import GuestBridge.Guest.Module

/-!
# Steps of a session

A session drives one bridge step by step. A step asks something of the bridge, its
guest, its context or the host's values, and may keep the result in a variable.
-/

namespace GuestBridge

/-- What can be asked of a guest directly. Handles are given as guest values. -/
inductive GuestAction where
  | createStringArray (length : Int32)
  | createStringBuilder
  | appendChar (builder : GuestExpr) (code : Int32)
  | buildString (builder : GuestExpr)
  | setToStringArray (array : GuestExpr) (index : Int32) (value : GuestExpr)
  | main (args : GuestExpr)
  | createWrapper (value : HostExpr)
  | isLive (handle : GuestExpr)
  | provides (export_ : OptionalExport)
  | report (channel : Channel) (token : GuestExpr)
  | stringLength (string : GuestExpr)
  | stringCharAt (string : GuestExpr) (index : Int32)
  /-- Makes a guest string through the exports of the guest. -/
  | makeString (text : String)
  /-- Makes an array of guest strings through the exports of the guest. -/
  | makeStringArray (texts : List String)
  /-- Reads a guest string through the exports of the guest. -/
  | readString (string : GuestExpr)
  | allocString (text : String)
  | stringValue (string : GuestExpr)
  | stringArray (array : GuestExpr)
  | wrappedValue (wrapper : GuestExpr)

/-- What can be asked of a host value. -/
inductive HostAction where
  | typeOf
  | display
  | equals (other : HostExpr)
  | get (key : String)
  | getOwn (key : String)
  | set (key : String) (value : HostExpr)
  | has (key : String)
  | keys
  | call (this : HostExpr) (args : List HostExpr)
  | construct (args : List HostExpr)
  | about
  | defineMethod (key : String) (entry : GuestExpr)
  | defineProperty (key : String) (getter : GuestExpr) (setter : Option GuestExpr)

/-- What can be asked of a context, with or without a guest. -/
inductive ContextAction where
  | hasGuest
  | wrap (value : HostExpr)
  | unwrap (class_ : HostExpr) (handle : GuestExpr)
  | hash (value : HostExpr)
  | createWeakRef (channel : Channel) (value : HostExpr) (token : Option GuestExpr)
  | deref (channel : Channel) (value : HostExpr)
  | callMethod (value : HostExpr) (name : String) (args : List HostExpr)
  | asFunction (value : HostExpr) (name : String)
  | functionAsObject (value : HostExpr) (name : String)
  | globals
  | flush

/-- What a step asks. -/
inductive Action where
  /-- Calls an import of the guest. -/
  | callImport (module name : String) (args : List GuestExpr)
  /-- Drops a variable. -/
  | drop (variable_ : String)
  /-- Frees a guest object. -/
  | free (handle : GuestExpr)
  | collect
  | stats
  /-- The notices that the guest has taken. -/
  | reports
  /-- Switches an optional export on or off. -/
  | setExport (export_ : OptionalExport) (present : Bool)
  /-- Tells the guest how to behave. -/
  | setMode (mode : GuestMode)
  | guest (action : GuestAction)
  | host (target : HostExpr) (action : HostAction)
  | context (action : ContextAction)
  /-- The console lines delivered so far. -/
  | console
  /-- The text that describes the bridge. -/
  | describe
  | unload

/-- A step of a session. -/
inductive Step where
  /-- Asks, and keeps the result in a variable. -/
  | perform (action : Action) (target : Option String)
  /-- Sets a variable, and shows it as it is then. -/
  | set (target : String) (value : GuestExpr)
  /-- Runs the guest with texts as arguments. -/
  | main (args : List String)
  /-- Runs steps several times over. -/
  | rounds (count : Nat) (steps : List Step)

end GuestBridge
