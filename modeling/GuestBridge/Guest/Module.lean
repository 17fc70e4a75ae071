import GuestBridge.Guest.HandleTable
import GuestBridge.Import
import GuestBridge.Text.Units

/-!
# Guest modules

A guest keeps strings, string builders, arrays of strings and wrappers of host
values in a handle table, and offers the exports that a bridge drives. Some exports
are optional. A guest may be told to refuse wrappers, to cross back while it makes
one, or to act before it takes a report.
-/

namespace GuestBridge

/-- An object of the guest. -/
inductive GuestObject where
  | string (units : Array UInt16)
  | builder (units : Array UInt16)
  | stringArray (items : Array (Option Handle))
  /-- Stands for a host value, and keeps it alive until freed. -/
  | wrapper (value : HostValue)

/-- The word for the kind of a guest object. -/
def GuestObject.kind : GuestObject → String
  | string _ => "string"
  | builder _ => "string builder"
  | stringArray _ => "string array"
  | wrapper _ => "wrapper"

/-- What a guest object keeps alive. -/
def GuestObject.holds : GuestObject → List HostId
  | wrapper v => v.holds
  | _ => []

/-- The exports that a guest may lack. -/
inductive OptionalExport where
  | reportValue
  | reportString
  | stringLength
  | stringCharAt
  deriving DecidableEq, Repr

namespace OptionalExport

/-- The name of an optional export. -/
def name : OptionalExport → String
  | reportValue => "reportGarbageCollectedValue"
  | reportString => "reportGarbageCollectedString"
  | stringLength => "stringLength"
  | stringCharAt => "stringCharAt"

/-- All optional exports. -/
def all : List OptionalExport := [reportValue, reportString, stringLength, stringCharAt]

/-- The optional export of a name. -/
def ofName? (s : String) : Option OptionalExport := all.find? fun e => e.name = s

end OptionalExport

/-- The two kinds of collection notices. -/
inductive Channel where
  | value
  | string
  deriving DecidableEq, Repr

/-- The word for a kind of notices. -/
def Channel.name : Channel → String
  | value => "Value"
  | string => "String"

/-- The export that takes notices of a kind. -/
def Channel.export : Channel → OptionalExport
  | value => .reportValue
  | string => .reportString

/-- What a guest does when it is given a notice: it crosses back, each time as the answers so far
tell it, and in the end takes the notice or not. -/
inductive Reaction where
  /-- Takes the notice. -/
  | accept
  /-- Raises an error, so that the notice is not taken. -/
  | reject (error : BridgeError)
  /-- Hashes a value. -/
  | hash (value : HostExpr) (next : Int32 → Reaction)
  /-- Wraps a value. -/
  | wrap (value : HostExpr) (next : Except BridgeError (Option Handle) → Reaction)
  /-- Makes a weak reference; with a token the death of the value is reported. -/
  | weakRef (channel : Channel) (value : HostExpr) (token : Option GuestExpr)
    (next : Except BridgeError Unit → Reaction)
  /-- Asks for a collection. -/
  | collect (next : Reaction)

/-- How a guest behaves when the bridge calls it. -/
structure GuestMode where
  /-- Makes no wrappers. -/
  refuse : Bool := false
  /-- Wraps the value once more before it makes the next wrapper. -/
  reenter : Bool := false
  /-- What it does with a notice of a channel and a token. -/
  onReport : Channel → GuestValue → Reaction := fun _ _ => .accept

/-- A call of an import by a guest program. -/
structure ProgramCall where
  module : String
  name : String
  args : List GuestExpr
  /-- The variable that takes the result. -/
  target : Option String := none

/-- What a guest does when it is run. -/
inductive Program where
  | idle
  | fail (text : String)
  /-- Writes its arguments to standard output, one on a line. -/
  | echo
  | calls (calls : List ProgramCall)

/-- A guest module. -/
structure Guest where
  heap : HandleTable GuestObject := {}
  imports : ImportObject
  program : Program
  /-- Whether the module has optional exports at all. -/
  hasOptional : Bool := true
  /-- The optional exports that are switched on. -/
  exports : List OptionalExport := OptionalExport.all
  /-- The notices taken so far. -/
  reports : Array (Channel × GuestValue) := #[]
  mainArgs : Option Handle := none
  mode : GuestMode := {}

namespace Guest

/-- What a guest keeps alive on the host side. -/
def holds (g : Guest) : List HostId :=
  (g.heap.entries.flatMap fun e => e.2.holds) ++
    (g.reports.toList.flatMap fun r => r.2.holds)

/-- Whether an optional export is present. -/
def provides (g : Guest) (e : OptionalExport) : Bool := g.hasOptional && g.exports.contains e

/-- Fails unless an optional export is present. -/
def require (g : Guest) (e : OptionalExport) : Except BridgeError Unit :=
  if g.provides e then .ok () else .error (.missingExport e.name)

/-- Switches an optional export on or off. -/
def setExport (g : Guest) (e : OptionalExport) (present : Bool) : Guest :=
  { g with exports := if present then e :: g.exports else g.exports.filter (· ≠ e) }

/-- Allocates an object. -/
def alloc (g : Guest) (o : GuestObject) : Handle × Guest :=
  let (h, heap) := g.heap.insert o
  (h, { g with heap })

/-- Frees an object; whether there was one. -/
def free (g : Guest) (h : Handle) : Bool × Guest :=
  let (old, heap) := g.heap.remove h
  (old.isSome, { g with heap })

/-- The object of a handle. -/
def object (g : Guest) (h : Handle) : Except BridgeError GuestObject :=
  (g.heap.get? h).elim (.error (.staleHandle h)) .ok

/-- The error of an object of another kind. -/
def mismatch (expected : String) (found : GuestObject) : BridgeError :=
  .typeMismatch expected found.kind

/-- The units of a string. -/
def stringUnits (g : Guest) (h : Handle) : Except BridgeError (Array UInt16) := do
  match ← g.object h with
  | .string us => return us
  | o => throw (mismatch "string" o)

/-- The text of a string. -/
def stringValue (g : Guest) (h : Handle) : Except BridgeError String := do
  return Text.decode (← g.stringUnits h).toList

/-- The items of a string array. -/
def stringArray (g : Guest) (h : Handle) : Except BridgeError (Array (Option Handle)) := do
  match ← g.object h with
  | .stringArray items => return items
  | o => throw (mismatch "string array" o)

/-- The host value behind a wrapper. -/
def wrappedValue (g : Guest) (h : Handle) : Except BridgeError HostValue := do
  match ← g.object h with
  | .wrapper v => return v
  | o => throw (mismatch "wrapper" o)

/-- Allocates a string. -/
def allocString (g : Guest) (text : String) : Handle × Guest :=
  g.alloc (.string (Text.encode text).toArray)

/-! ## Exports -/

/-- Makes an array of strings, all null. -/
def createStringArray (g : Guest) (length : Int32) : Except BridgeError (Handle × Guest) :=
  if length < 0 then .error (.guest s!"negative array size {length.toInt}")
  else .ok (g.alloc (.stringArray (Array.replicate length.toInt.toNat none)))

/-- Makes an empty string builder. -/
def createStringBuilder (g : Guest) : Handle × Guest := g.alloc (.builder #[])

/-- Appends a unit to a string builder. -/
def appendChar (g : Guest) (h : Handle) (code : Int32) : Except BridgeError Guest := do
  match ← g.object h with
  | .builder us => return { g with heap := g.heap.set h (.builder (us.push (unitOfCode code))) }
  | o => throw (mismatch "string builder" o)

/-- Makes the string of what a string builder has gathered; the builder stays. -/
def buildString (g : Guest) (h : Handle) : Except BridgeError (Handle × Guest) := do
  match ← g.object h with
  | .builder us => return g.alloc (.string us)
  | o => throw (mismatch "string builder" o)

/-- The position of an index in `n` items. -/
def position? (index : Int32) (n : Nat) : Option Nat :=
  if 0 ≤ index.toInt ∧ index.toInt < n then some index.toInt.toNat else none

/-- Stores a string in an array. -/
def setToStringArray (g : Guest) (array : Handle) (index : Int32) (value : Handle) :
    Except BridgeError Guest := do
  match ← g.object value with
  | .string _ =>
    match ← g.object array with
    | .stringArray items =>
      match position? index items.size with
      | some i =>
        return { g with heap := g.heap.set array (.stringArray (items.setIfInBounds i value)) }
      | none => throw (.indexOutOfBounds index items.size)
    | o => throw (mismatch "string array" o)
  | _ => throw (.guest "array store of a non-string")

/-- The number of units of a string, if a narrow integer can tell it. -/
def stringLength (g : Guest) (h : Handle) : Except BridgeError Int32 := do
  g.require .stringLength
  let units ← g.stringUnits h
  if units.size < 0x80000000 then return Int32.ofNat units.size
  throw (.guest "string too long")

/-- The unit of a string at an index. -/
def stringCharAt (g : Guest) (h : Handle) (index : Int32) : Except BridgeError Int32 := do
  g.require .stringCharAt
  let units ← g.stringUnits h
  match (position? index units.size).bind (units[·]?) with
  | some u => return Int32.ofNat u.toNat
  | none => throw (.indexOutOfBounds index units.size)

/-- Takes a notice. -/
def takeReport (g : Guest) (channel : Channel) (token : GuestValue) :
    Except BridgeError Guest := do
  g.require channel.export
  return { g with reports := g.reports.push (channel, token) }

/-! ## Strings across the bridge -/

/-- Feeds units to a string builder. -/
def appendUnits (g : Guest) (h : Handle) (units : List UInt16) : Except BridgeError Guest :=
  units.foldlM (fun g u => g.appendChar h (Int32.ofNat u.toNat)) g

/-- Makes a guest string of a text, one unit at a time. -/
def makeString (g : Guest) (text : String) : Except BridgeError (Handle × Guest) := do
  let (builder, g) := g.createStringBuilder
  let g ← g.appendUnits builder (Text.encode text)
  g.buildString builder

/-- Reads a guest string, one unit at a time. -/
def readString (g : Guest) (h : Handle) : Except BridgeError String := do
  let length ← g.stringLength h
  let units ← (List.range length.toInt.toNat).mapM fun i => do
    return unitOfCode (← g.stringCharAt h (Int32.ofNat i))
  return Text.decode units

/-- Fills an array of strings from an index on. -/
def fillStringArray (g : Guest) (array : Handle) :
    Nat → List String → Except BridgeError Guest
  | _, [] => .ok g
  | i, t :: ts => do
    let (string, g) ← g.makeString t
    let g ← g.setToStringArray array (Int32.ofNat i) string
    fillStringArray g array (i + 1) ts

/-- Makes an array of guest strings, if a narrow integer can tell how many there are. -/
def makeStringArray (g : Guest) (texts : List String) : Except BridgeError (Handle × Guest) :=
  if texts.length < 0x80000000 then do
    let (array, g) ← g.createStringArray (Int32.ofNat texts.length)
    let g ← g.fillStringArray array 0 texts
    return (array, g)
  else .error (.indexOutOfBounds Int32.maxValue texts.length)

end Guest

end GuestBridge
