import GuestBridge.Json
import GuestBridge.Error
import GuestBridge.Host.Object
import GuestBridge.IdentityHash
import GuestBridge.OrderedMap

/-!
# Configurations

A configuration says where console lines go, which globals can be named, and where
the hash sequence starts. A JSON object is laid over a configuration key by key; the
result has to be usable as a whole.

* `validate_eq_ok_iff`: what passes is what can be used.
-/

namespace GuestBridge

-- Powers are those of the core library, whatever is imported besides.
attribute [local instance (high)] instPowNat

/-- Where finished console lines go. -/
inductive ConsoleMode where
  | log
  | stdio
  | silent
  deriving DecidableEq, Repr

namespace ConsoleMode

/-- The word for a console mode. -/
def name : ConsoleMode → String
  | log => "log"
  | stdio => "stdio"
  | silent => "silent"

/-- The console mode of a word. -/
def ofName? (s : String) : Option ConsoleMode := [log, stdio, silent].find? fun m => m.name = s

/-- The console mode that a JSON value spells: its word, or an object with the word as its only
key and null as the value. -/
def ofJson? : Json → Option ConsoleMode
  | .string s => ofName? s
  | .object fields =>
    match fields with
    | [] => none
    | (key, _) :: rest =>
      if rest.all fun f => f.1 = key then
        match Json.lastField? fields key with
        | some .null => ofName? key
        | _ => none
      else none
  | _ => none

end ConsoleMode

/-- What can be configured. -/
structure Config where
  hashSeed : UInt32 := Hasher.defaultSeed
  console : ConsoleMode := .log
  globals : List String := []
  deriving DecidableEq, Repr

namespace Config

/-- The keys of a configuration. -/
def keys : List String := ["hash_seed", "console", "globals"]

/-- A 32-bit number. -/
def seedOfJson? : Json → Option UInt32
  | .natural n => if n < 2 ^ (32 : Nat) then some n.toUInt32 else none
  | _ => none

/-- A text. -/
def nameOfJson? : Json → Option String
  | .string s => some s
  | _ => none

/-- A list of texts. -/
def globalsOfJson? : Json → Option (List String)
  | .array items => items.mapM nameOfJson?
  | _ => none

/-- Fails with the first problem that keeps a configuration from being used. -/
def validate (c : Config) : Except ConfigProblem Config :=
  if c.hashSeed = 0 then .error .zeroSeed
  else
    match c.globals.find? fun name => (Global.ofName? name).isNone with
    | some name => .error (.unknownGlobal name)
    | none => .ok c

/-- A configuration that a bridge can be loaded with. -/
structure Usable (c : Config) : Prop where
  hashSeed : c.hashSeed ≠ 0
  globals : ∀ name ∈ c.globals, (Global.ofName? name).isSome

/-- **What passes is what can be used**, and it passes as it is. -/
theorem validate_eq_ok_iff {c c' : Config} : c.validate = .ok c' ↔ c' = c ∧ c.Usable := by
  unfold validate
  constructor
  · intro h
    split at h
    · cases h
    · next hseed =>
      split at h
      · cases h
      · next hfind =>
        cases h
        refine ⟨rfl, hseed, fun name hname => ?_⟩
        have hknown := List.find?_eq_none.1 hfind name hname
        simpa [Option.isNone_iff_eq_none, Option.isSome_iff_ne_none] using hknown
  · rintro ⟨rfl, hseed, hglobals⟩
    have hfind : c'.globals.find? (fun name => (Global.ofName? name).isNone) = none :=
      List.find?_eq_none.2 fun name hname => by
        simpa [Option.isNone_iff_eq_none, Option.isSome_iff_ne_none] using hglobals name hname
    rw [if_neg hseed, hfind]

/-- The keys of a configuration with its values. -/
def toMap (c : Config) : OrderedMap String Json :=
  .ofList [("hash_seed", .natural c.hashSeed.toNat), ("console", .string c.console.name),
    ("globals", .array (c.globals.map .string))]

/-- The value of a key if it is there and has its type, the default one if it is not there. -/
def readKey {α : Type} (values : OrderedMap String Json) (key : String) (read? : Json → Option α)
    (default : α) : Except ConfigProblem α :=
  match values.find? key with
  | none => .ok default
  | some json => (read? json).elim (.error .malformed) .ok

/-- The configuration of keys with values; no other keys may occur. -/
def ofMap (values : OrderedMap String Json) : Except ConfigProblem Config := do
  unless values.keys.all keys.contains do throw .malformed
  let base : Config := {}
  let hashSeed ← readKey values "hash_seed" seedOfJson? base.hashSeed
  let console ← readKey values "console" ConsoleMode.ofJson? base.console
  let globals ← readKey values "globals" globalsOfJson? base.globals
  return { hashSeed, console, globals }

/-- The configuration with the keys of a JSON object laid over it. -/
def overlay (c : Config) (text : String) : Except ConfigProblem Config :=
  match Json.read? text with
  | some (.object fields) => do validate (← ofMap (c.toMap.insertAll fields))
  | _ => .error .malformed

/-- The configuration with a file laid over it; `content` is what the file holds, if it is
there. -/
def overlayFile (c : Config) (path : String) (content : Option String) :
    Except ConfigProblem Config :=
  match content with
  | some text => c.overlay text
  | none => .error (.unreadable path (.ofPath path))

end Config

end GuestBridge
