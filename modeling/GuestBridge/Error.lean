import GuestBridge.Guest.HandleTable

/-!
# Errors

What can go wrong when a value or control crosses between host and guest, and the
text that says so.
-/

namespace GuestBridge

/-- Why a file cannot be read. -/
inductive FileProblem where
  | missing
  | directory
  | nameTooLong
  /-- The path holds the null character. -/
  | nullInPath
  deriving DecidableEq, Repr

namespace FileProblem

/-- The text of a problem with a file. -/
def message : FileProblem → String
  | missing => "No such file or directory (os error 2)"
  | directory => "Is a directory (os error 21)"
  | nameTooLong => "File name too long (os error 36)"
  | nullInPath => "file name contained an unexpected NUL byte"

/-- A name in a path has at most this many bytes. -/
def nameLimit : Nat := 255

/-- A path has at most this many bytes. -/
def pathLimit : Nat := 4095

/-- Whether a name in a path leads to a directory that is always there. -/
def isStanding (name : String) : Bool := name = "" || name = "." || name = ".."

/-- Why there is no file to read under a path where nothing was made. The first name that leads
somewhere else decides: the names after it are not looked up. -/
def ofPath (path : String) : FileProblem :=
  if path.toList.contains '\x00' then nullInPath
  else if pathLimit < path.utf8ByteSize then nameTooLong
  else
    match (path.splitOn "/").dropWhile isStanding with
    | [] => if path.isEmpty then missing else directory
    | name :: _ => if nameLimit < name.utf8ByteSize then nameTooLong else missing

end FileProblem

/-- What is wrong with a configuration. -/
inductive ConfigProblem where
  /-- The text is no JSON object with the known keys and values of their types. -/
  | malformed
  | unknownGlobal (name : String)
  | zeroSeed
  | unreadable (path : String) (problem : FileProblem)
  deriving DecidableEq, Repr

/-- The text of a configuration problem. -/
def ConfigProblem.message : ConfigProblem → String
  | malformed => "malformed configuration"
  | unknownGlobal name => s!"unknown global '{name}'"
  | zeroSeed => "hash_seed must be non-zero"
  | unreadable path problem => s!"{path}: {problem.message}"

/-- The reasons for which a crossing fails. -/
inductive BridgeError where
  /-- A global name is not bound. -/
  | notFound (name : String)
  /-- What a name resolves to cannot be called. -/
  | notCallable (name : String)
  | notConstructible
  /-- A property of a value that is no object was asked for. -/
  | notAnObject (kind : String)
  /-- An accessor without a setter was assigned to. -/
  | readOnlyProperty (name : String)
  | typeMismatch (expected found : String)
  /-- The guest lacks an optional export. -/
  | missingExport (name : String)
  | missingImport (module name : String)
  /-- A weak reference was asked for to a value that cannot have one. -/
  | invalidWeakTarget (kind : String)
  /-- The handle's object was freed. -/
  | staleHandle (handle : Handle)
  | indexOutOfBounds (index : Int32) (length : Nat)
  /-- An error that guest code raised. -/
  | guest (text : String)
  /-- The guest module could not be instantiated. -/
  | load (locator problem : String)
  /-- There is no guest behind the bridge. -/
  | notInstantiated
  | config (problem : ConfigProblem)
  /-- Calls nest past the bound on their depth. -/
  | callDepthExceeded
  deriving DecidableEq, Repr

/-- The text of an error. -/
def BridgeError.message : BridgeError → String
  | notFound name => s!"'{name}' is not defined"
  | notCallable name => s!"'{name}' is not a function"
  | notConstructible => "value is not a constructor"
  | notAnObject kind => s!"cannot read properties of {kind}"
  | readOnlyProperty name => s!"cannot assign to read only property '{name}'"
  | typeMismatch expected found => s!"type mismatch: expected {expected}, found {found}"
  | missingExport name => s!"guest module does not export '{name}'"
  | missingImport module name => s!"missing import {module}.{name}"
  | invalidWeakTarget kind => s!"invalid weak reference target: {kind}"
  | staleHandle handle => s!"stale guest handle {handle.display}"
  | indexOutOfBounds index length => s!"index {index.toInt} out of bounds for length {length}"
  | guest text => text
  | load locator problem => s!"failed to load module '{locator}': {problem}"
  | notInstantiated => "no guest module instance is bound to this bridge"
  | config problem => s!"invalid configuration: {problem.message}"
  | callDepthExceeded => "calls nest too deeply"

end GuestBridge
