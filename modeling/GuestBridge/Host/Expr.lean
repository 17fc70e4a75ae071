import GuestBridge.Host.Value
import GuestBridge.Guest.HandleTable

/-!
# Descriptions of values and functions

What an embedder writes down to make host and guest values: literals, objects with
their properties, functions with their bodies, and names of variables. A
description is read anew each time a value is made from it.
-/

namespace GuestBridge

/-- What a function does with `this` and its arguments. Constants are of type `κ`, the arguments
of an import call of type `γ`. -/
inductive Body (κ γ : Type) where
  | undefined
  | this
  /-- The argument at a position, or undefined. -/
  | argument (index : Nat)
  | argumentCount
  | const (value : κ)
  /-- The display texts of `this` and all arguments, joined by commas. -/
  | join
  /-- The sum of the arguments that are numbers. -/
  | sum
  /-- Raises a guest error. -/
  | fail (text : String)
  /-- Reads a property of `this`. -/
  | get (key : String)
  /-- Makes an object that has the arguments as properties. -/
  | make (keys : List String)
  /-- Reads a cell. -/
  | load (cell : String)
  /-- Writes the last argument to a cell. -/
  | save (cell : String)
  /-- Calls the first argument with the others. -/
  | apply
  /-- Calls an interop import. -/
  | callImport (name : String) (args : List γ)
  deriving Repr

mutual

/-- A description of a host value. -/
inductive HostExpr where
  | undefined
  | null
  | bool (b : Bool)
  | number (x : Double)
  | bigint (n : Int)
  | string (text : String)
  | symbol (description : Option String)
  | object (fields : List (String × HostExpr))
  | function (name : String) (body : Body HostExpr GuestExpr)
  | constructor (name : String) (call construct : Body HostExpr GuestExpr)
  /-- A fresh wrapper class. -/
  | class (name : String)
  /-- The host value in a variable. -/
  | variable (name : String)

/-- A description of a guest value. -/
inductive GuestExpr where
  | i32 (n : Int32)
  | i64 (n : Int64)
  | f32 (x : Single)
  | f64 (x : Double)
  | ref (handle : Option Handle)
  | external (value : HostExpr)
  | entry (name : String) (body : Body HostExpr GuestExpr)
  | variable (name : String)
  /-- A guest string, allocated when the description is read. -/
  | text (text : String)

end

end GuestBridge
