import GuestBridge.Host.Object

/-!
# The host heap

Every object, symbol and string that is alive has a cell. A cell dies when neither
a root nor another living cell holds it, so a value that is dropped takes along
what only it held, and cells that hold each other in a ring stay.

* `contains_ofList`: a set of identities has the members it was made from.
-/

namespace GuestBridge

/-- A set of identities, with one mark for each up to a bound. -/
structure IdSet where
  marks : Array Bool

namespace IdSet

/-- Whether `i` is a member. -/
def contains (s : IdSet) (i : HostId) : Bool := s.marks[i.index]?.getD false

/-- Marks an identity below the bound. -/
def mark (s : IdSet) (i : HostId) : IdSet := ⟨s.marks.setIfInBounds i.index true⟩

/-- A bound above the identities of a list. -/
def bound (is : List HostId) : Nat := is.foldl (fun n i => max n (i.index + 1)) 0

/-- The set of the members of a list. -/
def ofList (is : List HostId) : IdSet := is.foldl mark ⟨Array.replicate (bound is) false⟩

theorem contains_mark (s : IdSet) (i j : HostId) (h : i.index < s.marks.size) :
    (s.mark i).contains j = (decide (i = j) || s.contains j) := by
  obtain ⟨a⟩ := i
  obtain ⟨b⟩ := j
  simp only [mark, contains, Array.getElem?_setIfInBounds, HostId.mk.injEq]
  grind

theorem contains_foldl_mark (is : List HostId) (s : IdSet) (j : HostId)
    (h : ∀ i ∈ is, i.index < s.marks.size) :
    (is.foldl mark s).contains j = (decide (j ∈ is) || s.contains j) := by
  induction is generalizing s with
  | nil => simp
  | cons i is ih =>
    have hs : (s.mark i).marks.size = s.marks.size := by simp [mark]
    rw [List.foldl_cons, ih _ fun k hk => hs ▸ h k (List.mem_cons_of_mem _ hk),
      contains_mark s i j (h i List.mem_cons_self)]
    grind

theorem le_foldl_bound (is : List HostId) (n : Nat) :
    n ≤ is.foldl (fun n i => max n (i.index + 1)) n := by
  induction is generalizing n with
  | nil => exact Nat.le_refl n
  | cons i is ih => exact Nat.le_trans (Nat.le_max_left ..) (ih _)

theorem lt_foldl_bound {is : List HostId} {i : HostId} (h : i ∈ is) (n : Nat) :
    i.index < is.foldl (fun n i => max n (i.index + 1)) n := by
  induction is generalizing n with
  | nil => simp at h
  | cons k is ih =>
    rw [List.foldl_cons]
    rcases List.mem_cons.1 h with rfl | h
    · exact Nat.lt_of_lt_of_le (by omega) (le_foldl_bound is _)
    · exact ih h _

/-- **A set of identities has the members it was made from.** -/
theorem contains_ofList (is : List HostId) (j : HostId) :
    (ofList is).contains j = decide (j ∈ is) := by
  rw [ofList, contains_foldl_mark is _ j fun i hi => by
    simpa [bound] using lt_foldl_bound hi 0]
  simp [contains, Array.getElem?_replicate]
  grind

end IdSet

/-- The cells of the host. -/
structure Heap where
  /-- The identity that the next cell gets. -/
  next : Nat := 0
  cells : OrderedMap HostId Cell := {}

namespace Heap

instance : Inhabited Heap := ⟨{}⟩

/-- Makes a cell with a new identity. -/
def alloc (h : Heap) (c : Cell) : HostId × Heap :=
  (⟨h.next⟩, { next := h.next + 1, cells := h.cells.insert ⟨h.next⟩ c })

/-- The cell of an identity, while it is alive. -/
def cell? (h : Heap) (i : HostId) : Option Cell := h.cells.find? i

/-- Whether an identity is alive. -/
def isAlive (h : Heap) (i : HostId) : Bool := h.cells.contains i

/-- The object of an identity. -/
def object? (h : Heap) (i : HostId) : Option HostObject :=
  match h.cell? i with
  | some (.object o) => some o
  | _ => none

/-- The class definition of an identity. -/
def definition? (h : Heap) (i : HostId) : Option ClassDefinition :=
  match h.cell? i with
  | some (.definition c) => some c
  | _ => none

/-- Replaces a cell. -/
def setCell (h : Heap) (i : HostId) (c : Cell) : Heap := { h with cells := h.cells.insert i c }

/-- Drops cells that nothing holds, at most `n` times over. -/
def dropUnheld (roots : List HostId) : Nat → List (HostId × Cell) → List (HostId × Cell)
  | 0, es => es
  | n + 1, es =>
    let held := IdSet.ofList (roots ++ es.flatMap fun e => e.2.holds)
    let kept := es.filter fun e => held.contains e.1
    if kept.length = es.length then es else dropUnheld roots n kept

/-- The heap without the cells that neither a root nor a remaining cell holds. -/
def reclaim (h : Heap) (roots : List HostId) : Heap :=
  { h with cells := ⟨dropUnheld roots h.cells.size h.cells.entries⟩ }

/-- The definition behind the constructor of a wrapper class. -/
def classDefinition? (h : Heap) (i : HostId) : Option HostId :=
  match h.object? i with
  | some ⟨.class d, _, _⟩ => some d
  | _ => none

/-- The handle that a wrapper instance stands for. -/
def wrappedHandle? (h : Heap) (i : HostId) : Option Handle :=
  match h.object? i with
  | some ⟨.wrapper _ handle, _, _⟩ => some handle
  | _ => none

/-- The target of a weak reference. -/
def weakTarget? (h : Heap) (i : HostId) : Option Referent :=
  match h.object? i with
  | some ⟨.weakRef target, _, _⟩ => some target
  | _ => none

/-- The callable of a function object. -/
def callable? (h : Heap) (i : HostId) : Option Callable :=
  match h.object? i with
  | some ⟨.function c, _, _⟩ => some c
  | _ => none

/-- The name of a class definition. -/
def className (h : Heap) (d : HostId) : String := (h.definition? d).elim "" ClassDefinition.name

/-- The text that an object prints as. -/
def displayObject (h : Heap) (i : HostId) : String :=
  match (h.object? i).map HostObject.kind with
  | some (.function c) => "function " ++ c.name ++ "() \x7b [native code] \x7d"
  | some (.class d) => "class " ++ h.className d
  | some (.wrapper d _) => "[object " ++ h.className d ++ "]"
  | some (.weakRef _) => "[object WeakRef]"
  | _ => "[object Object]"

/-- The text that names an object: a wrapper instance shows its handle. -/
def describeObject (h : Heap) (i : HostId) : String :=
  match (h.object? i).map HostObject.kind with
  | some (.wrapper d handle) => h.className d ++ "(" ++ handle.display ++ ")"
  | _ => h.displayObject i

/-- The text that a value prints as. -/
def display (h : Heap) : HostValue → String
  | .undefined => "undefined"
  | .null => "null"
  | .bool b => if b then "true" else "false"
  | .number x => x.display
  | .bigint n => n.repr
  | .string s => s.text
  | .symbol s => "Symbol(" ++ s.description.getD "" ++ ")"
  | .object i => h.displayObject i

/-- The kind of a value: functions and classes are callable objects. -/
def kind (h : Heap) : HostValue → Kind
  | .undefined => .undefined
  | .null => .null
  | .bool _ => .boolean
  | .number _ => .number
  | .bigint _ => .bigint
  | .string _ => .string
  | .symbol _ => .symbol
  | .object i =>
    match (h.object? i).map HostObject.kind with
    | some (.function _) => .function
    | some (.class _) => .function
    | _ => .object

end Heap

end GuestBridge
