import GuestBridge.OrderedMap
import GuestBridge.Host.Value
import GuestBridge.Guest.HandleTable

/-!
# The identity registry

Which guest handle stands for a host value, and which host value for a handle. An
object or a symbol is linked weakly. A primitive is linked through its content: the
first value stored under a content stays as its key, and the handle of the last
one leads back to that one's value.

* `find?_record`: a recorded value is found again.
* `sweep_sweep`: a second sweep with nothing in between removes nothing.
-/

namespace GuestBridge

/-- The content of a primitive: numbers as themselves but for the sign of zero, strings by
text. -/
inductive PrimitiveKey where
  | undefined
  | bool (b : Bool)
  | number (x : Double)
  | bigint (n : Int)
  | string (text : String)
  deriving DecidableEq, Repr

/-- The content of a value, if it is a primitive that can be linked. -/
def PrimitiveKey.of? : HostValue → Option PrimitiveKey
  | .undefined => some undefined
  | .bool b => some (bool b)
  | .number x => some (number (if x.equals (.zero false) then .zero false else x))
  | .bigint n => some (bigint n)
  | .string s => some (string s.text)
  | _ => none

/-- What leads from a handle back to the host. -/
inductive Backlink where
  /-- A wrapper instance, or the object or symbol that the handle was made for. -/
  | weak (referent : Referent)
  /-- The primitive that the handle was made for. -/
  | primitive (value : HostValue)
  deriving Repr

/-- The handle of a primitive's content, and the value first stored under that content. -/
structure PrimitiveLink where
  key : HostValue
  handle : Handle

/-- How a host value is looked up. -/
inductive Lookup where
  | identity (referent : Referent)
  | primitive (key : PrimitiveKey)

/-- How a value is looked up; null is not. -/
def Lookup.of? (v : HostValue) : Option Lookup :=
  match v.identity? with
  | some r => some (identity r)
  | none => (PrimitiveKey.of? v).map primitive

/-- The links between host values and guest handles. -/
structure Registry where
  hostLinks : OrderedMap HostId Handle := {}
  guestLinks : OrderedMap Handle Backlink := {}
  primitives : OrderedMap PrimitiveKey PrimitiveLink := {}

/-- Numbers of links, or of links removed. -/
structure LinkCounts where
  hostLinks : Nat := 0
  guestLinks : Nat := 0
  primitives : Nat := 0
  deriving DecidableEq, Repr

/-- All links together. -/
def LinkCounts.total (c : LinkCounts) : Nat := c.hostLinks + c.guestLinks + c.primitives

namespace Registry

/-- The handle recorded for a value, if the guest still has an object behind it. -/
def find? (r : Registry) (isLive : Handle → Bool) (l : Lookup) : Option Handle :=
  match l with
  | .identity referent => (r.hostLinks.find? referent.id).filter isLive
  | .primitive key => ((r.primitives.find? key).map PrimitiveLink.handle).filter isLive

/-- Links a value and a handle both ways. -/
def record (r : Registry) (l : Lookup) (v : HostValue) (h : Handle) : Registry :=
  match l with
  | .identity referent =>
    { r with
      hostLinks := r.hostLinks.insert referent.id h
      guestLinks := r.guestLinks.insert h (.weak referent) }
  | .primitive key =>
    -- The value stored first under a content stays as its key.
    let first := ((r.primitives.find? key).map PrimitiveLink.key).getD v
    { r with
      primitives := r.primitives.insert key ⟨first, h⟩
      guestLinks := r.guestLinks.insert h (.primitive v) }

/-- Links a handle to the wrapper instance made for it. -/
def recordWrapper (r : Registry) (h : Handle) (wrapper : HostId) : Registry :=
  { r with guestLinks := r.guestLinks.insert h (.weak (.object wrapper)) }

/-- The host value that stands for a handle, if it is still alive. -/
def resolve? (r : Registry) (isAlive : HostId → Bool) (h : Handle) : Option HostValue :=
  match r.guestLinks.find? h with
  | some (.weak referent) => if isAlive referent.id then some referent.toValue else none
  | some (.primitive v) => some v
  | none => none

/-- Whether a backlink still leads to a value. -/
def keepsBacklink (isAlive : HostId → Bool) : Backlink → Bool
  | .weak referent => isAlive referent.id
  | .primitive _ => true

/-- Removes the links that lost their host value or their guest object. -/
def sweep (r : Registry) (isAlive : HostId → Bool) (isLive : Handle → Bool) : Registry where
  hostLinks := r.hostLinks.filter fun i h => isAlive i && isLive h
  guestLinks := r.guestLinks.filter fun h b => keepsBacklink isAlive b && isLive h
  primitives := r.primitives.filter fun _ l => isLive l.handle

/-- The numbers of links. -/
def counts (r : Registry) : LinkCounts where
  hostLinks := r.hostLinks.size
  guestLinks := r.guestLinks.size
  primitives := r.primitives.size

/-- What the registry itself keeps alive: the strings among the primitives. -/
def holds (r : Registry) : List HostId :=
  (r.primitives.values.flatMap fun l => l.key.holds) ++
    r.guestLinks.values.flatMap fun
      | .weak _ => []
      | .primitive v => v.holds

/-- **A recorded value is found again** while the guest keeps the object. -/
theorem find?_record {r : Registry} {isLive : Handle → Bool} {l : Lookup} {v : HostValue}
    {h : Handle} (hl : isLive h) : (r.record l v h).find? isLive l = some h := by
  cases l <;> simp [record, find?, Option.filter, hl]

/-- **A second sweep with nothing in between removes nothing.** -/
theorem sweep_sweep (r : Registry) (isAlive : HostId → Bool) (isLive : Handle → Bool) :
    (r.sweep isAlive isLive).sweep isAlive isLive = r.sweep isAlive isLive := by
  simp [sweep, OrderedMap.filter, List.filter_filter]

end Registry

end GuestBridge
