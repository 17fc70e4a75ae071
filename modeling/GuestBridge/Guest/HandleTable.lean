/-!
# Slots checked by generation

A table keeps values in numbered slots. A freed slot is used again, the last freed
first. The generation of an occupant is the number of times that its slot has been
used again, modulo `2 ^ 32`. A handle names a slot and a generation: one to an earlier
occupant finds nothing.

* `get?_eq_none_of_generation_ne`: a handle of another generation finds nothing.
* `get?_empty`: the empty table has no values.
-/

namespace GuestBridge

/-- A reference to a guest object: a slot and the generation of its occupant. -/
structure Handle where
  index : UInt32
  generation : UInt32
  deriving DecidableEq, Repr, Inhabited

namespace Handle

/-- The text of a handle. -/
def display (h : Handle) : String := s!"#{h.index.toNat}@{h.generation.toNat}"

/-- Handles are ordered by slot, then by generation. -/
def compare (h k : Handle) : Ordering :=
  (Ord.compare h.index.toNat k.index.toNat).then
    (Ord.compare h.generation.toNat k.generation.toNat)

end Handle

/-- A slot: how often it has been used again, and its value, if it is not free. -/
structure Slot (α : Type) where
  reuses : Nat
  value : Option α
  deriving Repr

/-- The generation of the present or last occupant of a slot. -/
def Slot.generation {α : Type} (s : Slot α) : UInt32 := UInt32.ofNat s.reuses

/-- Values in slots, found by handle. -/
structure HandleTable (α : Type) where
  slots : Array (Slot α) := #[]
  /-- Freed slots, the last freed first. -/
  free : List UInt32 := []
  /-- How many slots have a value. -/
  live : Nat := 0
  deriving Repr

namespace HandleTable

variable {α : Type}

instance : Inhabited (HandleTable α) := ⟨{}⟩

/-- The slot of a handle, if its generation is the handle's. -/
def slot? (t : HandleTable α) (h : Handle) : Option (Slot α) :=
  t.slots[h.index.toNat]?.filter fun s => s.generation = h.generation

/-- The value of a handle. -/
def get? (t : HandleTable α) (h : Handle) : Option α := (t.slot? h).bind Slot.value

/-- Whether a handle has a value. -/
def isLive (t : HandleTable α) (h : Handle) : Bool := (t.get? h).isSome

/-- Stores a value in a freed slot, or in a new one if none is free. -/
def insert (t : HandleTable α) (v : α) : Handle × HandleTable α :=
  match t.free with
  | index :: free =>
    let slot : Slot α := ⟨(t.slots[index.toNat]?.elim 0 Slot.reuses) + 1, some v⟩
    (⟨index, slot.generation⟩,
      { slots := t.slots.setIfInBounds index.toNat slot, free, live := t.live + 1 })
  | [] =>
    (⟨t.slots.size.toUInt32, 0⟩,
      { slots := t.slots.push ⟨0, some v⟩, free := [], live := t.live + 1 })

/-- Replaces the value of a handle that has one. -/
def set (t : HandleTable α) (h : Handle) (v : α) : HandleTable α :=
  if t.isLive h then
    { t with slots := t.slots.modify h.index.toNat fun s => { s with value := some v } }
  else t

/-- Frees the slot of a handle that has a value, and gives the value. -/
def remove (t : HandleTable α) (h : Handle) : Option α × HandleTable α :=
  match t.get? h with
  | some v =>
    (some v,
      { slots := t.slots.modify h.index.toNat fun s => { s with value := none },
        free := h.index :: t.free
        live := t.live - 1 })
  | none => (none, t)

/-- The handles that have a value, with their values, by slot. -/
def entries (t : HandleTable α) : List (Handle × α) :=
  t.slots.toList.zipIdx.filterMap fun (s, i) => s.value.map fun v => (⟨i.toUInt32, s.generation⟩, v)

/-- The number of values. -/
def size (t : HandleTable α) : Nat := t.live

/-- Whether there are no values. -/
def isEmpty (t : HandleTable α) : Bool := t.size == 0

theorem slot?_eq_some_iff {t : HandleTable α} {h : Handle} {s : Slot α} :
    t.slot? h = some s ↔ t.slots[h.index.toNat]? = some s ∧ s.generation = h.generation := by
  simp [slot?, Option.filter_eq_some_iff]

/-- **A handle of another generation finds nothing.** -/
theorem get?_eq_none_of_generation_ne {t : HandleTable α} {h : Handle} {s : Slot α}
    (hs : t.slots[h.index.toNat]? = some s) (hg : s.generation ≠ h.generation) :
    t.get? h = none := by
  have : t.slot? h = none := by
    rw [Option.eq_none_iff_forall_ne_some]
    intro s' hs'
    obtain ⟨h1, h2⟩ := slot?_eq_some_iff.1 hs'
    rw [hs, Option.some.injEq] at h1
    exact hg (h1 ▸ h2)
  simp [get?, this]

theorem get?_empty (h : Handle) : ({} : HandleTable α).get? h = none := by
  simp [get?, slot?]

end HandleTable

end GuestBridge
