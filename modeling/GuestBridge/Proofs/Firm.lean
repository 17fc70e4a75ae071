import GuestBridge.Proofs.Strings

/-!
# What is alive without the registry

The registry keeps strings alive and nothing else, and a string holds nothing. So whatever
else is alive is alive without the registry, which is forgetful in its own time: the *firm*
part of a heap is what remains when nothing is held on account of the registry. It depends
on the variables, the globals, the guest and the calls in progress, and on nothing that a
collection changes.

* `Heap.cell?_reclaim_of_carried`: what stays alive when cells and roots are carried over.
* `Heap.cell?_reclaim_alloc`: what a new cell keeps alive.
* `World.firm_of_settled`: **what is alive is firm, except for strings.**
-/

namespace GuestBridge

namespace Heap

variable {h h' : Heap} {roots roots' ids : List HostId} {i : HostId} {c : Cell}

/-! ## Reclaims for other roots -/

section Roots

/-- **What stays when cells and roots are carried over** to another heap. -/
theorem cell?_reclaim_of_carried (hn : h.cells.keys.Nodup) (hn' : h'.cells.keys.Nodup)
    (hcells : ∀ j d, (h.reclaim roots).cell? j = some d → h'.cell? j = some d)
    (hroots : ∀ j ∈ roots, j ∈ roots') (hc : (h.reclaim roots).cell? i = some c) :
    (h'.reclaim roots').cell? i = some c := by
  refine cell?_reclaim_of_closed (P := fun j => ∃ d, (h.reclaim roots).cell? j = some d) hn' ?_
    ⟨c, hc⟩ (hcells i c hc)
  rintro j ⟨d, hd⟩
  rcases ((cell?_reclaim_iff hn).1 hd).2 with hroot | ⟨l, c', hc', hm⟩
  · exact .inl (hroots j hroot)
  · exact .inr ⟨l, c', ⟨c', hc'⟩, hcells l c' hc', hm⟩

/-- More roots keep more. -/
theorem cell?_reclaim_mono (hn : h.cells.keys.Nodup) (hsub : ∀ j ∈ roots, j ∈ roots')
    (hc : (h.reclaim roots).cell? i = some c) : (h.reclaim roots').cell? i = some c :=
  cell?_reclaim_of_carried hn hn (fun _ _ => cell?_of_reclaim hn) hsub hc

/-- A reclaim for more roots makes no difference to a later one for fewer. -/
theorem cell?_reclaim_reclaim (hn : h.cells.keys.Nodup) (hsub : ∀ j ∈ roots, j ∈ roots')
    (i : HostId) : ((h.reclaim roots').reclaim roots).cell? i = (h.reclaim roots).cell? i := by
  have hn' := nodup_reclaim hn roots'
  apply Option.ext
  intro c
  constructor <;> intro hc
  · exact cell?_reclaim_of_carried hn' hn
      (fun _ _ hd => cell?_of_reclaim hn (cell?_of_reclaim hn' hd)) (fun _ => id) hc
  · exact cell?_reclaim_of_carried hn hn' (fun _ _ => cell?_reclaim_mono hn hsub) (fun _ => id) hc

/-- Reclaims of heaps with the same cells. -/
theorem cell?_reclaim_congr (hn : h.cells.keys.Nodup) (hn' : h'.cells.keys.Nodup)
    (hcells : ∀ j, h'.cell? j = h.cell? j) (roots : List HostId) (i : HostId) :
    (h'.reclaim roots).cell? i = (h.reclaim roots).cell? i := by
  apply Option.ext
  intro c
  constructor <;> intro hc
  · exact cell?_reclaim_of_carried hn' hn (fun j d hd => hcells j ▸ cell?_of_reclaim hn' hd)
      (fun _ => id) hc
  · exact cell?_reclaim_of_carried hn hn'
      (fun j d hd => (hcells j).trans (cell?_of_reclaim hn hd)) (fun _ => id) hc

/-- Roots that are there anyway, or that what is there holds, make no difference. -/
theorem cell?_reclaim_append (hn : h.cells.keys.Nodup)
    (hids : ∀ j ∈ ids, j ∈ roots ∨ ∃ l d, (h.reclaim roots).cell? l = some d ∧ j ∈ d.holds)
    (i : HostId) : (h.reclaim (ids ++ roots)).cell? i = (h.reclaim roots).cell? i := by
  have hmore : ∀ j d, (h.reclaim roots).cell? j = some d →
      (h.reclaim (ids ++ roots)).cell? j = some d := fun _ _ =>
    cell?_reclaim_mono hn fun _ => List.mem_append_right _
  apply Option.ext
  intro c
  refine ⟨fun hc => ?_, hmore i c⟩
  refine cell?_reclaim_of_closed (P := fun j => ∃ d, (h.reclaim (ids ++ roots)).cell? j = some d) hn
    ?_ ⟨c, hc⟩ (cell?_of_reclaim hn hc)
  -- what the larger set of roots keeps is held by a root or by another such cell
  rintro j ⟨d, hd⟩
  rcases ((cell?_reclaim_iff hn).1 hd).2 with hroot | ⟨l, c', hc', hm⟩
  · rcases List.mem_append.1 hroot with hid | hroot
    · refine (hids j hid).imp id ?_
      rintro ⟨l, c', hc', hm⟩
      exact ⟨l, c', ⟨c', hmore l c' hc'⟩, cell?_of_reclaim hn hc', hm⟩
    · exact .inl hroot
  · exact .inr ⟨l, c', ⟨c', hc'⟩, cell?_of_reclaim hn hc', hm⟩

/-- What is there is a root, or is held by what is there. -/
theorem held_of_isAlive_reclaim (hn : h.cells.keys.Nodup) (hi : (h.reclaim roots).isAlive i) :
    i ∈ roots ∨ ∃ l d, (h.reclaim roots).cell? l = some d ∧ i ∈ d.holds := by
  obtain ⟨c, hc⟩ := isAlive_iff.1 hi
  exact ((cell?_reclaim_iff hn).1 hc).2

/-- **A new cell keeps alive what it holds**, and what the roots keep alive stays as it was. -/
theorem cell?_reclaim_alloc (hh : h.OK) (hc : ∀ j ∈ c.holds, j ∈ roots) (i : HostId) :
    ((h.alloc c).2.reclaim ((h.alloc c).1 :: roots)).cell? i =
      if i = (h.alloc c).1 then some c else (h.reclaim roots).cell? i := by
  have hn : (h.alloc c).2.cells.keys.Nodup := OrderedMap.nodup_keys_insert hh.nodup _ _
  split_ifs with hi
  · refine cell?_reclaim_of_root hn ?_ (by rw [hi]; exact List.mem_cons_self)
    rw [cell?_alloc, if_pos hi]
  apply Option.ext
  intro d
  constructor <;> intro hd
  · -- the other cells that stay, without the new one
    refine cell?_reclaim_of_closed (P := fun j => j ≠ (h.alloc c).1 ∧
      ∃ d, ((h.alloc c).2.reclaim ((h.alloc c).1 :: roots)).cell? j = some d) hh.nodup ?_
      ⟨hi, d, hd⟩ ?_
    · rintro j ⟨hj, d', hd'⟩
      rcases ((cell?_reclaim_iff hn).1 hd').2 with hroot | ⟨l, c', hc', hm⟩
      · exact .inl ((List.mem_cons.1 hroot).resolve_left hj)
      · have hl := cell?_of_reclaim hn hc'
        rw [cell?_alloc] at hl
        split_ifs at hl with he
        · obtain rfl := Option.some.inj hl
          exact .inl (hc j hm)
        · exact .inr ⟨l, c', ⟨he, c', hc'⟩, hl, hm⟩
    · have := cell?_of_reclaim hn hd
      rwa [cell?_alloc, if_neg hi] at this
  · exact cell?_reclaim_of_carried hh.nodup hn
      (fun j d' hd' => hh.cell?_alloc_of_some (cell?_of_reclaim hh.nodup hd') c)
      (fun _ => List.mem_cons_of_mem _) hd

end Roots

end Heap

/-! ## The firm part of a heap -/

/-- What a call that holds `held` finds alive, if nothing is held on account of the registry. -/
def World.firm (w : World) (held : List HostId) : Heap := (w.unlinked.settled held).heap

section Firm

variable {held : List HostId} {w : World} {i : HostId} {c : Cell}

theorem World.cell?_of_firm (hn : w.heap.cells.keys.Nodup) (hc : (w.firm held).cell? i = some c) :
    w.heap.cell? i = some c :=
  Heap.cell?_of_reclaim (h := w.heap) hn hc

/-- What is firm is alive. -/
theorem World.settled_of_firm (hn : w.heap.cells.keys.Nodup)
    (hc : (w.firm held).cell? i = some c) : (w.settled held).heap.cell? i = some c := by
  refine Heap.cell?_reclaim_mono (h := w.heap) hn (fun j hj => ?_) hc
  exact List.mem_append.2 ((List.mem_append.1 hj).imp id fun hj => World.mem_holds_iff.2 (.inr hj))

theorem World.isAlive_settled_of_firm (hn : w.heap.cells.keys.Nodup)
    (hi : (w.firm held).isAlive i) : (w.settled held).heap.isAlive i := by
  obtain ⟨c, hc⟩ := Heap.isAlive_iff.1 hi
  exact Heap.isAlive_of_cell? (World.settled_of_firm hn hc)

/-- **What is alive is firm, except for strings.** -/
theorem World.firm_of_settled (hw : w.OK held) (hc : (w.settled held).heap.cell? i = some c)
    (hstring : ∀ t, c ≠ .string t) : (w.firm held).cell? i = some c := by
  have hn := hw.heap.nodup
  refine Heap.cell?_reclaim_of_strings (h := w.heap) hn hn (fun _ _ => Heap.cell?_of_reclaim hn)
    (fun j hj => ?_) hc hstring
  rcases List.mem_append.1 hj with hj | hj
  · exact .inl (List.mem_append_left _ hj)
  rcases World.mem_holds_iff.1 hj with hj | hj
  · exact .inr (hw.context.registry.string_of_mem_holds hj)
  · exact .inl (List.mem_append_right _ hj)

/-- An object or a symbol is firm iff it is alive. -/
theorem World.isAlive_firm_iff (hw : w.OK held) {r : Referent} (hr : w.heap.Knows r)
    (hstring : r.isString = false) :
    (w.firm held).isAlive r.id ↔ (w.settled held).heap.isAlive r.id := by
  refine ⟨World.isAlive_settled_of_firm hw.heap.nodup, fun ha => ?_⟩
  obtain ⟨c, hc⟩ := Heap.isAlive_iff.1 ha
  have hc₀ := Heap.cell?_of_reclaim hw.heap.nodup hc
  have hbacks := hr.backs (Heap.isAlive_of_cell? hc₀)
  refine Heap.isAlive_of_cell? (World.firm_of_settled hw hc ?_)
  rintro t rfl
  cases r <;> simp_all [Heap.Backs, Referent.toValue, Referent.id, Referent.isString]

/-- What a call holds is firm, as far as it is alive. -/
theorem World.isAlive_firm_of_held (hn : w.heap.cells.keys.Nodup) (hi : i ∈ held)
    (ha : w.heap.isAlive i) : (w.firm held).isAlive i :=
  Heap.isAlive_reclaim_of_root (h := w.heap) hn ha (List.mem_append_left _ hi)

end Firm

end GuestBridge
