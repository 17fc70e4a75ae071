import Mathlib.Data.Finset.Card
import Mathlib.Data.Nat.ModEq
import GuestBridge.Proofs.Slots

/-!
# Handles over whole runs of a table

A table is used by inserting, by removing and by replacing values. The generation of a
handle counts how often its slot had been used before, modulo `2 ^ 32`, so a handle
comes back exactly when its slot has been used `2 ^ 32` times more.

* `used_step`, `used_run`: how often a slot has been used is how many of the handles
  that insertions have returned name it.
* `generation_of_handles`: the generation of every handle that a run returns.
* `alias_iff_wrapped`: **two insertions return one handle only after `2 ^ 32` uses of its
  slot, and a removed handle is dead until then.**
-/

namespace GuestBridge.HandleTable

variable {α : Type} {t : HandleTable α} {h k : Handle} {v : α}

/-- What a table can be asked to change. -/
inductive Op (α : Type) where
  | insert (value : α)
  | remove (handle : Handle)
  /-- Replaces a value in its place. -/
  | set (handle : Handle) (value : α)

/-- The table after one change. -/
def step (t : HandleTable α) : Op α → HandleTable α
  | .insert v => (t.insert v).2
  | .remove h => (t.remove h).2
  | .set h v => t.set h v

/-- The handle that a change returns, if it is an insertion. -/
def made (t : HandleTable α) : Op α → List Handle
  | .insert v => [(t.insert v).1]
  | .remove _ => []
  | .set _ _ => []

/-- The table after changes one after the other. -/
def run (t : HandleTable α) : List (Op α) → HandleTable α
  | [] => t
  | op :: ops => (t.step op).run ops

/-- The handles that the insertions among changes return, the first one first. -/
def handles (t : HandleTable α) : List (Op α) → List Handle
  | [] => []
  | op :: ops => t.made op ++ (t.step op).handles ops

/-- How many of the handles name the slot. -/
def uses (i : UInt32) (hs : List Handle) : ℕ := hs.countP fun h => h.index = i

/-- How often a slot has been used. -/
def used (t : HandleTable α) (i : UInt32) : ℕ := t.slots[i.toNat]?.elim 0 fun s => s.reuses + 1

@[simp] theorem uses_append (i : UInt32) (hs ks : List Handle) :
    uses i (hs ++ ks) = uses i hs + uses i ks := List.countP_append

@[simp] theorem uses_singleton (i : UInt32) (h : Handle) :
    uses i [h] = if h.index = i then 1 else 0 := by simp [uses, List.countP_cons]

@[simp] theorem used_empty (i : UInt32) : ({} : HandleTable α).used i = 0 := by simp [used]

theorem run_append (t : HandleTable α) (ops ops' : List (Op α)) :
    t.run (ops ++ ops') = (t.run ops).run ops' := by
  induction ops generalizing t with
  | nil => rfl
  | cons op ops ih => exact ih (t.step op)

theorem handles_append (t : HandleTable α) (ops ops' : List (Op α)) :
    t.handles (ops ++ ops') = t.handles ops ++ (t.run ops).handles ops' := by
  induction ops generalizing t with
  | nil => rfl
  | cons op ops ih =>
    show t.made op ++ (t.step op).handles (ops ++ ops') = _
    rw [ih (t.step op), ← List.append_assoc]
    rfl

/-! ## One change -/

section Step

theorem step_ok (ht : t.OK) (op : Op α) : (t.step op).OK := by
  cases op with
  | insert v => exact insert_ok ht v
  | remove h => exact remove_ok ht h
  | set h v =>
    show (t.set h v).OK
    cases hh : t.get? h with
    | none => rwa [set, if_neg (by simp [isLive, hh])]
    | some x => exact set_ok ht hh v

theorem size_modify_value (t : HandleTable α) (i : ℕ) (o : Option α) :
    (t.slots.modify i fun s => { s with value := o }).size = t.slots.size := Array.size_modify

theorem size_step (t : HandleTable α) (op : Op α) : t.slots.size ≤ (t.step op).slots.size := by
  cases op with
  | insert v => exact size_insert v
  | remove h =>
    show _ ≤ (t.remove h).2.slots.size
    rw [remove]
    split
    · exact (size_modify_value t _ _).ge
    · exact le_rfl
  | set h v =>
    show _ ≤ (t.set h v).slots.size
    rw [set]
    split
    · exact (size_modify_value t _ _).ge
    · exact le_rfl

/-- A change of values uses no slot. -/
theorem used_modify (i j : ℕ) (o : Option α) :
    ((t.slots.modify i fun s => { s with value := o })[j]?.elim 0 fun s => s.reuses + 1) =
      t.slots[j]?.elim 0 fun s => s.reuses + 1 := by
  rw [getElem?_modify_value]
  cases t.slots[j]? with
  | none => rfl
  | some s =>
    show Slot.reuses (if i = j then { s with value := o } else s) + 1 = s.reuses + 1
    split_ifs <;> rfl

/-- An insertion uses the slot of the handle that it returns, and its generation is the number of
uses before. -/
theorem used_insert (ht : t.OK) (hn : (t.insert v).2.slots.size ≤ 2 ^ 32) :
    (t.insert v).1.generation = UInt32.ofNat (t.used (t.insert v).1.index) ∧
      ∀ i, (t.insert v).2.used i = t.used i + uses i [(t.insert v).1] := by
  -- a new slot has not been used before; a free one has been used once for each reuse and once more
  cases hf : t.free with
  | nil =>
    have hindex := toNat_size_of_full hf hn
    rw [insert_of_full hf]
    constructor
    · simp [used, hindex]
    · intro i
      simp only [used, uses_singleton, Array.getElem?_push]
      have hidx : t.slots.size.toUInt32 = i ↔ i.toNat = t.slots.size := by
        rw [← UInt32.toNat_inj, hindex, eq_comm]
      by_cases hi : i.toNat = t.slots.size
      · simp [hi, hidx]
      · simp [hi, hidx]
  | cons j js =>
    obtain ⟨s, hs, -⟩ := ht.free j (by simp [hf])
    have hj := (Array.getElem?_eq_some_iff.1 hs).1
    rw [insert_of_free hf hs]
    constructor
    · simp [used, hs]
    · intro i
      simp only [used, uses_singleton, Array.getElem?_setIfInBounds]
      by_cases hi : j = i
      · subst hi
        rw [Array.getElem?_eq_getElem hj, Option.some.injEq] at hs
        simp [hj, hs]
      · have hne : j.toNat ≠ i.toNat := fun e => hi (UInt32.toNat_inj.1 e)
        simp [hi, hne]

/-- **A change uses the slots of the handles that it returns.** -/
theorem used_step (ht : t.OK) (op : Op α) (hn : (t.step op).slots.size ≤ 2 ^ 32) (i : UInt32) :
    (t.step op).used i = t.used i + uses i (t.made op) := by
  cases op with
  | insert v => exact (used_insert ht hn).2 i
  | remove h =>
    show (t.remove h).2.used i = t.used i
    rw [remove]
    split
    · exact used_modify _ _ _
    · rfl
  | set h v =>
    show (t.set h v).used i = t.used i
    rw [set]
    split
    · exact used_modify _ _ _
    · rfl

/-- A slot with no live handle gets one only from an insertion that returns it. -/
theorem vacant_step (ht : t.OK) (op : Op α) (hn : (t.step op).slots.size ≤ 2 ^ 32) {i : UInt32}
    (hv : ∀ k : Handle, k.index = i → t.get? k = none) (hu : uses i (t.made op) = 0) :
    ∀ k : Handle, k.index = i → (t.step op).get? k = none := by
  intro k hk
  cases op with
  | insert v =>
    show (t.insert v).2.get? k = none
    have hne : k ≠ (t.insert v).1 := by
      rintro rfl
      rw [made, uses_singleton, if_pos hk] at hu
      omega
    rw [get?_insert ht hn, if_neg hne, hv k hk]
  | remove h =>
    show (t.remove h).2.get? k = none
    rw [get?_remove, hv k hk]
    split_ifs <;> rfl
  | set h v =>
    show (t.set h v).get? k = none
    cases hh : t.get? h with
    | none =>
      rw [set, if_neg (by simp [isLive, hh])]
      exact hv k hk
    | some x =>
      have hne : k ≠ h := by
        rintro rfl
        rw [hv k hk] at hh
        cases hh
      rw [get?_set hh, if_neg hne, hv k hk]

end Step

/-! ## Whole runs -/

section Run

theorem run_ok (ht : t.OK) (ops : List (Op α)) : (t.run ops).OK := by
  induction ops generalizing t with
  | nil => exact ht
  | cons op ops ih => exact ih (step_ok ht op)

theorem size_run (t : HandleTable α) (ops : List (Op α)) :
    t.slots.size ≤ (t.run ops).slots.size := by
  induction ops generalizing t with
  | nil => exact le_rfl
  | cons op ops ih => exact le_trans (size_step t op) (ih (t.step op))

/-- **Every use of a slot is a handle that the run has returned for it.** -/
theorem used_run (ht : t.OK) (ops : List (Op α)) (hn : (t.run ops).slots.size ≤ 2 ^ 32)
    (i : UInt32) : (t.run ops).used i = t.used i + uses i (t.handles ops) := by
  induction ops generalizing t with
  | nil => rfl
  | cons op ops ih =>
    have hstep := used_step ht op (le_trans (size_run _ ops) hn) i
    have hrest := ih (step_ok ht op) hn
    show ((t.step op).run ops).used i = t.used i + uses i (t.made op ++ (t.step op).handles ops)
    rw [hrest, hstep, uses_append]
    omega

theorem vacant_run (ht : t.OK) (ops : List (Op α)) (hn : (t.run ops).slots.size ≤ 2 ^ 32)
    {i : UInt32} (hv : ∀ k : Handle, k.index = i → t.get? k = none)
    (hu : uses i (t.handles ops) = 0) :
    ∀ k : Handle, k.index = i → (t.run ops).get? k = none := by
  induction ops generalizing t with
  | nil => exact hv
  | cons op ops ih =>
    rw [handles, uses_append] at hu
    exact ih (step_ok ht op) hn
      (vacant_step ht op (le_trans (size_run _ ops) hn) hv (by omega)) (by omega)

/-- **The generation of a handle is the number of uses of its slot before, modulo `2 ^ 32`.** -/
theorem generation_of_handles (ht : t.OK) (ops : List (Op α))
    (hn : (t.run ops).slots.size ≤ 2 ^ 32) {hs ks : List Handle}
    (he : t.handles ops = hs ++ h :: ks) :
    h.generation = UInt32.ofNat (t.used h.index + uses h.index hs) := by
  induction ops generalizing t hs with
  | nil => simp [handles] at he
  | cons op ops ih =>
    have hsize : (t.step op).slots.size ≤ 2 ^ 32 := le_trans (size_run _ ops) hn
    have hstep := used_step ht op hsize
    rw [handles] at he
    cases op with
    | insert v =>
      rw [made, List.singleton_append] at he
      cases hs with
      | nil =>
        -- the handle is the one that this change returns
        obtain ⟨rfl, -⟩ := List.cons.inj he
        exact (used_insert ht hsize).1
      | cons k hs =>
        obtain ⟨rfl, htail⟩ := List.cons.inj he
        have hrest := ih (step_ok ht _) hn htail
        rw [hstep, made, Nat.add_assoc, ← uses_append, List.singleton_append] at hrest
        exact hrest
    | remove k =>
      have hrest := ih (step_ok ht _) hn he
      rwa [hstep] at hrest
    | set k v =>
      have hrest := ih (step_ok ht _) hn he
      rwa [hstep] at hrest

end Run

/-! ## When handles come back -/

section Wrap

theorem uint32_ofNat_eq_iff {m n : ℕ} :
    UInt32.ofNat m = UInt32.ofNat n ↔ m ≡ n [MOD 2 ^ 32] := by
  rw [← UInt32.toNat_inj, UInt32.toNat_ofNat', UInt32.toNat_ofNat']
  rfl

/-- Different handles of one slot are at most as many as there are generations. -/
theorem uses_le_of_nodup {hs : List Handle} (hd : hs.Nodup) (i : UInt32) :
    uses i hs ≤ 2 ^ 32 := by
  -- handles of one slot differ in their generations
  have hinj : ∀ a ∈ hs.filter (fun h => h.index = i), ∀ b ∈ hs.filter (fun h => h.index = i),
      a.generation.toNat = b.generation.toNat → a = b := by
    rintro ⟨a, g⟩ ha ⟨b, g'⟩ hb hg
    simp only [List.mem_filter, decide_eq_true_eq] at ha hb
    rw [ha.2, hb.2, show g = g' from UInt32.toNat_inj.1 hg]
  have hgens : ((hs.filter fun h => h.index = i).map fun h => h.generation.toNat).Nodup :=
    (List.nodup_map_iff_inj_on (hd.filter _)).2 hinj
  have hsub : ((hs.filter fun h => h.index = i).map fun h => h.generation.toNat).toFinset ⊆
      Finset.range (2 ^ 32) := by
    intro g hg
    simp only [List.mem_toFinset, List.mem_map] at hg
    obtain ⟨h, -, rfl⟩ := hg
    exact Finset.mem_range.2 h.generation.toNat_lt
  have hcard := Finset.card_le_card hsub
  rwa [List.toFinset_card_of_nodup hgens, List.length_map, ← List.countP_eq_length_filter,
    Finset.card_range] at hcard

/-- Handles whose generations count the uses of their slots are all different while no slot has
more uses than there are generations. -/
theorem nodup_of_uses_le {hs : List Handle}
    (hg : ∀ as h bs, hs = as ++ h :: bs → h.generation = UInt32.ofNat (uses h.index as))
    (hu : ∀ i, uses i hs ≤ 2 ^ 32) : hs.Nodup := by
  induction hs using List.reverseRecOn with
  | nil => exact List.nodup_nil
  | append_singleton hs h ih =>
    have hle : ∀ i, uses i hs ≤ 2 ^ 32 := fun i => by
      have := hu i
      rw [uses_append] at this
      omega
    have hnodup := ih (fun as k bs e => hg as k (bs ++ [h]) (by simp [e])) hle
    have hlast := hg hs h [] rfl
    have hroom := hu h.index
    rw [uses_append, uses_singleton, if_pos rfl] at hroom
    have hnew : h ∉ hs := by
      intro hm
      obtain ⟨as, bs, e⟩ := List.append_of_mem hm
      have hfirst := hg as h (bs ++ [h]) (by simp [e])
      -- one generation for two different numbers of uses, both below `2 ^ 32`
      rw [hlast, uint32_ofNat_eq_iff] at hfirst
      have hlt : uses h.index as < uses h.index hs := by
        rw [e, uses_append, show h :: bs = [h] ++ bs from rfl, uses_append, uses_singleton,
          if_pos rfl]
        omega
      have := Nat.ModEq.eq_of_lt_of_lt hfirst (by omega) (by omega)
      omega
    exact List.nodup_append'.2 ⟨hnodup, List.nodup_singleton h, by simpa using hnew⟩

/-- What a removed handle finds after more changes: its slot's occupant when the slot has been used
a multiple of `2 ^ 32` times since. -/
theorem isLive_run_remove (ht : t.OK) (hh : t.get? h = some v) (ops : List (Op α))
    (hn : ((t.remove h).2.run ops).slots.size ≤ 2 ^ 32) :
    ((t.remove h).2.run ops).isLive h ↔ 2 ^ 32 ∣ uses h.index ((t.remove h).2.handles ops) ∧
      ∃ k : Handle, k.index = h.index ∧ ((t.remove h).2.run ops).isLive k := by
  obtain ⟨s, hs, hg, -⟩ := get?_eq_some_iff.1 hh
  have hbefore : (t.remove h).2.used h.index = s.reuses + 1 := by
    have hsize : (t.remove h).2.slots.size ≤ 2 ^ 32 := le_trans (size_run _ ops) hn
    have hstep := used_step ht (.remove h) hsize h.index
    have hused : t.used h.index = s.reuses + 1 := by rw [used, hs, Option.elim_some]
    exact hstep.trans hused
  have hafter := used_run (remove_ok ht h) ops hn h.index
  rw [hbefore] at hafter
  constructor
  · intro hl
    refine ⟨?_, h, rfl, hl⟩
    obtain ⟨x, hx⟩ := isLive_iff.1 hl
    obtain ⟨s', hs', hg', -⟩ := get?_eq_some_iff.1 hx
    rw [used, hs'] at hafter
    have hgen : UInt32.ofNat s'.reuses = UInt32.ofNat s.reuses := hg'.trans hg.symm
    have hmod := (uint32_ofNat_eq_iff.1 hgen).symm
    -- the occupant has the generation of the removed handle, so the reuses since are a multiple
    have hsum : s'.reuses = s.reuses + uses h.index ((t.remove h).2.handles ops) := by
      simp only [Option.elim_some] at hafter
      omega
    rw [hsum] at hmod
    have := (Nat.modEq_iff_dvd' (Nat.le_add_right _ _)).1 hmod
    rwa [Nat.add_sub_cancel_left] at this
  · rintro ⟨hdvd, k, hk, hl⟩
    obtain ⟨x, hx⟩ := isLive_iff.1 hl
    obtain ⟨s', hs', -, hv'⟩ := get?_eq_some_iff.1 hx
    rw [hk] at hs'
    rw [used, hs'] at hafter
    have hsum : s'.reuses = s.reuses + uses h.index ((t.remove h).2.handles ops) := by
      simp only [Option.elim_some] at hafter
      omega
    have hmod : s.reuses ≡ s'.reuses [MOD 2 ^ 32] := by
      rw [Nat.modEq_iff_dvd' (by omega), hsum, Nat.add_sub_cancel_left]
      exact hdvd
    have hgen : s'.generation = h.generation := by
      rw [← hg]
      exact (uint32_ofNat_eq_iff.2 hmod).symm
    exact isLive_of_get? (get?_eq_some_iff.2 ⟨s', hs', hgen, hv'⟩)

/-- **A removed handle is dead while its slot has been used fewer than `2 ^ 32` times since.** -/
theorem isLive_run_remove_of_lt (ht : t.OK) (hh : t.get? h = some v) (ops : List (Op α))
    (hn : ((t.remove h).2.run ops).slots.size ≤ 2 ^ 32)
    (hlt : uses h.index ((t.remove h).2.handles ops) < 2 ^ 32) :
    ((t.remove h).2.run ops).isLive h = false := by
  rw [Bool.eq_false_iff]
  intro hl
  obtain ⟨hdvd, -⟩ := (isLive_run_remove ht hh ops hn).1 hl
  have hzero : uses h.index ((t.remove h).2.handles ops) = 0 := Nat.eq_zero_of_dvd_of_lt hdvd hlt
  -- the slot has not been used since, so it is as free as the removal has left it
  have hvacant : ∀ k : Handle, k.index = h.index → (t.remove h).2.get? k = none := by
    intro k hk
    rw [get?_remove]
    split_ifs with e
    · rfl
    · obtain ⟨s, hs, hg, -⟩ := get?_eq_some_iff.1 hh
      refine get?_eq_none_of_generation_ne (hk ▸ hs) fun e' => e ?_
      obtain ⟨i, g⟩ := k
      obtain ⟨j, g'⟩ := h
      simp only at hk hg e'
      rw [hk, ← e', hg]
  have hdead := vacant_run (remove_ok ht h) ops hn hvacant hzero h rfl
  rw [isLive, hdead] at hl
  simp at hl

/-! ## A slot used again and again -/

/-- Gives one slot `n` more occupants, from the one of generation `r` on, and removes each of them. -/
def churn (r n : ℕ) : List (Op Unit) :=
  (List.range' r n).flatMap fun i => [.insert (), .remove ⟨0, UInt32.ofNat i⟩]

theorem run_churn (r n : ℕ) :
    run ⟨#[⟨r, none⟩], [0], 0⟩ (churn (r + 1) n) = ⟨#[⟨r + n, none⟩], [0], 0⟩ ∧
      uses 0 (handles ⟨#[⟨r, none⟩], [0], 0⟩ (churn (r + 1) n)) = n := by
  induction n generalizing r with
  | zero => exact ⟨rfl, rfl⟩
  | succ n ih =>
    obtain ⟨hrun, huses⟩ := ih (r + 1)
    have hinsert : insert (⟨#[⟨r, none⟩], [0], 0⟩ : HandleTable Unit) () =
        (⟨0, UInt32.ofNat (r + 1)⟩, ⟨#[⟨r + 1, some ()⟩], [], 1⟩) := rfl
    have hfound : get? (⟨#[⟨r + 1, some ()⟩], [], 1⟩ : HandleTable Unit)
        ⟨0, UInt32.ofNat (r + 1)⟩ = some () := get?_eq_some_iff.2 ⟨_, rfl, rfl, rfl⟩
    have hremove : remove (⟨#[⟨r + 1, some ()⟩], [], 1⟩ : HandleTable Unit)
        ⟨0, UInt32.ofNat (r + 1)⟩ = (some (), ⟨#[⟨r + 1, none⟩], [0], 0⟩) := remove_of_live hfound
    -- each round uses the only slot once, with the next generation
    have hchurn : churn (r + 1) (n + 1) =
        .insert () :: .remove ⟨0, UInt32.ofNat (r + 1)⟩ :: churn (r + 2) n := rfl
    rw [hchurn, run, run, handles, handles, step, step, made, made, hinsert, hremove, hrun,
      List.nil_append, uses_append, huses, uses_singleton, if_pos rfl]
    exact ⟨by rw [Nat.add_right_comm, Nat.add_assoc], by omega⟩

/-- Uses one slot again and again, and leaves its last occupant there. -/
def reinsert (n : ℕ) : List (Op Unit) := churn 1 n ++ [.insert ()]

theorem run_reinsert (n : ℕ) :
    run ⟨#[⟨0, none⟩], [0], 0⟩ (reinsert n) = ⟨#[⟨n + 1, some ()⟩], [], 1⟩ ∧
      uses 0 (handles ⟨#[⟨0, none⟩], [0], 0⟩ (reinsert n)) = n + 1 := by
  obtain ⟨hrun, huses⟩ := run_churn 0 n
  rw [Nat.zero_add] at hrun huses
  rw [Nat.zero_add] at hrun
  have hinsert : insert (⟨#[⟨n, none⟩], [0], 0⟩ : HandleTable Unit) () =
      (⟨0, UInt32.ofNat (n + 1)⟩, ⟨#[⟨n + 1, some ()⟩], [], 1⟩) := rfl
  rw [reinsert, run_append, handles_append, hrun, uses_append, huses]
  rw [handles, handles, run, run, step, made, hinsert, List.append_nil, uses_singleton, if_pos rfl]
  exact ⟨rfl, rfl⟩

/-- **Two insertions return one handle only after `2 ^ 32` uses of its slot, and a removed handle is
dead until then**: the handles of a run are all different exactly when no slot has been used more
than `2 ^ 32` times; once a handle's value has been removed, the handle is live in a later state
exactly when its slot has an occupant and has been used a multiple of `2 ^ 32` times since; and
before the first such time nothing is found, removed or replaced through it. -/
theorem alias_iff_wrapped (ops : List (Op α))
    (hsize : (run ({} : HandleTable α) ops).slots.size ≤ 2 ^ 32) :
    ((handles ({} : HandleTable α) ops).Nodup ↔
        ∀ i, uses i (handles ({} : HandleTable α) ops) ≤ 2 ^ 32) ∧
      ∀ before h after v t u m, ops = before ++ .remove h :: after →
        t = run ({} : HandleTable α) before → (t.remove h).1 = some v →
        u = run ({} : HandleTable α) ops → m = uses h.index (handles (t.remove h).2 after) →
          (u.isLive h ↔ 2 ^ 32 ∣ m ∧ ∃ k : Handle, k.index = h.index ∧ u.isLive k) ∧
            (m < 2 ^ 32 → u.isLive h = false ∧ u.get? h = none ∧ u.remove h = (none, u) ∧
              ∀ v', u.set h v' = u) := by
  refine ⟨⟨uses_le_of_nodup, nodup_of_uses_le fun as h bs he => ?_⟩, ?_⟩
  · have := generation_of_handles ok_empty ops hsize he
    rwa [used_empty, Nat.zero_add] at this
  · rintro before h after v t u m rfl rfl hr rfl rfl
    have ht : (run ({} : HandleTable α) before).OK := run_ok ok_empty before
    have hh : (run ({} : HandleTable α) before).get? h = some v := by
      rw [remove] at hr
      split at hr
      · next hx => rwa [Option.some.inj hr] at hx
      · cases hr
    have hrun : run ({} : HandleTable α) (before ++ .remove h :: after) =
        ((run ({} : HandleTable α) before).remove h).2.run after := run_append _ _ _
    rw [hrun] at hsize ⊢
    refine ⟨isLive_run_remove ht hh after hsize, fun hlt => ?_⟩
    have hdead := isLive_run_remove_of_lt ht hh after hsize hlt
    have hnone := Option.isNone_iff_eq_none.1 (by simpa [isLive] using hdead)
    exact ⟨hdead, hnone, remove_of_not_live hnone, fun v' => if_neg (by simp [hdead])⟩

/-- **One handle for two values**: the first handle of a table is live again, and has been returned
twice, when its slot has had `2 ^ 32` occupants since its own value was removed. -/
theorem first_handle_returns :
    (run ({} : HandleTable Unit) (.insert () :: .remove ⟨0, 0⟩ :: reinsert (2 ^ 32 - 1))).slots.size ≤
        2 ^ 32 ∧
      ((run ({} : HandleTable Unit) [.insert ()]).remove ⟨0, 0⟩).1 = some () ∧
      (run ({} : HandleTable Unit) (.insert () :: .remove ⟨0, 0⟩ :: reinsert (2 ^ 32 - 1))).isLive
        ⟨0, 0⟩ ∧
      ¬(handles ({} : HandleTable Unit)
        (.insert () :: .remove ⟨0, 0⟩ :: reinsert (2 ^ 32 - 1))).Nodup := by
  -- the number of occupants stays a variable, so that nothing runs through them
  obtain ⟨n, hn⟩ : ∃ n, n = 2 ^ 32 - 1 := ⟨_, rfl⟩
  rw [← hn]
  have hcount : n + 1 = 2 ^ 32 := by omega
  obtain ⟨hrun, huses⟩ := run_reinsert n
  have hremove : (run ({} : HandleTable Unit) [.insert ()]).remove ⟨0, 0⟩ =
      (some (), ⟨#[⟨0, none⟩], [0], 0⟩) := rfl
  have hwhole : run ({} : HandleTable Unit) (.insert () :: .remove ⟨0, 0⟩ :: reinsert n) =
      ⟨#[⟨n + 1, some ()⟩], [], 1⟩ := hrun
  have hsize : (run ({} : HandleTable Unit)
      (.insert () :: .remove ⟨0, 0⟩ :: reinsert n)).slots.size ≤ 2 ^ 32 := by
    rw [hwhole]
    simp
  obtain ⟨hnodup, hlive⟩ := alias_iff_wrapped _ hsize
  refine ⟨hsize, rfl, ?_, fun hd => ?_⟩
  · have hback := hlive [.insert ()] ⟨0, 0⟩ (reinsert n) () _ _ _ rfl rfl rfl rfl rfl
    rw [hremove, huses, hcount, hwhole] at hback
    rw [hwhole]
    have hoccupied : isLive (⟨#[⟨n + 1, some ()⟩], [], 1⟩ : HandleTable Unit)
        ⟨0, UInt32.ofNat (n + 1)⟩ := isLive_of_get? (get?_eq_some_iff.2 ⟨_, rfl, rfl, rfl⟩)
    exact hback.1.2 ⟨dvd_rfl, ⟨0, UInt32.ofNat (n + 1)⟩, rfl, hoccupied⟩
  · have htwice := hnodup.1 hd 0
    have hall : handles ({} : HandleTable Unit) (.insert () :: .remove ⟨0, 0⟩ :: reinsert n) =
        [⟨0, 0⟩] ++ handles ⟨#[⟨0, none⟩], [0], 0⟩ (reinsert n) := rfl
    rw [hall, uses_append, huses, uses_singleton, if_pos rfl] at htwice
    omega

end Wrap

end GuestBridge.HandleTable
