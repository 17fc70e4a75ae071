import GuestBridge.Session.Setup
import GuestBridge.Proofs.Reads

/-!
# The options of a configuration

A configuration that can be used gives options, whatever state they are made in. Making the table
of globals leaves the context alone.

* `OrderedMap.keys_insert_of_eraseDups`: keys that are inserted one after the other.
* `BridgeM.globalTable_run`: **the names of the table** are the given ones without later duplicates.
* `BridgeM.optionsOf_run`: the options of a configuration that can be used.
* `Config.usable_of_optionsOf`, `Config.usable_of_overlay`: what gives options in some state can be
  used, and so can what has been laid over a configuration.
-/

namespace GuestBridge

namespace OrderedMap

variable {κ ν : Type} [DecidableEq κ] {m : OrderedMap κ ν} {k : κ}

/-- Keys that are inserted one after the other, without later duplicates. -/
theorem keys_insert_of_eraseDups {done : List κ} (h : m.keys = done.eraseDups) (k : κ) (v : ν) :
    (m.insert k v).keys = (done ++ [k]).eraseDups := by
  rw [List.eraseDups_append, List.removeAll]
  by_cases hk : k ∈ done
  · rw [keys_insert_of_mem (h ▸ List.mem_eraseDups.2 hk), h]
    simp [hk]
  · rw [insert_of_not_mem (h ▸ mt List.mem_eraseDups.1 hk), keys, List.map_append, ← keys, h]
    simp [hk, List.eraseDups_cons]

end OrderedMap

/-- A function is found under its own name only. -/
theorem Global.name_of_ofName? {name : String} {g : Global} (h : Global.ofName? name = some g) :
    g.name = name := by
  simpa using List.find?_some h

namespace BridgeM

variable {c : Config} {names : List String} {held : List HostId} {w : World}

/-- Steps that succeed one after the other. The invariant is on the items that are done, the value
and the state. -/
theorem foldlM_succeeds {ι σ : Type} {f : σ → ι → BridgeM σ} {is : List ι}
    {I : List ι → σ → World → Prop}
    (hf : ∀ i ∈ is, ∀ done x w, I done x w →
      ∃ x' w', f x i held w = .ok x' w' ∧ I (done ++ [i]) x' w')
    (done : List ι) {x : σ} (hw : I done x w) :
    ∃ x' w', is.foldlM f x held w = .ok x' w' ∧ I (done ++ is) x' w' := by
  induction is generalizing done x w with
  | nil => exact ⟨x, w, rfl, by rwa [List.append_nil]⟩
  | cons i is ih =>
    obtain ⟨x₁, w₁, hfirst, hw₁⟩ := hf i List.mem_cons_self done x w hw
    obtain ⟨x', w', hrest, hw'⟩ := ih (fun j hj => hf j (List.mem_cons_of_mem _ hj)) _ hw₁
    refine ⟨x', w', ?_, by rwa [← List.append_cons] at hw'⟩
    rw [List.foldlM_cons, bind_run, hfirst]
    exact hrest

/-- **The names of the table** are the given ones without later duplicates. -/
theorem globalTable_run (hnames : ∀ name ∈ names, (Global.ofName? name).isSome)
    (held : List HostId) (w : World) :
    ∃ table w', globalTable names held w = .ok table w' ∧ table.keys = names.eraseDups ∧
      w'.context = w.context := by
  refine foldlM_succeeds (I := fun done (table : OrderedMap String HostValue) w' =>
    table.keys = done.eraseDups ∧ w'.context = w.context) (fun name hname done table w' hw' => ?_)
    [] ⟨rfl, rfl⟩
  obtain ⟨g, hg⟩ := Option.isSome_iff_exists.1 (hnames name hname)
  obtain rfl := Global.name_of_ofName? hg
  rw [hg]
  exact ⟨_, _, rfl, OrderedMap.keys_insert_of_eraseDups hw'.1 _ _, hw'.2⟩

/-- **The options of a configuration that can be used**, in every state. -/
theorem optionsOf_run (hc : c.Usable) (held : List HostId) (w : World) :
    ∃ o w', optionsOf c held w = .ok o w' ∧ o.globals.keys = c.globals.eraseDups ∧
      o.hashSeed = c.hashSeed ∧ w'.context = w.context := by
  obtain ⟨table, w', htable, hkeys, hcontext⟩ := globalTable_run hc.globals held w
  refine ⟨{ globals := table, hashSeed := c.hashSeed }, w', ?_, hkeys, rfl, hcontext⟩
  rw [optionsOf, Config.validate_eq_ok_iff.2 ⟨rfl, hc⟩]
  show (globalTable c.globals >>= fun globals => _) held w = _
  rw [bind_run, htable]
  rfl

end BridgeM

namespace Config

variable {c c' : Config} {o : Options} {held : List HostId} {w w' : World} {text : String}

/-- **What gives options in some state can be used.** -/
theorem usable_of_optionsOf (h : BridgeM.optionsOf c held w = .ok o w') : c.Usable := by
  cases hc : c.validate with
  | ok c' => exact (validate_eq_ok_iff.1 hc).2
  | error e =>
    rw [BridgeM.optionsOf, hc] at h
    cases h

/-- What has been laid over a configuration can be used. -/
theorem usable_of_overlay (h : c.overlay text = .ok c') : c'.Usable := by
  unfold overlay at h
  split at h
  · obtain ⟨c₁, -, h⟩ := exists_of_bind_eq_ok h
    obtain ⟨rfl, hc⟩ := validate_eq_ok_iff.1 h
    exact hc
  · cases h

end Config

end GuestBridge
