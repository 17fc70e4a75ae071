import GuestBridge.Proofs.Calls
import GuestBridge.Session.Run

/-!
# Imports read their arguments before they act

Each interop import needs certain arguments at certain places (`Interop.needs`,
`Interop.rest`). It reads all of them first, and reading changes nothing. So an import either
gets everything that it needs, or it fails with the error of one reading, in the state that
it started in and before any behaviour has been carried out (`Guards`).

* `Guest.reads_of_readString`: a name that can be read back is a live string of a guest that
  offers its length and its units.
* `callInterop_guards`: **an interop import gets all it needs, or it fails at once.**
* `callFrom_refuses`: **an import that misses an argument changes nothing**, whoever carries
  out behaviours.
-/

namespace GuestBridge

/-! ## What imports need -/

/-- Whether a string can be read back: it is there, its length fits a narrow integer, and the
guest offers the length and, unless there are none, the units. -/
def Guest.reads (g : Guest) (h : Handle) : Bool :=
  match g.heap.get? h with
  | some (.string us) =>
    us.size < 0x80000000 && g.provides .stringLength && (us.isEmpty || g.provides .stringCharAt)
  | _ => false

/-- What an import needs an argument to be. -/
inductive Need where
  /-- A value that denotes a host value. -/
  | host
  /-- A host value. -/
  | external
  /-- A host value that is an object. -/
  | object
  /-- A reference to a guest object, or the null reference. -/
  | reference
  /-- A function of the guest. -/
  | entry
  /-- A function of the guest, the null reference, or nothing. -/
  | optionalEntry
  /-- A host string, or a guest string that can be read back. -/
  | name

/-- Whether what stands at the place of an argument is what is needed there. -/
def Need.isMet (g : Option Guest) : Need → Option GuestValue → Bool
  | .host, some (.ref (some _)) | .host, some (.entry _) => false
  | .host, some _ => true
  | .external, some (.external _) => true
  | .object, some (.external (.object _)) => true
  | .reference, some (.ref _) => true
  | .entry, some (.entry _) => true
  | .optionalEntry, none | .optionalEntry, some (.ref none) | .optionalEntry, some (.entry _) =>
    true
  | .name, some (.external (.string _)) => true
  | .name, some (.ref (some h)) => g.any fun g => g.reads h
  | _, _ => false

namespace Interop

/-- The arguments that an import reads one by one, with their places. A token of a weak reference
may be of any kind. -/
def needs : Interop → List (Nat × Need)
  | wrap | hashCode => [(0, .host)]
  | unwrap => [(0, .reference), (1, .object)]
  | synthesizeClass => [(0, .name)]
  | defineMethod => [(0, .object), (1, .name), (2, .entry)]
  | defineProperty => [(0, .object), (1, .name), (2, .entry), (3, .optionalEntry)]
  | createWeakRef | deref | createStringWeakRef | stringDeref | callFunction | construct
  | typeOf => [(0, .external)]
  | callMethod => [(0, .host), (1, .name)]
  | asFunction | functionAsObject => [(0, .external), (1, .name)]
  | getProperty => [(0, .object), (1, .name)]
  | setProperty => [(0, .object), (1, .name), (2, .host)]
  | createObject => []

/-- The place from which on all arguments are passed on to a call as host values. -/
def rest : Interop → Option Nat
  | callFunction | construct => some 1
  | callMethod => some 2
  | _ => none

/-- An import gets all the arguments that it needs. -/
structure Accepts (i : Interop) (g : Option Guest) (args : List GuestValue) : Prop where
  needs : ∀ e ∈ i.needs, e.2.isMet g args[e.1]?
  rest : ∀ n ∈ i.rest, ∀ t ∈ args.drop n, Need.host.isMet g (some t)

instance (i : Interop) (g : Option Guest) (args : List GuestValue) : Decidable (i.Accepts g args) :=
  decidable_of_iff
    ((∀ e ∈ i.needs, e.2.isMet g args[e.1]?) ∧
      ∀ n ∈ i.rest, ∀ t ∈ args.drop n, Need.host.isMet g (some t))
    ⟨fun h => ⟨h.1, h.2⟩, fun h => ⟨h.needs, h.rest⟩⟩

end Interop

/-- An import that every guest gets is the one of its name. -/
theorem ImportObject.defaults_get?_interop (i : Interop) :
    defaults.get? interopModule i.name = some (.interop i) := by
  cases i <;> rfl

/-! ## Names -/

section Names

variable {g : Guest} {h : Handle}

theorem Guest.provides_of_require {e : OptionalExport} {u : Unit} (hr : g.require e = .ok u) :
    g.provides e := by
  unfold Guest.require at hr
  split at hr
  · assumption
  · cases hr

/-- A length that is told is the one of a live string. -/
theorem Guest.string_of_stringLength {n : Int32} (hn : g.stringLength h = .ok n) :
    ∃ us, g.heap.get? h = some (.string us) ∧ us.size < 0x80000000 ∧ n = Int32.ofNat us.size ∧
      g.provides .stringLength := by
  obtain ⟨_, hrequire, hn⟩ := exists_of_bind_eq_ok hn
  obtain ⟨us, hus, hn⟩ := exists_of_bind_eq_ok hn
  obtain ⟨o, ho, hus⟩ := exists_of_bind_eq_ok hus
  cases o with
  | string us' =>
    obtain rfl := Except.ok.inj hus
    split at hn
    · next hsize =>
      exact ⟨_, Guest.object_ok ho, hsize, (Except.ok.inj hn).symm,
        Guest.provides_of_require hrequire⟩
    · cases hn
  | _ => cases hus

/-- **A name that can be read back** is a live string of a guest that offers its length and its
units. -/
theorem Guest.reads_of_readString {text : String} (hr : g.readString h = .ok text) :
    g.reads h := by
  obtain ⟨n, hn, hr⟩ := exists_of_bind_eq_ok hr
  obtain ⟨_, hunits, -⟩ := exists_of_bind_eq_ok hr
  obtain ⟨us, hget, hsize, rfl, hlength⟩ := Guest.string_of_stringLength hn
  have hchars : us = #[] ∨ g.provides .stringCharAt := by
    refine or_iff_not_imp_left.2 fun hne => ?_
    -- There is a first unit, and reading it asks for the export.
    obtain ⟨m, hm⟩ := Nat.exists_eq_succ_of_ne_zero (mt Array.eq_empty_of_size_eq_zero hne)
    have hlen : (Int32.ofNat us.size).toInt.toNat = m + 1 := by
      rw [Int32.toInt_ofNat_of_lt hsize, hm]
      rfl
    rw [hlen, List.range_succ_eq_map, List.mapM_cons] at hunits
    obtain ⟨_, hunit, -⟩ := exists_of_bind_eq_ok hunits
    obtain ⟨_, hunit, -⟩ := exists_of_bind_eq_ok hunit
    obtain ⟨_, hrequire, -⟩ := exists_of_bind_eq_ok hunit
    exact Guest.provides_of_require hrequire
  simpa [Guest.reads, hget, hlength] using ⟨hsize, hchars⟩

end Names

/-! ## Reading one argument -/

namespace BridgeM

variable {held : List HostId} {w : World} {args : List GuestValue} {n : Nat}

section Reading

theorem argument_finds (args : List GuestValue) (n : Nat) :
    Leads Eq held w (argument args n) fun t _ => args[n]? = some t := by
  unfold argument
  split
  · next t ht => exact Leads.pure ht
  · exact Leads.throw

/-- An argument that is read in one step is what is needed, if that step is taken for such
arguments only. -/
theorem argument_meets {α : Type} {need : Need} {f : GuestValue → Except BridgeError α}
    (hf : ∀ t a, f t = .ok a → need.isMet w.guest (some t)) (args : List GuestValue) (n : Nat) :
    Leads Eq held w (argument args n >>= fun t => ofExcept (f t)) fun _ _ =>
      need.isMet w.guest args[n]? := by
  refine Leads.look (argument_finds args n) fun t ht => Leads.ofExcept fun a ha => ?_
  rw [ht]
  exact hf t a ha

theorem isMet_of_toHost (g : Option Guest) {t : GuestValue} {v : HostValue} (h : t.toHost = .ok v) :
    Need.host.isMet g (some t) := by
  cases t with
  | ref k => cases k <;> first | rfl | cases h
  | entry => cases h
  | _ => rfl

theorem hostArg_meets (args : List GuestValue) (n : Nat) :
    Leads Eq held w (hostArg args n) fun _ _ => Need.host.isMet w.guest args[n]? :=
  argument_meets (fun _ _ => isMet_of_toHost _) args n

theorem isMet_of_asHandle (g : Option Guest) {t : GuestValue} {k : Option Handle}
    (h : t.asHandle = .ok k) : Need.reference.isMet g (some t) := by
  cases t <;> first | rfl | cases h

theorem entryArg_meets (args : List GuestValue) (n : Nat) :
    Leads Eq held w (entryArg args n) fun _ _ => Need.entry.isMet w.guest args[n]? := by
  refine argument_meets (fun t e he => ?_) args n
  cases t <;> first | rfl | cases he

/-- A host value that is read is the argument. -/
theorem externalArg_finds (args : List GuestValue) (n : Nat) :
    Leads Eq held w (externalArg args n) fun v _ => args[n]? = some (.external v) := by
  refine Leads.look (argument_finds args n) fun t ht => Leads.ofExcept fun v hv => ?_
  cases t <;> cases hv
  exact ht

theorem externalArg_meets (args : List GuestValue) (n : Nat) :
    Leads Eq held w (externalArg args n) fun _ _ => Need.external.isMet w.guest args[n]? :=
  (externalArg_finds args n).imp fun _ _ _ h => by rw [h]; rfl

theorem classArg_meets (args : List GuestValue) (n : Nat) :
    Leads Eq held w (classArg args n) fun _ _ => Need.object.isMet w.guest args[n]? := by
  refine Leads.look (externalArg_finds args n) fun v hv => ?_
  split
  · exact Leads.pure (by rw [hv]; rfl)
  · exact Leads.observe (.kindOf _) fun _ _ => Leads.throw

theorem objectArg_meets (args : List GuestValue) (n : Nat) :
    Leads Eq held w (objectArg args n) fun _ _ => Need.object.isMet w.guest args[n]? := by
  refine Leads.look (externalArg_finds args n) fun v hv => ?_
  split
  · exact Leads.pure (by rw [hv]; rfl)
  · exact Leads.observe (.kindOf _) fun _ _ => Leads.throw

theorem nameArg_meets (args : List GuestValue) (n : Nat) :
    Leads Eq held w (nameArg args n) fun _ _ => Need.name.isMet w.guest args[n]? := by
  refine Leads.look (argument_finds args n) fun t ht => ?_
  split
  · next h =>
    refine Leads.guest fun g hg => Leads.ofExcept fun text hr => ?_
    rw [ht, hg]
    exact g.reads_of_readString hr
  · exact Leads.pure (by rw [ht]; rfl)
  · exact Leads.throw

theorem optionalEntryArg_meets (args : List GuestValue) (n : Nat) :
    Leads Eq held w ((optionalArg args n).mapM fun t => ofExcept t.asEntry) fun _ _ =>
      Need.optionalEntry.isMet w.guest args[n]? := by
  unfold optionalArg
  split
  · next h => exact Leads.pure (by rw [h]; rfl)
  · next v hv =>
    cases ha : args[n]? with
    | none => exact Leads.pure rfl
    | some t =>
      refine Leads.map (P := fun _ _ => Need.optionalEntry.isMet w.guest (some t)) ?_
        fun _ _ _ h => h
      refine Leads.ofExcept fun e he => ?_
      cases t <;> first | rfl | cases he

theorem restArgs_meets (args : List GuestValue) (n : Nat) :
    Leads Eq held w (restArgs args n) fun _ _ =>
      ∀ t ∈ args.drop n, Need.host.isMet w.guest (some t) := by
  unfold restArgs
  induction args.drop n with
  | nil => exact Leads.pure nofun
  | cons t ts ih =>
    rw [List.mapM_cons]
    refine Leads.look (P := fun _ => Need.host.isMet w.guest (some t))
      (Leads.ofExcept fun _ => isMet_of_toHost _) fun v hv => ?_
    exact Leads.look ih fun vs hvs => Leads.pure (List.forall_mem_cons.2 ⟨hv, hvs⟩)

end Reading

/-! ## Reading, then acting -/

section Guards

variable {α β : Type} {p : Prop} {act : Runner → BridgeM α}

/-- Either `p` holds, or the action fails at once: it leaves the state as it is and carries out
no behaviour, for its error is the same whoever would carry it out. -/
def Guards (p : Prop) (held : List HostId) (w : World) (act : Runner → BridgeM α) : Prop :=
  p ∨ ∃ e, ∀ run, act run held w = .error e w

/-- One reading, and what comes after it. -/
theorem Guards.look {Q : β → Prop} {read : BridgeM β} {f : Runner → β → BridgeM α}
    (h : Leads Eq held w read fun b _ => Q b)
    (hf : ∀ b, Q b → Guards p held w fun run => f run b) :
    Guards p held w fun run => read >>= f run := by
  unfold Leads at h
  cases hr : read held w with
  | error e w' =>
    rw [hr] at h
    obtain rfl := h
    refine .inr ⟨e, fun run => ?_⟩
    change (read >>= f run) held w = _
    rw [bind_run, hr]
  | ok b w' =>
    rw [hr] at h
    obtain ⟨rfl, hq⟩ := h
    refine (hf b hq).imp_right fun ⟨e, he⟩ => ⟨e, fun run => ?_⟩
    change (read >>= f run) held w = _
    rw [bind_run, hr]
    exact he run

/-- **An interop import gets all it needs, or it fails at once.** -/
theorem callInterop_guards (i : Interop) (args : List GuestValue) (held : List HostId) (w : World) :
    Guards (i.Accepts w.guest args) held w fun run => callInterop run i args := by
  cases i with
  | wrap | hashCode =>
    refine .look (hostArg_meets args 0) fun _ h₀ => .inl ⟨?_, nofun⟩
    simpa [Interop.needs] using h₀
  | unwrap =>
    refine .look (argument_finds args 0) fun t ht => ?_
    refine .look (Leads.ofExcept fun _ h => isMet_of_asHandle w.guest h) fun _ h₀ => ?_
    refine .look (classArg_meets args 1) fun _ h₁ => .inl ⟨?_, nofun⟩
    simpa [Interop.needs, ht] using ⟨h₀, h₁⟩
  | synthesizeClass =>
    refine .look (nameArg_meets args 0) fun _ h₀ => .inl ⟨?_, nofun⟩
    simpa [Interop.needs] using h₀
  | defineMethod =>
    refine .look (nameArg_meets args 1) fun _ h₁ => ?_
    refine .look (classArg_meets args 0) fun _ h₀ => ?_
    refine .look (entryArg_meets args 2) fun _ h₂ => .inl ⟨?_, nofun⟩
    simpa [Interop.needs] using ⟨h₀, h₁, h₂⟩
  | defineProperty =>
    refine .look (nameArg_meets args 1) fun _ h₁ => ?_
    refine .look (optionalEntryArg_meets args 3) fun _ h₃ => ?_
    refine .look (classArg_meets args 0) fun _ h₀ => ?_
    refine .look (entryArg_meets args 2) fun _ h₂ => .inl ⟨?_, nofun⟩
    simpa [Interop.needs] using ⟨h₀, h₁, h₂, h₃⟩
  | createWeakRef | deref | createStringWeakRef | stringDeref | typeOf =>
    refine .look (externalArg_meets args 0) fun _ h₀ => .inl ⟨?_, nofun⟩
    simpa [Interop.needs] using h₀
  | callFunction | construct =>
    refine .look (externalArg_meets args 0) fun _ h₀ => ?_
    refine .look (restArgs_meets args 1) fun _ hr => .inl ⟨?_, ?_⟩
    · simpa [Interop.needs] using h₀
    · simpa [Interop.rest] using hr
  | callMethod =>
    refine .look (hostArg_meets args 0) fun _ h₀ => ?_
    refine .look (nameArg_meets args 1) fun _ h₁ => ?_
    refine .look (restArgs_meets args 2) fun _ hr => .inl ⟨?_, ?_⟩
    · simpa [Interop.needs] using ⟨h₀, h₁⟩
    · simpa [Interop.rest] using hr
  | asFunction | functionAsObject =>
    refine .look (nameArg_meets args 1) fun _ h₁ => ?_
    refine .look (externalArg_meets args 0) fun _ h₀ => .inl ⟨?_, nofun⟩
    simpa [Interop.needs] using ⟨h₀, h₁⟩
  | getProperty =>
    refine .look (objectArg_meets args 0) fun _ h₀ => ?_
    refine .look (nameArg_meets args 1) fun _ h₁ => .inl ⟨?_, nofun⟩
    simpa [Interop.needs] using ⟨h₀, h₁⟩
  | setProperty =>
    refine .look (objectArg_meets args 0) fun _ h₀ => ?_
    refine .look (hostArg_meets args 2) fun _ h₂ => ?_
    refine .look (nameArg_meets args 1) fun _ h₁ => .inl ⟨?_, nofun⟩
    simpa [Interop.needs] using ⟨h₀, h₁, h₂⟩
  | createObject => exact .inl ⟨by simp [Interop.needs], nofun⟩

/-- The same of an import that a guest calls by its name. -/
theorem callFrom_guards {imports : ImportObject} {module name : String} {i : Interop}
    (hi : imports.get? module name = some (.interop i)) (args : List GuestValue)
    (held : List HostId) (w : World) :
    Guards (i.Accepts w.guest args) held w fun run => callFrom run imports module name args := by
  have hresolve : imports.resolve module name = .ok (.interop i) := by
    rw [ImportObject.resolve, hi]
    rfl
  refine (callInterop_guards i args (args.flatMap GuestValue.holds ++ held) w).imp_right ?_
  rintro ⟨e, he⟩
  refine ⟨e, fun run => ?_⟩
  change callFrom run imports module name args held w = _
  rw [callFrom, hresolve]
  exact he run

/-- **An import that misses an argument changes nothing**: it fails, the whole state is as it
was, and it does so whoever would carry out behaviours, so that none has been carried out. -/
theorem callFrom_refuses {i : Interop} {args : List GuestValue} {w : World}
    (h : ¬ i.Accepts w.guest args) (held : List HostId) :
    ∃ e, ∀ run, callFrom run .defaults ImportObject.interopModule i.name args held w =
      .error e w :=
  (callFrom_guards (ImportObject.defaults_get?_interop i) args held w).resolve_left h

/-- A session whose guest has a string. -/
def named : World := (runSteps [.set "name" (.text "isNaN")] (World.load {} {}).2.2).2

/-- A good name and a good first argument do not help: the last argument is a guest object. -/
theorem named_refuses_callMethod :
    ∃ e, ∀ run, callFrom run .defaults ImportObject.interopModule "callMethod"
      [.external .null, .ref (some ⟨0, 0⟩), .i32 1, .ref (some ⟨0, 0⟩)] [] named = .error e named :=
  callFrom_refuses (i := .callMethod) (by decide +kernel) []

end Guards

end BridgeM

end GuestBridge
