import GuestBridge.Proofs.Members
import GuestBridge.Proofs.Sessions

/-!
# What happens to cells

Five things happen to the cells of the host: one is made, those that nothing holds are
dropped, a property is written, a class definition is replaced, and a callable is extracted
from an object. Whatever state an action starts in, well formed or not, its effect on the
cells is a run of these, and the run tells which callables were extracted. From cells that are
grounded, such an effect retains the members of classes and instances.

* `Heap.Change`, `Heap.Run`: one change of the cells, and a run of them.
* `BridgeM.Alters`: the effect of an action on the cells is a run, which retains members.
* `alters`, `collectGarbage_alters`, `crossings_alters`: **reading, collections and crossings change
  the cells by runs**.
-/

namespace GuestBridge

/-! ## Changes -/

/-- A callable that has been extracted from a property of an object. -/
structure Extraction where
  callable : HostId
  receiver : HostId
  property : String
  deriving DecidableEq, Repr

/-- The receiver and the property that a callable was extracted from. -/
def ObjectKind.origin? : ObjectKind → Option (HostId × String)
  | function ⟨_, .bound receiver property, _⟩ => some (receiver, property)
  | _ => none

/-- Objects that are made by themselves have not been extracted. -/
theorem ObjectKind.Loose.origin?_eq_none {k : ObjectKind} (hk : k.Loose) : k.origin? = none := by
  cases k with
  | function c =>
    obtain ⟨name, behaviour, construct⟩ := c
    cases behaviour with
    | bound receiver property => exact absurd rfl (hk receiver property)
    | _ => rfl
  | _ => rfl

/-- They are neither classes nor instances. -/
theorem ObjectKind.Loose.definition?_eq_none {k : ObjectKind} (hk : k.Loose) :
    k.definition? = none := by
  cases k with
  | «class» | wrapper => exact hk.elim
  | _ => rfl

/-- A callable for a property of an object. -/
def HostObject.bound (i : HostId) (p : String) : HostObject :=
  { kind := .function { name := "bound " ++ p, behaviour := .bound i p } }

/-- The cell is no extracted callable, and none has been extracted from it. -/
def Cell.Untied (c : Cell) : Prop :=
  ∀ o, c = .object o → o.kind.origin? = none ∧ o.methodCache = {}

namespace Heap

variable {h h' h'' : Heap} {i f : HostId} {p : String} {xs ys : List Extraction}

/-- The receiver and the property that a callable was extracted from. -/
def origin? (h : Heap) (f : HostId) : Option (HostId × String) :=
  (h.object? f).bind fun o => o.kind.origin?

/-- The callable last extracted from a property of an object. -/
def cached? (h : Heap) (i : HostId) (p : String) : Option HostId :=
  (h.object? i).bind fun o => o.methodCache.find? p

/-- The heap after a callable for a property of an object has been made, which the object
remembers. -/
def extract (h : Heap) (i : HostId) (p : String) : Heap :=
  let (f, h) := h.alloc (.object (.bound i p))
  -- In a heap that is not well formed the new cell may be the object itself.
  match h.object? i with
  | some o => h.setCell i (.object { o with methodCache := o.methodCache.insert p f })
  | none => h

/-- One change of the cells, and the callable that it extracts, if it does. -/
inductive Change : Heap → Option Extraction → Heap → Prop
  | make {h : Heap} {c : Cell} (untied : c.Untied) : Change h none (h.alloc c).2
  | reclaim {h : Heap} {roots : List HostId} : Change h none (h.reclaim roots)
  | write {h : Heap} {i : HostId} {o : HostObject} {name : String} {v : HostValue}
      (old : h.object? i = some o) :
      Change h none
        (h.setCell i (.object { o with properties := o.properties.insert name v }))
  | define {h : Heap} {d : HostId} {c : ClassDefinition} :
      Change h none (h.setCell d (.definition c))
  | extract {h : Heap} {i : HostId} {p : String}
      (new : (h.cached? i p).filter h.isAlive = none) :
      Change h (some ⟨⟨h.next⟩, i, p⟩) (h.extract i p)

/-- A run of changes, and the callables that it extracts, in their order. -/
inductive Run (h : Heap) : List Extraction → Heap → Prop
  | refl : Run h [] h
  | tail {xs : List Extraction} {h' h'' : Heap} {x : Option Extraction} (r : Run h xs h')
      (m : Change h' x h'') : Run h (xs ++ x.toList) h''

/-- An extraction writes no property. -/
theorem evolves_extract (h : Heap) (i : HostId) (p : String) : h.Evolves (h.extract i p) := by
  have hmake : h.Evolves (h.alloc (.object (.bound i p))).2 :=
    evolves_alloc (fun _ o d ho hd => by cases ho; cases hd) nofun
  dsimp only [extract]
  split
  · next o ho =>
    exact hmake.trans (evolves_setObject ho rfl (fun _ hp => hp) fun _ _ _ _ => rfl)
  · exact hmake

theorem Run.trans (r : h.Run xs h') (r' : h'.Run ys h'') : h.Run (xs ++ ys) h'' := by
  induction r' with
  | refl => rwa [List.append_nil]
  | tail _ m ih =>
    rw [← List.append_assoc]
    exact ih.tail m

theorem Run.single {x : Option Extraction} (m : Change h x h') : h.Run x.toList h' :=
  Run.refl.tail m

end Heap

/-- The cells have undergone a run of changes, which retains members. -/
structure World.Alters (w w' : World) : Prop where
  run : ∃ xs, w.heap.Run xs w'.heap
  evolves : w.heap.Evolves w'.heap

namespace World.Alters

variable {w w' w'' : World}

theorem of_same (hh : w'.heap = w.heap) : w.Alters w' := ⟨⟨[], hh ▸ .refl⟩, hh ▸ .refl _⟩

theorem trans (h : w.Alters w') (h' : w'.Alters w'') : w.Alters w'' := by
  obtain ⟨xs, r⟩ := h.run
  obtain ⟨ys, r'⟩ := h'.run
  exact ⟨⟨xs ++ ys, r.trans r'⟩, h.evolves.trans h'.evolves⟩

/-- One more change, of which it may be known where the run came from. -/
theorem tail {x : Option Extraction} (h : w.Alters w') (m : w'.heap.Change x w''.heap)
    (e : w.heap.Grounded → w.heap.Retains w'.heap → w'.heap.Evolves w''.heap) : w.Alters w'' := by
  obtain ⟨xs, r⟩ := h.run
  refine ⟨⟨xs ++ x.toList, r.tail m⟩, fun hh => ?_⟩
  obtain ⟨-, hr⟩ := h.evolves hh
  exact (h.evolves.trans (e hh hr)) hh

theorem of_change {x : Option Extraction} (m : w.heap.Change x w'.heap)
    (e : w.heap.Evolves w'.heap) : w.Alters w' :=
  (of_same rfl).tail m fun _ _ => e

/-- What nothing holds is dropped. -/
theorem settled (w : World) (held : List HostId) : w.Alters (w.settled held) :=
  .of_change .reclaim (Heap.evolves_reclaim _)

end World.Alters

instance : IsPreorder World World.Alters where
  refl _ := .of_same rfl
  trans _ _ _ := World.Alters.trans

namespace BridgeM

variable {α β : Type} {act : BridgeM α} {f : α → BridgeM β}

/-- The effect of the action on the cells is a run of changes, whatever state it starts in. -/
def Alters (act : BridgeM α) : Prop := ∀ held w, Leads World.Alters held w act fun _ _ => True

section Rules

theorem Observes.alters (h : Observes act) : Alters act := fun _ _ =>
  h.leads.imp fun _ _ _ _ => trivial

theorem Alters.pure (a : α) : Alters (pure a : BridgeM α) := (Observes.pure a).alters

theorem Alters.throw (e : BridgeError) : Alters (throw e : BridgeM α) := (Observes.throw e).alters

theorem Alters.bind (h : Alters act) (hf : ∀ a, Alters (f a)) : Alters (act >>= f) :=
  fun held w => (h held w).bind fun a w' _ _ => hf a held w'

theorem Alters.holding (h : Alters act) (ids : List HostId) : Alters (holding ids act) :=
  fun held w => h (ids ++ held) w

theorem Alters.attempt (h : Alters act) : Alters (attempt act) := fun held w =>
  (h held w).attempt.imp fun _ _ _ _ => trivial

theorem Alters.discard (h : Alters act) : Alters (discard act) := h.bind fun _ => .pure _

theorem Alters.forM {ι : Type} {g : ι → BridgeM Unit} (hg : ∀ i, Alters (g i)) (is : List ι) :
    Alters (is.forM g) := by
  induction is with
  | nil => exact .pure _
  | cons i is ih => exact Alters.bind (hg i) fun _ => ih

theorem Alters.aliveNow : Alters aliveNow := fun held w =>
  Leads.of_ok (aliveNow_run held w) (.settled w held) trivial

theorem Alters.allocCell {c : Cell} (hu : c.Untied)
    (hd : ∀ o, c = .object o → o.kind.definition? = none)
    (hm : ∀ m, c = .definition m → m.methods = {}) : Alters (allocCell c) := fun _ _ =>
  Leads.of_ok rfl (.of_change (.make hu) (Heap.evolves_alloc (fun _ o d hc hk => by
    rw [hd o hc] at hk; cases hk) hm)) trivial

/-- A new object that is neither a class nor an instance. -/
theorem Alters.allocObject {k : ObjectKind} {properties : OrderedMap String HostValue}
    (hk : k.origin? = none) (hd : k.definition? = none) : Alters (allocObject k properties) :=
  .allocCell (fun _ he => Cell.object.inj he ▸ ⟨hk, rfl⟩) (fun _ he => Cell.object.inj he ▸ hd) nofun

/-- The definition of a new class is made before the class. -/
theorem synthesizeClass_alters (name : String) : Alters (synthesizeClass name) := by
  intro held w
  have hdefinition := (Alters.allocCell (c := .definition { name := identifierOf name })
    (by simp [Cell.Untied]) (by simp) (fun _ he => Cell.definition.inj he ▸ rfl) held w).ok rfl
  refine Leads.after (a := ⟨w.heap.next⟩) rfl ⟨?_, trivial⟩
  refine hdefinition.1.tail (.make ?_) fun _ _ => Heap.evolves_alloc (fun _ o d ho hd => ?_) nofun
  · exact fun _ he => Cell.object.inj he ▸ ⟨rfl, rfl⟩
  · cases ho
    cases hd
    exact ⟨⟨_, Heap.definition?_eq_some_iff.2 (OrderedMap.find?_insert_self ..)⟩, rfl⟩

/-- **Reading makes cells, and what happens outside of the heap does nothing to them.** -/
theorem alters : Congruence.Outside fun act _ => Alters act where
  pure := .pure
  throw := .throw
  get := Observes.get.alters
  bind := .bind
  holding := .holding
  allocString _ :=
    (Alters.allocCell (by simp [Cell.Untied]) (by simp) (by simp)).bind fun _ => .pure _
  allocSymbol _ :=
    (Alters.allocCell (by simp [Cell.Untied]) (by simp) (by simp)).bind fun _ => .pure _
  allocObject hk _ := .allocObject hk.origin?_eq_none hk.definition?_eq_none
  synthesizeClass := synthesizeClass_alters
  allocGuestString _ _ _ := Leads.guest fun _ _ => ⟨.of_same rfl, trivial⟩
  outside hg _ w := Leads.of_ok rfl (.of_same (hg w)) trivial

end Rules

/-! ## Crossings -/

section Crossings

/-- **So do crossings**, which drop besides what nothing holds. -/
theorem alters_crossing : Congruence.Crossing fun act _ => Alters act :=
  alters.crossing .attempt .aliveNow

theorem crossings_alters : crossings.Related fun act _ => Alters act :=
  alters_crossing.crossings alters

theorem report_alters (channel : Channel) (token : GuestValue) :
    Alters (report crossingsInPass channel token) :=
  alters_crossing.report alters (alters_crossing.crossingsInPass alters) channel token

theorem collectGarbage_alters : Alters collectGarbage :=
  alters_crossing.collectGarbage report_alters

/-- Where the host value of a handle is looked up, what nothing holds may be dropped. -/
theorem resolve_alters (k : Handle) (held : List HostId) (w : World) :
    Leads World.Alters held w (resolve k) fun _ w' => w' = w ∨ w' = w.settled held := by
  refine Leads.read (get_run held w) ?_
  split
  · exact Leads.pure (.inl rfl)
  · exact Leads.pure (.inl rfl)
  · refine Leads.bind_from (P := fun _ w' => w' = w.settled held)
      (Leads.of_ok (aliveNow_run held w) (.settled w held) rfl) fun alive w' ha hw' => ?_
    exact Leads.of_ok rfl ha (.inr hw')

/-- A class that is held has its definition when an instance is made. -/
theorem valueOf_alters {class_ : HostId} {held : List HostId} (hheld : class_ ∈ held) (k : Handle)
    (w : World) : Leads World.Alters held w (valueOf k class_) fun _ _ => True := by
  refine Leads.read (get_run held w) ?_
  split
  · exact Leads.observe (.kindOf _) fun _ _ => Leads.throw
  · next d hd =>
    refine (resolve_alters k held w).bind_from fun found w' ha hw' => ?_
    split
    · exact Leads.of_ok rfl ha trivial
    · refine Leads.read (isLiveNow_run held w') ?_
      dsimp only
      split
      · exact Leads.of_error rfl ha
      -- nothing or a collection came before, and the class is held, so it still has its definition
      · have hclass : w.heap.Grounded → w'.heap.classDefinition? class_ = some d := by
          intro hh
          obtain rfl | rfl := hw'
          · exact hd
          · obtain ⟨o, ho, hk⟩ := Heap.classDefinition?_eq_some_iff.1 hd
            exact Heap.classDefinition?_eq_some_iff.2 ⟨o, Heap.cell?_reclaim_of_root hh.nodup ho
              (List.mem_append_left _ hheld), hk⟩
        refine Leads.of_ok rfl (ha.tail (.make (c := .object { kind := .wrapper d k }) ?_)
          fun hh _ => Heap.evolves_alloc (fun hh' o e ho he => ?_) nofun) trivial
        · exact fun _ he => Cell.object.inj he ▸ ⟨rfl, rfl⟩
        · cases ho
          cases he
          exact ⟨hh'.definition_of_class (hclass hh), rfl⟩

theorem unwrap_alters (k : Option Handle) (class_ : HostId) : Alters (unwrap k class_) := by
  intro held w
  refine Leads.holding ((alters_crossing.trackCrossing report_alters _ w).bind fun _ w₁ _ _ => ?_)
  refine (alters.guest _ w₁).bind fun g w₂ _ _ => ?_
  cases k with
  | none => exact Leads.pure trivial
  | some k => exact valueOf_alters (List.mem_append_left _ (List.mem_singleton_self _)) k w₂

end Crossings

end BridgeM

end GuestBridge
