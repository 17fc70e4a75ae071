import GuestBridge.Proofs.Calls
import GuestBridge.Session.Run

/-!
# Sessions are made of moves

A state is *reachable* when a session that loaded a bridge gets to it by steps.

* `performAction_leads`: **an action is made of moves.**
* `Step.run_reaches`: so is a step of a session.
* `World.Reachable.ok`: **a reachable state is well formed**: nothing dangles in it.
-/

namespace GuestBridge

/-- The heap has what a reply leaves for a variable. -/
def Reply.Backed (h : Heap) (r : Reply) : Prop :=
  ∀ t, r.result = some t → ∀ p ∈ t.parts, h.Backs p

namespace BridgeM

variable {held : List HostId} {w w' : World} {v : HostValue} {α : Type} {P : α → World → Prop}

/-! ## Programs -/

section Programs

theorem setVariable_leads (name : String) {t : GuestValue} (ht : ∀ p ∈ t.parts, w.heap.Backs p) :
    Leads (Reaches .outer held) held w (setVariable name t) fun _ _ => True :=
  Leads.modify (Reaches.outer (.bind ht)) trivial

/-- Each unit is a call of the import for the console, and the state is well formed between them. -/
theorem printUnits_leads (hw : w.OK held) (units : List UInt16) :
    Leads (Reaches .outer held) held w (printUnits units) fun _ w' => w'.OK held := by
  refine Leads.forM hw fun u _ w hw => ?_
  refine (callImport_leads (runner_sound _) hw ?_ _ _).discard fun _ _ h' _ => h'.ok hw
  intro t ht p hp
  obtain rfl := List.mem_singleton.1 ht
  simp [GuestValue.parts] at hp

theorem echo_leads (hw : w.OK held) (args : Handle) :
    Leads (Reaches .outer held) held w (echo args) fun _ _ => True := by
  refine Leads.askGuest fun g items _ _ => ?_
  refine (Leads.forM hw fun item _ w hw => ?_).imp fun _ _ _ _ => trivial
  cases item with
  | none => exact printUnits_leads hw _
  | some h => exact Leads.askGuest fun g text _ _ => printUnits_leads hw _

/-- The arguments are held during the call, and its result is bound only if the program asks for
that. -/
theorem performCall_leads (hw : w.OK held) (c : ProgramCall) :
    Leads (Reaches .outer held) held w (performCall c) fun _ _ => True := by
  refine (mapM_read_quiet hw c.args).of_quiet.bind fun ts w₁ h₁ hts => ?_
  refine Leads.hold (fun hw₁ => ?_) (h₁.ok hw) (Heap.BacksAll.isAlive hts)
  refine (callImport_leads (runner_sound _) hw₁ hts _ _).bind fun r w₂ _ hr => ?_
  refine Leads.read (get_run _ w₂) ?_
  dsimp only
  split
  · next he =>
    have hv := hr _ (Prod.mk.inj he).2
    exact (setVariable_leads _ hv).bind fun _ _ _ _ => Leads.pure trivial
  · exact Leads.pure trivial

/-- A program stops at the first of its calls that fails. -/
theorem performCalls_leads (hw : w.OK held) (cs : List ProgramCall) :
    Leads (Reaches .outer held) held w (performCalls cs) fun _ _ => True := by
  induction cs generalizing w with
  | nil => exact Leads.pure trivial
  | cons c cs ih =>
    -- a call that fails is caught, and the state that it has reached stays
    refine (performCall_leads hw c).attempt.bind fun r w' h' _ => ?_
    split
    · exact (ih (h'.ok hw)).bind fun _ _ _ _ => Leads.pure trivial
    · exact Leads.pure trivial

/-- The guest notes the array that it is run with, and then does what its program says. -/
theorem callMain_leads (hw : w.OK held) (args : Handle) :
    Leads (Reaches .outer held) held w (callMain args) fun _ _ => True := by
  refine Leads.guest fun g hg => ?_
  refine Leads.bind (P := fun _ _ => True)
    (Leads.modify (Reaches.outer (.adjust hg rfl rfl)) trivial) fun _ w' h' _ => ?_
  have hw' := h'.ok hw
  split
  · exact Leads.pure trivial
  · exact Leads.pure trivial
  · exact (echo_leads hw' args).attempt.bind fun _ _ _ _ => Leads.pure trivial
  · exact performCalls_leads hw' _

theorem runMain_leads (hw : w.OK held) (texts : List String) :
    Leads (Reaches .outer held) held w (runMain texts) fun _ _ => True :=
  (tryGuest_leads fun _ _ _ h => Guest.makeStringArray_edits h).bind fun args _ h' _ =>
    callMain_leads (h'.ok hw) args

/-- Unloading drops the guest, and delivers what waits on the console. -/
theorem unload_leads : Leads (Reaches .outer held) held w unload fun _ _ => True :=
  Leads.modify ((Reaches.outer .unload).trans (Reaches.outer .print)) trivial

end Programs

/-! ## Reading descriptions -/

section Descriptions

/-- A value that has been read is there, and it is held, during what is done with it. -/
theorem withHost_leads (hw : w.OK held) {e : HostExpr} {act : HostValue → BridgeM α}
    (h : ∀ v w', Reaches .quiet held w w' → w'.OK (v.holds ++ held) → w'.heap.Backs (.value v) →
      Leads (Reaches .outer (v.holds ++ held)) (v.holds ++ held) w' (act v) P) :
    Leads (Reaches .outer held) held w (withHost e act) P :=
  (HostExpr.read_quiet e hw).quietly.bind fun v w' h' ⟨hq, hv⟩ =>
    Leads.hold (fun hw' => h v w' hq hw' hv) (h'.ok hw) hv.isAlive

theorem withHosts_leads (hw : w.OK held) {es : List HostExpr} {act : List HostValue → BridgeM α}
    (h : ∀ vs w', Reaches .quiet held w w' → w'.OK (vs.flatMap HostValue.holds ++ held) →
      (∀ v ∈ vs, w'.heap.Backs (.value v)) →
      Leads (Reaches .outer (vs.flatMap HostValue.holds ++ held))
        (vs.flatMap HostValue.holds ++ held) w' (act vs) P) :
    Leads (Reaches .outer held) held w (withHosts es act) P :=
  (mapM_hostRead_quiet hw es).quietly.bind fun vs w' h' ⟨hq, hv⟩ =>
    Leads.hold (fun hw' => h vs w' hq hw' hv) (h'.ok hw) (isAlive_flatMap_holds hv)

theorem withGuest_leads (hw : w.OK held) {e : GuestExpr} {act : GuestValue → BridgeM α}
    (h : ∀ t w', Reaches .quiet held w w' → w'.OK (t.holds ++ held) →
      (∀ p ∈ t.parts, w'.heap.Backs p) →
      Leads (Reaches .outer (t.holds ++ held)) (t.holds ++ held) w' (act t) P) :
    Leads (Reaches .outer held) held w (withGuest e act) P :=
  (GuestExpr.read_quiet e hw).quietly.bind fun t w' h' ⟨hq, ht⟩ =>
    Leads.hold (fun hw' => h t w' hq hw' ht) (h'.ok hw) (Heap.isAlive_of_guestValue ht)

/-- What is held with a value depends on whether there is one. -/
theorem withToken_leads (hw : w.OK held) {e : Option GuestExpr}
    {act : Option GuestValue → BridgeM α}
    (h : ∀ held' token w', Reaches .quiet held w w' → w'.OK held' → (∀ i ∈ held, i ∈ held') →
      (∀ t, token = some t → ∀ p ∈ t.parts, w'.heap.Backs p) →
      Leads (Reaches .outer held') held' w' (act token) P) :
    Leads (Reaches .outer held) held w (withToken e act) P := by
  cases e with
  | none => exact h held none w .refl hw (fun _ => id) nofun
  | some e =>
    refine withGuest_leads hw fun t w' hq hw' ht => ?_
    exact h _ (some t) w' hq hw' (fun _ => List.mem_append_right _) fun _ he =>
      Option.some.inj he ▸ ht

theorem handleFrom_leads (hw : w.OK held) (e : GuestExpr) :
    Leads (Reaches .outer held) held w (handleFrom e) fun _ _ => True := by
  refine (GuestExpr.read_quiet e hw).of_quiet.bind fun t w' _ _ => ?_
  refine Leads.observe (.ofExcept _) fun k _ => ?_
  split
  · exact Leads.pure trivial
  · exact Leads.throw

/-- A reply that leaves nothing for a variable. -/
theorem done_backed {h : Heap} {r : Reply} (hr : r.result = none) : r.Backed h := by
  intro t ht
  rw [hr] at ht
  cases ht

theorem ofHandle_backed {h : Heap} (k : Handle) : (Reply.ofHandle k).Backed h := by
  intro t ht
  obtain rfl := Option.some.inj ht
  simp [GuestValue.parts]

theorem replyHost_leads {ℓ : Level} (hv : w.heap.Backs (.value v)) :
    Leads (Reaches ℓ held) held w (replyHost v) fun r w' => r.Backed w'.heap :=
  Leads.read (get_run held w) (Leads.pure (backs_external hv))

end Descriptions

/-! ## Actions -/

section Actions

/-- What the guest does for itself, as an answer. -/
theorem ofHandle_leads {f : Guest → Except BridgeError (Handle × Guest)}
    (hf : ∀ g a g', f g = .ok (a, g') → g.Edits g') :
    Leads (Reaches .outer held) held w (do return .ofHandle (← tryGuest f)) fun r w' =>
      Reply.Backed w'.heap r :=
  (tryGuest_leads hf).bind fun _ _ _ _ => Leads.pure (ofHandle_backed _)

/-- What the guest is asked, as an answer. -/
theorem askGuest_answer_leads {f : Guest → Except BridgeError α} {g : α → Answer} :
    Leads (Reaches .outer held) held w (do return { answer := g (← askGuest f) }) fun r w' =>
      Reply.Backed w'.heap r :=
  Leads.askGuest fun _ _ _ _ => Leads.pure (done_backed rfl)

/-- **What is asked of the guest directly is made of moves.** -/
theorem performGuest_leads (hw : w.OK held) (a : GuestAction) :
    Leads (Reaches .outer held) held w (performGuest a) fun r w' => r.Backed w'.heap := by
  have hℓ : Level.outer ≠ .quiet := nofun
  unfold performGuest
  cases a with
  | createStringArray n => exact ofHandle_leads fun _ _ _ h => Guest.createStringArray_edits h
  | createStringBuilder =>
    refine Leads.bind (P := fun _ _ => True) ?_ fun _ _ _ _ => Leads.pure (ofHandle_backed _)
    exact (changeGuest_alloc_leads (by simp [GuestObject.parts])).imp fun _ _ _ _ => trivial
  | makeString s => exact ofHandle_leads fun _ _ _ h => Guest.makeString_edits h
  | makeStringArray ss => exact ofHandle_leads fun _ _ _ h => Guest.makeStringArray_edits h
  | allocString s =>
    refine Leads.bind (P := fun _ _ => True) ?_ fun _ _ _ _ => Leads.pure (ofHandle_backed _)
    exact (changeGuest_alloc_leads (by simp [GuestObject.parts])).imp fun _ _ _ _ => trivial
  | provides e => exact Leads.guest fun _ _ => Leads.pure (done_backed rfl)
  | buildString builder =>
    exact (handleFrom_leads hw builder).bind fun k w' _ _ =>
      ofHandle_leads fun _ _ _ h => Guest.buildString_edits h
  | appendChar builder code =>
    refine (handleFrom_leads hw builder).bind fun k w' _ _ => ?_
    refine (tryGuest_leads fun g _ g' h => ?_).bind fun _ _ _ _ => Leads.pure (done_backed rfl)
    obtain ⟨g₁, h₁, h⟩ := exists_of_bind_eq_ok h
    cases h
    exact Guest.appendChar_edits h₁
  | setToStringArray array index value =>
    refine (handleFrom_leads hw array).bind fun k w' h' _ => ?_
    refine (handleFrom_leads (h'.ok hw) value).bind fun k' w'' _ _ => ?_
    refine (tryGuest_leads fun g _ g' h => ?_).bind fun _ _ _ _ => Leads.pure (done_backed rfl)
    obtain ⟨g₁, h₁, h⟩ := exists_of_bind_eq_ok h
    cases h
    exact Guest.setToStringArray_edits h₁
  | main args =>
    refine (handleFrom_leads hw args).bind fun k w' h' _ => ?_
    refine (callMain_leads (h'.ok hw) k).bind fun result w'' _ _ => ?_
    exact Leads.observe (.ofExcept _) fun _ _ => Leads.pure (done_backed rfl)
  | createWrapper value =>
    refine withHost_leads hw fun v w' _ hw' hv => ?_
    refine (createWrapper_leads hw' hv (fun _ => List.mem_append_left _)
      (wrap_leads hℓ).discard).bind fun _ _ _ _ => Leads.pure (ofHandle_backed _)
  | report channel token =>
    refine withGuest_leads hw fun t w' _ hw' ht => ?_
    exact (report_leads hℓ (crossings_moves hℓ) channel hw' ht).bind fun _ _ _ _ =>
      Leads.pure (done_backed rfl)
  | isLive handle =>
    exact (handleFrom_leads hw handle).bind fun _ _ _ _ => Leads.guest fun _ _ =>
      Leads.pure (done_backed rfl)
  | stringLength string | stringCharAt string | readString string | stringValue string
  | stringArray string =>
    exact (handleFrom_leads hw string).bind fun _ _ _ _ => askGuest_answer_leads
  | wrappedValue wrapper =>
    refine (handleFrom_leads hw wrapper).bind fun k w' h' _ => ?_
    refine Leads.askGuest fun g v hg hv => replyHost_leads ?_
    obtain ⟨o, ho, hv⟩ := exists_of_bind_eq_ok hv
    have hparts := ((h'.ok hw).guest g hg).objects o
      (HandleTable.stores_of_get? (Guest.object_ok ho))
    cases o with
    | wrapper x =>
      cases hv
      exact hparts _ (List.mem_singleton_self _)
    | _ => cases hv

theorem Observes.requireObject (v : HostValue) : Observes (requireObject v) := by
  unfold BridgeM.requireObject
  split
  · exact .pure _
  · exact (Observes.kindOf _).bind fun _ => .throw _

theorem Observes.requireClass (v : HostValue) : Observes (requireClass v) := by
  unfold BridgeM.requireClass
  split
  · exact .pure _
  · exact (Observes.kindOf _).bind fun _ => .throw _

/-- An object that is to be a class is alive, so a crossing may hold it. -/
theorem requireClass_looks (hv : w.heap.Backs (.value v)) :
    Leads Eq held w (requireClass v) fun i _ => w.heap.isAlive i := by
  unfold requireClass
  split
  · exact Leads.pure (isAlive_of_backs hv)
  · exact Leads.observe (.kindOf _) fun _ _ => Leads.throw

theorem Observes.aboutObject (i : HostId) : Observes (aboutObject i) :=
  Observes.get.bind fun _ => (Observes.originOf i).bind fun _ => .pure _

/-- What is asked of a host value is made of moves. -/
theorem performHost_leads (hw : w.OK held) (hv : w.heap.Backs (.value v)) (a : HostAction) :
    Leads (Reaches .outer held) held w (performHost v a) fun r w' => r.Backed w'.heap := by
  have hrun : runner.Sound := runner_sound _
  unfold performHost
  cases a with
  | typeOf => exact Leads.observe (.kindOf v) fun _ _ => Leads.pure (done_backed rfl)
  | display => exact Leads.observe (.display v) fun _ _ => Leads.pure (done_backed rfl)
  | equals other =>
    exact (HostExpr.read_quiet other hw).of_quiet.bind fun _ _ _ _ => Leads.pure (done_backed rfl)
  | get key =>
    refine Leads.observe (.requireObject v) fun i _ => ?_
    exact (getProperty_leads hrun hw key).bind fun _ _ _ hx => replyHost_leads hx
  | getOwn key =>
    refine Leads.observe (.requireObject v) fun i _ => Leads.read (object?_run i held w) ?_
    split
    · next x hx =>
      obtain ⟨o, ho, hx⟩ := Option.bind_eq_some_iff.1 hx
      exact replyHost_leads (backs_property hw.heap ho (OrderedMap.mem_values_of_find? hx))
    · exact Leads.pure (done_backed rfl)
  | set key value =>
    refine withHost_leads hw fun x w' _ hw' hx => ?_
    refine Leads.observe (.requireObject v) fun i _ => ?_
    exact (setProperty_leads hrun hw' key hx).bind fun _ _ _ _ => Leads.pure (done_backed rfl)
  | has key =>
    refine Leads.observe (.requireObject v) fun i _ => ?_
    exact Leads.observe (.hasProperty i key) fun _ _ => Leads.pure (done_backed rfl)
  | keys =>
    refine Leads.observe (.requireObject v) fun i _ => ?_
    exact Leads.observe (.object? i) fun _ _ => Leads.pure (done_backed rfl)
  | call this args =>
    refine withHost_leads hw fun this w₁ h₁ hw₁ hthis => ?_
    refine withHosts_leads hw₁ fun args w₂ h₂ hw₂ hargs => ?_
    have hv₂ := h₂.backs_of_quiet hw₁ (h₁.backs_of_quiet hw hv)
    cases v with
    | object f =>
      refine (callObject_leads hrun hw₂ (isAlive_of_backs hv₂)
        (h₂.backs_of_quiet hw₁ hthis) hargs).bind fun _ _ _ hx => replyHost_leads hx
    | _ => exact Leads.observe (.display _) fun _ _ => Leads.throw
  | construct args =>
    refine withHosts_leads hw fun args w₁ h₁ hw₁ hargs => ?_
    exact (construct_leads hrun hw₁ (h₁.backs_of_quiet hw hv) hargs).bind fun _ _ _ hx =>
      replyHost_leads hx
  | about =>
    refine Leads.observe (.requireObject v) fun i _ => ?_
    exact Leads.observe (.aboutObject i) fun _ _ => Leads.pure (done_backed rfl)
  | defineMethod key entry =>
    refine withGuest_leads hw fun t w' _ hw' ht => ?_
    refine Leads.observe (.requireClass v) fun c _ => ?_
    refine Leads.look (Leads.ofExcept fun e he => entry_of_asEntry ht he) fun e he => ?_
    exact (defineMethod_leads hw' c key he).bind fun _ _ _ _ => Leads.pure (done_backed rfl)
  | defineProperty key getter setter =>
    refine withGuest_leads hw fun t w₁ _ hw₁ ht => ?_
    refine withToken_leads hw₁ fun held' s w₂ h₂ hw₂ _ hs => ?_
    -- reading the setter keeps what the getter needs
    have ht₂ : ∀ p ∈ t.parts, w₂.heap.Backs p := fun p hp => h₂.backs_of_quiet hw₁ (ht p hp)
    refine Leads.look (setter_looks hs) fun s' hs' => Leads.observe (.requireClass v) fun c _ => ?_
    refine Leads.look (Leads.ofExcept fun e he => entry_of_asEntry ht₂ he) fun e he => ?_
    exact (defineProperty_leads hw₂ c key he hs').bind fun _ _ _ _ => Leads.pure (done_backed rfl)

/-- What is asked of the context is made of moves. -/
theorem performContext_leads (hw : w.OK held) (a : ContextAction) :
    Leads (Reaches .outer held) held w (performContext a) fun r w' => r.Backed w'.heap := by
  have hrun : runner.Sound := runner_sound _
  have hℓ : Level.outer ≠ .quiet := nofun
  unfold performContext
  cases a with
  | hasGuest | globals => exact Leads.read (get_run held w) (Leads.pure (done_backed rfl))
  | wrap value =>
    refine withHost_leads hw fun v w' _ hw' hv => ?_
    refine (wrap_leads hℓ _ w' v hw' hv).bind fun h w'' _ _ => Leads.pure fun t ht => ?_
    obtain rfl := Option.some.inj ht
    simp [GuestValue.parts]
  | unwrap class_ handle =>
    refine withHost_leads hw fun c w₁ _ hw₁ hc => withGuest_leads hw₁ fun t w₂ h₂ hw₂ _ => ?_
    have hc₂ := h₂.backs_of_quiet hw₁ hc
    refine Leads.observe (.ofExcept _) fun k _ => ?_
    refine Leads.look (requireClass_looks hc₂) fun i hi => ?_
    exact (unwrap_leads hℓ hw₂ k hi).bind fun _ _ _ hx => replyHost_leads hx.1
  | hash value =>
    refine withHost_leads hw fun v w' _ hw' hv => ?_
    exact (hashWith_leads (trackCrossing_tracks hℓ) _ w' v hw' hv).bind fun _ _ _ _ =>
      Leads.pure (done_backed rfl)
  | createWeakRef channel value token =>
    refine withHost_leads hw fun v w₁ _ hw₁ hv => ?_
    refine withToken_leads hw₁ fun held' token w₂ h₂ hw₂ _ ht => ?_
    have hv₂ := h₂.backs_of_quiet hw₁ hv
    cases channel <;>
      exact (weakRefWith_leads (trackCrossing_tracks hℓ) _ hw₂ hv₂ ht).bind fun _ _ _ hi =>
        replyHost_leads hi
  | deref channel value =>
    refine withHost_leads hw fun v w' _ hw' hv => ?_
    cases channel with
    | value => exact (deref_leads hℓ hw' hv).bind fun _ _ _ hx => replyHost_leads hx
    | string => exact (derefString_leads hℓ hw' hv).bind fun _ _ _ hx => replyHost_leads hx
  | callMethod value name args =>
    refine withHost_leads hw fun v w₁ _ hw₁ hv => withHosts_leads hw₁ fun vs w₂ h₂ hw₂ hvs => ?_
    exact (callMethod_leads hrun hw₂ (h₂.backs_of_quiet hw₁ hv) name hvs).bind fun _ _ _ hx =>
      replyHost_leads hx
  | asFunction value name =>
    refine withHost_leads hw fun v w' _ hw' hv => ?_
    exact (asFunction_leads hw' hv name).bind fun _ _ _ hf => replyHost_leads hf
  | functionAsObject value name =>
    refine withHost_leads hw fun v w' _ hw' hv => ?_
    exact (functionAsObject_leads hw' hv name).bind fun _ _ _ hi => replyHost_leads hi
  | flush =>
    exact Leads.bind (P := fun _ _ => True) (Leads.modify (Reaches.outer .print) trivial)
      fun _ _ _ _ => Leads.pure (done_backed rfl)

/-- **An action is made of moves**, and the heap has what it leaves for a variable. -/
theorem performAction_leads (hw : w.OK held) (a : Action) :
    Leads (Reaches .outer held) held w (performAction a) fun r w' => r.Backed w'.heap := by
  have hrun : runner.Sound := runner_sound _
  have hℓ : Level.outer ≠ .quiet := nofun
  have move : ∀ {f : World → World}, Reaches .outer held w (f w) →
      Leads (Reaches .outer held) held w (do modify f; return Reply.done) fun r w' =>
        r.Backed w'.heap :=
    fun hr => Leads.bind (P := fun _ _ => True) (Leads.modify hr trivial)
      fun _ _ _ _ => Leads.pure (done_backed rfl)
  unfold performAction
  cases a with
  | callImport module name args =>
    refine (mapM_read_quiet hw args).of_quiet.bind fun ts w₁ h₁ hts => ?_
    refine Leads.hold (fun hw₁ => ?_) (h₁.ok hw) (Heap.BacksAll.isAlive hts)
    refine (callImport_leads hrun hw₁ hts _ _).bind fun r w₂ _ hr => ?_
    exact Leads.read (get_run _ w₂) (Leads.pure hr)
  | drop name =>
    refine Leads.read (get_run held w) ?_
    exact Leads.bind (P := fun _ _ => True) (Leads.modify (Reaches.outer .unbind) trivial)
      fun _ _ _ _ => Leads.pure (done_backed rfl)
  | free handle =>
    refine (handleFrom_leads hw handle).bind fun k w' _ _ => Leads.bind (P := fun _ _ => True) ?_
      fun _ _ _ _ => Leads.pure (done_backed rfl)
    exact Leads.guest fun g hg => ⟨Reaches.outer (.free hg), trivial⟩
  | collect =>
    exact (collectGarbage_leads hℓ hw).bind fun _ _ _ _ => Leads.pure (done_backed rfl)
  | stats =>
    exact Leads.observe (Observes.get.bind fun _ => .pure _) fun _ _ => Leads.pure (done_backed rfl)
  | reports =>
    exact Leads.read (get_run held w) (Leads.guest fun _ _ => Leads.pure (done_backed rfl))
  | setExport e present => exact Leads.guest fun g hg => move (Reaches.outer (.adjust hg rfl rfl))
  | setMode mode => exact Leads.guest fun g hg => move (Reaches.outer (.adjust hg rfl rfl))
  | guest action => exact performGuest_leads hw action
  | host target action =>
    exact withHost_leads hw fun v w' _ hw' hv => performHost_leads hw' hv action
  | context action => exact performContext_leads hw action
  | console | describe => exact Leads.read (get_run held w) (Leads.pure (done_backed rfl))
  | unload => exact unload_leads.bind fun _ _ _ _ => Leads.pure (done_backed rfl)

end Actions

/-! ## Loading -/

section Loading

/-- The heap has what the globals are bound to, and the state is well formed. -/
def Bound (table : OrderedMap String HostValue) (w : World) : Prop :=
  w.OK [] ∧ ∀ v ∈ table.values, w.heap.Backs (.value v)

/-- A value that is bound later leaves those bound before as they are. -/
theorem Bound.insert {table : OrderedMap String HostValue} (hb : Bound table w)
    (hr : Reaches .quiet [] w w') (hv : w'.heap.Backs (.value v)) (name : String) :
    Bound (table.insert name v) w' := by
  refine ⟨hr.ok hb.1, fun x hx => ?_⟩
  rcases OrderedMap.mem_values_insert hx with rfl | hx
  · exact hv
  · exact hr.backs_of_quiet hb.1 (hb.2 x hx)

/-- Each global that is named gets a function of its own. -/
theorem globalTable_leads (hw : w.OK []) (names : List String) :
    Leads (Reaches .quiet []) [] w (globalTable names) Bound := by
  refine Leads.foldlM (I := Bound) ⟨hw, by simp [OrderedMap.values]⟩ fun name _ table w hb => ?_
  split
  · refine Leads.bind (allocObject_leads ?_ ?_ ?_ rfl) fun f w' h' hf => ?_
    · simp [ObjectKind.parts, Behaviour.parts]
    · simp [OrderedMap.values]
    · simp [ObjectKind.weakLinks]
    · exact Leads.pure (hb.insert h' hf _)
  · exact Leads.throw

theorem bindAll_leads {table : OrderedMap String HostValue} (hb : Bound table w)
    (bound : List (String × HostExpr)) :
    Leads (Reaches .quiet []) [] w (bindAll table bound) Bound :=
  Leads.foldlM (I := Bound) hb fun b _ _ _ hb =>
    (HostExpr.read_quiet b.2 hb.1).bind fun _ _ h' hv => Leads.pure (hb.insert h' hv _)

/-- The globals of usable options are backed by the heap that reading leaves. -/
theorem readOptions_leads (hw : w.OK []) (s : Setup) :
    Leads (Reaches .quiet []) [] w (readOptions s) fun o w' => Bound o.globals w' := by
  have rest : ∀ config : Config, Leads (Reaches .quiet []) [] w (do
      let globals ← globalTable (s.globals.getD config.globals)
      let globals ← bindAll globals s.bound
      return ({ hasHook := s.hook.isSome, globals, hashSeed := s.seed.getD config.hashSeed }
        : Options)) fun o w' => Bound o.globals w' := by
    intro config
    refine (globalTable_leads hw _).bind fun table w' _ hb => ?_
    exact (bindAll_leads hb s.bound).bind fun _ _ _ hb' => Leads.pure hb'
  unfold readOptions
  split
  · exact Leads.observe (.pure _) fun _ _ => rest _
  · exact Leads.observe (.ofExcept _) fun _ _ => rest _

/-- The context is set before the guest is asked for, so it is there without a guest as well. -/
theorem instantiate_run (s : Setup) (o : Options) (held : List HostId) (w : World) :
    instantiate s o held w =
      let context := { w.context with globals := o.globals, hasher := .ofSeed o.hashSeed }
      let imports := (s.hook.getD []).foldl ImportObject.edit .defaults
      match s.program with
      | some program =>
        .ok () { w with
          context, guest := some { imports, program, hasOptional := s.hasOptional } }
      | none => .error (.load s.locator "no such program") { w with context } := by
  unfold instantiate
  cases s.program <;> rfl

end Loading

/-! ## Steps -/

section Steps

/-- The result, if there is one, is bound to the variable that is asked for. -/
theorem performInto_leads (hw : w.OK held) (a : Action) (target : Option String) :
    Leads (Reaches .outer held) held w (performInto a target) fun _ _ => True := by
  refine (performAction_leads hw a).bind fun r w' _ hr => ?_
  split
  · next he =>
    have hv := hr _ (Prod.mk.inj he).2
    exact (setVariable_leads _ hv).bind fun _ _ _ _ => Leads.pure trivial
  · exact Leads.pure trivial

theorem setAndShow_leads (hw : w.OK held) (name : String) (e : GuestExpr) :
    Leads (Reaches .outer held) held w (setAndShow name e) fun _ _ => True := by
  refine (GuestExpr.read_quiet e hw).of_quiet.bind fun t w' _ ht => ?_
  refine (setVariable_leads name ht).bind fun _ w'' _ _ => ?_
  exact Leads.read (get_run held w'') (Leads.pure trivial)

theorem Observes.mainArgTexts : Observes mainArgTexts := by
  refine Observes.get.bind fun w => ?_
  split
  · split
    · exact .pure _
    · exact .pure _
  · exact .pure _

theorem mainStep_leads (hw : w.OK held) (args : List String) :
    Leads (Reaches .outer held) held w (mainStep args) fun _ _ => True := by
  refine (runMain_leads hw args).attempt.bind fun r w' _ _ => ?_
  split
  · exact Leads.observe (.pure _) fun _ _ => Leads.observe .mainArgTexts fun _ _ => Leads.pure trivial
  · exact Leads.observe (.pure _) fun _ _ => Leads.observe .mainArgTexts fun _ _ => Leads.pure trivial

/-- A step ends with a reclaim. -/
theorem asStep_reaches {act : BridgeM α} (h : Leads (Reaches .outer []) [] w act P) :
    Reaches .outer [] w (asStep act w).2 := by
  have settle : ∀ w', Reaches .outer [] w' (w'.settled []) := fun w' =>
    Reaches.settled (by decide) w' []
  unfold asStep outcome
  unfold Leads at h
  cases ha : act [] w with
  | ok a w' => rw [ha] at h; exact h.1.trans (settle w')
  | error e w' => rw [ha] at h; exact h.trans (settle w')

end Steps

end BridgeM

section Runs

variable {w w' w'' : World}

/-- Rounds, each of which begins in a well-formed state. -/
theorem repeat_reaches {α : Type} {f : α × World → α × World}
    (hf : ∀ x, x.2.OK [] → Reaches .outer [] x.2 (f x).2) (n : Nat) {x : α × World}
    (hx : x.2.OK []) : Reaches .outer [] x.2 (n.repeat f x).2 := by
  induction n with
  | zero => exact .refl
  | succ n ih => exact ih.trans (hf _ (ih.ok hx))

mutual

/-- **A step of a session is made of moves.** -/
theorem Step.run_reaches : ∀ (s : Step) {w : World}, w.OK [] → Reaches .outer [] w (s.run w).2
  | .perform action target, _, hw => by
    rw [Step.run]
    exact BridgeM.asStep_reaches (BridgeM.performInto_leads hw action target)
  | .set name e, _, hw => by
    rw [Step.run]
    exact BridgeM.asStep_reaches (BridgeM.setAndShow_leads hw name e)
  | .main args, w, hw => by
    have h := BridgeM.asStep_reaches (BridgeM.mainStep_leads hw args)
    rw [Step.run]
    split
    · next he => rw [he] at h; exact h
    · next he => rw [he] at h; exact h
  | .rounds count steps, w, hw => by
    rw [Step.run]
    exact repeat_reaches (x := ([], w)) (fun x hx => runSteps_reaches steps hx) count hw

theorem runSteps_reaches : ∀ (ss : List Step) {w : World}, w.OK [] →
    Reaches .outer [] w (runSteps ss w).2
  | [], _, _ => .refl
  | s :: ss, w, hw => by
    rw [runSteps]
    have h := Step.run_reaches s hw
    exact h.trans (runSteps_reaches ss (h.ok hw))

end

/-- Steps of a session lead from `w` to `w'`. -/
inductive World.Later (w : World) : World → Prop
  | refl : Later w w
  | step {w' : World} (s : Step) : Later w w' → Later w (s.run w').2

/-- A session that loaded a bridge gets to the state by steps. -/
def World.Reachable (w : World) : Prop :=
  ∃ s environment o w₀, World.load s environment = (some o, .ok (), w₀) ∧ w₀.Later w

/-- What a session does is made of moves. -/
theorem World.Later.reaches (h : w.Later w') (hw : w.OK []) : Reaches .outer [] w w' := by
  induction h with
  | refl => exact .refl
  | step s _ ih => exact ih.trans (s.run_reaches (ih.ok hw))

theorem World.Later.trans (h : w.Later w') (h' : w'.Later w'') : w.Later w'' := by
  induction h' with
  | refl => exact h
  | step s _ ih => exact .step s ih

theorem World.later_runSteps (ss : List Step) (w : World) : w.Later (runSteps ss w).2 := by
  induction ss generalizing w with
  | nil => exact .refl
  | cons s ss ih => exact (World.Later.step s .refl).trans (ih _)

theorem Hasher.assigned_ofSeed (seed : UInt32) : (Hasher.ofSeed seed).assigned = {} := by
  rw [Hasher.ofSeed]

/-- Nothing dangles where nothing has been made. -/
theorem World.initial_ok (environment : Environment) : (World.initial environment).OK [] where
  heap := Heap.empty_ok
  held := by simp
  context :=
    { registry := Registry.empty_ok _
      nodup_hashes := by simp [World.initial, Hasher.assigned_ofSeed, OrderedMap.keys]
      hashes := by simp [World.initial, Hasher.assigned_ofSeed, OrderedMap.keys]
      targets := by simp [World.initial]
      tokens := by simp [World.initial]
      globals := by simp [World.initial, OrderedMap.values] }
  guest := by simp [World.initial]
  bindings := by simp [World.initial, OrderedMap.values]
  cells := by simp [World.initial, OrderedMap.values]

/-- A bridge that has been loaded has read its options, and then made its guest. -/
theorem World.load_run {s : Setup} {environment : Environment} {o : Options}
    (h : World.load s environment = (some o, .ok (), w)) :
    ∃ w₀ program, BridgeM.readOptions s [] (World.initial environment) = .ok o w₀ ∧
      s.program = some program ∧
      w = { w₀ with
        context := { w₀.context with globals := o.globals, hasher := .ofSeed o.hashSeed }
        guest := some
          { imports := (s.hook.getD []).foldl ImportObject.edit .defaults, program,
            hasOptional := s.hasOptional } } := by
  unfold World.load BridgeM.outcome at h
  cases hr : BridgeM.readOptions s [] (World.initial environment) with
  | error e w' => rw [hr] at h; cases h
  | ok o' w₀ =>
    rw [hr] at h
    dsimp only at h
    rw [BridgeM.instantiate_run] at h
    cases hp : s.program with
    | none => rw [hp] at h; cases h
    | some program =>
      -- the guest is made last, and nothing fails after it
      rw [hp] at h
      cases h
      exact ⟨w₀, program, rfl, rfl, rfl⟩

/-- Loading a bridge makes values quietly, and then the guest. -/
theorem World.load_cases {s : Setup} {environment : Environment} {o : Options}
    (h : World.load s environment = (some o, .ok (), w)) :
    ∃ w₀ g, Reaches .quiet [] (World.initial environment) w₀ ∧ BridgeM.Bound o.globals w₀ ∧
      g.heap = {} ∧ g.reports = #[] ∧
      w = { w₀ with
        context := { w₀.context with globals := o.globals, hasher := .ofSeed o.hashSeed }
        guest := some g } := by
  obtain ⟨w₀, program, hrun, -, rfl⟩ := World.load_run h
  obtain ⟨h₀, hb⟩ := (BridgeM.readOptions_leads (World.initial_ok environment) s).ok hrun
  exact ⟨w₀, _, h₀, hb, rfl, rfl, rfl⟩

/-- **A bridge that has been loaded is well formed.** -/
theorem World.load_ok {s : Setup} {environment : Environment} {o : Options}
    (h : World.load s environment = (some o, .ok (), w)) : w.OK [] := by
  obtain ⟨w₀, g, -, ⟨hw₀, hglobals⟩, hheap, hreports, rfl⟩ := World.load_cases h
  refine World.OK.withGuest (hw₀.withContext
    (c := { w₀.context with globals := o.globals, hasher := .ofSeed o.hashSeed })
    { hw₀.context with nodup_hashes := ?_, hashes := ?_, globals := hglobals }) ?_
  -- nothing has been hashed, and the guest has no objects and no notices
  · simp [Hasher.assigned_ofSeed, OrderedMap.keys]
  · simp [Hasher.assigned_ofSeed, OrderedMap.keys]
  · refine ⟨hheap ▸ HandleTable.ok_empty, fun x hx => ?_, by simp [hreports]⟩
    obtain ⟨i, t, ht, -⟩ := hx
    simp [hheap] at ht

theorem World.Reachable.later (h : w.Reachable) (h' : w.Later w') : w'.Reachable := by
  obtain ⟨s, environment, o, w₀, hload, h⟩ := h
  exact ⟨s, environment, o, w₀, hload, h.trans h'⟩

/-- **A reachable state is well formed**: nothing dangles in it. -/
theorem World.Reachable.ok (h : w.Reachable) : w.OK [] := by
  obtain ⟨s, environment, o, w₀, hload, h⟩ := h
  have hw₀ := World.load_ok hload
  exact (h.reaches hw₀).ok hw₀

end Runs

end GuestBridge
