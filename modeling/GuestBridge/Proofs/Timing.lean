import GuestBridge.Proofs.Blind

/-!
# When collections run cannot be told

A session that wraps, unwraps, hashes, and makes and drops values of host and guest is run
twice, with collections put in here and there. Its answers are the same, as long as what it
unwraps is live. Collections that crossings start of their own accord fall elsewhere in the
two runs, and so do not matter either.

* `World.Alike.viewHost_eq`: states that are alike show the same of a value that is held.
* `performAction_agrees`: **an action that is steady** agrees with itself.
* `Step.run_agrees`: so does a step of a session.
* `collections_unseen`: **runs that differ in collections alone answer the same.**
-/

namespace GuestBridge

/-! ## What is shown -/

namespace World

variable {held ids : List HostId} {w w' : World} {i d : HostId} {v : HostValue} {t : GuestValue}

section Views

theorem Alike.className_eq (h : Alike held w w') (hd : w.Anchored held d) :
    w'.heap.className d = w.heap.className d := by
  simp only [Heap.className, Heap.definition?, h.cell?_eq hd]

theorem Alike.describeObject_eq (h : Alike held w w') (hi : w.Anchored held i) :
    w'.heap.describeObject i = w.heap.describeObject i := by
  have hobject : w'.heap.object? i = w.heap.object? i := by
    simp only [Heap.object?, h.cell?_eq hi]
  -- a wrapper and a class are described by the name of a definition that they hold
  have hname : ∀ o, w.heap.object? i = some o → ∀ d ∈ o.kind.holds,
      w'.heap.className d = w.heap.className d := by
    intro o ho d hd
    have hfirm := hi.firm h.nodup (BridgeM.cell?_of_object? ho)
    exact h.className_eq (.inr ⟨i, _, hfirm, List.mem_append_left _ hd⟩)
  unfold Heap.describeObject Heap.displayObject
  rw [hobject]
  cases ho : w.heap.object? i with
  | none => rfl
  | some o =>
    have hname := hname o ho
    obtain ⟨kind, _, _⟩ := o
    cases kind with
    | wrapper d k => simp [hname d List.mem_cons_self]
    | «class» d => simp [hname d List.mem_cons_self]
    | _ => rfl

/-- **States that are alike show the same of a value that is held.** -/
theorem Alike.viewHost_eq (h : Alike held w w') (hv : ∀ i ∈ v.holds, w.Anchored held i) :
    w'.viewHost v = w.viewHost v := by
  have hholders : ∀ i, w'.variablesHolding i = w.variablesHolding i := by
    intro i
    unfold variablesHolding
    rw [h.bindings]
  cases v with
  | symbol s => exact congrArg₂ HostView.symbol rfl (hholders s.id)
  | object i =>
    exact congrArg₂ HostView.object (h.describeObject_eq (hv i List.mem_cons_self)) (hholders i)
  | _ => rfl

theorem Alike.viewGuest_eq (h : Alike held w w') (ht : ∀ i ∈ t.holds, w.Anchored held i) :
    w'.viewGuest t = w.viewGuest t := by
  cases t with
  | external v => exact congrArg GuestView.external (h.viewHost_eq ht)
  | _ => rfl

end Views

/-! ## Variables -/

section Variables

/-- States stay alike when the variables change, and hold nothing new. -/
theorem Alike.rename (h : Alike ids w w') {b : OrderedMap String GuestValue}
    (hsub : ∀ i ∈ held, i ∈ ids)
    (hb : ∀ t ∈ b.values, t ∈ w.bindings.values ∨ ∀ i ∈ t.holds, i ∈ ids) :
    Alike held { w with bindings := b } { w' with bindings := b } := by
  have hsame : ({ w' with bindings := b } : World) =
      { w' with guest := w.guest, bindings := b } := by
    rw [← h.guest]
  rw [hsame]
  refine h.rebind (g := w.guest) (b := b) (fun i hi => ?_) fun hin => ⟨hin, fun _ _ => id⟩
  -- what is held afterwards is held by the call, or was held by what has not changed
  rcases List.mem_append.1 hi with hi | hi
  · exact List.mem_append_left _ (hsub i hi)
  · simp only [World.holds, World.unlinked, List.mem_append, List.mem_flatMap] at hi ⊢
    rcases hi with ((⟨t, ht, hi⟩ | hi) | hi) | hi
    · rcases hb t ht with ht | ht
      · exact .inr (.inl (.inl (.inl ⟨t, ht, hi⟩)))
      · exact .inl (ht i hi)
    · exact .inr (.inl (.inl (.inr hi)))
    · exact .inr (.inl (.inr hi))
    · exact .inr (.inr hi)

/-- A variable is set to what the call holds. -/
theorem Alike.setVariable (h : Alike (t.holds ++ held) w w') (name : String) :
    Alike held { w with bindings := w.bindings.insert name t }
      { w' with bindings := w'.bindings.insert name t } := by
  rw [h.bindings]
  refine h.rename (fun _ => List.mem_append_right _) fun x hx => ?_
  rcases OrderedMap.mem_values_insert hx with rfl | hx
  · exact .inr fun i hi => List.mem_append_left _ hi
  · exact .inl hx

theorem Alike.dropVariable (h : Alike held w w') (name : String) :
    Alike held { w with bindings := w.bindings.erase name }
      { w' with bindings := w'.bindings.erase name } := by
  rw [h.bindings]
  exact h.rename (fun _ => id) fun x hx => .inl (OrderedMap.mem_values_erase hx)

end Variables

end World

/-! ## Steady actions -/

/-- **The actions whose answers do not depend on when collections run**: wraps, unwraps and hashes,
what the guest does for itself, and dropping values of host and guest. -/
inductive Action.Steady : Action → Prop
  | wrap (value : HostExpr) : Steady (.context (.wrap value))
  | unwrap (class_ : HostExpr) (handle : GuestExpr) : Steady (.context (.unwrap class_ handle))
  | hash (value : HostExpr) : Steady (.context (.hash value))
  | guest {a : GuestAction} (hmain : ∀ args, a ≠ .main args)
      (hreport : ∀ channel token, a ≠ .report channel token) : Steady (.guest a)
  | free (handle : GuestExpr) : Steady (.free handle)
  | drop (name : String) : Steady (.drop name)
  | setMode (mode : GuestMode) : Steady (.setMode mode)
  | setExport (e : OptionalExport) (present : Bool) : Steady (.setExport e present)

/-- The handle that the action unwraps, if it unwraps one, is live at that moment. -/
def Action.unwrapsLive (w : World) : Action → Bool
  | .context (.unwrap class_ handle) =>
    match (BridgeM.withHost class_ fun _ => handle.read).outcome w with
    | (.ok (.ref (some k)), u) => u.isLive k
    | _ => true
  | _ => true

/-- What a reply leaves for a variable holds. -/
def Reply.holds (r : Reply) : List HostId := r.result.elim [] GuestValue.holds

namespace BridgeM

variable {α : Type} {held : List HostId} {w w' : World} {v : HostValue} {act : HostValue → BridgeM α}

section Replies

theorem replyHost_run (v : HostValue) (held : List HostId) (w : World) :
    replyHost v held w = .ok { answer := .host (w.viewHost v), result := some (.external v) } w := rfl

/-- A host value that is held is the same reply. -/
theorem replyHost_agrees (h : World.Alike (v.holds ++ held) w w') :
    Agrees held w w' (replyHost v) fun r u u' => World.Alike (r.holds ++ held) u u' := by
  have hrun' := replyHost_run v held w'
  rw [h.viewHost_eq fun i hi => World.anchored_of_mem (List.mem_append_left _ hi)] at hrun'
  exact .ok (replyHost_run v held w) hrun' h

/-- A reply that leaves nothing that is held. -/
theorem pure_reply_agrees {r : Reply} (hr : r.holds = []) (h : World.Alike held w w') :
    Agrees held w w' (pure r) fun r u u' => World.Alike (r.holds ++ held) u u' :=
  Agrees.pure (by rw [hr]; exact h)

/-- What a blind action on a value gives, as a reply. -/
theorem Blind.reply_agrees (hblind : Blind act) {reply : α → Reply} (hreply : ∀ a, (reply a).holds = [])
    {e : HostExpr} (ht : World.Twin held w w')
    (hin : (final (withHost e fun v => do return reply (← act v)) held w).InRange) :
    Agrees held w w' (withHost e fun v => do return reply (← act v)) fun r u u' =>
      World.Alike (r.holds ++ held) u u' := by
  refine withHost_agrees ht fun v u u' run hu hv hv' => ?_
  have hend : final (withHost e fun v => do return reply (← act v)) held w =
      final (act v >>= fun a => pure (reply a)) (v.holds ++ held) u := final_bind run
  rw [hend] at hin
  have hin₁ : (final (act v) (v.holds ++ held) u).InRange :=
    inRange_of_final_bind hin fun _ _ _ => id
  refine (hblind _ u u' v hu hv hv' (fun _ => List.mem_append_left _) hin₁).bind
    fun a x x' _ _ halike => Agrees.pure ?_
  rw [hreply]
  exact halike.mono fun _ => List.mem_append_right _

/-- What the guest is asked, as a reply. -/
theorem askGuest_reply_agrees {x : Guest → Except BridgeError α} {reply : α → Reply}
    (hreply : ∀ a, (reply a).holds = []) (h : World.Alike held w w') :
    Agrees held w w' (do return reply (← askGuest x)) fun r u u' => World.Alike (r.holds ++ held) u u' :=
  Agrees.askGuest h fun _ a _ _ => pure_reply_agrees (hreply a) h

/-- What the guest does for itself, as a reply. -/
theorem tryGuest_reply_agrees {x : Guest → Except BridgeError (α × Guest)} {reply : α → Reply}
    (hreply : ∀ a, (reply a).holds = []) (ht : World.Twin held w w')
    (hx : ∀ g a g', x g = .ok (a, g') → g.Edits g') :
    Agrees held w w' (do return reply (← tryGuest x)) fun r u u' =>
      World.Alike (r.holds ++ held) u u' :=
  (tryGuest_agrees ht hx).bind fun a _ _ _ _ halike => pure_reply_agrees (hreply a) halike

end Replies

section Actions

theorem createWrapper_blind : Blind (createWrapper fun v => discard (wrap v)) :=
  fun _ _ _ _ ht hv hv' hheld hin =>
    createWrapper_agrees (wrap_leads (by decide)).discard wrap_blind.discard ht hv hv' hheld hin

/-- **What is asked of the guest directly is the same**, but for runs of its program and notices. -/
theorem performGuest_agrees {a : GuestAction} (hmain : ∀ args, a ≠ .main args)
    (hreport : ∀ channel token, a ≠ .report channel token) (ht : World.Twin held w w')
    (hin : (final (performGuest a) held w).InRange) :
    Agrees held w w' (performGuest a) fun r u u' => World.Alike (r.holds ++ held) u u' := by
  unfold performGuest
  cases a with
  | createStringArray n =>
    exact tryGuest_reply_agrees (fun _ => rfl) ht fun _ _ _ h => Guest.createStringArray_edits h
  | makeString s =>
    exact tryGuest_reply_agrees (fun _ => rfl) ht fun _ _ _ h => Guest.makeString_edits h
  | makeStringArray ss =>
    exact tryGuest_reply_agrees (fun _ => rfl) ht fun _ _ _ h => Guest.makeStringArray_edits h
  | createStringBuilder =>
    exact (changeGuest_alloc_agrees (o := .builder #[]) ht (by simp [GuestObject.holds])).bind
      fun _ _ _ _ _ halike => pure_reply_agrees rfl halike
  | allocString s =>
    exact (changeGuest_alloc_agrees (o := .string (Text.encode s).toArray) ht
      (by simp [GuestObject.holds])).bind fun _ _ _ _ _ halike => pure_reply_agrees rfl halike
  | provides e => exact Agrees.guest ht.alike fun _ _ => pure_reply_agrees rfl ht.alike
  | buildString builder =>
    exact (handleFrom_agrees ht builder).bind fun _ _ _ _ _ hu =>
      tryGuest_reply_agrees (fun _ => rfl) hu fun _ _ _ h => Guest.buildString_edits h
  | appendChar builder code =>
    refine (handleFrom_agrees ht builder).bind fun k _ _ _ _ hu => ?_
    refine tryGuest_reply_agrees (fun _ => rfl) hu fun g _ g' h => ?_
    obtain ⟨g₁, h₁, h⟩ := exists_of_bind_eq_ok h
    cases h
    exact Guest.appendChar_edits h₁
  | setToStringArray array index value =>
    refine (handleFrom_agrees ht array).bind fun k _ _ _ _ hu => ?_
    refine (handleFrom_agrees hu value).bind fun k' _ _ _ _ hx => ?_
    refine tryGuest_reply_agrees (fun _ => rfl) hx fun g _ g' h => ?_
    obtain ⟨g₁, h₁, h⟩ := exists_of_bind_eq_ok h
    cases h
    exact Guest.setToStringArray_edits h₁
  | main args => exact absurd rfl (hmain args)
  | report channel token => exact absurd rfl (hreport channel token)
  | createWrapper value => exact createWrapper_blind.reply_agrees (fun _ => rfl) ht hin
  | isLive handle =>
    exact (handleFrom_agrees ht handle).bind fun _ _ _ _ _ hu =>
      Agrees.guest hu.alike fun _ _ => pure_reply_agrees rfl hu.alike
  | stringLength string | stringCharAt string | readString string | stringValue string
  | stringArray string =>
    exact (handleFrom_agrees ht string).bind fun _ _ _ _ _ hu =>
      askGuest_reply_agrees (fun _ => rfl) hu.alike
  | wrappedValue wrapper =>
    refine (handleFrom_agrees ht wrapper).bind fun k u u' _ _ hu => ?_
    refine Agrees.askGuest hu.alike fun g v hg hv => replyHost_agrees (hu.alike.grow fun i hi => ?_)
    obtain ⟨o, ho, hv⟩ := exists_of_bind_eq_ok hv
    cases o with
    | wrapper x =>
      cases hv
      have hholds := Guest.holds_object (HandleTable.stores_of_get? (Guest.object_ok ho)) hi
      exact World.anchored_of_holds (World.holds_guest (w := u.unlinked) hg hholds)
    | _ => cases hv

theorem requireClass_agrees (h : World.Alike held w w') :
    Agrees held w w' (requireClass v) fun i u u' => v = .object i ∧ w = u ∧ w' = u' := by
  cases v with
  | object i => exact Agrees.pure ⟨rfl, rfl, rfl⟩
  | _ => exact .error rfl rfl h

/-- **An unwrap of a live handle is the same.** -/
theorem performUnwrap_agrees {class_ : HostExpr} {handle : GuestExpr} (ht : World.Twin [] w w')
    (hin : (final (performContext (.unwrap class_ handle)) [] w).InRange)
    (hlive : (Action.context (.unwrap class_ handle)).unwrapsLive w) :
    Agrees [] w w' (performContext (.unwrap class_ handle)) fun r u u' =>
      World.Alike (r.holds ++ []) u u' := by
  refine withHost_agrees ht fun c u u' run hu _ _ => withGuest_agrees hu fun t x x' run₁ hx => ?_
  -- what is read here is what `unwrapsLive` looked at
  have hread : (withHost class_ fun _ => handle.read) [] w = .ok t x := by
    unfold withHost holding
    rw [bind_run, run]
    exact run₁
  have hask : Agrees (t.holds ++ (c.holds ++ [])) x x' (ofExcept t.asHandle) fun k y y' =>
      t.asHandle = .ok k ∧ x = y ∧ x' = y' := Agrees.ofExcept hx.alike fun _ hk => ⟨hk, rfl, rfl⟩
  refine hask.bind fun k y y' run₂ _ hy => ?_
  obtain ⟨hk, rfl, rfl⟩ := hy
  refine (requireClass_agrees hx.alike).bind fun i z z' run₃ _ hz => ?_
  obtain ⟨rfl, rfl, rfl⟩ := hz
  -- a reply leaves the guest alone: the range at the end is that after the unwrap
  have hend : final (performContext (.unwrap class_ handle)) [] w =
      final (unwrap k i >>= replyHost) (t.holds ++ ((HostValue.object i).holds ++ [])) x := by
    refine (final_bind run).trans ?_
    change final (withGuest handle _) ((HostValue.object i).holds ++ []) u = _
    refine (final_bind run₁).trans ?_
    exact (final_bind run₂).trans (final_bind run₃)
  rw [hend] at hin
  have hin₁ := inRange_of_final_bind hin fun _ _ _ => id
  have hclass : i ∈ t.holds ++ ((HostValue.object i).holds ++ []) :=
    List.mem_append_right _ List.mem_cons_self
  have hk' : ∀ h, k = some h → x.isLive h := by
    rintro h rfl
    obtain rfl : t = .ref (some h) := by cases t <;> cases hk; rfl
    rw [Action.unwrapsLive, outcome, hread] at hlive
    exact hlive
  refine (unwrap_agrees hx hclass hk' hin₁).bind fun v z z' _ _ halike => ?_
  refine (replyHost_agrees halike).imp fun r _ _ _ _ halike => halike.mono fun j hj => ?_
  rw [List.append_nil] at hj
  exact List.mem_append_left _ hj

/-- **A steady action is the same**, as long as what it unwraps is live and the guest's table is in
range after it. -/
theorem performAction_agrees {a : Action} (ha : a.Steady) (ht : World.Twin [] w w')
    (hin : (final (performAction a) [] w).InRange) (hlive : a.unwrapsLive w) :
    Agrees [] w w' (performAction a) fun r u u' => World.Alike (r.holds ++ []) u u' := by
  have h := ht.alike
  cases ha with
  | wrap value => exact wrap_blind.reply_agrees (fun _ => rfl) ht hin
  | hash value => exact hashCode_blind.reply_agrees (fun _ => rfl) ht hin
  | unwrap class_ handle => exact performUnwrap_agrees ht hin hlive
  | guest hmain hreport => exact performGuest_agrees hmain hreport ht hin
  | free handle =>
    refine (handleFrom_agrees ht handle).bind fun k u u' _ _ hu => ?_
    refine (changeGuest_agrees hu (fun g _ i hi => .inr (Guest.holds_free hi))
      fun g _ => Guest.later_remove k).bind fun _ _ _ _ _ halike => pure_reply_agrees rfl halike
  | drop name =>
    have hrun' : performAction (.drop name) [] w' =
        .ok { answer := .bool (w.bindings.contains name) }
          { w' with bindings := w'.bindings.erase name } := by
      rw [← h.bindings]
      rfl
    exact .ok rfl hrun' (h.dropVariable name)
  | setMode mode =>
    refine Agrees.guest h fun g hg => ?_
    exact .ok rfl rfl (ht.withGuest hg (fun _ => .inr) (Guest.later_of_same rfl))
  | setExport e present =>
    refine Agrees.guest h fun g hg => ?_
    exact .ok rfl rfl (ht.withGuest hg (fun _ => .inr) (Guest.later_of_same rfl))

end Actions

/-! ## Steps -/

section Steps

/-- An action whose result is kept in a variable. -/
theorem performInto_agrees {a : Action} (ha : a.Steady) (target : Option String)
    (ht : World.Twin [] w w') (hin : (final (performAction a) [] w).InRange)
    (hlive : a.unwrapsLive w) :
    Agrees [] w w' (performInto a target) fun _ u u' => World.Alike [] u u' := by
  refine (performAction_agrees ha ht hin hlive).bind fun r u u' _ _ h => ?_
  split
  · next name t he =>
    have hr : r.holds = t.holds := by rw [Reply.holds, (Prod.mk.inj he).2]; rfl
    rw [hr] at h
    exact .ok rfl rfl (h.setVariable name)
  · exact Agrees.pure (h.mono fun _ hi => absurd hi List.not_mem_nil)

theorem setAndShow_agrees (ht : World.Twin [] w w') (name : String) (e : GuestExpr) :
    Agrees [] w w' (setAndShow name e) fun _ u u' => World.Alike [] u u' := by
  refine (e.read_twins ht).bind fun t u u' _ _ hu => ?_
  have halike := hu.1.alike.setVariable name
  -- what is shown is held by the variable
  have hshown := halike.viewGuest_eq fun i hi => World.anchored_of_holds <| World.holds_binding
    (OrderedMap.mem_values_of_find? (OrderedMap.find?_insert_self u.bindings name t)) hi
  have hrun : ∀ x : World, (do setVariable name t; return Answer.guest ((← get).viewGuest t)) [] x =
      .ok (.guest (World.viewGuest { x with bindings := x.bindings.insert name t } t))
        { x with bindings := x.bindings.insert name t } := fun _ => rfl
  have hrun' := hrun u'
  rw [hshown] at hrun'
  exact .ok (hrun u) hrun' halike

/-- **Actions that agree, as steps of their own**, have the same outcome and leave states that are
alike. -/
theorem Agrees.asStep {x : BridgeM α} (h : Agrees [] w w' x fun _ u u' => World.Alike [] u u') :
    (asStep x w').1 = (asStep x w).1 ∧ World.Alike [] (asStep x w).2 (asStep x w').2 := by
  have settle : ∀ {u u' : World}, World.Alike [] u u' →
      World.Alike [] (u.settled []) (u'.settled []) := by
    intro u u' h
    have hu := World.alike_settled h.idle h.nodup []
    exact (hu.symm.trans h).trans (World.alike_settled h.idle' h.nodup' [])
  unfold BridgeM.asStep outcome
  cases h with
  | ok run run' halike =>
    rw [run, run']
    exact ⟨rfl, settle halike⟩
  | error run run' halike =>
    rw [run, run']
    exact ⟨rfl, settle halike⟩

theorem asStep_guest (act : BridgeM α) (w : World) : (asStep act w).2.guest = (final act [] w).guest := by
  unfold asStep outcome final
  cases act [] w <;> rfl

/-- A collection that is a step of its own leaves a state that is alike. -/
theorem asStep_collect_alike (hw : w.OK []) (hi : w.Idle) (target : Option String) :
    World.Alike [] w (asStep (performInto .collect target) w).2 := by
  obtain ⟨r, u, hrun, halike⟩ := collectGarbage_alike hw hi
  have hcollect : performAction .collect [] w = .ok { answer := .collected r } u := by
    change (collectGarbage >>= _) [] w = _
    rw [bind_run, hrun]
    rfl
  have hend : (asStep (performInto .collect target) w).2 = u.settled [] := by
    unfold asStep outcome performInto
    rw [bind_run, hcollect]
    cases target <;> rfl
  rw [hend]
  exact halike.trans (World.alike_settled halike.idle' halike.nodup' [])

end Steps

end BridgeM

open BridgeM

/-! ## Runs -/

/-- Steps whose answers do not depend on when collections run. -/
def Step.Steady : Step → Prop
  | .perform action _ => action.Steady
  | .set _ _ => True
  | _ => False

/-- The handle that the step unwraps, if it unwraps one, is live at that moment. -/
def Step.unwrapsLive (w : World) : Step → Bool
  | .perform action _ => action.unwrapsLive w
  | _ => true

def Step.isCollection : Step → Bool
  | .perform .collect _ => true
  | _ => false

/-- **Runs of steady steps that differ in collections alone.** -/
inductive SameButCollections : List Step → List Step → Prop
  | nil : SameButCollections [] []
  | step {s : Step} {ss ts : List Step} (hs : s.Steady) :
    SameButCollections ss ts → SameButCollections (s :: ss) (s :: ts)
  | left {ss ts : List Step} (target : Option String) :
    SameButCollections ss ts → SameButCollections (.perform .collect target :: ss) ts
  | right {ss ts : List Step} (target : Option String) :
    SameButCollections ss ts → SameButCollections ss (.perform .collect target :: ts)

/-- What becomes of a run: the answer of each step with the state after it, but for collections. -/
def trail : List Step → World → List (StepAnswer × World)
  | [], _ => []
  | s :: ss, w => if s.isCollection then trail ss (s.run w).2 else s.run w :: trail ss (s.run w).2

/-- Along the steps, every handle that is unwrapped is live, and no slot of the guest's table has
been used too often. -/
def Proper : List Step → World → Prop
  | [], w => w.InRange
  | s :: ss, w => w.InRange ∧ s.unwrapsLive w ∧ Proper ss (s.run w).2

def Proper.decide : ∀ (ss : List Step) (w : World), Decidable (Proper ss w)
  | [], w => inferInstanceAs (Decidable w.InRange)
  | s :: ss, w =>
    have := Proper.decide ss (s.run w).2
    inferInstanceAs (Decidable (w.InRange ∧ s.unwrapsLive w ∧ Proper ss (s.run w).2))

instance (ss : List Step) (w : World) : Decidable (Proper ss w) := Proper.decide ss w

section Runs

variable {w w' : World} {s : Step} {ss ts : List Step}

theorem Proper.inRange (h : Proper ss w) : w.InRange := by
  cases ss with
  | nil => exact h
  | cons s ss => exact h.1

theorem Step.Steady.isCollection (hs : s.Steady) : s.isCollection = false := by
  cases s with
  | perform a target => cases hs <;> rfl
  | set name e => rfl
  | main args => cases hs
  | rounds n steps => cases hs

/-- **A steady step answers the same in states that are alike**, and leaves states that are alike. -/
theorem Step.run_agrees (hs : s.Steady) (ht : World.Twin [] w w') (hin : (s.run w).2.InRange)
    (hlive : s.unwrapsLive w) :
    (s.run w').1 = (s.run w).1 ∧ World.Alike [] (s.run w).2 (s.run w').2 := by
  cases s with
  | perform a target =>
    have hend : (final (performInto a target) [] w).InRange :=
      hin.of_guest (asStep_guest (performInto a target) w)
    have hin₁ : (final (performAction a) [] w).InRange := by
      refine inRange_of_final_bind hend fun r u _ hin => hin.of_guest ?_
      -- the guest does not depend on what is kept in a variable
      obtain ⟨answer, _ | t⟩ := r <;> cases target <;> rfl
    obtain ⟨hanswer, halike⟩ := (performInto_agrees hs target ht hin₁ hlive).asStep
    exact ⟨congrArg StepAnswer.outcome hanswer, halike⟩
  | set name e =>
    obtain ⟨hanswer, halike⟩ := (setAndShow_agrees ht name e).asStep
    exact ⟨congrArg StepAnswer.outcome hanswer, halike⟩
  | main args => cases hs
  | rounds n steps => cases hs

/-- **What becomes of runs that differ in collections alone is the same**, from states that are alike
and well formed. -/
theorem trail_agrees (hsame : SameButCollections ss ts) (ht : World.Twin [] w w')
    (hp : Proper ss w) :
    List.Forall₂ (fun x y => y.1 = x.1 ∧ World.Alike [] x.2 y.2) (trail ss w) (trail ts w') := by
  -- on how the runs differ; it is carried by the states being alike after each step of either
  induction hsame generalizing w w' with
  | nil => exact .nil
  | @step s ss ts hs _ ih =>
    obtain ⟨-, hlive, hp⟩ := hp
    obtain ⟨hanswer, halike⟩ := s.run_agrees hs ht hp.inRange hlive
    have hnext := ht.reaches (s.run_reaches ht.ok) (s.run_reaches ht.ok') halike
    rw [trail, trail, hs.isCollection]
    exact .cons ⟨hanswer, halike⟩ (ih hnext hp)
  | @left ss ts target _ ih =>
    have halike := asStep_collect_alike ht.ok ht.alike.idle target
    have hmoves := Step.run_reaches (.perform .collect target) ht.ok
    exact ih (ht.reaches hmoves .refl (halike.symm.trans ht.alike)) hp.2.2
  | @right ss ts target _ ih =>
    have halike := asStep_collect_alike ht.ok' ht.alike.idle' target
    have hmoves := Step.run_reaches (.perform .collect target) ht.ok'
    exact ih (ht.reaches .refl hmoves (ht.alike.trans halike)) hp

/-- A bridge that has just been loaded has nothing watched, and no collection is going on. -/
theorem World.load_idle {s : Setup} {environment : Environment} {o : Options}
    (h : World.load s environment = (some o, .ok (), w)) : w.Idle := by
  constructor <;> rw [World.load_context h]

/-- **When collections run cannot be told.** Take two runs from a state in which nothing is watched,
which wrap, unwrap, hash, make and drop values of host and guest, and differ in collections alone.
If what one of them unwraps is live, then all that is not a collection answers the same in both: the
same handle, the same code, the same error. The states are alike after every such step: guest and
variables are the same, and values of the host correspond to those of the same identity. -/
theorem collections_unseen (hw : w.Reachable) (hi : w.Idle) (hsame : SameButCollections ss ts)
    (hp : Proper ss w) :
    List.Forall₂ (fun x y => y.1 = x.1 ∧ World.Alike [] x.2 y.2) (trail ss w) (trail ts w) := by
  have hok := hw.ok
  exact trail_agrees hsame
    ⟨hok, hok, hw.linked, hw.linked, .refl hi hok.heap.nodup []⟩ hp

/-- An object is wrapped, hashed and dropped, and then its handle is unwrapped and freed. -/
def thereAndBack : List Step :=
  [.set "class" (.external (.class "C")), .set "object" (.external (.object [])),
    .perform (.context (.wrap (.variable "object"))) "handle",
    .perform (.context (.hash (.variable "object"))) none, .perform (.drop "object") none,
    .perform (.context (.unwrap (.variable "class") (.variable "handle"))) "value",
    .perform (.free (.variable "handle")) none]

/-- The same with a collection after each step. -/
def thereAndBackSwept : List Step := thereAndBack.flatMap fun s => [s, .perform .collect none]

theorem thereAndBack_unseen :
    (trail thereAndBack (World.load {} {}).2.2).length = 7 ∧
      List.Forall₂ (fun x y => y.1 = x.1 ∧ World.Alike [] x.2 y.2)
        (trail thereAndBack (World.load {} {}).2.2)
        (trail thereAndBackSwept (World.load {} {}).2.2) := by
  have hload : World.load {} {} = (some _, .ok (), (World.load {} {}).2.2) := rfl
  have hsame : SameButCollections thereAndBack thereAndBackSwept :=
    .step trivial <| .right none <| .step trivial <| .right none <| .step (.wrap _) <| .right none <|
      .step (.hash _) <| .right none <| .step (.drop _) <| .right none <| .step (.unwrap _ _) <|
      .right none <| .step (.free _) <| .right none .nil
  exact ⟨rfl, collections_unseen ⟨{}, {}, _, _, hload, .refl⟩ (World.load_idle hload) hsame
    (by decide +kernel)⟩

end Runs

end GuestBridge
