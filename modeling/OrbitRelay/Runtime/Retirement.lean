import OrbitRelay.Lib.Budget
import OrbitRelay.Runtime.Lifecycle

/-
  Handlers in and out of force (orbitrelay-runtime: registry.rs, runtime.rs).

  An action type has one handler at a time: `register` refuses a second and
  `unregister` hands back the one there is. So the handlers registered for a
  type are those handed back and, last, the one in force, in the same order. A
  call keeps the handler it found whatever becomes of the registry. A handler
  that is taken out of force is still asked, but only by calls that had found it
  before, and by each of them no more often than it needs to come to its end.
-/

namespace OrbitRelay

namespace HandlerRegistry

variable {handlers : HandlerRegistry} {actionType : ActionType} {handler other : HandlerId}

theorem register_free (h : handlers.get actionType = none) :
    handlers.register actionType handler = (.ok (), handlers.insert actionType handler) := by
  have hfree : handlers.lookup actionType = none := h
  simp [register, hfree]

theorem register_taken (h : handlers.get actionType = some other) :
    handlers.register actionType handler = (.error (.alreadyRegistered actionType), handlers) := by
  have htaken : handlers.lookup actionType = some other := h
  simp [register, htaken]

end HandlerRegistry

namespace Runtime

/-- The handlers registered for an action type, in order. -/
def registered (actionType : ActionType) (tr : List Label) : List HandlerId :=
  tr.filterMap fun
    | .register t handler (.ok ()) => if t = actionType then some handler else none
    | _ => none

/-- The handlers handed back for an action type, in order. -/
def handedBack (actionType : ActionType) (tr : List Label) : List HandlerId :=
  tr.filterMap fun
    | .unregister t (some handler) => if t = actionType then some handler else none
    | _ => none

/-- The step is an answer of the handler. -/
def Label.asks (handler : HandlerId) : Label → Bool
  | .validated _ h _ => h = handler
  | .handled _ h _ => h = handler
  | _ => false

/-- The step is an answer of the handler to call `x`. -/
def Label.answers (x : TaskId) (handler : HandlerId) (l : Label) : Bool := l.task? = some x && l.asks handler

/-- How often a call may still ask the handler: to validate, and to handle. -/
def Stage.asks (handler : HandlerId) : Stage → Nat
  | .validating h => if h = handler then 2 else 0
  | .authorizing h => if h = handler then 1 else 0
  | .handling h => if h = handler then 1 else 0
  | _ => 0

/-- How often call `x` may still ask the handler; one that has not begun may not. -/
def State.owed (x : TaskId) (handler : HandlerId) (ρ : State) : Nat :=
  ((ρ.executions.lookup x).map fun e => e.stage.asks handler).getD 0

/-- A call that finds the handler may ask it twice. -/
def Label.owes (x : TaskId) (handler : HandlerId) : Label → Nat
  | .lookup y (some h) => if y = x ∧ h = handler then 2 else 0
  | _ => 0

/-- The handler is in force for no action type. -/
def OutOfForce (handler : HandlerId) (ρ : State) : Prop := ∀ actionType, ρ.registry.get actionType ≠ some handler

variable {storeId : EntityId} {queueCapacity : Nat} {ρ ρ' σ : State} {l : Label} {tr pre post : List Label}
  {x : TaskId} {e : Execution} {stage : Stage} {handler : HandlerId} {actionType : ActionType}

/-! ## Turnover -/

theorem registered_append (tr tr' : List Label) :
    registered actionType (tr ++ tr') = registered actionType tr ++ registered actionType tr' :=
  List.filterMap_append

theorem handedBack_append (tr tr' : List Label) :
    handedBack actionType (tr ++ tr') = handedBack actionType tr ++ handedBack actionType tr' :=
  List.filterMap_append

/-- What was registered for a type and not handed back is in force. -/
theorem turnover (h : (runtime storeId queueCapacity).Run (State.new storeId queueCapacity) tr ρ)
    (actionType : ActionType) :
    registered actionType tr = handedBack actionType tr ++ (ρ.registry.get actionType).toList := by
  refine Lts.Run.induct (P := fun tr ρ =>
    registered actionType tr = handedBack actionType tr ++ (ρ.registry.get actionType).toList) rfl ?_ h
  intro tr ρ l ρ' _ ih (hstep : ρ.step l = some ρ')
  rw [registered_append, handedBack_append, ih]
  have hidle : registered actionType [l] = [] → handedBack actionType [l] = [] →
      ρ'.registry.get actionType = ρ.registry.get actionType →
      handedBack actionType tr ++ (ρ.registry.get actionType).toList ++ registered actionType [l] =
        handedBack actionType tr ++ handedBack actionType [l] ++ (ρ'.registry.get actionType).toList := by
    intro hnew hback hkept
    rw [hnew, hback, hkept, List.append_nil, List.append_nil]
  cases step_effect hstep with
  | register t handler =>
    cases hold : ρ.registry.get t with
    | some other =>
      rw [HandlerRegistry.register_taken hold] at hidle ⊢
      exact hidle rfl rfl rfl
    | none =>
      rw [HandlerRegistry.register_free hold] at hidle ⊢
      by_cases ht : t = actionType
      · -- nothing was in force, and now this one is
        subst ht
        have hnow : HandlerRegistry.get (ρ.registry.insert t handler) t = some handler := AList.lookup_insert _
        simp [registered, handedBack, hold, hnow]
      · have hkept : HandlerRegistry.get (ρ.registry.insert t handler) actionType = ρ.registry.get actionType :=
          AList.lookup_insert_ne (Ne.symm ht)
        exact hidle (by simp [registered, ht]) rfl hkept
  | unregister t =>
    by_cases ht : t = actionType
    · subst ht
      have hnow : HandlerRegistry.get (ρ.registry.erase t) t = none := AList.lookup_erase _ _
      show _ = _ ++ _ ++ (HandlerRegistry.get (ρ.registry.erase t) t).toList
      rw [hnow]
      show _ ++ (ρ.registry.lookup t).toList ++ _ = _ ++ handedBack t [.unregister t (ρ.registry.lookup t)] ++ _
      cases ρ.registry.lookup t with
      | none => simp [registered, handedBack]
      | some handler => simp [registered, handedBack]
    · have hkept : HandlerRegistry.get (ρ.registry.erase t) actionType = ρ.registry.get actionType :=
        AList.lookup_erase_ne (Ne.symm ht)
      refine hidle rfl ?_ hkept
      cases hback : (ρ.registry.unregister t).1 with
      | none => rfl
      | some handler => simp [handedBack, ht]
  | _ => exact hidle rfl rfl rfl

/-- A registration is refused exactly if one before it is still in force. -/
theorem register_result (h : (runtime storeId queueCapacity).Run (State.new storeId queueCapacity) pre ρ)
    {result : Except RegistryError Unit} (hstep : ρ.step (.register actionType handler result) = some ρ') :
    (registered actionType pre = handedBack actionType pre → result = .ok ()) ∧
      (registered actionType pre ≠ handedBack actionType pre → result = .error (.alreadyRegistered actionType)) := by
  have hturnover := turnover h actionType
  cases step_effect hstep with
  | register =>
    cases hold : ρ.registry.get actionType with
    | none =>
      rw [hold, Option.toList_none, List.append_nil] at hturnover
      rw [HandlerRegistry.register_free hold]
      exact ⟨fun _ => rfl, fun hne => absurd hturnover hne⟩
    | some other =>
      rw [hold] at hturnover
      rw [HandlerRegistry.register_taken hold]
      refine ⟨?_, fun _ => rfl⟩
      intro heq
      simp [hturnover] at heq

/-! ## What a call may still ask -/

theorem owed_eq (running : ρ.executions.lookup x = some e) : ρ.owed x handler = e.stage.asks handler := by
  rw [State.owed, running]
  rfl

theorem owed_setStage : (ρ.setStage x e stage).owed x handler = stage.asks handler := by
  rw [owed_eq (AList.lookup_insert _)]

/-- The steps of the others leave a call where it stands. -/
theorem executions_step (hstep : ρ.step l = some ρ') (hother : l.task? ≠ some x) :
    ρ'.executions.lookup x = ρ.executions.lookup x := by
  have hne : ∀ {y}, l.task? = some y → x ≠ y := by
    intro y hy heq
    subst heq
    exact hother hy
  cases step_effect hstep with
  | register => rfl
  | unregister => rfl
  | pipeline => rfl
  | _ => exact AList.lookup_insert_ne (hne rfl)

/-- A step of the call takes from what it may ask as often as it asks, and only a
finding adds to it. -/
theorem owed_step (handler : HandlerId) (hstep : ρ.step l = some ρ') (htask : l.task? = some x) :
    ρ'.owed x handler + (l.asks handler).toNat ≤ ρ.owed x handler + l.owes x handler := by
  cases step_effect hstep with
  | execute y action fresh =>
    obtain rfl := Option.some.inj htask
    have hstarted : State.owed y handler { ρ with executions := ρ.executions.insert y ⟨action, .started⟩ } =
        Stage.started.asks handler := owed_eq (e := ⟨action, .started⟩) (AList.lookup_insert _)
    simp [hstarted, Stage.asks, Label.asks]
  | lookup y e running stage =>
    obtain rfl := Option.some.inj htask
    rw [owed_setStage, owed_eq running, stage]
    cases ρ.registry.get e.action.actionType with
    | none => simp [afterLookup, Stage.asks, Label.asks]
    | some h => simp [afterLookup, Stage.asks, Label.asks, Label.owes]
  | validated y h result e running stage =>
    obtain rfl := Option.some.inj htask
    rw [owed_setStage, owed_eq running, stage]
    -- of the two times this is one
    cases result with
    | error source => by_cases hasked : h = handler <;> simp [afterValidate, Stage.asks, Label.asks, Label.owes, hasked]
    | ok => by_cases hasked : h = handler <;> simp [afterValidate, Stage.asks, Label.asks, hasked]
  | authorized y h result e running stage =>
    obtain rfl := Option.some.inj htask
    rw [owed_setStage, owed_eq running, stage]
    cases result with
    | error source => simp [afterAuthorize, Stage.asks, Label.asks]
    | ok => simp [afterAuthorize, Stage.asks, Label.asks]
  | handled y h result e running stage =>
    obtain rfl := Option.some.inj htask
    rw [owed_setStage, owed_eq running, stage]
    by_cases hasked : h = handler <;> cases result <;> simp [afterHandle, Stage.asks, Label.asks, Label.owes, hasked]
  | dispatch y stamps e drafts pipeline running stage stamped begun =>
    obtain rfl := Option.some.inj htask
    have hdispatching : State.owed y handler { ρ.setStage y e (.dispatching (e.action.materialize drafts stamps)) with
        pipeline } = (Stage.dispatching (e.action.materialize drafts stamps)).asks handler := owed_setStage
    simp [hdispatching, Stage.asks, Label.asks]
  | returned y e events call outcome running stage called ended =>
    obtain rfl := Option.some.inj htask
    simp [owed_setStage, Stage.asks, Label.asks]
  | _ => cases htask

/-- The answers a call is given are paid for when it finds the handler. -/
theorem owed_budget (storeId : EntityId) (queueCapacity : Nat) (x : TaskId) (handler : HandlerId) :
    (runtime storeId queueCapacity).Budget (fun _ => True) (Label.answers x handler) (Label.owes x handler)
      (State.owed x handler) where
  pays := by
    intro ρ l ρ' _ (hstep : ρ.step l = some ρ') hanswers
    rw [Label.answers, Bool.and_eq_true, decide_eq_true_eq] at hanswers
    have hpaid := owed_step handler hstep hanswers.1
    rwa [hanswers.2] at hpaid
  keeps := by
    intro ρ l ρ' _ (hstep : ρ.step l = some ρ') _
    by_cases htask : l.task? = some x
    · exact Nat.le_trans (Nat.le_add_right _ _) (owed_step handler hstep htask)
    · rw [State.owed, executions_step hstep htask, ← State.owed]
      exact Nat.le_add_right _ _

/-! ## Out of force -/

/-- A handler stays out of force until it is registered again. -/
theorem OutOfForce.run (hout : OutOfForce handler σ) (h : (runtime storeId queueCapacity).Run σ post ρ)
    (hnever : ∀ t, .register t handler (.ok ()) ∉ post) : OutOfForce handler ρ := by
  refine Lts.Run.induct (P := fun tr ρ => (∀ t, .register t handler (.ok ()) ∉ tr) → OutOfForce handler ρ)
    (fun _ => hout) ?_ h hnever
  intro tr ρ l ρ' _ ih (hstep : ρ.step l = some ρ') hnever
  have hbefore : OutOfForce handler ρ := ih fun t hmem => hnever t (List.mem_append_left _ hmem)
  cases step_effect hstep with
  | register t other =>
    intro actionType hnow
    cases hold : ρ.registry.get t with
    | some _ =>
      simp only [HandlerRegistry.register_taken hold] at hnow
      exact hbefore actionType hnow
    | none =>
      simp only [HandlerRegistry.register_free hold] at hnow
      rcases Table.lookup_insert_eq_some.mp hnow with ⟨rfl, rfl⟩ | ⟨_, hkept⟩
      · refine hnever actionType ?_
        simp [HandlerRegistry.register_free hold]
      · exact hbefore actionType hkept
  | unregister t =>
    intro actionType hnow
    exact hbefore actionType (Table.lookup_erase_eq_some.mp hnow).2
  | _ => exact hbefore

/-- No call finds a handler that is out of force. -/
theorem OutOfForce.not_found (hout : OutOfForce handler σ) (h : (runtime storeId queueCapacity).Run σ post ρ)
    (hnever : ∀ t, .register t handler (.ok ()) ∉ post) (x : TaskId) : .lookup x (some handler) ∉ post := by
  intro hmem
  obtain ⟨before, after, ρ₀, ρ₁, rfl, hbefore, (hstep : ρ₀.step (.lookup x (some handler)) = some ρ₁), _⟩ :=
    h.at_label hmem
  have hthere := hout.run hbefore fun t ht => hnever t (List.mem_append_left _ ht)
  generalize hresult : some handler = result at hstep
  cases step_effect hstep with
  | lookup x e running stage => exact hthere _ hresult.symm

/-- Who asks a handler has found it. -/
theorem found_of_asks (h : (runtime storeId queueCapacity).Run (State.new storeId queueCapacity) tr ρ)
    (hl : l ∈ tr) (hasks : l.asks handler = true) : ∃ x, l.task? = some x ∧ .lookup x (some handler) ∈ tr := by
  obtain ⟨pre, post, ρ₀, ρ₁, rfl, hpre, (hstep : ρ₀.step l = some ρ₁), _⟩ := h.at_label hl
  have hfound : ∀ {x e}, ρ₀.executions.lookup x = some e →
      (e.stage = .validating handler ∨ e.stage = .handling handler) →
      .lookup x (some handler) ∈ pre ++ l :: post := by
    intro x e running hstage
    have hsofar := (Lifecycles.run hpre).call running
    have hmem : .lookup x (some handler) ∈ lifecycle x pre := by
      rcases hstage with hstage | hstage
      · rw [hstage] at hsofar
        simp [show lifecycle x pre = _ from hsofar]
      · rw [hstage] at hsofar
        simp [show lifecycle x pre = _ from hsofar]
    exact List.mem_append_left _ (List.mem_filter.mp hmem).1
  cases step_effect hstep with
  | validated x asked result e running stage =>
    obtain rfl : asked = handler := of_decide_eq_true hasks
    exact ⟨x, rfl, hfound running (.inl stage)⟩
  | handled x asked result e running stage =>
    obtain rfl : asked = handler := of_decide_eq_true hasks
    exact ⟨x, rfl, hfound running (.inr stage)⟩
  | _ => simp [Label.asks] at hasks

/-- **Handlers in force.** In every run of a runtime, with any calls in progress
while handlers come and go:
* the handlers registered for a type are, in order, those handed back for it
  and the one in force, and a registration is refused exactly if one is in force;
* a lookup finds, and an unregistration hands back, the one in force;
* a handler out of force is, until it is registered again, found by no call and
  asked only by calls that found it before: at most twice by each that is yet to
  be validated, and once by each that is yet to be handled. -/
theorem handlers_in_force (h : (runtime storeId queueCapacity).Run (State.new storeId queueCapacity) tr ρ) :
    (∀ actionType, registered actionType tr = handedBack actionType tr ++ (ρ.registry.get actionType).toList) ∧
    (∀ pre post actionType handler result, tr = pre ++ .register actionType handler result :: post →
      (registered actionType pre = handedBack actionType pre → result = .ok ()) ∧
        (registered actionType pre ≠ handedBack actionType pre → result = .error (.alreadyRegistered actionType))) ∧
    (∀ pre post actionType result, tr = pre ++ .unregister actionType result :: post →
      registered actionType pre = handedBack actionType pre ++ result.toList) ∧
    (∀ pre post x result, tr = pre ++ .lookup x result :: post → ∃ action, .execute x action ∈ pre ∧
      registered action.actionType pre = handedBack action.actionType pre ++ result.toList) ∧
    (∀ pre post σ handler, tr = pre ++ post →
      (runtime storeId queueCapacity).Run (State.new storeId queueCapacity) pre σ → OutOfForce handler σ →
      (∀ actionType, .register actionType handler (.ok ()) ∉ post) →
      (∀ x, .lookup x (some handler) ∉ post) ∧
      (∀ l ∈ post, l.asks handler = true → ∃ x, l.task? = some x ∧ .lookup x (some handler) ∈ pre) ∧
      ∀ x e, σ.executions.lookup x = some e → post.countP (Label.answers x handler) ≤ e.stage.asks handler) := by
  refine ⟨turnover h, ?_, ?_, ?_, ?_⟩
  · intro pre post actionType handler result htr
    obtain ⟨ρ₀, ρ₁, hpre, hstep, _⟩ := run_split.mp (htr ▸ h)
    exact register_result hpre hstep
  · intro pre post actionType result htr
    obtain ⟨ρ₀, ρ₁, hpre, hstep, _⟩ := run_split.mp (htr ▸ h)
    cases step_effect hstep with
    | unregister => exact turnover hpre actionType
  · intro pre post x result htr
    obtain ⟨ρ₀, ρ₁, hpre, hstep, _⟩ := run_split.mp (htr ▸ h)
    cases step_effect hstep with
    | lookup x e running stage =>
      have hsofar := (Lifecycles.run hpre).call running
      rw [stage] at hsofar
      have hmem : .execute x e.action ∈ lifecycle x pre := by simp [show lifecycle x pre = _ from hsofar]
      exact ⟨e.action, (List.mem_filter.mp hmem).1, turnover hpre e.action.actionType⟩
  · intro pre post σ handler htr hpre hout hnever
    obtain ⟨σ', hpre', hpost⟩ := Lts.run_append.mp (htr ▸ h)
    obtain rfl := hpre.det hpre'
    have hunfound := hout.not_found hpost hnever
    refine ⟨hunfound, ?_, ?_⟩
    · intro l hl hasks
      obtain ⟨x, hx, hmem⟩ := found_of_asks h (htr ▸ List.mem_append_right _ hl) hasks
      rw [htr] at hmem
      rcases List.mem_append.mp hmem with hmem | hmem
      · exact ⟨x, hx, hmem⟩
      · exact absurd hmem (hunfound x)
    · intro x e running
      have hpaid := (owed_budget storeId queueCapacity x handler).run hpost fun _ _ => trivial
      -- the call finds it no more
      have hfree : (post.map (Label.owes x handler)).sum = 0 := by
        apply List.sum_eq_zero_iff_forall_eq_nat.mpr
        intro n hn
        obtain ⟨l, hl, rfl⟩ := List.mem_map.mp hn
        unfold Label.owes
        split
        · next y found =>
          rw [if_neg]
          rintro ⟨rfl, rfl⟩
          exact hunfound y hl
        · rfl
      rw [owed_eq running] at hpaid
      omega

/-- A handler replaced while a call that found it is on its way. -/
def swapped : List Label :=
  [.register ⟨"swapped.draw"⟩ 1 (.ok ()), .execute 1 (Action.plain ⟨"swapped.draw"⟩), .lookup 1 (some 1),
    .unregister ⟨"swapped.draw"⟩ (some 1)]

def afterSwapped : List Label :=
  [.register ⟨"swapped.draw"⟩ 2 (.ok ()), .validated 1 1 (.ok ()), .authorized 1 (.ok ()), .handled 1 1 (.ok [])]

theorem handlers_in_force_swapped : afterSwapped.countP (Label.answers 1 1) ≤ (Stage.validating 1).asks 1 := by
  refine ((handlers_in_force ((runtime default 1).run_after (swapped ++ afterSwapped) (by decide))).2.2.2.2
    swapped afterSwapped _ 1 rfl ((runtime default 1).run_after swapped (by decide)) ?_ ?_).2.2 1
    ⟨Action.plain ⟨"swapped.draw"⟩, .validating 1⟩ (by decide)
  · intro actionType
    show (∅ : HandlerRegistry).lookup actionType ≠ some 1
    simp
  · simp [afterSwapped]

end Runtime

end OrbitRelay
