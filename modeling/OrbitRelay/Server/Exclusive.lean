import OrbitRelay.Server.Shutdown

/-
  One shutdown at a time, and forward only.

  The lifecycle leaves ready once and never comes back, so one call gets past
  `begin_shutdown`, and every other call finds it shut. What that one call has
  made of the registry is a beginning of its plan: draining, offline, gone.
-/

namespace OrbitRelay.Shutdown

/-- A change of the local node's entry. -/
inductive Change where
  | registered (node : Node)
  | unregistered (id : NodeId)
  deriving DecidableEq

/-- The entry a change leaves. -/
def Change.entry : Change → Option Node
  | .registered node => some node
  | .unregistered _ => none

/-- What a shutdown has to do to the entry of a node, in order. -/
def plan (node : Node) : List Change :=
  [.registered { node with state := .draining }, .registered { node with state := .offline }, .unregistered node.id]

/-- How far an entry has gone: a node that is not registered is gone. -/
def rank : Option Node → Nat
  | none => 4
  | some node =>
    match node.state with
    | .starting => 0
    | .ready => 1
    | .draining => 2
    | .offline => 3

/-- The entry of a node that was ready, after some changes. -/
def entryAfter (node : Node) (changes : List Change) : Option Node :=
  changes.foldl (fun _ change => change.entry) (some node)

/-- The successful change a step makes to the local node's entry. -/
def change (node : Node) : Label → Option Change
  | .register _ state (.ok ()) => some (.registered { node with state })
  | .unregister _ (.ok ()) => some (.unregistered node.id)
  | _ => none

def changes (node : Node) (tr : List Label) : List Change := tr.filterMap (change node)

/-- The calls that got past `begin_shutdown`. -/
def begun (tr : List Label) : List TaskId :=
  tr.filterMap fun
    | .beginShutdown c (.ok ()) => some c
    | _ => none

/-- The call a step belongs to that is past `begin_shutdown`. -/
def Label.worker : Label → Option TaskId
  | .register c _ _ => some c
  | .unregister c _ => some c
  | .stop c _ => some c
  | _ => none

/-- The node that takes a step of its own. -/
def Label.peer : Label → Option NodeId
  | .peerRegister node => some node.id
  | .peerUnregister id => some id
  | _ => none

/-- The steps that call `c` takes past `begin_shutdown`. -/
def work (c : TaskId) (tr : List Label) : List Label := tr.filter fun l => l.worker = some c

variable {σ σ' : State} {l : Label} {tr : List Label} {node : Node} {c c' : TaskId} {stage stage' : Stage} {n n' : Nat}
  {context : ServerContext}

theorem changes_append (tr tr' : List Label) : changes node (tr ++ tr') = changes node tr ++ changes node tr' :=
  List.filterMap_append

theorem begun_append (tr tr' : List Label) : begun (tr ++ tr') = begun tr ++ begun tr' :=
  List.filterMap_append

theorem entryAfter_append (cs cs' : List Change) :
    entryAfter node (cs ++ cs') = cs'.foldl (fun _ change => change.entry) (entryAfter node cs) :=
  List.foldl_append

/-! ## The entry -/

theorem localNode_step (hstep : σ.step l = some σ') : σ'.localNode = σ.localNode := by
  cases step_effect hstep <;> rfl

/-- A step changes the entry of another node only if it is of that node. -/
theorem lookup_step (hstep : σ.step l = some σ') {id : NodeId} (hid : id ≠ σ.localNode.id)
    (hpeer : l.peer ≠ some id) : σ'.nodeRegistry.lookup id = σ.nodeRegistry.lookup id := by
  have hother : ∀ {id' : NodeId}, l.peer = some id' → id ≠ id' := by
    intro id' hl heq
    subst heq
    exact hpeer hl
  cases step_effect hstep with
  | registered c state => exact AList.lookup_insert_ne hid
  | unregistered c => exact AList.lookup_erase_ne hid
  | peerRegister peer => exact AList.lookup_insert_ne (hother rfl)
  | peerUnregister id' => exact AList.lookup_erase_ne (hother rfl)
  | _ => rfl

/-- The local node's entry is what the changes have made of it. -/
theorem entry_step (hnode : σ.localNode = node) (h : σ.nodeRegistry.lookup node.id = entryAfter node (changes node tr))
    (hstep : σ.step l = some σ') :
    σ'.nodeRegistry.lookup node.id = entryAfter node (changes node (tr ++ [l])) := by
  subst hnode
  rw [changes_append, entryAfter_append, ← h]
  cases step_effect hstep with
  | registered c state => exact AList.lookup_insert _
  | unregistered c => exact AList.lookup_erase _ _
  | peerRegister peer other => exact AList.lookup_insert_ne (Ne.symm other)
  | peerUnregister id other => exact AList.lookup_erase_ne (Ne.symm other)
  | _ => rfl

/-! ## The one call -/

/-- How many changes are made at a stage, and what the lifecycle is then. -/
inductive Reached : Stage → LifecycleState → Nat → Prop where
  | draining : Reached (.registering .draining) .draining 0
  | drainingFailed : Reached (.returned (.error registrationFailed)) .draining 0
  | offline : Reached (.registering .offline) .draining 1
  | offlineFailed : Reached (.returned (.error registrationFailed)) .draining 1
  | unregistering : Reached .unregistering .draining 2
  | unregisterFailed : Reached (.returned (.error unregisterFailed)) .draining 2
  | stopping : Reached .stopping .draining 3
  | stopped : Reached (.returned (.ok ())) .stopped 3

namespace Reached

variable {state : NodeState} {process : LifecycleState}

theorem process_eq (h : Reached stage process n) : process = .draining ∨ process = .stopped := by
  cases h <;> simp

theorem registering (h : Reached (.registering state) process n) :
    process = .draining ∧ ((state = .draining ∧ n = 0) ∨ (state = .offline ∧ n = 1)) := by
  cases h <;> simp

theorem at_unregistering (h : Reached .unregistering process n) : process = .draining ∧ n = 2 := by
  cases h
  exact ⟨rfl, rfl⟩

theorem at_stopping (h : Reached .stopping process n) : process = .draining ∧ n = 3 := by
  cases h
  exact ⟨rfl, rfl⟩

theorem ok_iff {result : Except ServerError Unit} (h : Reached (.returned result) process n) :
    (result = .ok () ↔ n = 3) ∧ (n = 3 → process = .stopped) := by
  cases h <;> simp

theorem le (h : Reached stage process n) : n ≤ 3 := by
  cases h <;> omega

end Reached

/-- Nobody has shut the server down. -/
structure Untouched (node : Node) (tr : List Label) (σ : State) : Prop where
  begun : begun tr = []
  ready : σ.lifecycle.state = .ready
  changes : changes node tr = []
  uncalled : ∀ c, σ.calls.lookup c = none
  workers : ∀ l ∈ tr, l.worker = none

/-- Call `c` shuts the server down, and has come to `stage` with `n` changes. -/
structure Led (node : Node) (tr : List Label) (σ : State) (c : TaskId) (stage : Stage) (n : Nat) : Prop where
  begun : begun tr = [c]
  call : σ.calls.lookup c = some stage
  reached : Reached stage σ.lifecycle.state n
  changes : changes node tr = (plan node).take n
  others : ∀ {c' stage'}, σ.calls.lookup c' = some stage' → c' ≠ c →
    ∃ state, stage' = .returned (.error (.lifecycle ⟨state, .draining⟩))
  workers : ∀ l ∈ tr, l.worker = none ∨ l.worker = some c

namespace Led

/-- A call that waits for something is the one. -/
theorem eq_of_waiting (h : Led node tr σ c stage n) (hc : σ.calls.lookup c' = some stage')
    (hwaits : ∀ result, stage' ≠ .returned result) : c' = c ∧ stage' = stage := by
  by_cases heq : c' = c
  · subst heq
    exact ⟨rfl, Option.some.inj (hc.symm.trans h.call)⟩
  · obtain ⟨state, hstage⟩ := h.others hc heq
    exact absurd hstage (hwaits _)

theorem workers_append (h : Led node tr σ c stage n) (hl : l.worker = none ∨ l.worker = some c) :
    ∀ k ∈ tr ++ [l], k.worker = none ∨ k.worker = some c := by
  intro k hk
  rcases List.mem_append.mp hk with hk | hk
  · exact h.workers k hk
  · rwa [List.mem_singleton.mp hk]

/-- A step of the one call. -/
theorem advance (h : Led node tr σ c stage n) (hcalls : σ'.calls = σ.calls.insert c stage')
    (hreached : Reached stage' σ'.lifecycle.state n') (hbegun : Shutdown.begun [l] = [])
    (hchanges : (plan node).take n ++ Shutdown.changes node [l] = (plan node).take n')
    (hworker : l.worker = some c) : Led node (tr ++ [l]) σ' c stage' n' where
  begun := by rw [begun_append, h.begun, hbegun, List.append_nil]
  call := by
    rw [hcalls]
    exact AList.lookup_insert _
  reached := hreached
  changes := by rw [changes_append, h.changes, hchanges]
  others := by
    intro c' stage'' hc' hne
    rw [hcalls, AList.lookup_insert_ne hne] at hc'
    exact h.others hc' hne
  workers := h.workers_append (.inr hworker)

/-- A step that is not one of its own. -/
theorem idle (h : Led node tr σ c stage n) (hlifecycle : σ'.lifecycle = σ.lifecycle)
    (hcall : σ'.calls.lookup c = σ.calls.lookup c)
    (hothers : ∀ {c' stage'}, σ'.calls.lookup c' = some stage' → c' ≠ c →
      ∃ state, stage' = .returned (.error (.lifecycle ⟨state, .draining⟩)))
    (hbegun : Shutdown.begun [l] = []) (hchanges : Shutdown.changes node [l] = []) (hworker : l.worker = none) :
    Led node (tr ++ [l]) σ' c stage n where
  begun := by rw [begun_append, h.begun, hbegun, List.append_nil]
  call := by rw [hcall, h.call]
  reached := by
    rw [hlifecycle]
    exact h.reached
  changes := by rw [changes_append, h.changes, hchanges, List.append_nil]
  others := hothers
  workers := h.workers_append (.inl hworker)

/-- A step that is not of the one call leaves it where it is. -/
theorem idle_step (h : Led node tr σ c stage n) (hworker : l.worker = none) (hstep : σ.step l = some σ') :
    Led node (tr ++ [l]) σ' c stage n ∧ σ'.lifecycle = σ.lifecycle := by
  cases step_effect hstep with
  | begun c' fresh running =>
    -- the lifecycle has left both states that a shutdown begins in
    have hstate := h.reached.process_eq
    rcases running with hs | hs <;> simp [hs] at hstate
  | rejected c' fresh ended =>
    have hne : c ≠ c' := by
      intro heq
      subst heq
      simp [h.call] at fresh
    refine ⟨h.idle rfl (AList.lookup_insert_ne hne) ?_ rfl rfl rfl, rfl⟩
    intro c'' stage'' hc'' hother
    rcases Table.lookup_insert_eq_some.mp hc'' with ⟨_, rfl⟩ | ⟨_, hold⟩
    · exact ⟨_, rfl⟩
    · exact h.others hold hother
  | peerRegister peer => exact ⟨h.idle rfl rfl h.others rfl rfl rfl, rfl⟩
  | peerUnregister id => exact ⟨h.idle rfl rfl h.others rfl rfl rfl, rfl⟩
  | _ => simp [Label.worker] at hworker

theorem step (h : Led node tr σ c stage n) (hstep : σ.step l = some σ') :
    ∃ stage' n', Led node (tr ++ [l]) σ' c stage' n' := by
  have hreached := h.reached
  cases step_effect hstep with
  | registered c' state waiting =>
    obtain ⟨rfl, rfl⟩ := h.eq_of_waiting waiting (by simp)
    obtain ⟨hs, ⟨rfl, rfl⟩ | ⟨rfl, rfl⟩⟩ := hreached.registering
    · exact ⟨.registering .offline, 1, h.advance rfl (hs ▸ .offline) rfl rfl rfl⟩
    · exact ⟨.unregistering, 2, h.advance rfl (hs ▸ .unregistering) rfl rfl rfl⟩
  | registerFailed c' state error waiting =>
    obtain ⟨rfl, rfl⟩ := h.eq_of_waiting waiting (by simp)
    obtain ⟨hs, ⟨rfl, rfl⟩ | ⟨rfl, rfl⟩⟩ := hreached.registering
    · exact ⟨_, 0, h.advance rfl (hs ▸ .drainingFailed) rfl rfl rfl⟩
    · exact ⟨_, 1, h.advance rfl (hs ▸ .offlineFailed) rfl rfl rfl⟩
  | unregistered c' waiting =>
    obtain ⟨rfl, rfl⟩ := h.eq_of_waiting waiting (by simp)
    obtain ⟨hs, rfl⟩ := hreached.at_unregistering
    exact ⟨.stopping, 3, h.advance rfl (hs ▸ .stopping) rfl rfl rfl⟩
  | unregisterFailed c' error waiting =>
    obtain ⟨rfl, rfl⟩ := h.eq_of_waiting waiting (by simp)
    obtain ⟨hs, rfl⟩ := hreached.at_unregistering
    exact ⟨_, 2, h.advance rfl (hs ▸ .unregisterFailed) rfl rfl rfl⟩
  | stopped c' waiting =>
    obtain ⟨rfl, rfl⟩ := h.eq_of_waiting waiting (by simp)
    obtain ⟨_, rfl⟩ := hreached.at_stopping
    exact ⟨_, 3, h.advance rfl .stopped rfl rfl rfl⟩
  | stopRejected c' waiting other =>
    obtain ⟨rfl, rfl⟩ := h.eq_of_waiting waiting (by simp)
    exact absurd hreached.at_stopping.1 other
  | _ => exact ⟨stage, n, (h.idle_step rfl hstep).1⟩

end Led

theorem Untouched.step (h : Untouched node tr σ) (hstep : σ.step l = some σ') :
    Untouched node (tr ++ [l]) σ' ∨ ∃ c, Led node (tr ++ [l]) σ' c (.registering .draining) 0 := by
  have hidle : ∀ {σ' : State}, σ'.lifecycle = σ.lifecycle → σ'.calls = σ.calls → Shutdown.begun [l] = [] →
      Shutdown.changes node [l] = [] → l.worker = none → Untouched node (tr ++ [l]) σ' := by
    intro σ' hlifecycle hcalls hbegun hchanges hworker
    exact {
      begun := by rw [begun_append, h.begun, hbegun, List.append_nil]
      ready := by rw [hlifecycle, h.ready]
      changes := by rw [changes_append, h.changes, hchanges, List.append_nil]
      uncalled := fun c => by rw [hcalls, h.uncalled c]
      workers := by
        intro k hk
        rcases List.mem_append.mp hk with hk | hk
        · exact h.workers k hk
        · rwa [List.mem_singleton.mp hk] }
  cases step_effect hstep with
  | begun c fresh running =>
    refine .inr ⟨c, ?_, AList.lookup_insert _, .draining, ?_, ?_, ?_⟩
    · rw [begun_append, h.begun]
      rfl
    · rw [changes_append, h.changes]
      rfl
    · intro c' stage' hc' hne
      rw [State.setStage, AList.lookup_insert_ne hne, h.uncalled c'] at hc'
      simp at hc'
    · intro k hk
      rcases List.mem_append.mp hk with hk | hk
      · exact .inl (h.workers k hk)
      · rw [List.mem_singleton.mp hk]
        exact .inl rfl
  | rejected c fresh ended => simp [h.ready] at ended
  | registered c state waiting => simp [h.uncalled c] at waiting
  | registerFailed c state error waiting => simp [h.uncalled c] at waiting
  | unregistered c waiting => simp [h.uncalled c] at waiting
  | unregisterFailed c error waiting => simp [h.uncalled c] at waiting
  | stopped c waiting => simp [h.uncalled c] at waiting
  | stopRejected c waiting => simp [h.uncalled c] at waiting
  | peerRegister peer => exact .inl (hidle rfl rfl rfl rfl rfl)
  | peerUnregister id => exact .inl (hidle rfl rfl rfl rfl rfl)

/-- How far the shutdown of a server has come. -/
structure Invariant (node : Node) (tr : List Label) (σ : State) : Prop where
  localNode : σ.localNode = node
  entry : σ.nodeRegistry.lookup node.id = entryAfter node (changes node tr)
  course : Untouched node tr σ ∨ ∃ c stage n, Led node tr σ c stage n

namespace Invariant

theorem new (hready : context.lifecycle.state = .ready)
    (hentry : context.nodeRegistry.lookup context.localNode.id = some context.localNode) :
    Invariant context.localNode [] (State.new context) where
  localNode := rfl
  entry := hentry
  course := .inl ⟨rfl, hready, rfl, by simp [State.new], by simp⟩

theorem step (h : Invariant node tr σ) (hstep : σ.step l = some σ') : Invariant node (tr ++ [l]) σ' where
  localNode := (localNode_step hstep).trans h.localNode
  entry := entry_step h.localNode h.entry hstep
  course := by
    rcases h.course with huntouched | ⟨c, stage, n, hled⟩
    · exact (huntouched.step hstep).imp_right fun ⟨c, hled⟩ => ⟨c, _, _, hled⟩
    · exact .inr ⟨c, hled.step hstep⟩

theorem run (hready : context.lifecycle.state = .ready)
    (hentry : context.nodeRegistry.lookup context.localNode.id = some context.localNode)
    (h : (server context).Run (State.new context) tr σ) : Invariant context.localNode tr σ :=
  Lts.Run.induct (P := Invariant context.localNode) (Invariant.new hready hentry)
    (fun _ _ _ _ _ ih hstep => ih.step hstep) h

/-- What is done of the plan. -/
theorem changes_eq (h : Invariant node tr σ) : ∃ n, n ≤ 3 ∧ changes node tr = (plan node).take n := by
  rcases h.course with huntouched | ⟨c, stage, n, hled⟩
  · exact ⟨0, Nat.zero_le 3, huntouched.changes⟩
  · exact ⟨n, hled.reached.le, hled.changes⟩

/-- A call that got past `begin_shutdown` is the one. -/
theorem led_of_begun (h : Invariant node tr σ) (hc : c ∈ begun tr) : ∃ stage n, Led node tr σ c stage n := by
  rcases h.course with huntouched | ⟨c', stage, n, hled⟩
  · simp [huntouched.begun] at hc
  · rw [hled.begun, List.mem_singleton] at hc
    subst hc
    exact ⟨stage, n, hled⟩

/-- The others do nothing, and fail at once. -/
theorem rejected (h : Invariant node tr σ) (hc : c ∉ begun tr) :
    work c tr = [] ∧
      ∀ stage, σ.calls.lookup c = some stage → ∃ error, stage = .returned (.error (.lifecycle error)) := by
  rw [work, List.filter_eq_nil_iff]
  rcases h.course with huntouched | ⟨c', stage, n, hled⟩
  · refine ⟨fun l hl => by simp [huntouched.workers l hl], ?_⟩
    intro stage hstage
    simp [huntouched.uncalled c] at hstage
  · rw [hled.begun, List.mem_singleton] at hc
    refine ⟨?_, ?_⟩
    · intro l hl
      rcases hled.workers l hl with hworker | hworker
      · simp [hworker]
      · simp [hworker, Ne.symm hc]
    · intro stage hstage
      obtain ⟨state, hreturned⟩ := hled.others hstage hc
      exact ⟨_, hreturned⟩

end Invariant

/-- All the changes are those of the one call. -/
theorem Led.changes_work (h : Led node tr σ c stage n) : Shutdown.changes node (work c tr) = (plan node).take n := by
  rw [← h.changes, Shutdown.changes, Shutdown.changes, work, List.filterMap_filter]
  apply List.filterMap_congr
  intro l hl
  rcases h.workers l hl with hworker | hworker
  · cases l <;> simp_all [Label.worker, change]
  · simp [hworker]

/-- An entry has gone as far as the plan has. -/
theorem rank_entryAfter (hready : node.state = .ready) (hn : n ≤ 3) :
    rank (entryAfter node ((plan node).take n)) = n + 1 := by
  rcases n with _ | _ | _ | _ | n
  · simp [entryAfter, rank, hready]
  · rfl
  · rfl
  · rfl
  · omega

/-- **Concurrent shutdown is exclusive and monotone.** Of all the calls on a
server that `Bootstrap` built, one at most gets past `begin_shutdown`, and every
other returns a lifecycle error and does nothing. The changes made to the entry
of the node are a beginning of the plan, whatever fails, so the entry never
goes back; the entries of other nodes are theirs alone to change. A call
returns Ok exactly if it made the whole plan, and the server is then stopped
and its node gone. -/
theorem shutdown_exclusive {config : ServerConfig} {newId : NodeId} {faults : Option NodeError × Option NodeError}
    {eventStore : MemoryEventStore.State} {eventBus : MemoryEventBus.State} {nodeRegistry : NodeRegistry}
    (hbuilt : Bootstrap.buildWith config newId faults eventStore eventBus nodeRegistry = .ok context)
    (h : (server context).Run (State.new context) tr σ) :
    let node := context.localNode
    (node.state = .ready ∧ context.nodeRegistry.lookup node.id = some node) ∧
    (begun tr).length ≤ 1 ∧
    (∀ c, c ∉ begun tr → work c tr = [] ∧
      ∀ stage, σ.calls.lookup c = some stage → ∃ error, stage = .returned (.error (.lifecycle error))) ∧
    (changes node tr <+: plan node ∧ σ.nodeRegistry.lookup node.id = entryAfter node (changes node tr)) ∧
    (∀ pre post τ, tr = pre ++ post → (server context).Run (State.new context) pre τ →
      rank (τ.nodeRegistry.lookup node.id) ≤ rank (σ.nodeRegistry.lookup node.id)) ∧
    (∀ pre l post τ υ, tr = pre ++ l :: post → (server context).Run (State.new context) pre τ → τ.step l = some υ →
      ∀ id, id ≠ node.id → l.peer ≠ some id → υ.nodeRegistry.lookup id = τ.nodeRegistry.lookup id) ∧
    (∀ c result, σ.calls.lookup c = some (.returned result) →
      (result = .ok () ↔ changes node (work c tr) = plan node) ∧
      (result = .ok () → σ.lifecycle = .fromState .stopped ∧ σ.nodeRegistry.lookup node.id = none)) := by
  intro node
  obtain ⟨hnode, hlifecycle, _, hentry, _⟩ := Bootstrap.buildWith_ok hbuilt
  have hready : node.state = .ready := by
    show context.localNode.state = .ready
    rw [hnode]
    rfl
  have hinv : ∀ {tr σ}, (server context).Run (State.new context) tr σ → Invariant node tr σ :=
    fun hrun => Invariant.run (by rw [hlifecycle]; rfl) hentry hrun
  have hσ := hinv h
  obtain ⟨n, hn, hchanges⟩ := hσ.changes_eq
  refine ⟨⟨hready, hentry⟩, ?_, fun c => hσ.rejected, ⟨?_, hσ.entry⟩, ?_, ?_, ?_⟩
  · rcases hσ.course with huntouched | ⟨c, stage, n, hled⟩
    · simp [huntouched.begun]
    · simp [hled.begun]
  · rw [hchanges]
    exact List.take_prefix n _
  · -- the changes up to an earlier state are a beginning of those up to this one
    intro pre post τ htr hpre
    obtain ⟨m, hm, hearlier⟩ := (hinv hpre).changes_eq
    have hle : m ≤ n := by
      have hprefix : changes node pre <+: changes node tr := by
        rw [htr, changes_append]
        exact List.prefix_append _ _
      have hlength := hprefix.length_le
      rw [hearlier, hchanges, List.length_take, List.length_take] at hlength
      have hplan : (plan node).length = 3 := rfl
      omega
    rw [(hinv hpre).entry, hσ.entry, hearlier, hchanges, rank_entryAfter hready hm, rank_entryAfter hready hn]
    omega
  · intro pre l post τ υ _ hpre hstep id hid hpeer
    exact lookup_step hstep (by rw [(hinv hpre).localNode]; exact hid) hpeer
  · intro c result hreturned
    by_cases hc : c ∈ begun tr
    · obtain ⟨stage, k, hled⟩ := hσ.led_of_begun hc
      obtain rfl := Option.some.inj (hled.call.symm.trans hreturned)
      obtain ⟨hok, hstopped⟩ := hled.reached.ok_iff
      have hall : changes node (work c tr) = plan node ↔ k = 3 := by
        rw [hled.changes_work, List.take_eq_self_iff]
        have hle := hled.reached.le
        have hplan : (plan node).length = 3 := rfl
        omega
      refine ⟨hok.trans hall.symm, ?_⟩
      intro hresult
      obtain rfl := hok.mp hresult
      refine ⟨ServerLifecycle.eq_fromState (hstopped rfl), ?_⟩
      rw [hσ.entry, hled.changes]
      rfl
    · obtain ⟨hnone, herror⟩ := hσ.rejected hc
      obtain ⟨error, hstage⟩ := herror _ hreturned
      obtain rfl := Stage.returned.inj hstage
      rw [hnone]
      simp [changes, plan]

/-- A server over memory. -/
def memoryServer : ServerContext where
  localNode := Bootstrap.node default default .ready
  lifecycle := .fromState .ready
  runtime := Runtime.State.new default 64
  nodeRegistry := (AList.insert default (Bootstrap.node default default .starting) ∅).insert default
    (Bootstrap.node default default .ready)

/-- Two calls, of which the second comes too late, and another node. -/
def shutDown : List Label :=
  [.beginShutdown 1 (.ok ()), .register 1 .draining (.ok ()), .beginShutdown 2 (.error ⟨.draining, .draining⟩),
    .peerRegister (Bootstrap.node default ⟨⟨"peer", by decide⟩⟩ .ready), .register 1 .offline (.ok ()),
    .unregister 1 (.ok ()), .stop 1 (.ok ())]

theorem shutdown_exclusive_two :
    changes memoryServer.localNode (work 1 shutDown) = plan memoryServer.localNode := by
  have hbuilt : Bootstrap.buildWith default default (none, none) (.new default) (.new 64) ∅ = .ok memoryServer := rfl
  have hrun := (server memoryServer).run_after shutDown (by decide)
  exact ((shutdown_exclusive hbuilt hrun).2.2.2.2.2.2 1 (.ok ()) (by decide)).1.mp rfl

end OrbitRelay.Shutdown
