import OrbitRelay.Lib.Budget
import OrbitRelay.Lib.Linearizable
import OrbitRelay.Server.Lifecycle
import OrbitRelay.Sync.Bus

/-
  The lifecycle under its locks (orbitrelay-server: lifecycle.rs, health.rs).

  State and health are behind a lock each. A transition holds the write guard of
  the state from before it looks at it until it returns, and writes the health in
  between. A guard that lives for one statement, as the ones of the readers and
  the one under which the health is written, is one step. So a reader of the
  health waits for no transition, and for a moment the state is new under its
  guard while the health is old.

  Nobody can tell: whatever calls run side by side, they could have been made one
  after the other on a lifecycle that changes both at once.

  Correspondence (Rust ↔ Lean):
    `start`, `ready`, `begin_shutdown`, `stop` ↔ `Transition`
    `let mut state = self.write_state()`       ↔ `lock`
    `return Err(LifecycleError::new(from, to))` ↔ `reject`
    `*state = to`                              ↔ `write`
    `self.health.set_state(health_for(to))`    ↔ `setHealth`
    the end of a call, its guard dropped       ↔ `ret`
    `state()`                                  ↔ `readState`
    `health().state()`                         ↔ `readHealth`
-/

namespace OrbitRelay.ServerLifecycle

open Lts (CallMark CallPhase Simulation Linearization Linearizes)

/-- The transitions a caller can ask for. -/
inductive Transition where
  | start
  | ready
  | beginShutdown
  | stop
  deriving DecidableEq

namespace Transition

/-- The states a transition is allowed from. -/
def allowedFrom : Transition → List LifecycleState
  | .start => [.stopped]
  | .ready => [.starting]
  | .beginShutdown => [.starting, .ready]
  | .stop => [.draining]

/-- The state a transition leads to. -/
def target : Transition → LifecycleState
  | .start => .starting
  | .ready => .ready
  | .beginShutdown => .draining
  | .stop => .stopped

/-- A transition of a lifecycle that changes in one step. -/
def apply : Transition → ServerLifecycle → Except LifecycleError ServerLifecycle
  | .start => ServerLifecycle.start
  | .ready => ServerLifecycle.ready
  | .beginShutdown => ServerLifecycle.beginShutdown
  | .stop => ServerLifecycle.stop

theorem apply_eq (t : Transition) (lifecycle : ServerLifecycle) :
    t.apply lifecycle = lifecycle.transition t.allowedFrom t.target := by
  cases t <;> rfl

end Transition

/-- What a caller can ask of a lifecycle. -/
inductive Operation where
  | transition (t : Transition)
  | state
  | health
  deriving DecidableEq

/-- What a caller is told. -/
inductive Reply where
  | transition (result : Except LifecycleError Unit)
  | state (state : LifecycleState)
  | health (health : HealthState)
  deriving DecidableEq

/-! ## One call after the other -/

/-- The answer of a lifecycle that does every operation in one step. -/
def respond (lifecycle : ServerLifecycle) : Operation → ServerLifecycle × Reply
  | .transition t =>
    match t.apply lifecycle with
    | .ok lifecycle' => (lifecycle', .transition (.ok ()))
    | .error error => (lifecycle, .transition (.error error))
  | .state => (lifecycle, .state lifecycle.state)
  | .health => (lifecycle, .health lifecycle.health)

/-- The lifecycle as its callers think of it. -/
def oneByOne (state : LifecycleState) : Lts ServerLifecycle (Operation × Reply) :=
  Lts.responder (fromState state) respond

theorem respond_allowed {lifecycle : ServerLifecycle} {t : Transition} (h : lifecycle.state ∈ t.allowedFrom) :
    respond lifecycle (.transition t) = (fromState t.target, .transition (.ok ())) := by
  have happly : t.apply lifecycle = .ok (fromState t.target) := by
    rw [t.apply_eq]
    exact transition_ok_iff.mpr ⟨h, rfl⟩
  simp only [respond, happly]

theorem respond_refused {lifecycle : ServerLifecycle} {t : Transition} (h : lifecycle.state ∉ t.allowedFrom) :
    respond lifecycle (.transition t) = (lifecycle, .transition (.error ⟨lifecycle.state, t.target⟩)) := by
  have happly : t.apply lifecycle = .error ⟨lifecycle.state, t.target⟩ := by
    rw [t.apply_eq]
    exact transition_error_iff.mpr ⟨h, rfl⟩
  simp only [respond, happly]

theorem oneByOne_single {state : LifecycleState} {lifecycle lifecycle' : ServerLifecycle} {op : Operation}
    {reply : Reply} (h : respond lifecycle op = (lifecycle', reply)) :
    (oneByOne state).Run lifecycle [(op, reply)] lifecycle' := by
  apply Lts.Run.single
  show (if (respond lifecycle op).2 = reply then some (respond lifecycle op).1 else none) = some lifecycle'
  rw [h, if_pos rfl]

/-! ## Calls side by side -/

/-- How far the holder of the write guard has come. -/
inductive Held where
  | locked (t : Transition)
  | written (t : Transition)
  | done
  deriving DecidableEq

/-- What the two locks protect, who holds the write guard of the state, and the
calls in progress or over. -/
structure State where
  state : LifecycleState
  health : HealthState
  writer : Option (TaskId × Held)
  calls : Table TaskId (CallPhase Operation Reply)

inductive Label where
  | call (c : TaskId) (op : Operation)
  | lock (c : TaskId) (t : Transition)
  | reject (c : TaskId) (t : Transition) (error : LifecycleError)
  | write (c : TaskId) (t : Transition)
  | setHealth (c : TaskId) (t : Transition)
  | readState (c : TaskId) (state : LifecycleState)
  | readHealth (c : TaskId) (health : HealthState)
  | ret (c : TaskId) (op : Operation) (reply : Reply)
  deriving DecidableEq

namespace State

/-- A lifecycle that nobody has called. -/
def new (state : LifecycleState) : State := ⟨state, state.health, none, ∅⟩

/-- The state with the call `c` elsewhere. -/
def setPhase (σ : State) (c : TaskId) (phase : CallPhase Operation Reply) : State :=
  { σ with calls := σ.calls.insert c phase }

def step (σ : State) : Label → Option State
  | .call c op => if σ.calls.lookup c = none then some (σ.setPhase c (.called op)) else none
  | .lock c t =>
    if σ.calls.lookup c = some (.called (.transition t)) ∧ σ.writer = none then
      some { σ with writer := some (c, .locked t) }
    else none
  | .reject c t error =>
    if σ.writer = some (c, .locked t) ∧ σ.state ∉ t.allowedFrom ∧ error = ⟨σ.state, t.target⟩ then
      some ({ σ with writer := some (c, .done) }.setPhase c (.effected (.transition t) (.transition (.error error))))
    else none
  | .write c t =>
    if σ.writer = some (c, .locked t) ∧ σ.state ∈ t.allowedFrom then
      some { σ with state := t.target, writer := some (c, .written t) }
    else none
  | .setHealth c t =>
    if σ.writer = some (c, .written t) then
      some ({ σ with health := t.target.health, writer := some (c, .done) }.setPhase c
        (.effected (.transition t) (.transition (.ok ()))))
    else none
  | .readState c state =>
    if σ.calls.lookup c = some (.called .state) ∧ σ.writer = none ∧ state = σ.state then
      some (σ.setPhase c (.effected .state (.state state)))
    else none
  | .readHealth c health =>
    if σ.calls.lookup c = some (.called .health) ∧ health = σ.health then
      some (σ.setPhase c (.effected .health (.health health)))
    else none
  | .ret c op reply =>
    if σ.calls.lookup c = some (.effected op reply) then
      some ({ σ with writer := σ.writer.filter fun w => w.1 ≠ c }.setPhase c (.returned op reply))
    else none

end State

/-- A lifecycle with any number of callers. -/
def threads (state : LifecycleState) : Lts State Label := ⟨State.new state, State.step⟩

/-- What a step is for the call that takes it. A transition takes effect for
the others when the health has been written. -/
def mark : Label → Option (TaskId × CallMark Operation Reply)
  | .call c op => some (c, .call op)
  | .lock _ _ | .write _ _ => none
  | .reject c t error => some (c, .point (.transition t) (.transition (.error error)))
  | .setHealth c t => some (c, .point (.transition t) (.transition (.ok ())))
  | .readState c state => some (c, .point .state (.state state))
  | .readHealth c health => some (c, .point .health (.health health))
  | .ret c _ reply => some (c, .ret reply)

/-! ## What a step does -/

/-- The ways a step can go, each with what it finds and what it leaves. -/
inductive Effect (σ : State) : Label → State → Prop where
  | called (c : TaskId) (op : Operation) (fresh : σ.calls.lookup c = none) :
      Effect σ (.call c op) (σ.setPhase c (.called op))
  | locked (c : TaskId) (t : Transition) (waiting : σ.calls.lookup c = some (.called (.transition t)))
      (free : σ.writer = none) :
      Effect σ (.lock c t) { σ with writer := some (c, .locked t) }
  | rejected (c : TaskId) (t : Transition) (holds : σ.writer = some (c, .locked t))
      (refused : σ.state ∉ t.allowedFrom) :
      Effect σ (.reject c t ⟨σ.state, t.target⟩) ({ σ with writer := some (c, .done) }.setPhase c
        (.effected (.transition t) (.transition (.error ⟨σ.state, t.target⟩))))
  | written (c : TaskId) (t : Transition) (holds : σ.writer = some (c, .locked t))
      (allowed : σ.state ∈ t.allowedFrom) :
      Effect σ (.write c t) { σ with state := t.target, writer := some (c, .written t) }
  | healthSet (c : TaskId) (t : Transition) (holds : σ.writer = some (c, .written t)) :
      Effect σ (.setHealth c t) ({ σ with health := t.target.health, writer := some (c, .done) }.setPhase c
        (.effected (.transition t) (.transition (.ok ()))))
  | stateRead (c : TaskId) (waiting : σ.calls.lookup c = some (.called .state)) (free : σ.writer = none) :
      Effect σ (.readState c σ.state) (σ.setPhase c (.effected .state (.state σ.state)))
  | healthRead (c : TaskId) (waiting : σ.calls.lookup c = some (.called .health)) :
      Effect σ (.readHealth c σ.health) (σ.setPhase c (.effected .health (.health σ.health)))
  | returned (c : TaskId) (op : Operation) (reply : Reply)
      (effected : σ.calls.lookup c = some (.effected op reply)) :
      Effect σ (.ret c op reply)
        ({ σ with writer := σ.writer.filter fun w => w.1 ≠ c }.setPhase c (.returned op reply))

variable {σ σ' : State} {l : Label} {c : TaskId}

theorem step_effect (h : σ.step l = some σ') : Effect σ l σ' := by
  cases l with
  | call c op =>
    simp only [State.step, Option.ite_none_right_eq_some, Option.some.injEq] at h
    obtain ⟨fresh, rfl⟩ := h
    exact .called c op fresh
  | lock c t =>
    simp only [State.step, Option.ite_none_right_eq_some, Option.some.injEq] at h
    obtain ⟨⟨waiting, free⟩, rfl⟩ := h
    exact .locked c t waiting free
  | reject c t error =>
    simp only [State.step, Option.ite_none_right_eq_some, Option.some.injEq] at h
    obtain ⟨⟨holds, refused, rfl⟩, rfl⟩ := h
    exact .rejected c t holds refused
  | write c t =>
    simp only [State.step, Option.ite_none_right_eq_some, Option.some.injEq] at h
    obtain ⟨⟨holds, allowed⟩, rfl⟩ := h
    exact .written c t holds allowed
  | setHealth c t =>
    simp only [State.step, Option.ite_none_right_eq_some, Option.some.injEq] at h
    obtain ⟨holds, rfl⟩ := h
    exact .healthSet c t holds
  | readState c state =>
    simp only [State.step, Option.ite_none_right_eq_some, Option.some.injEq] at h
    obtain ⟨⟨waiting, free, rfl⟩, rfl⟩ := h
    exact .stateRead c waiting free
  | readHealth c health =>
    simp only [State.step, Option.ite_none_right_eq_some, Option.some.injEq] at h
    obtain ⟨⟨waiting, rfl⟩, rfl⟩ := h
    exact .healthRead c waiting
  | ret c op reply =>
    simp only [State.step, Option.ite_none_right_eq_some, Option.some.injEq] at h
    obtain ⟨effected, rfl⟩ := h
    exact .returned c op reply effected

/-! ## The guard -/

/-- What a call that holds the guard is in the middle of: a transition it was
called for, or its return. -/
def Held.HeldBy (held : Held) (phase : CallPhase Operation Reply) : Prop :=
  match held with
  | .locked t | .written t => phase = .called (.transition t)
  | .done => ∃ op reply, phase = .effected op reply

/-- The holder of the guard is a call in progress. -/
def Guarded (σ : State) : Prop :=
  ∀ c held, σ.writer = some (c, held) → ∃ phase, σ.calls.lookup c = some phase ∧ held.HeldBy phase

theorem Guarded.new (state : LifecycleState) : Guarded (State.new state) := by
  intro c held hwriter
  simp [State.new] at hwriter

/-- A call that does not hold the guard leaves the holder alone. -/
theorem Guarded.setPhase {writer : Option (TaskId × Held)} {phase : CallPhase Operation Reply} (hguard : Guarded σ)
    (hsub : ∀ w, writer = some w → σ.writer = some w) (hother : ∀ held, writer ≠ some (c, held)) :
    Guarded ({ σ with writer }.setPhase c phase) := by
  intro c' held hwriter
  obtain ⟨phase', hlookup, hphase⟩ := hguard c' held (hsub _ hwriter)
  have hne : c' ≠ c := fun heq => hother held (heq ▸ hwriter)
  exact ⟨phase', (AList.lookup_insert_ne hne).trans hlookup, hphase⟩

/-- A call that does not wait for its transition or its return does not hold
the guard. -/
theorem Guarded.not_holder (hguard : Guarded σ)
    (h : ∀ (held : Held) phase, held.HeldBy phase → σ.calls.lookup c ≠ some phase) :
    ∀ held, σ.writer ≠ some (c, held) := by
  intro held hwriter
  obtain ⟨phase, hlookup, hphase⟩ := hguard c held hwriter
  exact h held phase hphase hlookup

theorem Guarded.step (hguard : Guarded σ) (hstep : σ.step l = some σ') : Guarded σ' := by
  cases step_effect hstep with
  | called c op fresh =>
    exact hguard.setPhase (fun _ h => h) (hguard.not_holder (by simp [fresh]))
  | locked c t waiting free =>
    intro c' held hwriter
    obtain ⟨rfl, rfl⟩ : c = c' ∧ .locked t = held := by simpa using hwriter
    exact ⟨_, waiting, rfl⟩
  | rejected c t holds refused =>
    intro c' held hwriter
    obtain ⟨rfl, rfl⟩ : c = c' ∧ .done = held := by simpa [State.setPhase] using hwriter
    exact ⟨_, AList.lookup_insert _, _, _, rfl⟩
  | written c t holds allowed =>
    intro c' held hwriter
    obtain ⟨rfl, rfl⟩ : c = c' ∧ .written t = held := by simpa using hwriter
    exact hguard c (.locked t) holds
  | healthSet c t holds =>
    intro c' held hwriter
    obtain ⟨rfl, rfl⟩ : c = c' ∧ .done = held := by simpa [State.setPhase] using hwriter
    exact ⟨_, AList.lookup_insert _, _, _, rfl⟩
  | stateRead c waiting free =>
    exact hguard.setPhase (fun _ h => h) (by simp [free])
  | healthRead c waiting =>
    refine hguard.setPhase (fun _ h => h) (hguard.not_holder ?_)
    intro held phase hphase hlookup
    obtain rfl := Option.some.inj (waiting.symm.trans hlookup)
    cases held <;> simp [Held.HeldBy] at hphase
  | returned c op reply effected =>
    refine hguard.setPhase (fun w h => (Option.filter_eq_some_iff.mp h).1) ?_
    intro held hwriter
    simpa using (Option.filter_eq_some_iff.mp hwriter).2

/-! ## One call after the other, seen from calls side by side -/

/-- Where a call stands. -/
def State.phase (σ : State) (c : TaskId) : CallPhase Operation Reply := (σ.calls.lookup c).getD .idle

theorem phase_of_lookup {phase : CallPhase Operation Reply} (h : σ.calls.lookup c = some phase) :
    σ.phase c = phase := by
  rw [State.phase, h]
  rfl

/-- A call that moves makes its mark. -/
theorem call_moves {τ : State} {phase phase' : CallPhase Operation Reply} {m : CallMark Operation Reply}
    (hcalls : τ.calls = σ.calls) (hphase : σ.phase c = phase)
    (hone : (Lts.oneCall Operation Reply).step phase m = some phase') :
    (Lts.family fun _ : TaskId => Lts.oneCall Operation Reply).Run σ.phase [(c, m)] (τ.setPhase c phase').phase := by
  refine Lts.oneCall_single (hphase ▸ hone) ?_
  intro c'
  rw [State.phase, State.setPhase, hcalls]
  by_cases hc : c' = c
  · subst hc
    rw [if_pos rfl, AList.lookup_insert]
    rfl
  · rw [if_neg hc, AList.lookup_insert_ne hc]
    rfl

/-- The calls do what calls do. -/
def callsSimulation (state : LifecycleState) :
    Simulation (threads state) (Lts.family fun _ : TaskId => Lts.oneCall Operation Reply) where
  rel σ phases := Guarded σ ∧ ∀ c, phases c = σ.phase c
  label := mark
  start := ⟨Guarded.new state, fun _ => rfl⟩
  follow := by
    intro σ phases l σ' hrel hstep
    obtain ⟨hguard, hphases⟩ := hrel
    obtain rfl : phases = σ.phase := funext hphases
    suffices h : (Lts.family fun _ : TaskId => Lts.oneCall Operation Reply).Run σ.phase (mark l).toList σ'.phase from
      ⟨σ'.phase, h, hguard.step hstep, fun _ => rfl⟩
    cases step_effect hstep with
    | called c op fresh => exact call_moves rfl (by rw [State.phase, fresh, Option.getD_none]) rfl
    | locked c t waiting free => exact Lts.Run.nil _ _
    | rejected c t holds refused =>
      obtain ⟨phase, hlookup, rfl⟩ := hguard c _ holds
      exact call_moves rfl (phase_of_lookup hlookup) (Lts.oneCall_point _ _)
    | written c t holds allowed => exact Lts.Run.nil _ _
    | healthSet c t holds =>
      obtain ⟨phase, hlookup, rfl⟩ := hguard c _ holds
      exact call_moves rfl (phase_of_lookup hlookup) (Lts.oneCall_point _ _)
    | stateRead c waiting free => exact call_moves rfl (phase_of_lookup waiting) (Lts.oneCall_point _ _)
    | healthRead c waiting => exact call_moves rfl (phase_of_lookup waiting) (Lts.oneCall_point _ _)
    | returned c op reply effected => exact call_moves rfl (phase_of_lookup effected) (Lts.oneCall_ret _ _)

/-- A lifecycle that changes in one step is where the health has come. -/
structure Behind (σ : State) (lifecycle : ServerLifecycle) : Prop where
  guarded : Guarded σ
  health : σ.health = lifecycle.health
  /-- between the two writes the state is ahead -/
  ahead : ∀ {c t}, σ.writer = some (c, .written t) → lifecycle.state ∈ t.allowedFrom ∧ σ.state = t.target
  level : (∀ c t, σ.writer ≠ some (c, .written t)) → σ.state = lifecycle.state

namespace Behind

variable {lifecycle : ServerLifecycle}

theorem new (state : LifecycleState) : Behind (State.new state) (fromState state) where
  guarded := Guarded.new state
  health := rfl
  ahead hwriter := by simp [State.new] at hwriter
  level _ := rfl

/-- A step that writes nothing, and after which no other call is about to write
the health, leaves the two where they are. -/
theorem same (h : Behind σ lifecycle) (hstep : σ.step l = some σ') (hhealth : σ'.health = σ.health)
    (hstate : σ'.state = σ.state)
    (hwritten : ∀ c t, σ'.writer = some (c, .written t) ↔ σ.writer = some (c, .written t)) : Behind σ' lifecycle where
  guarded := h.guarded.step hstep
  health := hhealth.trans h.health
  ahead hwriter := hstate ▸ h.ahead ((hwritten _ _).mp hwriter)
  level hnone := hstate ▸ h.level fun c t hwriter => hnone c t ((hwritten c t).mpr hwriter)

end Behind

/-- What the points do is done one after the other. -/
def effectsSimulation (state : LifecycleState) : Simulation (threads state) (oneByOne state) where
  rel := Behind
  label l := (mark l).bind fun m => m.2.point?
  start := Behind.new state
  follow := by
    intro σ lifecycle l σ' h (hstep : σ.step l = some σ')
    cases step_effect hstep with
    | called c op fresh => exact ⟨lifecycle, Lts.Run.nil _ _, h.same hstep rfl rfl fun _ _ => Iff.rfl⟩
    | locked c t waiting free =>
      exact ⟨lifecycle, Lts.Run.nil _ _, h.same hstep rfl rfl (by simp [free])⟩
    | rejected c t holds refused =>
      have hlevel : σ.state = lifecycle.state := h.level (by simp [holds])
      refine ⟨lifecycle, oneByOne_single ?_, h.same hstep rfl rfl (by simp [holds, State.setPhase])⟩
      rw [hlevel] at refused ⊢
      exact respond_refused refused
    | written c t holds allowed =>
      have hlevel : σ.state = lifecycle.state := h.level (by simp [holds])
      refine ⟨lifecycle, Lts.Run.nil _ _, h.guarded.step hstep, h.health, ?_, ?_⟩
      · intro c' t' hwriter
        obtain ⟨rfl, rfl⟩ : c = c' ∧ t = t' := by simpa using hwriter
        exact ⟨hlevel ▸ allowed, rfl⟩
      · intro hnone
        exact absurd rfl (hnone c t)
    | healthSet c t holds =>
      obtain ⟨hallowed, hstate⟩ := h.ahead holds
      refine ⟨fromState t.target, oneByOne_single (respond_allowed hallowed), h.guarded.step hstep, rfl, ?_, ?_⟩
      · intro c' t' hwriter
        simp [State.setPhase] at hwriter
      · intro _
        exact hstate
    | stateRead c waiting free =>
      have hlevel : σ.state = lifecycle.state := h.level (by simp [free])
      refine ⟨lifecycle, oneByOne_single ?_, h.same hstep rfl rfl fun _ _ => Iff.rfl⟩
      rw [hlevel]
      rfl
    | healthRead c waiting =>
      refine ⟨lifecycle, oneByOne_single ?_, h.same hstep rfl rfl fun _ _ => Iff.rfl⟩
      rw [h.health]
      rfl
    | returned c op reply effected =>
      refine ⟨lifecycle, Lts.Run.nil _ _, h.same hstep rfl rfl ?_⟩
      intro c' t
      -- the call that returns has nothing left to write
      have hne : σ.writer = some (c', .written t) → c' ≠ c := by
        intro hwriter heq
        obtain ⟨_, hlookup, rfl⟩ := h.guarded c' _ hwriter
        rw [heq, effected] at hlookup
        cases hlookup
      constructor
      · intro hwriter
        exact (Option.filter_eq_some_iff.mp hwriter).1
      · intro hwriter
        exact Option.filter_eq_some_iff.mpr ⟨hwriter, by simpa using hne hwriter⟩

/-- The points of the calls. -/
def linearization (state : LifecycleState) : Linearization TaskId (threads state) (oneByOne state) where
  calls := callsSimulation state
  effects := effectsSimulation state
  agree _ := rfl

/-! ## No call is stuck -/

/-- A step of a call that has begun. -/
def isWork : Label → Bool
  | .call _ _ => false
  | _ => true

/-- The steps a call brings with it. -/
def cost : Label → Nat
  | .call _ _ => 5
  | _ => 0

/-- What a call can still do, apart from what it does under the guard. -/
def phaseLeft : CallPhase Operation Reply → Nat
  | .called _ => 5
  | .effected _ _ => 4
  | _ => 0

/-- What can still be done under the guard. A call that returns it has left
enough for the next. -/
def guardLeft : Option (TaskId × Held) → Nat
  | none => 3
  | some (_, .locked _) => 2
  | some (_, .written _) => 1
  | some (_, .done) => 0

def stepsLeft (σ : State) : Nat := Table.total phaseLeft σ.calls + guardLeft σ.writer

theorem guardLeft_le (writer : Option (TaskId × Held)) : guardLeft writer ≤ 3 := by
  rcases writer with _ | ⟨c, _ | _ | _⟩ <;> simp [guardLeft]

/-- A call that has begun goes from one phase to another. -/
theorem total_setPhase {f : CallPhase Operation Reply → Nat} {τ : State} {phase : CallPhase Operation Reply}
    (phase' : CallPhase Operation Reply) (h : σ.calls.lookup c = some phase) (hcalls : τ.calls = σ.calls) :
    Table.total f (τ.setPhase c phase').calls + f phase = Table.total f σ.calls + f phase' := by
  rw [← hcalls] at h ⊢
  exact Table.total_update phase' h

theorem stepsLeft_setPhase {τ : State} {phase : CallPhase Operation Reply} (phase' : CallPhase Operation Reply)
    (h : σ.calls.lookup c = some phase) (hcalls : τ.calls = σ.calls) :
    stepsLeft (τ.setPhase c phase') + phaseLeft phase + guardLeft σ.writer =
      stepsLeft σ + phaseLeft phase' + guardLeft τ.writer := by
  have htotal := total_setPhase (f := phaseLeft) phase' h hcalls
  have hwriter : (τ.setPhase c phase').writer = τ.writer := rfl
  rw [stepsLeft, stepsLeft, hwriter]
  omega

theorem budget (state : LifecycleState) : (threads state).Budget Guarded isWork cost stepsLeft where
  pays := by
    intro σ l σ' hguard (hstep : σ.step l = some σ') hwork
    cases step_effect hstep with
    | called c op fresh => simp [isWork] at hwork
    | locked c t waiting free => simp [stepsLeft, guardLeft, cost, free]
    | rejected c t holds refused =>
      obtain ⟨_, hlookup, rfl⟩ := hguard c _ holds
      have hleft := stepsLeft_setPhase (τ := { σ with writer := some (c, .done) })
        (.effected (.transition t) (.transition (.error ⟨σ.state, t.target⟩))) hlookup rfl
      simp only [holds, phaseLeft, guardLeft] at hleft
      simp only [cost]
      omega
    | written c t holds allowed => simp [stepsLeft, guardLeft, cost, holds]
    | healthSet c t holds =>
      obtain ⟨_, hlookup, rfl⟩ := hguard c _ holds
      have hleft := stepsLeft_setPhase (τ := { σ with health := t.target.health, writer := some (c, .done) })
        (.effected (.transition t) (.transition (.ok ()))) hlookup rfl
      simp only [holds, phaseLeft, guardLeft] at hleft
      simp only [cost]
      omega
    | stateRead c waiting free =>
      have hleft := stepsLeft_setPhase (τ := σ) (.effected .state (.state σ.state)) waiting rfl
      simp only [phaseLeft] at hleft
      simp only [cost]
      omega
    | healthRead c waiting =>
      have hleft := stepsLeft_setPhase (τ := σ) (.effected .health (.health σ.health)) waiting rfl
      simp only [phaseLeft] at hleft
      simp only [cost]
      omega
    | returned c op reply effected =>
      have hleft := stepsLeft_setPhase (τ := { σ with writer := σ.writer.filter fun w => w.1 ≠ c })
        (.returned op reply) effected rfl
      -- the guard it returns is worth less than the call
      have hguardLeft := guardLeft_le (σ.writer.filter fun w => w.1 ≠ c)
      simp only [phaseLeft] at hleft
      simp only [cost]
      omega
  keeps := by
    intro σ l σ' hguard (hstep : σ.step l = some σ') hwork
    cases step_effect hstep with
    | called c op fresh =>
      simp only [stepsLeft, State.setPhase, Table.total_insert_new fresh, phaseLeft, cost]
      omega
    | _ => simp [isWork] at hwork

/-- All calls that have begun have returned. -/
def AllReturned (σ : State) : Prop := ∀ c op reply,
  σ.calls.lookup c ≠ some (.called op) ∧ σ.calls.lookup c ≠ some (.effected op reply)

/-- While a call has not returned, some call can take its next step. -/
theorem next_of_call (hguard : Guarded σ) (hcalls : ¬AllReturned σ) :
    ∃ l, isWork l = true ∧ cost l = 0 ∧ (σ.step l).isSome := by
  cases hwriter : σ.writer with
  | some w =>
    obtain ⟨c, held⟩ := w
    obtain ⟨phase, hlookup, hheld⟩ := hguard c held hwriter
    cases held with
    | locked t =>
      by_cases hallowed : σ.state ∈ t.allowedFrom
      · exact ⟨.write c t, rfl, rfl, by simp [State.step, hwriter, hallowed]⟩
      · exact ⟨.reject c t ⟨σ.state, t.target⟩, rfl, rfl, by simp [State.step, hwriter, hallowed]⟩
    | written t => exact ⟨.setHealth c t, rfl, rfl, by simp [State.step, hwriter]⟩
    | done =>
      obtain ⟨op, reply, rfl⟩ := hheld
      exact ⟨.ret c op reply, rfl, rfl, by simp [State.step, hlookup]⟩
  | none =>
    simp only [AllReturned, not_forall, not_and_or, not_not] at hcalls
    obtain ⟨c, op, reply, hcalled | heffected⟩ := hcalls
    · cases op with
      | transition t => exact ⟨.lock c t, rfl, rfl, by simp [State.step, hcalled, hwriter]⟩
      | state => exact ⟨.readState c σ.state, rfl, rfl, by simp [State.step, hcalled, hwriter]⟩
      | health => exact ⟨.readHealth c σ.health, rfl, rfl, by simp [State.step, hcalled]⟩
    · exact ⟨.ret c op reply, rfl, rfl, by simp [State.step, heffected]⟩

/-! ## The calls as one after the other -/

variable {state : LifecycleState} {tr : List Label}

/-- **Linearizability.** However the calls of a lifecycle overlap, with each
other and within the two writes of a transition, they could have been made one
after the other, in an order that respects which calls were over before others
began, and would have been told the same. While nobody holds the guard the
health is that of the state; and the calls that have begun can all return. -/
theorem calls_linearizable (h : (threads state).Run (State.new state) tr σ) :
    Linearizes (oneByOne state) (Lts.points (tr.filterMap mark)) (Lts.history (tr.filterMap mark)) ∧
    (σ.writer = none → σ.health = σ.state.health) ∧
    ∃ tr' σ', (threads state).Run σ tr' σ' ∧ (∀ l ∈ tr', isWork l = true) ∧ AllReturned σ' := by
  have hguard : Guarded σ := h.invariant (fun _ _ _ hg hstep => hg.step hstep) (Guarded.new state)
  refine ⟨(linearization state).linearizes h, ?_, ?_⟩
  · intro hfree
    obtain ⟨lifecycle, _, hbehind⟩ := (effectsSimulation state).run h
    rw [hbehind.level (by simp [hfree]), hbehind.health, lifecycle.agrees]
  · refine (budget state).finish AllReturned (fun hg hstep _ => hg.step hstep) ?_ hguard
    intro σ hg hbusy
    obtain ⟨l, hwork, hfree, hstep⟩ := next_of_call hg hbusy
    obtain ⟨σ', hstep⟩ := Option.isSome_iff_exists.mp hstep
    exact ⟨l, σ', hwork, hfree, hstep⟩

/-- A reader of the health comes between the two writes of a transition. -/
def between : List Label :=
  [.call 1 (.transition .start), .call 2 .health, .lock 1 .start, .write 1 .start, .readHealth 2 .stopped,
    .setHealth 1 .start, .ret 1 (.transition .start) (.transition (.ok ())), .ret 2 .health (.health .stopped)]

theorem calls_linearizable_between :
    Linearizes (oneByOne .stopped)
      [(2, .health, .health .stopped), (1, .transition .start, .transition (.ok ()))]
      (Lts.history (between.filterMap mark)) :=
  (calls_linearizable ((threads .stopped).run_after between (by decide))).1

/-! ## Who wins -/

/-- The step makes the transition. -/
def makes (t : Transition) : Label → Bool
  | .setHealth _ t' => t' = t
  | _ => false

/-- What a call has done by now is what its phase says. -/
theorem member_marks (h : (threads state).Run (State.new state) tr σ) (c : TaskId) :
    Lts.member c (tr.filterMap mark) = (σ.phase c).marks := by
  obtain ⟨phases, hcalls, _, hphase⟩ := (callsSimulation state).run h
  rw [← hphase]
  exact Lts.oneCall_run (Lts.family_run hcalls c)

/-- What a call is told is what it found at its point. -/
theorem point_of_ret {op : Operation} {reply : Reply} (h : (threads state).Run (State.new state) tr σ)
    (hret : .ret c op reply ∈ tr) : .point op reply ∈ Lts.member c (tr.filterMap mark) := by
  obtain ⟨pre, post, rfl⟩ := List.append_of_mem hret
  obtain ⟨σ₁, σ₂, hpre, (hstep : σ₁.step (.ret c op reply) = some σ₂), _⟩ := Lts.run_split.mp h
  have hphase : σ₁.phase c = .effected op reply := by
    cases step_effect hstep with
    | returned _ _ _ effected => exact phase_of_lookup effected
  have hmarks := member_marks hpre c
  rw [hphase] at hmarks
  rw [List.filterMap_append, Lts.member, List.filterMap_append]
  apply List.mem_append_left
  show _ ∈ Lts.member c (pre.filterMap mark)
  simp [hmarks, Lts.CallPhase.marks]

/-- The transitions made between two states go round: each start ends in a stop
unless it still runs, with one shutdown in between and one readiness at most. -/
structure Balanced (first last : LifecycleState) (made : Transition → Nat) : Prop where
  starts : made .start + (decide (first ≠ .stopped)).toNat = made .stop + (decide (last ≠ .stopped)).toNat
  shutdowns : made .beginShutdown + (decide (first = .draining)).toNat =
    made .stop + (decide (last = .draining)).toNat
  readies : made .ready + (decide (last = .starting)).toNat ≤ made .start + (decide (first = .starting)).toNat

theorem Balanced.refl (state : LifecycleState) : Balanced state state fun _ => 0 :=
  ⟨rfl, rfl, Nat.le_refl _⟩

theorem Balanced.move {first last : LifecycleState} {made : Transition → Nat} {t : Transition}
    (h : Balanced first last made) (hallowed : last ∈ t.allowedFrom) :
    Balanced first t.target fun t' => made t' + (decide (t = t')).toNat := by
  obtain ⟨hstarts, hshutdowns, hreadies⟩ := h
  cases t with
  | start =>
    obtain rfl : last = .stopped := by simpa [Transition.allowedFrom] using hallowed
    constructor <;> simp [Transition.target] at * <;> omega
  | ready =>
    obtain rfl : last = .starting := by simpa [Transition.allowedFrom] using hallowed
    constructor <;> simp [Transition.target] at * <;> omega
  | beginShutdown =>
    obtain rfl | rfl : last = .starting ∨ last = .ready := by simpa [Transition.allowedFrom] using hallowed
    all_goals constructor <;> simp [Transition.target] at * <;> omega
  | stop =>
    obtain rfl : last = .draining := by simpa [Transition.allowedFrom] using hallowed
    constructor <;> simp [Transition.target] at * <;> omega

/-- The transition was asked for and made. -/
def success (t : Transition) : Operation × Reply := (.transition t, .transition (.ok ()))

/-- An answer that makes no transition changes nothing of it. -/
theorem Balanced.keep {first last : LifecycleState} {ops : List (Operation × Reply)} {l : Operation × Reply}
    (h : Balanced first last fun t => ops.count (success t)) (hnone : ∀ t, l ≠ success t) :
    Balanced first last fun t => (ops ++ [l]).count (success t) := by
  have hsame : ∀ t, (ops ++ [l]).count (success t) = ops.count (success t) := by
    intro t
    rw [List.count_append, List.count_singleton, if_neg (by simpa using hnone t), Nat.add_zero]
  simpa only [hsame] using h

end OrbitRelay.ServerLifecycle
