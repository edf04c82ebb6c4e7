import Mathlib.Algebra.GroupWithZero.Nat
import OrbitRelay.Sync.Filter

/-
  One subscription: its channel, its lag counter and its owner
  (orbitrelay-sync: memory.rs, `MemorySubscription`).

  The channel is tokio's bounded mpsc, taken as an atomic FIFO. `lagged` is the
  counter the publishers share with the owner. An owner's call is split where
  other threads can come in between: `next_event` up to its `recv().await`, the
  receive itself (or the cancellation of the wait), the flag and the receiver
  of `close` and `drop`, and the `detach` that follows them.
-/

namespace OrbitRelay

/-- The largest `u64`. -/
def u64Max : Nat := 2 ^ 64 - 1

/-- The most permits a tokio semaphore holds, `usize::MAX >> 3`. -/
def maxPermits : Nat := (2 ^ 64 - 1) >>> 3

/-- How `try_send` ends. -/
inductive TrySend where
  | sent
  | full
  | closed
  deriving DecidableEq

/-- A bounded channel of events. -/
structure Channel where
  capacity : Nat
  queue : List Event
  closed : Bool
  deriving DecidableEq

namespace Channel

/-- `mpsc::channel`, which panics outside the range of the semaphore. -/
def new (capacity : Nat) : Option Channel :=
  if 0 < capacity ∧ capacity ≤ maxPermits then some ⟨capacity, [], false⟩ else none

def trySend (c : Channel) (event : Event) : TrySend × Channel :=
  if c.closed then (.closed, c)
  else if c.queue.length < c.capacity then (.sent, { c with queue := c.queue ++ [event] })
  else (.full, c)

theorem new_eq_some {capacity : Nat} {c : Channel} (h : new capacity = some c) :
    0 < capacity ∧ capacity ≤ maxPermits ∧ c = ⟨capacity, [], false⟩ := by
  unfold new at h
  split at h
  · next hc => exact ⟨hc.1, hc.2, (Option.some.inj h).symm⟩
  · simp at h

/-- What each outcome of a send says about the channel, before and after. -/
theorem trySend_eq {c d : Channel} {event : Event} {r : TrySend} (h : c.trySend event = (r, d)) :
    match r with
    | .sent => c.closed = false ∧ c.queue.length < c.capacity ∧ d = { c with queue := c.queue ++ [event] }
    | .full => c.closed = false ∧ c.capacity ≤ c.queue.length ∧ d = c
    | .closed => c.closed = true ∧ d = c := by
  unfold trySend at h
  split at h
  · next hc =>
    obtain ⟨rfl, rfl⟩ := Prod.mk.inj h
    exact ⟨hc, rfl⟩
  · next hc =>
    have hopen : c.closed = false := by simpa using hc
    split at h
    · next hroom =>
      obtain ⟨rfl, rfl⟩ := Prod.mk.inj h
      exact ⟨hopen, hroom, rfl⟩
    · next hroom =>
      obtain ⟨rfl, rfl⟩ := Prod.mk.inj h
      exact ⟨hopen, Nat.le_of_not_lt hroom, rfl⟩

/-- A send does not close the channel, nor open it. -/
theorem trySend_closed {c d : Channel} {event : Event} {r : TrySend} (h : c.trySend event = (r, d)) :
    d.closed = c.closed := by
  have heq := trySend_eq h
  cases r with
  | sent => rw [heq.2.2]
  | full => rw [heq.2.2]
  | closed => rw [heq.2]

end Channel

/-- What the owner of a subscription is in the middle of. -/
inductive Phase where
  | idle
  /-- in the `recv().await` of `next_event` -/
  | receiving
  /-- in `close`, before its detach -/
  | closing
  /-- in `drop`, before its detach -/
  | dropping
  | dropped
  deriving DecidableEq

/-- How `next_event` goes up to its receive. -/
inductive Poll where
  | closed
  | lagged (missed : Nat)
  /-- on to the receive, with or without having looked at the counter -/
  | receive (checked : Bool)
  deriving DecidableEq

/-- The error a call ends with, where it ends before the receive. -/
def Poll.error (id : SubscriptionId) : Poll → Option SyncError
  | .closed => some (.subscriptionClosed id)
  | .lagged missed => some (.subscriberLagged id missed)
  | .receive _ => none

/-- A step of the owner of a subscription. -/
inductive Op where
  | nextEvent (poll : Poll)
  /-- the receive ends, with an event or with the end of the stream -/
  | received (result : Option Event)
  /-- the future waiting in the receive is dropped -/
  | cancelled
  | close
  | drop
  | detach
  deriving DecidableEq

/-- A bounded, single-consumer subscription. -/
structure MemorySubscription where
  filter : EventFilter
  channel : Channel
  lagged : Nat
  closed : Bool
  receiveAfterLag : Bool
  phase : Phase
  deriving DecidableEq

namespace MemorySubscription

def new (filter : EventFilter) (channel : Channel) : MemorySubscription :=
  ⟨filter, channel, 0, false, false, .idle⟩

/-- One more missed event, as `fetch_update` saturates it. -/
def countMissed (m : MemorySubscription) : MemorySubscription :=
  { m with lagged := min (m.lagged + 1) u64Max }

def nextEvent (m : MemorySubscription) : Poll × MemorySubscription :=
  if m.closed then (.closed, m)
  else if m.receiveAfterLag then
    (.receive false, { m with receiveAfterLag := false, phase := .receiving })
  else
    let missed := m.lagged
    let m := { m with lagged := 0 }
    if missed > 0 then (.lagged missed, { m with receiveAfterLag := true })
    else (.receive true, { m with receiveAfterLag := false, phase := .receiving })

def close (m : MemorySubscription) : MemorySubscription :=
  if m.closed then m
  else { m with closed := true, channel := { m.channel with closed := true }, phase := .closing }

def drop (m : MemorySubscription) : MemorySubscription :=
  { m with channel := { m.channel with closed := true }, phase := .dropping }

/-- The owner's step, as far as the subscription itself goes. -/
def step (m : MemorySubscription) : Op → Option MemorySubscription
  | .nextEvent poll => if m.phase = .idle ∧ m.nextEvent.1 = poll then some m.nextEvent.2 else none
  | .received (some event) =>
    if m.phase = .receiving ∧ m.channel.queue.head? = some event then
      some { m with channel := { m.channel with queue := m.channel.queue.tail }, phase := .idle }
    else none
  | .received none =>
    if m.phase = .receiving ∧ m.channel.queue = [] then some { m with phase := .idle } else none
  | .cancelled => if m.phase = .receiving then some { m with phase := .idle } else none
  | .close => if m.phase = .idle then some m.close else none
  | .drop => if m.phase = .idle then some m.drop else none
  | .detach =>
    match m.phase with
    | .closing => some { m with phase := .idle }
    | .dropping => some { m with phase := .dropped }
    | _ => none

/-- The subscription has been neither closed nor dropped. -/
def IsOpen (m : MemorySubscription) : Prop := m.channel.closed = false

instance (m : MemorySubscription) : Decidable m.IsOpen := inferInstanceAs (Decidable (_ = _))

/-- The close or the drop of the subscription has not finished its detach. -/
def Detaching (m : MemorySubscription) : Prop := m.phase = .closing ∨ m.phase = .dropping

/-- What holds of a subscription whatever its owner and the publishers do. -/
structure WellFormed (capacity : Nat) (m : MemorySubscription) : Prop where
  positive : 0 < capacity
  capacity_eq : m.channel.capacity = capacity
  room : m.channel.queue.length ≤ capacity
  counter : m.lagged ≤ u64Max
  closed_channel : m.closed = true → m.channel.closed = true
  receiving_open : m.phase = .receiving → m.channel.closed = false
  receiving_checked : m.phase = .receiving → m.receiveAfterLag = false
  closing_closed : m.phase = .closing → m.closed = true
  channel_closed : m.channel.closed = true ↔ m.closed = true ∨ m.phase = .dropping ∨ m.phase = .dropped

variable {capacity : Nat} {m m' : MemorySubscription}

theorem WellFormed.new {filter : EventFilter} {channel : Channel} (h : Channel.new capacity = some channel) :
    (new filter channel).WellFormed capacity := by
  obtain ⟨hpos, _, rfl⟩ := Channel.new_eq_some h
  constructor <;> simp [MemorySubscription.new, hpos]

/-! ## What an owner's step does -/

/-- The ways an owner's step can go, each with what it finds and what it leaves. -/
inductive Effect (m : MemorySubscription) : Op → MemorySubscription → Prop where
  | refused (idle : m.phase = .idle) (closed : m.closed = true) : Effect m (.nextEvent .closed) m
  | lagging (idle : m.phase = .idle) (closed : m.closed = false) (check : m.receiveAfterLag = false)
      (missed : 0 < m.lagged) :
      Effect m (.nextEvent (.lagged m.lagged)) { m with lagged := 0, receiveAfterLag := true }
  | checked (idle : m.phase = .idle) (closed : m.closed = false) (check : m.receiveAfterLag = false)
      (missed : m.lagged = 0) :
      Effect m (.nextEvent (.receive true)) { m with phase := .receiving }
  | unchecked (idle : m.phase = .idle) (closed : m.closed = false) (check : m.receiveAfterLag = true) :
      Effect m (.nextEvent (.receive false)) { m with receiveAfterLag := false, phase := .receiving }
  | received (event : Event) (queue : List Event) (receiving : m.phase = .receiving)
      (head : m.channel.queue = event :: queue) :
      Effect m (.received (some event))
        { m with channel := { m.channel with queue := queue }, phase := .idle }
  | ended (receiving : m.phase = .receiving) (empty : m.channel.queue = []) :
      Effect m (.received none) { m with phase := .idle }
  | cancelled (receiving : m.phase = .receiving) : Effect m .cancelled { m with phase := .idle }
  | closed (idle : m.phase = .idle) (closed : m.closed = false) :
      Effect m .close { m with closed := true, channel := { m.channel with closed := true }, phase := .closing }
  | closedAgain (idle : m.phase = .idle) (closed : m.closed = true) : Effect m .close m
  | drop (idle : m.phase = .idle) :
      Effect m .drop { m with channel := { m.channel with closed := true }, phase := .dropping }
  | closeDone (closing : m.phase = .closing) : Effect m .detach { m with phase := .idle }
  | dropDone (dropping : m.phase = .dropping) : Effect m .detach { m with phase := .dropped }

theorem nextEvent_effect {poll : Poll} (idle : m.phase = .idle) (h : m.nextEvent = (poll, m')) :
    m.Effect (.nextEvent poll) m' := by
  unfold nextEvent at h
  split at h
  · next hclosed =>
    obtain ⟨rfl, rfl⟩ := Prod.mk.inj h
    exact .refused idle hclosed
  · next hopen =>
    have hopen : m.closed = false := by simpa using hopen
    split at h
    · next hcheck =>
      obtain ⟨rfl, rfl⟩ := Prod.mk.inj h
      exact .unchecked idle hopen hcheck
    · next hcheck =>
      have hcheck : m.receiveAfterLag = false := by simpa using hcheck
      simp only at h
      split at h
      · next hmissed =>
        obtain ⟨rfl, rfl⟩ := Prod.mk.inj h
        exact .lagging idle hopen hcheck hmissed
      · next hmissed =>
        obtain ⟨rfl, rfl⟩ := Prod.mk.inj h
        have hzero : m.lagged = 0 := Nat.eq_zero_of_not_pos hmissed
        have heq : { m with lagged := 0, receiveAfterLag := false, phase := .receiving } =
            { m with phase := .receiving } := by
          rw [← hzero, ← hcheck]
        rw [heq]
        exact .checked idle hopen hcheck hzero

theorem close_effect (idle : m.phase = .idle) : m.Effect .close m.close := by
  unfold close
  split
  · next hclosed => exact .closedAgain idle hclosed
  · next hopen => exact .closed idle (by simpa using hopen)

theorem step_effect {op : Op} (h : m.step op = some m') : m.Effect op m' := by
  cases op with
  | nextEvent poll =>
    simp only [step, Option.ite_none_right_eq_some, Option.some.injEq] at h
    exact nextEvent_effect h.1.1 (Prod.ext h.1.2 h.2)
  | received result =>
    cases result with
    | some event =>
      simp only [step, Option.ite_none_right_eq_some, Option.some.injEq] at h
      obtain ⟨⟨hphase, hhead⟩, rfl⟩ := h
      exact .received event _ hphase (List.eq_cons_of_mem_head? hhead)
    | none =>
      simp only [step, Option.ite_none_right_eq_some, Option.some.injEq] at h
      obtain ⟨⟨hphase, hempty⟩, rfl⟩ := h
      exact .ended hphase hempty
  | cancelled =>
    simp only [step, Option.ite_none_right_eq_some, Option.some.injEq] at h
    obtain ⟨hphase, rfl⟩ := h
    exact .cancelled hphase
  | close =>
    simp only [step, Option.ite_none_right_eq_some, Option.some.injEq] at h
    obtain ⟨hphase, rfl⟩ := h
    exact close_effect hphase
  | drop =>
    simp only [step, Option.ite_none_right_eq_some, Option.some.injEq] at h
    obtain ⟨hphase, rfl⟩ := h
    exact .drop hphase
  | detach =>
    simp only [step] at h
    split at h
    · next hphase =>
      obtain rfl := Option.some.inj h
      exact .closeDone hphase
    · next hphase =>
      obtain rfl := Option.some.inj h
      exact .dropDone hphase
    · simp at h

/-! ## What every step keeps -/

/-- The owner never changes the filter. -/
theorem step_filter {op : Op} (h : m.step op = some m') : m'.filter = m.filter := by
  cases step_effect h <;> rfl

/-- A closed channel stays closed. -/
theorem step_channel_closed {op : Op} (h : m.step op = some m') (hc : m.channel.closed = true) :
    m'.channel.closed = true := by
  cases step_effect h <;> first | exact hc | rfl

/-- Until its detach a subscription is open or about to detach. -/
theorem step_attached {op : Op} (h : m.step op = some m') (hop : op ≠ .detach)
    (hlive : m.IsOpen ∨ m.Detaching) : m'.IsOpen ∨ m'.Detaching := by
  cases step_effect h with
  | closed => exact .inr (.inl rfl)
  | drop => exact .inr (.inr rfl)
  | closeDone => exact absurd rfl hop
  | dropDone => exact absurd rfl hop
  | _ => simp_all [IsOpen, Detaching]

namespace WellFormed

theorem open_of_idle (h : m.WellFormed capacity) (idle : m.phase = .idle) (closed : m.closed = false) :
    m.channel.closed = false := by
  have hchan := h.channel_closed
  rw [idle, closed] at hchan
  simpa using hchan

/-- Into a receive. -/
theorem startReceive (h : m.WellFormed capacity) (idle : m.phase = .idle) (closed : m.closed = false) :
    { m with receiveAfterLag := false, phase := .receiving }.WellFormed capacity :=
  { h with
    receiving_open := fun _ => h.open_of_idle idle closed
    receiving_checked := fun _ => rfl
    closing_closed := by simp
    channel_closed := by simp [h.open_of_idle idle closed, closed] }

/-- Back to idle from a receive, with a queue that is no longer. -/
theorem endReceive (h : m.WellFormed capacity) (receiving : m.phase = .receiving) {queue : List Event}
    (hlen : queue.length ≤ m.channel.queue.length) :
    { m with channel := { m.channel with queue := queue }, phase := .idle }.WellFormed capacity :=
  { h with
    room := Nat.le_trans hlen h.room
    receiving_open := by simp
    receiving_checked := by simp
    closing_closed := by simp
    channel_closed := by
      have hchan := h.channel_closed
      rw [receiving] at hchan
      simpa using hchan }

theorem step {op : Op} (h : m.WellFormed capacity) (hs : m.step op = some m') : m'.WellFormed capacity := by
  cases step_effect hs with
  | refused => exact h
  | lagging idle => exact { h with
      counter := Nat.zero_le _
      receiving_checked := by simp [idle] }
  | checked idle closed check =>
    have hreceive := h.startReceive idle closed
    rwa [← check] at hreceive
  | unchecked idle closed => exact h.startReceive idle closed
  | received event queue receiving head => exact h.endReceive receiving (by rw [head]; simp)
  | ended receiving => exact h.endReceive receiving (Nat.le_refl _)
  | cancelled receiving => exact h.endReceive receiving (Nat.le_refl _)
  | closed => exact { h with
      closed_channel := by simp
      receiving_open := by simp
      receiving_checked := by simp
      closing_closed := by simp
      channel_closed := by simp }
  | closedAgain => exact h
  | drop => exact { h with
      closed_channel := fun _ => rfl
      receiving_open := by simp
      receiving_checked := by simp
      closing_closed := by simp
      channel_closed := by simp }
  | closeDone closing =>
    have hclosed := h.closing_closed closing
    exact { h with
      receiving_open := by simp
      receiving_checked := by simp
      closing_closed := by simp
      channel_closed := by simp [h.closed_channel hclosed, hclosed] }
  | dropDone dropping =>
    have hchan : m.channel.closed = true := h.channel_closed.mpr (.inr (.inl dropping))
    exact { h with
      receiving_open := by simp
      receiving_checked := by simp
      closing_closed := by simp
      channel_closed := by simp [hchan] }

theorem trySend {event : Event} {r : TrySend} {channel : Channel} (h : m.WellFormed capacity)
    (hs : m.channel.trySend event = (r, channel)) :
    { m with channel := channel }.WellFormed capacity := by
  have heq := Channel.trySend_eq hs
  cases r with
  | sent =>
    obtain ⟨_, hroom, rfl⟩ := heq
    refine { h with room := ?_ }
    rw [h.capacity_eq] at hroom
    rw [List.length_append, List.length_singleton]
    exact hroom
  | full =>
    obtain ⟨_, _, rfl⟩ := heq
    exact h
  | closed =>
    obtain ⟨_, rfl⟩ := heq
    exact h

theorem countMissed (h : m.WellFormed capacity) : m.countMissed.WellFormed capacity :=
  { h with counter := Nat.min_le_right _ _ }

end WellFormed

/-- A subscription that detaches is closed. -/
theorem step_detach_closed (h : m.WellFormed capacity) (hs : m.step .detach = some m') : ¬m.IsOpen := by
  have hclosed : m.channel.closed = true := by
    cases step_effect hs with
    | closeDone closing => exact h.closed_channel (h.closing_closed closing)
    | dropDone dropping => exact h.channel_closed.mpr (.inr (.inl dropping))
  simp [IsOpen, hclosed]

end MemorySubscription

end OrbitRelay
