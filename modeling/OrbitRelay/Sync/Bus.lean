import OrbitRelay.Lib.Lts
import OrbitRelay.Lib.Table
import OrbitRelay.Sync.Subscription

/-
  The in-memory event bus (orbitrelay-sync: memory.rs, `MemoryEventBus`).

  The subscriber map is behind a reader-writer lock. A publish holds it for
  reading while it goes over the map, in any order, and then, where it met
  closed channels, takes it for writing to remove their entries. Within the
  scan every send to one subscriber is a step of its own, and so is the
  addition to the lag counter after a send that found the queue full: other
  publishes, and the owners of the subscriptions, come in between.

  A map entry holds the sending half of a channel and the shared counter; both
  are reached through `sender`, the subscription they were made with. The
  subscription of a dropped owner stays in `subscriptions`, out of everyone's
  reach, so that an id is never used twice.

  Correspondence (Rust ↔ Lean):
    `publish`                       ↔ `publish`, then `skip`, `send` and
                                      `countMissed` for each entry, `endScan`,
                                      and `cleanUp` where it is needed
    `subscribe`                     ↔ `subscribe`, `subscribeFailed`
    `next_event`, `close`, `Drop`   ↔ `owner`
    the last handle of the bus goes ↔ `dropBus`
-/

namespace OrbitRelay

/-- A task of the async runtime, by which a call in progress is known. -/
abbrev TaskId := Nat

/-- What the map holds of a subscriber. -/
structure SubscriberEntry where
  filter : EventFilter
  sender : SubscriptionId
  deriving DecidableEq

namespace MemoryEventBus

/-- What a publish does next. -/
inductive Stage where
  | scanning
  /-- add one to the counter of a subscriber whose queue was full -/
  | lagging (subscriber : SubscriptionId)
  /-- remove the closed entries -/
  | cleaning
  deriving DecidableEq

/-- A publish in progress. -/
structure Publish where
  event : Event
  remaining : List SubscriptionId
  closed : List SubscriptionId
  stage : Stage
  deriving DecidableEq

/-- The publish after its send to the entry `s`. -/
def Publish.afterSend (pub : Publish) (s sender : SubscriptionId) : TrySend → Publish
  | .sent => { pub with remaining := pub.remaining.erase s }
  | .full => { pub with remaining := pub.remaining.erase s, stage := .lagging sender }
  | .closed => { pub with remaining := pub.remaining.erase s, closed := pub.closed ++ [s] }

/-- The bus with its subscriptions and the publishes in progress. -/
structure State where
  alive : Bool
  queueCapacity : Nat
  subscribers : Table SubscriptionId SubscriberEntry
  subscriptions : Table SubscriptionId MemorySubscription
  publishes : Table TaskId Publish

/-- One step of a publish, of a subscribe, or of the owner of a subscription. -/
inductive Label where
  | subscribe (s : SubscriptionId) (filter : EventFilter)
  | subscribeFailed (filter : EventFilter) (error : SyncError)
  | publish (p : TaskId) (event : Event)
  | skip (p : TaskId) (s : SubscriptionId)
  | send (p : TaskId) (s : SubscriptionId) (event : Event) (result : TrySend)
  | countMissed (p : TaskId) (s : SubscriptionId)
  | endScan (p : TaskId)
  | cleanUp (p : TaskId)
  | owner (s : SubscriptionId) (op : Op)
  | dropBus
  deriving DecidableEq

namespace State

/-- A bus without subscribers. -/
def new (queueCapacity : Nat) : State := ⟨true, queueCapacity, ∅, ∅, ∅⟩

/-- Creates a bus with a custom capacity for every subscription queue. -/
def withQueueCapacity (queueCapacity : Nat) : Except SyncError State :=
  if queueCapacity = 0 then .error .invalidQueueCapacity else .ok (new queueCapacity)

/-- A publish holds the read lock until the end of its scan. -/
def readLocked (b : State) : Bool := b.publishes.entries.any fun x => x.2.stage ≠ .cleaning

/-- Whether the map still holds the sending half of a channel. -/
def hasSender (b : State) (s : SubscriptionId) : Bool := b.subscribers.entries.any fun x => x.2.sender = s

def subscribe (b : State) (s : SubscriptionId) (filter : EventFilter) : Option State :=
  if b.alive ∧ filter.validate = .ok () ∧ b.subscriptions.lookup s = none ∧ b.readLocked = false then
    (Channel.new b.queueCapacity).map fun channel =>
      { b with
        subscribers := b.subscribers.insert s ⟨filter, s⟩
        subscriptions := b.subscriptions.insert s (MemorySubscription.new filter channel) }
  else none

def subscribeFailed (b : State) (filter : EventFilter) (error : SyncError) : Option State :=
  if b.alive ∧ filter.validate = .error error then some b else none

def publish (b : State) (p : TaskId) (event : Event) : Option State :=
  if b.alive ∧ b.publishes.lookup p = none then
    -- the scan holds the read lock, so these are its entries to the end
    some { b with publishes := b.publishes.insert p ⟨event, b.subscribers.keys, [], .scanning⟩ }
  else none

def skip (b : State) (p : TaskId) (s : SubscriptionId) : Option State := do
  let pub ← b.publishes.lookup p
  let entry ← b.subscribers.lookup s
  if pub.stage = .scanning ∧ s ∈ pub.remaining ∧ entry.filter.matches pub.event = false then
    some { b with publishes := b.publishes.insert p { pub with remaining := pub.remaining.erase s } }
  else none

def send (b : State) (p : TaskId) (s : SubscriptionId) (event : Event) (result : TrySend) : Option State := do
  let pub ← b.publishes.lookup p
  let entry ← b.subscribers.lookup s
  let m ← b.subscriptions.lookup entry.sender
  if pub.stage = .scanning ∧ s ∈ pub.remaining ∧ entry.filter.matches pub.event = true ∧
      pub.event = event ∧ (m.channel.trySend event).1 = result then
    some { b with
      subscriptions :=
        b.subscriptions.insert entry.sender { m with channel := (m.channel.trySend event).2 }
      publishes := b.publishes.insert p (pub.afterSend s entry.sender result) }
  else none

def countMissed (b : State) (p : TaskId) (s : SubscriptionId) : Option State := do
  let pub ← b.publishes.lookup p
  let m ← b.subscriptions.lookup s
  if pub.stage = .lagging s then
    some { b with
      subscriptions := b.subscriptions.insert s m.countMissed
      publishes := b.publishes.insert p { pub with stage := .scanning } }
  else none

def endScan (b : State) (p : TaskId) : Option State := do
  let pub ← b.publishes.lookup p
  if pub.stage = .scanning ∧ pub.remaining = [] then
    some { b with
      publishes :=
        if pub.closed = [] then b.publishes.erase p
        else b.publishes.insert p { pub with stage := .cleaning } }
  else none

def cleanUp (b : State) (p : TaskId) : Option State := do
  let pub ← b.publishes.lookup p
  if pub.stage = .cleaning ∧ b.readLocked = false then
    -- the write lock comes after the read lock is let go, so others may scan in between
    some { b with
      subscribers := pub.closed.foldl (fun subscribers s => subscribers.erase s) b.subscribers
      publishes := b.publishes.erase p }
  else none

/-- Whether the bus lets an owner's step happen now: the stream ends when no
sender is left, and a detach waits for the write lock. -/
def permits (b : State) (s : SubscriptionId) : Op → Bool
  | .received none => !b.hasSender s
  | .detach => !b.readLocked
  | _ => true

def owner (b : State) (s : SubscriptionId) (op : Op) : Option State := do
  let m ← b.subscriptions.lookup s
  let m' ← m.step op
  if b.permits s op then
    -- `close` and `drop` end with the detach, which removes the entry by its id
    some { b with
      subscriptions := b.subscriptions.insert s m'
      subscribers := if op = .detach then b.subscribers.erase s else b.subscribers }
  else none

/-- The last handle goes, and the map with its senders. -/
def dropBus (b : State) : Option State :=
  if b.alive ∧ b.publishes.keys = [] then some { b with alive := false, subscribers := ∅ } else none

def step (b : State) : Label → Option State
  | .subscribe s filter => b.subscribe s filter
  | .subscribeFailed filter error => b.subscribeFailed filter error
  | .publish p event => b.publish p event
  | .skip p s => b.skip p s
  | .send p s event result => b.send p s event result
  | .countMissed p s => b.countMissed p s
  | .endScan p => b.endScan p
  | .cleanUp p => b.cleanUp p
  | .owner s op => b.owner s op
  | .dropBus => b.dropBus

end State

/-- A bus with its publishers and subscribers. -/
def memoryEventBus (queueCapacity : Nat) : Lts State Label := ⟨State.new queueCapacity, State.step⟩

theorem run_split {queueCapacity : Nat} {b b' : State} {pre post : List Label} {l : Label} :
    (memoryEventBus queueCapacity).Run b (pre ++ l :: post) b' ↔
      ∃ b₀ b₁, (memoryEventBus queueCapacity).Run b pre b₀ ∧ b₀.step l = some b₁ ∧
        (memoryEventBus queueCapacity).Run b₁ post b' :=
  Lts.run_split

/-! ## What a step does -/

/-- The ways a step can go, each with what it finds and what it leaves. -/
inductive Effect (b : State) : Label → State → Prop where
  | subscribe (s : SubscriptionId) (filter : EventFilter) (channel : Channel) (alive : b.alive = true)
      (valid : filter.validate = .ok ()) (fresh : b.subscriptions.lookup s = none)
      (unlocked : b.readLocked = false) (made : Channel.new b.queueCapacity = some channel) :
      Effect b (.subscribe s filter) { b with
        subscribers := b.subscribers.insert s ⟨filter, s⟩
        subscriptions := b.subscriptions.insert s (MemorySubscription.new filter channel) }
  | subscribeFailed (filter : EventFilter) (error : SyncError) (alive : b.alive = true)
      (invalid : filter.validate = .error error) : Effect b (.subscribeFailed filter error) b
  | publish (p : TaskId) (event : Event) (alive : b.alive = true) (idle : b.publishes.lookup p = none) :
      Effect b (.publish p event) { b with
        publishes := b.publishes.insert p ⟨event, b.subscribers.keys, [], .scanning⟩ }
  | skip (p : TaskId) (s : SubscriptionId) (pub : Publish) (entry : SubscriberEntry)
      (running : b.publishes.lookup p = some pub) (found : b.subscribers.lookup s = some entry)
      (scanning : pub.stage = .scanning) (left : s ∈ pub.remaining)
      (unmatched : entry.filter.matches pub.event = false) :
      Effect b (.skip p s) { b with
        publishes := b.publishes.insert p { pub with remaining := pub.remaining.erase s } }
  | send (p : TaskId) (s : SubscriptionId) (result : TrySend) (pub : Publish) (entry : SubscriberEntry)
      (m : MemorySubscription) (channel : Channel) (running : b.publishes.lookup p = some pub)
      (found : b.subscribers.lookup s = some entry) (receiver : b.subscriptions.lookup entry.sender = some m)
      (scanning : pub.stage = .scanning) (left : s ∈ pub.remaining)
      (matched : entry.filter.matches pub.event = true)
      (tried : m.channel.trySend pub.event = (result, channel)) :
      Effect b (.send p s pub.event result) { b with
        subscriptions := b.subscriptions.insert entry.sender { m with channel := channel }
        publishes := b.publishes.insert p (pub.afterSend s entry.sender result) }
  | countMissed (p : TaskId) (s : SubscriptionId) (pub : Publish) (m : MemorySubscription)
      (running : b.publishes.lookup p = some pub) (receiver : b.subscriptions.lookup s = some m)
      (lagging : pub.stage = .lagging s) :
      Effect b (.countMissed p s) { b with
        subscriptions := b.subscriptions.insert s m.countMissed
        publishes := b.publishes.insert p { pub with stage := .scanning } }
  | published (p : TaskId) (pub : Publish) (running : b.publishes.lookup p = some pub)
      (scanning : pub.stage = .scanning) (ended : pub.remaining = []) (clean : pub.closed = []) :
      Effect b (.endScan p) { b with publishes := b.publishes.erase p }
  | scanned (p : TaskId) (pub : Publish) (running : b.publishes.lookup p = some pub)
      (scanning : pub.stage = .scanning) (ended : pub.remaining = []) (unclean : pub.closed ≠ []) :
      Effect b (.endScan p) { b with publishes := b.publishes.insert p { pub with stage := .cleaning } }
  | cleanUp (p : TaskId) (pub : Publish) (running : b.publishes.lookup p = some pub)
      (cleaning : pub.stage = .cleaning) (unlocked : b.readLocked = false) :
      Effect b (.cleanUp p) { b with
        subscribers := pub.closed.foldl (fun subscribers s => subscribers.erase s) b.subscribers
        publishes := b.publishes.erase p }
  | owner (s : SubscriptionId) (op : Op) (m m' : MemorySubscription)
      (owned : b.subscriptions.lookup s = some m) (stepped : m.step op = some m')
      (permitted : b.permits s op = true) (attached : op ≠ .detach) :
      Effect b (.owner s op) { b with subscriptions := b.subscriptions.insert s m' }
  | detach (s : SubscriptionId) (m m' : MemorySubscription)
      (owned : b.subscriptions.lookup s = some m) (stepped : m.step .detach = some m')
      (unlocked : b.readLocked = false) :
      Effect b (.owner s .detach) { b with
        subscriptions := b.subscriptions.insert s m'
        subscribers := b.subscribers.erase s }
  | dropBus (alive : b.alive = true) (quiet : b.publishes.keys = []) :
      Effect b .dropBus { b with alive := false, subscribers := ∅ }

theorem step_effect {b b' : State} {l : Label} (h : b.step l = some b') : Effect b l b' := by
  cases l with
  | subscribe s filter =>
    simp only [State.step, State.subscribe, Option.ite_none_right_eq_some, Option.map_eq_some_iff] at h
    obtain ⟨⟨alive, valid, fresh, unlocked⟩, channel, made, rfl⟩ := h
    exact .subscribe s filter channel alive valid fresh unlocked made
  | subscribeFailed filter error =>
    simp only [State.step, State.subscribeFailed, Option.ite_none_right_eq_some, Option.some.injEq] at h
    obtain ⟨⟨alive, invalid⟩, rfl⟩ := h
    exact .subscribeFailed filter error alive invalid
  | publish p event =>
    simp only [State.step, State.publish, Option.ite_none_right_eq_some, Option.some.injEq] at h
    obtain ⟨⟨alive, idle⟩, rfl⟩ := h
    exact .publish p event alive idle
  | skip p s =>
    simp only [State.step, State.skip, Option.bind_eq_bind, Option.bind_eq_some_iff,
      Option.ite_none_right_eq_some, Option.some.injEq] at h
    obtain ⟨pub, running, entry, found, ⟨scanning, left, unmatched⟩, rfl⟩ := h
    exact .skip p s pub entry running found scanning left unmatched
  | send p s event result =>
    simp only [State.step, State.send, Option.bind_eq_bind, Option.bind_eq_some_iff,
      Option.ite_none_right_eq_some, Option.some.injEq] at h
    obtain ⟨pub, running, entry, found, m, receiver, ⟨scanning, left, matched, rfl, tried⟩, rfl⟩ := h
    exact .send p s result pub entry m _ running found receiver scanning left matched (Prod.ext tried rfl)
  | countMissed p s =>
    simp only [State.step, State.countMissed, Option.bind_eq_bind, Option.bind_eq_some_iff,
      Option.ite_none_right_eq_some, Option.some.injEq] at h
    obtain ⟨pub, running, m, receiver, lagging, rfl⟩ := h
    exact .countMissed p s pub m running receiver lagging
  | endScan p =>
    simp only [State.step, State.endScan, Option.bind_eq_bind, Option.bind_eq_some_iff,
      Option.ite_none_right_eq_some, Option.some.injEq] at h
    obtain ⟨pub, running, ⟨scanning, ended⟩, rfl⟩ := h
    split
    · next clean => exact .published p pub running scanning ended clean
    · next unclean => exact .scanned p pub running scanning ended unclean
  | cleanUp p =>
    simp only [State.step, State.cleanUp, Option.bind_eq_bind, Option.bind_eq_some_iff,
      Option.ite_none_right_eq_some, Option.some.injEq] at h
    obtain ⟨pub, running, ⟨cleaning, unlocked⟩, rfl⟩ := h
    exact .cleanUp p pub running cleaning unlocked
  | owner s op =>
    simp only [State.step, State.owner, Option.bind_eq_bind, Option.bind_eq_some_iff,
      Option.ite_none_right_eq_some, Option.some.injEq] at h
    obtain ⟨m, owned, m', stepped, permitted, rfl⟩ := h
    split
    · next detach =>
      subst detach
      exact .detach s m m' owned stepped (by simpa [State.permits] using permitted)
    · next attached => exact .owner s op m m' owned stepped permitted attached
  | dropBus =>
    simp only [State.step, State.dropBus, Option.ite_none_right_eq_some, Option.some.injEq] at h
    obtain ⟨⟨alive, quiet⟩, rfl⟩ := h
    exact .dropBus alive quiet

theorem State.step_queueCapacity {b b' : State} {l : Label} (h : b.step l = some b') :
    b'.queueCapacity = b.queueCapacity := by
  cases step_effect h <;> rfl

/-- Only its end takes the bus from its users. -/
theorem State.step_alive {b b' : State} {l : Label} (h : b.step l = some b') (hl : l ≠ .dropBus) :
    b'.alive = b.alive := by
  cases step_effect h with
  | dropBus => exact absurd rfl hl
  | _ => rfl

/-- A publish in progress was there before, with the event it has now, unless
it begins with this step. -/
theorem State.step_publishes {b b' : State} {l : Label} (h : b.step l = some b') {p : TaskId} {pub' : Publish}
    (hp : b'.publishes.lookup p = some pub') :
    (∃ pub, b.publishes.lookup p = some pub ∧ pub.event = pub'.event) ∨ l = .publish p pub'.event := by
  have hinsert : ∀ {q pub₀ pub₁}, b.publishes.lookup q = some pub₀ →
      (b.publishes.insert q pub₁).lookup p = some pub' → pub₁.event = pub₀.event →
      ∃ pub, b.publishes.lookup p = some pub ∧ pub.event = pub'.event := by
    intro q pub₀ pub₁ hq hlookup hevent
    rcases Table.lookup_insert_eq_some.mp hlookup with ⟨rfl, rfl⟩ | ⟨_, hold⟩
    · exact ⟨pub₀, hq, hevent.symm⟩
    · exact ⟨pub', hold, rfl⟩
  cases step_effect h with
  | publish q event alive idle =>
    rcases Table.lookup_insert_eq_some.mp hp with ⟨rfl, rfl⟩ | ⟨_, hold⟩
    · exact .inr rfl
    · exact .inl ⟨pub', hold, rfl⟩
  | skip q s pub entry running => exact .inl (hinsert running hp rfl)
  | send q s result pub entry m channel running =>
    exact .inl (hinsert running hp (by cases result <;> rfl))
  | countMissed q s pub m running => exact .inl (hinsert running hp rfl)
  | published q pub running => exact .inl ⟨pub', (Table.lookup_erase_eq_some.mp hp).2, rfl⟩
  | scanned q pub running => exact .inl (hinsert running hp rfl)
  | cleanUp q pub running => exact .inl ⟨pub', (Table.lookup_erase_eq_some.mp hp).2, rfl⟩
  | _ => exact .inl ⟨pub', hp, rfl⟩

theorem State.run_queueCapacity {queueCapacity : Nat} {b b' : State} {tr : List Label}
    (h : (memoryEventBus queueCapacity).Run b tr b') : b'.queueCapacity = b.queueCapacity :=
  h.invariant (I := fun b' => b'.queueCapacity = b.queueCapacity)
    (fun _ _ _ ht hstep => (step_queueCapacity hstep).trans ht) rfl

end MemoryEventBus

end OrbitRelay
