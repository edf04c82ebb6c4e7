import Mathlib.Data.List.Chain
import OrbitRelay.Sync.Lag

/-
  A subscription as its owner reads it.

  A call of `next_event` answers from the subscription's own flags before it
  comes to the channel: that it is closed, or that events were missed. The
  second is never said twice in a row, since the call after a report goes
  straight to the channel, so a subscriber that keeps lagging still gets every
  event that was queued for it. `Reads` keeps the tally of a trace; the flags it
  is tied to are the owner's alone.
-/

namespace OrbitRelay

def Poll.isLag : Poll → Bool
  | .lagged _ => true
  | _ => false

def Poll.isReceive : Poll → Bool
  | .receive _ => true
  | _ => false

namespace MemoryEventBus

/-- How the calls of `next_event` on `s` have gone up to their receive. -/
def polls (s : SubscriptionId) (tr : List Label) : List Poll :=
  tr.filterMap fun
    | .owner s' (.nextEvent poll) => if s' = s then some poll else none
    | _ => none

/-- A receive of `s` ends without an event. -/
def endsEmpty (s : SubscriptionId) : Label → Bool
  | .owner s' (.received none) => s' = s
  | .owner s' .cancelled => s' = s
  | _ => false

/-- A step of the owner of `s`. -/
def isOwner (s : SubscriptionId) : Label → Bool
  | .owner s' _ => s' = s
  | _ => false

variable {queueCapacity : Nat} {b b' : State} {s : SubscriptionId} {m m' : MemorySubscription} {l : Label}
  {tr tr' pre post : List Label} {event : Event} {op : Op}

theorem polls_append (tr tr' : List Label) : polls s (tr ++ tr') = polls s tr ++ polls s tr' :=
  List.filterMap_append

theorem returned_append (tr tr' : List Label) : returned s (tr ++ tr') = returned s tr ++ returned s tr' :=
  List.filterMap_append

/-! ## The owner's flags -/

/-- The owner of `s` makes a step, or its flags stay as they are. -/
theorem owner_or_same (hstep : b.step l = some b') (hm : b.subscriptions.lookup s = some m) :
    (∃ op m', l = .owner s op ∧ m.step op = some m' ∧ b'.subscriptions.lookup s = some m') ∨
    (isOwner s l = false ∧ ∃ m', b'.subscriptions.lookup s = some m' ∧ m'.closed = m.closed ∧
      m'.receiveAfterLag = m.receiveAfterLag ∧ m'.phase = m.phase) := by
  have hsame : ∀ {s₁ m₁ m₁'}, b.subscriptions.lookup s₁ = some m₁ → m₁'.closed = m₁.closed →
      m₁'.receiveAfterLag = m₁.receiveAfterLag → m₁'.phase = m₁.phase →
      ∃ m', (b.subscriptions.insert s₁ m₁').lookup s = some m' ∧ m'.closed = m.closed ∧
        m'.receiveAfterLag = m.receiveAfterLag ∧ m'.phase = m.phase := by
    intro s₁ m₁ m₁' h₁ hclosed hflag hphase
    by_cases hs : s = s₁
    · subst hs
      obtain rfl := Option.some.inj (hm.symm.trans h₁)
      exact ⟨m₁', AList.lookup_insert _, hclosed, hflag, hphase⟩
    · exact ⟨m, (AList.lookup_insert_ne hs).trans hm, rfl, rfl, rfl⟩
  have howner : ∀ {s₁ m₁ m₁' op}, b.subscriptions.lookup s₁ = some m₁ → m₁.step op = some m₁' →
      (∃ op' m', Label.owner s₁ op = .owner s op' ∧ m.step op' = some m' ∧
        (b.subscriptions.insert s₁ m₁').lookup s = some m') ∨
      (isOwner s (.owner s₁ op) = false ∧ ∃ m', (b.subscriptions.insert s₁ m₁').lookup s = some m' ∧
        m'.closed = m.closed ∧ m'.receiveAfterLag = m.receiveAfterLag ∧ m'.phase = m.phase) := by
    intro s₁ m₁ m₁' op h₁ stepped
    by_cases hs : s = s₁
    · subst hs
      obtain rfl := Option.some.inj (hm.symm.trans h₁)
      exact .inl ⟨op, m₁', rfl, stepped, AList.lookup_insert _⟩
    · exact .inr ⟨by simp [isOwner, Ne.symm hs], m, (AList.lookup_insert_ne hs).trans hm, rfl, rfl, rfl⟩
  cases step_effect hstep with
  | subscribe s' filter channel alive valid fresh =>
    have hs : s ≠ s' := by
      intro heq
      subst heq
      simp [fresh] at hm
    exact .inr ⟨rfl, m, (AList.lookup_insert_ne hs).trans hm, rfl, rfl, rfl⟩
  | send p s' result pub entry m₁ channel running found receiver => exact .inr ⟨rfl, hsame receiver rfl rfl rfl⟩
  | countMissed p s' pub m₁ running receiver => exact .inr ⟨rfl, hsame receiver rfl rfl rfl⟩
  | owner s' op m₁ m₁' owned stepped => exact howner owned stepped
  | detach s' m₁ m₁' owned stepped => exact howner owned stepped
  | _ => exact .inr ⟨rfl, m, hm, rfl, rfl, rfl⟩

/-- A subscription that is not there yet has no owner. -/
theorem not_owner_of_unborn (hstep : b.step l = some b') (hnone : b.subscriptions.lookup s = none) :
    isOwner s l = false := by
  have hs : ∀ {s₁ m₁}, b.subscriptions.lookup s₁ = some m₁ → s₁ ≠ s := by
    intro s₁ m₁ h₁ heq
    subst heq
    simp [hnone] at h₁
  cases step_effect hstep with
  | owner s' op m₁ m₁' owned => simp [isOwner, hs owned]
  | detach s' m₁ m₁' owned => simp [isOwner, hs owned]
  | _ => rfl

/-- A subscription comes to be with its flags unset. -/
theorem new_of_unborn (hstep : b.step l = some b') (hnone : b.subscriptions.lookup s = none)
    (hm : b'.subscriptions.lookup s = some m) : m.receiveAfterLag = false ∧ m.phase = .idle := by
  have hother : ∀ {s₁ m₁ m₁'}, b.subscriptions.lookup s₁ = some m₁ →
      (b.subscriptions.insert s₁ m₁').lookup s = some m → False := by
    intro s₁ m₁ m₁' h₁ hlookup
    rcases Table.lookup_insert_eq_some.mp hlookup with ⟨rfl, _⟩ | ⟨_, hold⟩
    · simp [hnone] at h₁
    · simp [hnone] at hold
  cases step_effect hstep with
  | subscribe s' filter =>
    rcases Table.lookup_insert_eq_some.mp hm with ⟨rfl, rfl⟩ | ⟨_, hold⟩
    · exact ⟨rfl, rfl⟩
    · simp [hnone] at hold
  | send p s' result pub entry m₁ channel running found receiver => exact (hother receiver hm).elim
  | countMissed p s' pub m₁ running receiver => exact (hother receiver hm).elim
  | owner s' op m₁ m₁' owned => exact (hother owned hm).elim
  | detach s' m₁ m₁' owned => exact (hother owned hm).elim
  | _ => exact absurd (hm.symm.trans hnone) (by simp)

/-! ## The tally -/

theorem tally_of_not_owner (hl : isOwner s l = false) :
    polls s [l] = [] ∧ returned s [l] = [] ∧ [l].countP (endsEmpty s) = 0 := by
  cases l with
  | owner s' op =>
    have hs : s' ≠ s := by simpa [isOwner] using hl
    cases op with
    | received result => cases result <;> simp [polls, returned, endsEmpty, hs]
    | _ => simp [polls, returned, endsEmpty, hs]
  | _ => exact ⟨rfl, rfl, rfl⟩

/-- The calls on `s` so far, and where they have left its flags. -/
structure Reads (s : SubscriptionId) (tr : List Label) (m : MemorySubscription) : Prop where
  /-- no report follows another -/
  alternate : (polls s tr).IsChain fun a b => a.isLag = true → b.isLag = false
  last : ∀ poll ∈ (polls s tr).getLast?, poll.isLag = true → m.receiveAfterLag = true
  lags : (polls s tr).countP Poll.isLag + (if m.receiveAfterLag then 0 else 1) ≤
    (polls s tr).countP Poll.isReceive + 1
  receives : (polls s tr).countP Poll.isReceive =
    (returned s tr).length + tr.countP (endsEmpty s) + (if m.phase = .receiving then 1 else 0)

namespace Reads

/-- A step that is not the owner's. -/
theorem idle (h : Reads s tr m) (hl : isOwner s l = false) (hflag : m'.receiveAfterLag = m.receiveAfterLag)
    (hphase : m'.phase = m.phase) : Reads s (tr ++ [l]) m' := by
  have hnone := tally_of_not_owner hl
  have hpolls : polls s (tr ++ [l]) = polls s tr := by
    rw [polls_append, hnone.1, List.append_nil]
  constructor
  · rw [hpolls]
    exact h.alternate
  · rw [hpolls, hflag]
    exact h.last
  · rw [hpolls, hflag]
    exact h.lags
  · rw [hpolls, returned_append, hnone.2.1, List.append_nil, List.countP_append, hnone.2.2, hphase]
    exact h.receives

/-- One more call. -/
theorem call {poll : Poll} (h : Reads s tr m) (hidle : m.phase ≠ .receiving)
    (hchain : m.receiveAfterLag = true → poll.isLag = false)
    (hlast : poll.isLag = true → m'.receiveAfterLag = true)
    (hlags : (if poll.isLag then 1 else 0) + (if m'.receiveAfterLag then 0 else 1) ≤
      (if poll.isReceive then 1 else 0) + (if m.receiveAfterLag then 0 else 1))
    (hreceive : poll.isReceive = true ↔ m'.phase = .receiving) :
    Reads s (tr ++ [.owner s (.nextEvent poll)]) m' := by
  have hpolls : polls s (tr ++ [.owner s (.nextEvent poll)]) = polls s tr ++ [poll] := by
    rw [polls_append]
    simp [polls]
  constructor
  · rw [hpolls, List.isChain_append]
    refine ⟨h.alternate, List.isChain_singleton _, ?_⟩
    intro before hbefore next hnext hlag
    obtain rfl : poll = next := by simpa using hnext
    exact hchain (h.last before hbefore hlag)
  · rw [hpolls]
    intro last hl hlag
    obtain rfl : poll = last := by simpa using hl
    exact hlast hlag
  · have hbefore := h.lags
    rw [hpolls, List.countP_append, List.countP_append, List.countP_singleton, List.countP_singleton]
    omega
  · have hbefore := h.receives
    have hnone : returned s [.owner s (.nextEvent poll)] = [] := rfl
    rw [hpolls, List.countP_append, List.countP_singleton, returned_append, hnone, List.append_nil,
      List.countP_append, List.countP_singleton]
    simp only [hidle, if_false] at hbefore
    simp only [endsEmpty, ← hreceive]
    simp [hbefore]

/-- A step of the owner that is no call. -/
theorem step_over (h : Reads s tr m) (hop : ∀ poll, op ≠ .nextEvent poll)
    (hflag : m'.receiveAfterLag = m.receiveAfterLag)
    (hbalance : (returned s [.owner s op]).length + [Label.owner s op].countP (endsEmpty s) +
      (if m'.phase = .receiving then 1 else 0) = if m.phase = .receiving then 1 else 0) :
    Reads s (tr ++ [.owner s op]) m' := by
  have hpolls : polls s (tr ++ [.owner s op]) = polls s tr := by
    have hnone : polls s [.owner s op] = [] := by
      cases op with
      | nextEvent poll => exact absurd rfl (hop poll)
      | _ => rfl
    rw [polls_append, hnone, List.append_nil]
  constructor
  · rw [hpolls]
    exact h.alternate
  · rw [hpolls, hflag]
    exact h.last
  · rw [hpolls, hflag]
    exact h.lags
  · have hbefore := h.receives
    rw [hpolls, returned_append, List.length_append, List.countP_append]
    omega

theorem owner (h : Reads s tr m) (hstep : m.step op = some m') : Reads s (tr ++ [.owner s op]) m' := by
  cases MemorySubscription.step_effect hstep with
  | refused idle closed => apply h.call <;> simp [Poll.isLag, Poll.isReceive, idle]
  | lagging idle closed check missed => apply h.call <;> simp [Poll.isLag, Poll.isReceive, idle, check]
  | checked idle closed check => apply h.call <;> simp [Poll.isLag, Poll.isReceive, idle, check]
  | unchecked idle closed check => apply h.call <;> simp [Poll.isLag, Poll.isReceive, idle, check]
  | received event queue receiving => exact h.step_over (by simp) rfl (by simp [returned, endsEmpty, receiving])
  | ended receiving => exact h.step_over (by simp) rfl (by simp [returned, endsEmpty, receiving])
  | cancelled receiving => exact h.step_over (by simp) rfl (by simp [returned, endsEmpty, receiving])
  | closed idle => exact h.step_over (by simp) rfl (by simp [returned, endsEmpty, idle])
  | closedAgain idle => exact h.step_over (by simp) rfl (by simp [returned, endsEmpty])
  | drop idle => exact h.step_over (by simp) rfl (by simp [returned, endsEmpty, idle])
  | closeDone closing => exact h.step_over (by simp) rfl (by simp [returned, endsEmpty, closing])
  | dropDone dropping => exact h.step_over (by simp) rfl (by simp [returned, endsEmpty, dropping])

/-- Nothing has been called before a subscription is there. -/
theorem of_unborn (hpolls : polls s tr = []) (hreturned : returned s tr = [])
    (hempty : tr.countP (endsEmpty s) = 0) (hflag : m.receiveAfterLag = false) (hphase : m.phase = .idle) :
    Reads s tr m := by
  constructor
  · rw [hpolls]
    exact List.isChain_nil
  · simp [hpolls]
  · simp [hpolls, hflag]
  · simp [hpolls, hreturned, hempty, hphase]

theorem run (h : (memoryEventBus queueCapacity).Run (State.new queueCapacity) tr b)
    (hm : b.subscriptions.lookup s = some m) : Reads s tr m := by
  refine (Lts.Run.induct (P := fun tr b => (b.subscriptions.lookup s = none → polls s tr = [] ∧
    returned s tr = [] ∧ tr.countP (endsEmpty s) = 0) ∧
    ∀ m, b.subscriptions.lookup s = some m → Reads s tr m) ?_ ?_ h).2 m hm
  · exact ⟨fun _ => ⟨rfl, rfl, rfl⟩, by simp [State.new]⟩
  · intro tr t l u _ ih hstep
    cases ht : t.subscriptions.lookup s with
    | none =>
      obtain ⟨hpolls, hreturned, hempty⟩ := ih.1 ht
      obtain ⟨hpolls', hreturned', hempty'⟩ := tally_of_not_owner (not_owner_of_unborn hstep ht)
      have htally : polls s (tr ++ [l]) = [] ∧ returned s (tr ++ [l]) = [] ∧
          (tr ++ [l]).countP (endsEmpty s) = 0 := by
        rw [polls_append, returned_append, List.countP_append, hpolls, hpolls', hreturned, hreturned', hempty,
          hempty']
        exact ⟨rfl, rfl, rfl⟩
      refine ⟨fun _ => htally, ?_⟩
      intro m hm
      obtain ⟨hflag, hphase⟩ := new_of_unborn hstep ht hm
      exact of_unborn htally.1 htally.2.1 htally.2.2 hflag hphase
    | some m₀ =>
      have hreads := ih.2 m₀ ht
      rcases owner_or_same hstep ht with ⟨op, m₁, rfl, stepped, hu⟩ | ⟨hl, m₁, hu, _, hflag, hphase⟩
      · refine ⟨by simp [hu], ?_⟩
        intro m hm
        obtain rfl := Option.some.inj (hu.symm.trans hm)
        exact hreads.owner stepped
      · refine ⟨by simp [hu], ?_⟩
        intro m hm
        obtain rfl := Option.some.inj (hu.symm.trans hm)
        exact hreads.idle hl hflag hphase

end Reads

/-! ## Reading on -/

/-- A step of the owner that nothing holds up. -/
theorem owner_step (hm : b.subscriptions.lookup s = some m) (hstep : m.step op = some m')
    (hpermits : b.permits s op = true) :
    ∃ b', b.step (.owner s op) = some b' ∧ b'.subscriptions.lookup s = some m' := by
  refine ⟨{ b with
    subscriptions := b.subscriptions.insert s m'
    subscribers := if op = .detach then b.subscribers.erase s else b.subscribers }, ?_, AList.lookup_insert _⟩
  simp [State.step, State.owner, hm, hstep, hpermits]

/-- A call with an event queued, and no report due, returns the event. -/
theorem read_one (queueCapacity : Nat) {queue : List Event} (hm : b.subscriptions.lookup s = some m)
    (hidle : m.phase = .idle)
    (hclosed : m.closed = false) (hqueue : m.channel.queue = event :: queue)
    (hdue : m.receiveAfterLag = true ∨ m.lagged = 0) :
    ∃ b', (memoryEventBus queueCapacity).Run b
        [.owner s (.nextEvent (.receive (!m.receiveAfterLag))), .owner s (.received (some event))] b' ∧
      b'.subscriptions.lookup s =
        some { m with channel := { m.channel with queue }, receiveAfterLag := false, phase := .idle } := by
  have hcall : m.step (.nextEvent (.receive (!m.receiveAfterLag))) =
      some { m with receiveAfterLag := false, phase := .receiving } := by
    cases hflag : m.receiveAfterLag with
    | true => simp [MemorySubscription.step, MemorySubscription.nextEvent, hidle, hclosed, hflag]
    | false =>
      have hzero : m.lagged = 0 := hdue.resolve_left (by simp [hflag])
      simp [MemorySubscription.step, MemorySubscription.nextEvent, hidle, hclosed, hflag, hzero]
  obtain ⟨b₁, hstep₁, hm₁⟩ := owner_step hm hcall rfl
  have hreceive : { m with receiveAfterLag := false, phase := .receiving }.step (.received (some event)) =
      some { m with channel := { m.channel with queue }, receiveAfterLag := false, phase := .idle } := by
    simp [MemorySubscription.step, hqueue]
  obtain ⟨b₂, hstep₂, hm₂⟩ := owner_step hm₁ hreceive rfl
  exact ⟨b₂, Lts.run_cons.mpr ⟨b₁, hstep₁, Lts.Run.single hstep₂⟩, hm₂⟩

/-- A call with a report due gives the report. -/
theorem report_one (queueCapacity : Nat) (hm : b.subscriptions.lookup s = some m) (hidle : m.phase = .idle)
    (hclosed : m.closed = false) (hflag : m.receiveAfterLag = false) (hmissed : m.lagged ≠ 0) :
    ∃ b', (memoryEventBus queueCapacity).Run b [.owner s (.nextEvent (.lagged m.lagged))] b' ∧
      b'.subscriptions.lookup s = some { m with lagged := 0, receiveAfterLag := true } := by
  have hcall : m.step (.nextEvent (.lagged m.lagged)) = some { m with lagged := 0, receiveAfterLag := true } := by
    have hpos : 0 < m.lagged := Nat.pos_of_ne_zero hmissed
    simp [MemorySubscription.step, MemorySubscription.nextEvent, hidle, hclosed, hflag, hpos]
  obtain ⟨b', hstep, hm'⟩ := owner_step hm hcall rfl
  exact ⟨b', Lts.Run.single hstep, hm'⟩

/-- An owner by itself reads its whole queue, with one report at most on the way. -/
theorem drain (queueCapacity : Nat) : ∀ {queue : List Event} {b : State} {m : MemorySubscription},
    b.subscriptions.lookup s = some m → m.phase = .idle → m.closed = false → m.channel.queue = queue →
    ∃ tr b', (memoryEventBus queueCapacity).Run b tr b' ∧ (∀ l ∈ tr, isOwner s l = true) ∧
      returned s tr = queue ∧ (polls s tr).length ≤ queue.length + (if m.lagged = 0 then 0 else 1)
  | [], b, m, _, _, _, _ => ⟨[], b, Lts.Run.nil _ _, by simp, rfl, Nat.zero_le _⟩
  | event :: queue, b, m, hm, hidle, hclosed, hqueue => by
    by_cases hdue : m.receiveAfterLag = true ∨ m.lagged = 0
    · obtain ⟨b₁, hread, hm₁⟩ := read_one queueCapacity hm hidle hclosed hqueue hdue
      obtain ⟨tr, b', hrun, howner, hreturned, hpolls⟩ := drain queueCapacity hm₁ rfl hclosed rfl
      refine ⟨_, b', hread.append hrun, ?_, ?_, ?_⟩
      · simpa [isOwner] using howner
      · rw [returned_append, hreturned]
        simp [returned]
      · rw [polls_append, List.length_append, List.length_cons]
        have hone : (polls s [.owner s (.nextEvent (.receive (!m.receiveAfterLag))),
          .owner s (.received (some event))]).length = 1 := by simp [polls]
        simp only at hpolls
        omega
    · obtain ⟨hflag, hmissed⟩ := not_or.mp hdue
      -- the report first; it empties the counter and makes the next call receive
      obtain ⟨b₁, hreport, hm₁⟩ := report_one queueCapacity hm hidle hclosed (by simpa using hflag) hmissed
      obtain ⟨b₂, hread, hm₂⟩ := read_one queueCapacity hm₁ hidle hclosed hqueue (.inl rfl)
      obtain ⟨tr, b', hrun, howner, hreturned, hpolls⟩ := drain queueCapacity hm₂ rfl hclosed rfl
      refine ⟨_, b', hreport.append (hread.append hrun), ?_, ?_, ?_⟩
      · simpa [isOwner] using howner
      · rw [returned_append, returned_append, hreturned]
        simp [returned]
      · rw [polls_append, polls_append, List.length_append, List.length_append, List.length_cons]
        have hone : (polls s [.owner s (.nextEvent (.lagged m.lagged))]).length = 1 := by simp [polls]
        have htwo : (polls s [.owner s (.nextEvent (.receive false)),
          .owner s (.received (some event))]).length = 1 := by simp [polls]
        simp only [hmissed, if_false, if_true, Bool.not_true] at hpolls ⊢
        omega

/-- **Reports never starve the reader.** In every run no lag error of a
subscription follows another without a receive in between: reports outnumber
receives by one at most, and a receive that has ended without an event has met
the end of the stream or was cancelled. From every reachable state an idle owner
that has not closed its subscription reads everything queued for it, with one
call for each event and one more at most. -/
theorem reports_never_starve (h : (memoryEventBus queueCapacity).Run (State.new queueCapacity) tr b)
    (hm : b.subscriptions.lookup s = some m) :
    ((polls s tr).IsChain fun a b => a.isLag = true → b.isLag = false) ∧
    (polls s tr).countP Poll.isLag ≤ (polls s tr).countP Poll.isReceive + 1 ∧
    (polls s tr).countP Poll.isReceive =
      (returned s tr).length + tr.countP (endsEmpty s) + (if m.phase = .receiving then 1 else 0) ∧
    (m.phase = .idle → m.closed = false → ∃ tr' b', (memoryEventBus queueCapacity).Run b tr' b' ∧
      (∀ l ∈ tr', isOwner s l = true) ∧ returned s tr' = m.channel.queue ∧
      (polls s tr').length ≤ m.channel.queue.length + 1) := by
  have hreads := Reads.run h hm
  refine ⟨hreads.alternate, ?_, hreads.receives, ?_⟩
  · exact Nat.le_trans (Nat.le_add_right _ _) hreads.lags
  · intro hidle hclosed
    obtain ⟨tr', b', hrun, howner, hreturned, hpolls⟩ := drain queueCapacity hm hidle hclosed rfl
    refine ⟨tr', b', hrun, howner, hreturned, Nat.le_trans hpolls ?_⟩
    split <;> omega

/-- An owner that has had a report, and is behind again by the time it reads. -/
def laggingAgain : List Label :=
  [.subscribe default .all, .publish 1 (Event.plain default ⟨"read.first"⟩),
    .send 1 default (Event.plain default ⟨"read.first"⟩) .sent, .endScan 1,
    .publish 2 (Event.plain default ⟨"never.read"⟩),
    .send 2 default (Event.plain default ⟨"never.read"⟩) .full, .countMissed 2 default, .endScan 2,
    .owner default (.nextEvent (.lagged 1)), .publish 3 (Event.plain default ⟨"missed.too"⟩),
    .send 3 default (Event.plain default ⟨"missed.too"⟩) .full, .countMissed 3 default, .endScan 3]

theorem reports_never_starve_lagging : ∃ tr b,
    (memoryEventBus 1).Run ((memoryEventBus 1).after laggingAgain (by decide)) tr b ∧
      returned default tr = [Event.plain default ⟨"read.first"⟩] := by
  obtain ⟨_, _, _, hread⟩ := reports_never_starve ((memoryEventBus 1).run_after laggingAgain (by decide))
    (s := default) (Option.some_get (by decide)).symm
  obtain ⟨tr, b, hrun, _, hreturned, _⟩ := hread (by decide) (by decide)
  exact ⟨tr, b, hrun, hreturned⟩

end MemoryEventBus

end OrbitRelay
