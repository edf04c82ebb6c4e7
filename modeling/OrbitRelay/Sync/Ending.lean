import OrbitRelay.Sync.Reading

/-
  How a subscription ends.

  The owner ends it by `close` or by dropping it, and the bus by going away.
  After the first nothing comes out of the channel and nothing goes in. The
  second is seen as the end of the stream, and only once the queue is empty:
  whoever reads on to it has read everything that was queued.
-/

namespace OrbitRelay.MemoryEventBus

variable {queueCapacity : Nat} {b b' : State} {s : SubscriptionId} {m : MemorySubscription} {l : Label}
  {tr tr' pre post : List Label} {event : Event} {op : Op}

theorem accepted_append (tr tr' : List Label) : accepted s (tr ++ tr') = accepted s tr ++ accepted s tr' := by
  simp [accepted, tries]

/-! ## By its owner -/

/-- The owner has closed or dropped the subscription. -/
def ClosedAt (b : State) (s : SubscriptionId) : Prop := ∃ m, b.subscriptions.lookup s = some m ∧ ¬m.IsOpen

theorem ClosedAt.run (hwf : WellFormed b) (h : ClosedAt b s)
    (hrun : (memoryEventBus queueCapacity).Run b tr b') : ClosedAt b' s := by
  obtain ⟨m, hm, hclosed⟩ := h
  obtain ⟨m', hm', _, hopen⟩ := hwf.subscription_run hrun hm
  exact ⟨m', hm', fun hopen' => hclosed (hopen hopen')⟩

/-- A close and a drop both close the channel. -/
theorem closedAt_of_owner (hwf : WellFormed b) (hop : op = .close ∨ op = .drop)
    (hstep : b.step (.owner s op) = some b') : ClosedAt b' s := by
  cases step_effect hstep with
  | owner s op m m' owned stepped =>
    refine ⟨m', AList.lookup_insert _, ?_⟩
    have hclosed : m'.channel.closed = true := by
      rcases hop with rfl | rfl
      · cases MemorySubscription.step_effect stepped with
        | closed => rfl
        | closedAgain idle closed => exact (hwf.subscription owned).closed_channel closed
      · cases MemorySubscription.step_effect stepped with
        | drop => rfl
    simp [MemorySubscription.IsOpen, hclosed]
  | detach => simp at hop

/-- What can still happen to a closed subscription. -/
structure Shut (s : SubscriptionId) (l : Label) : Prop where
  refused : ∀ poll, l = .owner s (.nextEvent poll) → poll = .closed
  unread : ∀ result, l ≠ .owner s (.received result)
  unsent : ∀ p event result, l = .send p s event result → result = .closed

theorem shut_step (hwf : WellFormed b) (h : ClosedAt b s) (hstep : b.step l = some b') : Shut s l := by
  obtain ⟨m, hm, hclosed⟩ := h
  have hchannel : m.channel.closed = true := by simpa [MemorySubscription.IsOpen] using hclosed
  have howner : ∀ {op}, l = .owner s op → ∃ m', m.Effect op m' := by
    intro op heq
    subst heq
    cases step_effect hstep with
    | owner s op m₁ m₁' owned stepped =>
      obtain rfl := Option.some.inj (hm.symm.trans owned)
      exact ⟨m₁', MemorySubscription.step_effect stepped⟩
    | detach s m₁ m₁' owned stepped =>
      obtain rfl := Option.some.inj (hm.symm.trans owned)
      exact ⟨m₁', MemorySubscription.step_effect stepped⟩
  have hwf₀ := hwf.subscription hm
  constructor
  · intro poll heq
    obtain ⟨_, heffect⟩ := howner heq
    -- an idle owner that may call again has closed, not dropped
    cases heffect with
    | refused => rfl
    | lagging idle closed => exact absurd (hwf₀.open_of_idle idle closed) (by simp [hchannel])
    | checked idle closed => exact absurd (hwf₀.open_of_idle idle closed) (by simp [hchannel])
    | unchecked idle closed => exact absurd (hwf₀.open_of_idle idle closed) (by simp [hchannel])
  · intro result heq
    obtain ⟨_, heffect⟩ := howner heq
    have hreceiving : m.phase = .receiving := by
      cases heffect with
      | received event queue receiving => exact receiving
      | ended receiving => exact receiving
    exact absurd (hwf₀.receiving_open hreceiving) (by simp [hchannel])
  · intro p event result heq
    subst heq
    obtain ⟨m₁, channel, hm₁, _, htried, _⟩ := hwf.send_step hstep
    obtain rfl := Option.some.inj (hm.symm.trans hm₁)
    have htry := Channel.trySend_eq htried
    cases result with
    | sent => simp [hchannel] at htry
    | full => simp [hchannel] at htry
    | closed => rfl

/-- **A close is final.** From the close or the drop of a subscription on, in
every run, each call of `next_event` answers that it is closed, no receive ends,
and nothing more is queued: whatever was in the queue is never returned. -/
theorem close_is_final (h : (memoryEventBus queueCapacity).Run (State.new queueCapacity) tr b)
    (hop : op = .close ∨ op = .drop) (htr : tr = pre ++ .owner s op :: post) :
    (∀ poll ∈ polls s post, poll = .closed) ∧
    (∀ result, .owner s (.received result) ∉ post) ∧
    (∀ p event result, .send p s event result ∈ post → result = .closed) ∧
    accepted s tr = accepted s pre ∧ returned s tr = returned s pre := by
  subst htr
  obtain ⟨b₀, b₁, hpre, hstep, hpost⟩ := run_split.mp h
  have hwf₁ := (WellFormed.run hpre).step hstep
  have hclosed := closedAt_of_owner (WellFormed.run hpre) hop hstep
  have hshut : ∀ l ∈ post, Shut s l := by
    intro l hl
    obtain ⟨early, _, t, _, _, hearly, hstep', _⟩ := hpost.at_label hl
    have hwf : WellFormed t := hearly.invariant (fun _ _ _ => WellFormed.step) hwf₁
    exact shut_step hwf (hclosed.run hwf₁ hearly) hstep'
  have hunread : ∀ result, .owner s (.received result) ∉ post :=
    fun result hmem => (hshut _ hmem).unread result rfl
  have hunsent : ∀ p event result, .send p s event result ∈ post → result = .closed :=
    fun p event result hmem => (hshut _ hmem).unsent p event result rfl
  have hreturned : returned s post = [] := by
    rw [returned, List.filterMap_eq_nil_iff]
    intro l hl
    cases l with
    | owner s' op' =>
      cases op' with
      | received result =>
        cases result with
        | some event =>
          have hs : s' ≠ s := by
            intro heq
            subst heq
            exact hunread _ hl
          simp [hs]
        | none => rfl
      | _ => rfl
    | _ => rfl
  have haccepted : accepted s post = [] := by
    rw [List.eq_nil_iff_forall_not_mem]
    intro event he
    obtain ⟨p, hp⟩ := mem_accepted.mp he
    exact absurd (hunsent p event .sent hp) (by simp)
  refine ⟨?_, hunread, hunsent, ?_, ?_⟩
  · intro poll hpoll
    obtain ⟨l, hl, hlp⟩ := List.mem_filterMap.mp hpoll
    cases l with
    | owner s' op' =>
      cases op' with
      | nextEvent poll' =>
        simp only [Option.ite_none_right_eq_some, Option.some.injEq] at hlp
        obtain ⟨rfl, rfl⟩ := hlp
        exact (hshut _ hl).refused _ rfl
      | _ => simp at hlp
    | _ => simp at hlp
  · have hone : accepted s [.owner s op] = [] := rfl
    rw [← List.singleton_append, accepted_append, accepted_append, hone, haccepted]
    simp
  · have hone : returned s [.owner s op] = [] := by
      rcases hop with rfl | rfl <;> rfl
    rw [← List.singleton_append, returned_append, returned_append, hone, hreturned]
    simp

/-- A subscription closed with an event still in its queue. -/
def closedUnread : List Label :=
  let event := Event.plain default ⟨"left.behind"⟩
  [.subscribe default .all, .publish 1 event, .send 1 default event .sent, .endScan 1,
    .owner default .close, .owner default .detach, .owner default (.nextEvent .closed)]

theorem close_is_final_unread : returned default closedUnread = returned default (closedUnread.take 4) :=
  (close_is_final ((memoryEventBus 1).run_after closedUnread (by decide)) (.inl rfl) rfl).2.2.2.2

/-! ## By the bus -/

/-- A bus that is gone stays gone. -/
theorem dead_run (hrun : (memoryEventBus queueCapacity).Run b tr b') (hdead : b.alive = false) :
    b'.alive = false := by
  refine hrun.invariant (I := fun b => b.alive = false) ?_ hdead
  intro b l b' hdead (hstep : b.step l = some b')
  by_cases hl : l = .dropBus
  · subst hl
    cases step_effect hstep with
    | dropBus alive => simp [hdead] at alive
  · rw [State.step_alive hstep hl, hdead]

theorem dropBus_of_dead (h : (memoryEventBus queueCapacity).Run (State.new queueCapacity) tr b)
    (hdead : b.alive = false) : .dropBus ∈ tr := by
  refine Lts.Run.induct (P := fun tr b => b.alive = false → .dropBus ∈ tr) (by simp [State.new]) ?_ h hdead
  intro tr t l u _ ih hstep hdead
  by_cases hl : l = .dropBus
  · subst hl
    simp
  · rw [State.step_alive hstep hl] at hdead
    exact List.mem_append_left _ (ih hdead)

/-- Nothing is sent on a bus that is gone. -/
theorem no_send_of_dead (hwf : WellFormed b) (hdead : b.alive = false)
    (hrun : (memoryEventBus queueCapacity).Run b tr b') : accepted s tr = [] := by
  rw [List.eq_nil_iff_forall_not_mem]
  intro event he
  obtain ⟨p, hp⟩ := mem_accepted.mp he
  obtain ⟨early, _, t, _, _, hearly, (hstep : t.step (.send p s event .sent) = some _), _⟩ := hrun.at_label hp
  have hwf₁ : WellFormed t := hearly.invariant (fun _ _ _ => WellFormed.step) hwf
  have hnone := (hwf₁.dead (dead_run hearly hdead)).2
  cases step_effect hstep with
  | send p s result pub entry m channel running =>
    rw [hnone] at running
    simp at running

/-- The end of the stream comes with an empty queue, after the bus. -/
theorem gone_of_ended (hwf : WellFormed b) (hstep : b.step (.owner s (.received none)) = some b') :
    b.alive = false ∧ ∃ m, b.subscriptions.lookup s = some m ∧ m.channel.queue = [] := by
  cases step_effect hstep with
  | owner s op m m' owned stepped permitted =>
    cases MemorySubscription.step_effect stepped with
    | ended receiving empty =>
      refine ⟨?_, m, owned, empty⟩
      -- a receiving subscription is open, so a living bus still holds its sender
      cases halive : b.alive with
      | false => rfl
      | true =>
        obtain ⟨entry, he⟩ := hwf.registered halive owned ((hwf.subscription owned).receiving_open receiving)
        have hsender : b.hasSender s = true :=
          List.any_eq_true.mpr ⟨⟨s, entry⟩, Table.mem_entries_iff.mpr he, by simp [(hwf.entry he).1]⟩
        simp [State.permits, hsender] at permitted

/-- **The end of a stream is the end.** In every run a subscriber that reads the
end of its stream has by then been given every event that was ever queued for
it, the bus has gone before, and nothing is queued or returned after. -/
theorem stream_end_complete (h : (memoryEventBus queueCapacity).Run (State.new queueCapacity) tr b)
    (htr : tr = pre ++ .owner s (.received none) :: post) :
    .dropBus ∈ pre ∧ returned s pre = accepted s tr ∧ accepted s post = [] ∧ returned s post = [] := by
  subst htr
  obtain ⟨b₀, b₁, hpre, hstep, hpost⟩ := run_split.mp h
  have hwf := WellFormed.run hpre
  obtain ⟨hdead, m, hm, hempty⟩ := gone_of_ended hwf hstep
  have hend : (memoryEventBus queueCapacity).Run b₀ [.owner s (.received none)] b₁ := Lts.Run.single hstep
  have hdead₁ : b₁.alive = false := dead_run hend hdead
  have hquiet := no_send_of_dead (s := s) (hwf.step hstep) hdead₁ hpost
  have hbefore := returned_append_queue hpre hm
  rw [hempty, List.append_nil] at hbefore
  have hall : accepted s (pre ++ .owner s (.received none) :: post) = accepted s pre := by
    have hone : accepted s [.owner s (.received none)] = [] := rfl
    rw [← List.singleton_append, accepted_append, accepted_append, hone, hquiet]
    simp
  refine ⟨dropBus_of_dead hpre hdead, hbefore.trans hall.symm, hquiet, ?_⟩
  -- at the end as well, what was returned is no more than what was accepted
  obtain ⟨m₁, hm₁, _⟩ := hwf.subscription_step hstep hm
  obtain ⟨m₂, hm₂, _⟩ := (hwf.step hstep).subscription_run hpost hm₁
  have hafter := returned_append_queue h hm₂
  have hone : returned s [.owner s (.received none)] = [] := rfl
  rw [hall, ← hbefore, ← List.singleton_append, returned_append, returned_append, hone, List.nil_append,
    List.append_assoc] at hafter
  have hnil : returned s post ++ m₂.channel.queue = [] := List.append_right_eq_self.mp hafter
  exact (List.append_eq_nil_iff.mp hnil).1

/-- The bus goes, and a subscriber reads on to the end. -/
def readToTheEnd : List Label :=
  let event := Event.plain default ⟨"last.one"⟩
  [.subscribe default .all, .publish 1 event, .send 1 default event .sent, .endScan 1, .dropBus,
    .owner default (.nextEvent (.receive true)), .owner default (.received (some event)),
    .owner default (.nextEvent (.receive true)), .owner default (.received none)]

theorem stream_end_complete_read :
    returned default (readToTheEnd.take 8) = accepted default readToTheEnd :=
  (stream_end_complete ((memoryEventBus 1).run_after readToTheEnd (by decide)) rfl).2.1

end OrbitRelay.MemoryEventBus
