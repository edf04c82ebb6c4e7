import OrbitRelay.Sync.Invariant

/-
  The subscriber map holds exactly the live subscriptions.

  Two parties take entries out: the owner, in the detach that ends `close` and
  `drop`, and a publish, from the list of closed channels it met in a scan that
  is over by then. `WellFormed` has what makes both safe: whatever is on such a
  list is closed for good, and an id is never used twice. What is left to say
  is that a subscription which has detached is `Gone`: no publish will ever
  send to it or count for it, and its entry never comes back.
-/

namespace OrbitRelay.MemoryEventBus

variable {b b' : State} {l : Label} {s : SubscriptionId} {m : MemorySubscription}

namespace WellFormed

end WellFormed

/-- The subscription has left the map, and no publish has it in hand. -/
structure Gone (b : State) (s : SubscriptionId) : Prop where
  known : ∃ m, b.subscriptions.lookup s = some m
  unlisted : b.subscribers.lookup s = none
  uncounted : ∀ {p pub}, b.publishes.lookup p = some pub → pub.stage ≠ .lagging s

namespace Gone

/-- Another subscription is inserted, or this one changes: it stays known. -/
theorem known_insert (h : Gone b s) (s' : SubscriptionId) (m' : MemorySubscription) :
    ∃ m, (b.subscriptions.insert s' m').lookup s = some m := by
  obtain ⟨m, hm⟩ := h.known
  by_cases hs : s = s'
  · subst hs
    exact ⟨m', AList.lookup_insert _⟩
  · exact ⟨m, (AList.lookup_insert_ne hs).trans hm⟩

theorem uncounted_insert (h : Gone b s) (p : TaskId) {pub : Publish} (hstage : pub.stage ≠ .lagging s)
    {p' : TaskId} {pub' : Publish} (hp : (b.publishes.insert p pub).lookup p' = some pub') :
    pub'.stage ≠ .lagging s := by
  rcases Table.lookup_insert_eq_some.mp hp with ⟨_, rfl⟩ | ⟨_, hp⟩
  · exact hstage
  · exact h.uncounted hp

theorem uncounted_erase (h : Gone b s) (p : TaskId) {p' : TaskId} {pub' : Publish}
    (hp : (b.publishes.erase p).lookup p' = some pub') : pub'.stage ≠ .lagging s :=
  h.uncounted (Table.lookup_erase_eq_some.mp hp).2

/-- What has left the map stays out of it. -/
theorem step (h : Gone b s) (hwf : WellFormed b) (hstep : b.step l = some b') : Gone b' s := by
  have herase : ∀ t : Table SubscriptionId SubscriberEntry, (∀ e, t.lookup s = some e →
      b.subscribers.lookup s = some e) → t.lookup s = none := by
    intro t ht
    rw [Option.eq_none_iff_forall_ne_some]
    intro e he
    simpa [h.unlisted] using ht e he
  cases step_effect hstep with
  | subscribe s' filter channel alive valid fresh =>
    have hs : s ≠ s' := by
      intro heq
      subst heq
      obtain ⟨m, hm⟩ := h.known
      simp [fresh] at hm
    exact ⟨h.known_insert s' _, (AList.lookup_insert_ne hs).trans h.unlisted, h.uncounted⟩
  | subscribeFailed => exact h
  | publish p event => exact ⟨h.known, h.unlisted, h.uncounted_insert p (by simp)⟩
  | skip p s' pub entry running =>
    have hstage := h.uncounted running
    refine ⟨h.known, h.unlisted, h.uncounted_insert p ?_⟩
    exact hstage
  | send p s' result pub entry m channel running found =>
    refine ⟨h.known_insert _ _, h.unlisted, h.uncounted_insert p ?_⟩
    -- it was sent to an entry of the map, and only that one can be counted next
    have hne : entry.sender ≠ s := by
      rw [(hwf.entry found).1]
      intro heq
      subst heq
      simp [h.unlisted] at found
    have hstage := h.uncounted running
    cases result with
    | sent => exact hstage
    | full => simpa [Publish.afterSend] using hne
    | closed => exact hstage
  | countMissed p s' pub m => exact ⟨h.known_insert _ _, h.unlisted, h.uncounted_insert p (by simp)⟩
  | published p => exact ⟨h.known, h.unlisted, h.uncounted_erase p⟩
  | scanned p => exact ⟨h.known, h.unlisted, h.uncounted_insert p (by simp)⟩
  | cleanUp p =>
    refine ⟨h.known, herase _ ?_, h.uncounted_erase p⟩
    exact fun e he => (Table.lookup_eraseAll_eq_some.mp he).2
  | owner s' op m m' => exact ⟨h.known_insert s' m', h.unlisted, h.uncounted⟩
  | detach s' m m' =>
    refine ⟨h.known_insert s' m', herase _ ?_, h.uncounted⟩
    exact fun e he => (Table.lookup_erase_eq_some.mp he).2
  | dropBus => exact ⟨h.known, rfl, h.uncounted⟩

end Gone

end OrbitRelay.MemoryEventBus
