import OrbitRelay.Sync.Invariant

/-
  What a publish owes to a subscription.

  A scan goes over the entries the map had when it began, and no entry comes or
  goes while it runs. So as long as a subscription is open, every matching
  event published since its registration is sent to it, once, in the order in
  which its task published it: `offers_balance` says it as an equation between
  what a task has sent, what it has published, and the one event it may have in
  hand.
-/

namespace OrbitRelay.MemoryEventBus

/-- The events task `p` has tried to send to `s`, in order. -/
def offers (p : TaskId) (s : SubscriptionId) (tr : List Label) : List Event :=
  tr.filterMap fun
    | .send p' s' event _ => if p' = p ∧ s' = s then some event else none
    | _ => none

/-- The events task `p` has begun to publish, in order. -/
def published (p : TaskId) (tr : List Label) : List Event :=
  tr.filterMap fun
    | .publish p' event => if p' = p then some event else none
    | _ => none

/-- What a publish still owes to a subscription with filter `f`. -/
def Publish.pending (pub : Publish) (s : SubscriptionId) (f : EventFilter) : List Event :=
  if pub.stage ≠ .cleaning ∧ s ∈ pub.remaining ∧ f.matches pub.event = true then [pub.event] else []

/-- What task `p` still owes to a subscription with filter `f`. -/
def pending (p : TaskId) (s : SubscriptionId) (f : EventFilter) (b : State) : List Event :=
  match b.publishes.lookup p with
  | some pub => pub.pending s f
  | none => []

variable {queueCapacity : Nat} {b b' : State} {l : Label} {tr pre post : List Label} {p p' : TaskId}
  {s : SubscriptionId} {f : EventFilter} {pub : Publish} {m : MemorySubscription}

theorem offers_append (tr tr' : List Label) :
    offers p s (tr ++ tr') = offers p s tr ++ offers p s tr' :=
  List.filterMap_append

theorem published_append (tr tr' : List Label) :
    published p (tr ++ tr') = published p tr ++ published p tr' :=
  List.filterMap_append

theorem pending_of_running (h : b.publishes.lookup p = some pub) : pending p s f b = pub.pending s f := by
  simp [pending, h]

theorem pending_of_idle (h : b.publishes.lookup p = none) : pending p s f b = [] := by
  simp [pending, h]

theorem pending_congr (h : b'.publishes.lookup p = b.publishes.lookup p) :
    pending p s f b' = pending p s f b := by
  simp [pending, h]

/-- A publish that has nothing left, or is past its scan, owes nothing. -/
theorem pending_nil (h : s ∉ pub.remaining ∨ f.matches pub.event = false ∨ pub.stage = .cleaning) :
    pub.pending s f = [] := by
  unfold Publish.pending
  split
  · next hall => rcases h with h | h | h <;> simp_all
  · rfl

/-- A step that is not one of task `p` changes neither side of the balance. -/
theorem balance_congr (hp : b'.publishes.lookup p = b.publishes.lookup p) (ho : offers p s [l] = [])
    (hl : published p [l] = []) :
    offers p s [l] ++ pending p s f b' = pending p s f b ++ (published p [l]).filter f.matches := by
  rw [ho, hl, pending_congr hp, List.filter_nil, List.append_nil, List.nil_append]

/-- One step pays what it owes: what is sent was owed, and what is published
and matches is owed from then on. -/
theorem balance_step (h : WellFormed b) (hstep : b.step l = some b') (hm : b.subscriptions.lookup s = some m)
    (hopen : m.IsOpen) :
    offers p s [l] ++ pending p s m.filter b' =
      pending p s m.filter b ++ (published p [l]).filter m.filter.matches := by
  cases step_effect hstep with
  | publish p' event alive idle =>
    by_cases hp : p' = p
    · subst hp
      -- the subscription is open, so the scan finds its entry
      obtain ⟨entry, hentry⟩ := h.registered alive hm hopen
      have hkey : s ∈ b.subscribers.keys := Table.mem_keys_iff.mpr ⟨entry, hentry⟩
      rw [pending_of_idle idle, pending_of_running (AList.lookup_insert _)]
      cases hmatch : m.filter.matches event <;>
        simp [offers, published, Publish.pending, hkey, hmatch]
    · exact balance_congr (AList.lookup_insert_ne (Ne.symm hp)) rfl (by simp [published, hp])
  | skip p' s' pub entry running found scanning left unmatched =>
    by_cases hp : p' = p
    · subst hp
      rw [pending_of_running running, pending_of_running (AList.lookup_insert _)]
      by_cases hs : s = s'
      · subst hs
        obtain ⟨_, m₁, hm₁, hfilter, _⟩ := h.entry found
        obtain rfl := Option.some.inj (hm.symm.trans hm₁)
        have hnil : ∀ pub' : Publish, pub'.event = pub.event → pub'.pending s m.filter = [] := by
          intro pub' hevent
          apply pending_nil
          rw [hevent, hfilter]
          exact .inr (.inl unmatched)
        rw [hnil pub rfl, hnil { pub with remaining := pub.remaining.erase s } rfl]
        rfl
      · simp [offers, published, Publish.pending, List.mem_erase_of_ne hs]
    · exact balance_congr (AList.lookup_insert_ne (Ne.symm hp)) rfl rfl
  | send p' s' result pub entry m₁ channel running found receiver scanning left matched tried =>
    by_cases hp : p' = p
    · subst hp
      rw [pending_of_running running, pending_of_running (AList.lookup_insert _)]
      by_cases hs : s = s'
      · subst hs
        obtain ⟨_, m₂, hm₂, hfilter, _⟩ := h.entry found
        obtain rfl := Option.some.inj (hm.symm.trans hm₂)
        have hgone : s ∉ pub.remaining.erase s :=
          (h.remaining running (by simp [scanning])).1.not_mem_erase
        have hafter : (pub.afterSend s entry.sender result).pending s m.filter = [] := by
          apply pending_nil
          cases result <;> exact .inl hgone
        rw [hafter, Publish.pending, if_pos ⟨by simp [scanning], left, by rw [hfilter]; exact matched⟩]
        simp [offers, published]
      · have hafter : (pub.afterSend s' entry.sender result).pending s m.filter = pub.pending s m.filter := by
          cases result <;>
            simp [Publish.pending, Publish.afterSend, List.mem_erase_of_ne hs, scanning]
        rw [hafter]
        simp [offers, published, Ne.symm hs]
    · exact balance_congr (AList.lookup_insert_ne (Ne.symm hp)) (by simp [offers, hp]) rfl
  | countMissed p' s' pub m₁ running receiver lagging =>
    by_cases hp : p' = p
    · subst hp
      rw [pending_of_running running, pending_of_running (AList.lookup_insert _)]
      simp [offers, published, Publish.pending, lagging]
    · exact balance_congr (AList.lookup_insert_ne (Ne.symm hp)) rfl rfl
  | published p' pub running scanning ended =>
    by_cases hp : p' = p
    · subst hp
      rw [pending_of_running running, pending_of_idle (AList.lookup_erase _ _), pending_nil (.inl (by simp [ended]))]
      rfl
    · exact balance_congr (AList.lookup_erase_ne (Ne.symm hp)) rfl rfl
  | scanned p' pub running scanning ended =>
    by_cases hp : p' = p
    · subst hp
      have hnil : ∀ pub' : Publish, pub'.remaining = pub.remaining → pub'.pending s m.filter = [] :=
        fun pub' hrest => pending_nil (.inl (by simp [hrest, ended]))
      rw [pending_of_running running, pending_of_running (AList.lookup_insert _), hnil pub rfl,
        hnil { pub with stage := .cleaning } rfl]
      rfl
    · exact balance_congr (AList.lookup_insert_ne (Ne.symm hp)) rfl rfl
  | cleanUp p' pub running cleaning =>
    by_cases hp : p' = p
    · subst hp
      rw [pending_of_running running, pending_of_idle (AList.lookup_erase _ _), pending_nil (.inr (.inr cleaning))]
      rfl
    · exact balance_congr (AList.lookup_erase_ne (Ne.symm hp)) rfl rfl
  | _ => exact balance_congr rfl rfl rfl

/-- **Nothing is skipped and nothing is sent twice.** While a subscription stays
open, what a task sends to it, with what it still owes, is what the task owed
before and the matching events it has published since. -/
theorem offers_balance (h : WellFormed b)
    (hrun : (memoryEventBus queueCapacity).Run b tr b') (hm : b.subscriptions.lookup s = some m)
    {m' : MemorySubscription} (hm' : b'.subscriptions.lookup s = some m') (hopen : m'.IsOpen) :
    offers p s tr ++ pending p s m.filter b' =
      pending p s m.filter b ++ (published p tr).filter m.filter.matches := by
  refine Lts.Run.induct (P := fun tr b' => WellFormed b' ∧ ∃ m', b'.subscriptions.lookup s = some m' ∧
    m'.filter = m.filter ∧ (m'.IsOpen → offers p s tr ++ pending p s m.filter b' =
      pending p s m.filter b ++ (published p tr).filter m.filter.matches)) ?_ ?_ hrun |>.2.elim ?_
  · exact ⟨h, m, hm, rfl, fun _ => by simp [offers, published]⟩
  · intro tr t l u _ ih hstep
    obtain ⟨ht, mt, hmt, hfilter, ih⟩ := ih
    obtain ⟨mu, hmu, hfilter', hopen'⟩ := ht.subscription_step hstep hmt
    refine ⟨ht.step hstep, mu, hmu, hfilter'.trans hfilter, fun hu => ?_⟩
    have hbal := balance_step (p := p) ht hstep hmt (hopen' hu)
    rw [hfilter] at hbal
    calc offers p s (tr ++ [l]) ++ pending p s m.filter u
        = offers p s tr ++ (offers p s [l] ++ pending p s m.filter u) := by rw [offers_append, List.append_assoc]
      _ = (offers p s tr ++ pending p s m.filter t) ++ (published p [l]).filter m.filter.matches := by
        rw [hbal, List.append_assoc]
      _ = pending p s m.filter b ++ ((published p tr).filter m.filter.matches ++
            (published p [l]).filter m.filter.matches) := by rw [ih (hopen' hu), List.append_assoc]
      _ = pending p s m.filter b ++ (published p (tr ++ [l])).filter m.filter.matches := by
        rw [published_append, List.filter_append]
  · intro mt hbalanced
    obtain ⟨hmt, _, hbal⟩ := hbalanced
    obtain rfl := Option.some.inj (hmt.symm.trans hm')
    exact hbal hopen

/-- Nothing is sent to a subscription before it exists. -/
theorem offers_eq_nil (h : (memoryEventBus queueCapacity).Run (State.new queueCapacity) tr b)
    (hnone : b.subscriptions.lookup s = none) (p : TaskId) : offers p s tr = [] := by
  rw [offers, List.filterMap_eq_nil_iff]
  intro l hl
  cases l with
  | send p' s' event result =>
    rw [ite_eq_right_iff]
    intro hown
    obtain ⟨rfl, rfl⟩ := hown
    obtain ⟨_, _, b₀, b₁, _, hpre, (hstep : b₀.step (.send p' s' event result) = some b₁), hpost⟩ := h.at_label hl
    have hwf := WellFormed.run hpre
    obtain ⟨_, _, _, _, _, hm₁⟩ := hwf.send_step hstep
    obtain ⟨_, hm', _⟩ := (hwf.step hstep).subscription_run hpost hm₁
    simp [hnone] at hm'
  | _ => rfl

/-- Since its registration, a task has sent an open subscription every matching
event it has published, but for the one it has in hand. -/
theorem offers_since_subscribe {filter : EventFilter}
    (h : (memoryEventBus queueCapacity).Run (State.new queueCapacity) (pre ++ .subscribe s filter :: post) b)
    (hm : b.subscriptions.lookup s = some m) (hopen : m.IsOpen) : filter = m.filter ∧ ∀ p,
      offers p s (pre ++ .subscribe s filter :: post) ++ pending p s m.filter b =
        (published p post).filter m.filter.matches := by
  obtain ⟨b₀, b₁, hpre, hstep, hpost⟩ := run_split.mp h
  have hwf := WellFormed.run hpre
  have hwf₁ := hwf.step hstep
  cases step_effect hstep with
  | subscribe s filter channel alive valid fresh unlocked made =>
    have hm₁ := AList.lookup_insert (a := s) (b := MemorySubscription.new filter channel) b₀.subscriptions
    obtain ⟨m', hm', hfilter, _⟩ := hwf₁.subscription_run hpost hm₁
    obtain rfl := Option.some.inj (hm.symm.trans hm')
    refine ⟨hfilter.symm, fun p => ?_⟩
    have hbal := offers_balance (p := p) hwf₁ hpost hm₁ hm hopen
    -- no scan is running at a registration, so nothing is owed from before
    have hnil : pending p s filter b₀ = [] := by
      cases hp : b₀.publishes.lookup p with
      | none => exact pending_of_idle hp
      | some pub =>
        rw [pending_of_running hp]
        exact pending_nil (.inr (.inr (cleaning_of_unlocked unlocked hp)))
    rw [hfilter, offers_append, offers_eq_nil hpre fresh p, List.nil_append]
    calc offers p s (.subscribe s filter :: post) ++ pending p s filter b
        = offers p s post ++ pending p s filter b := rfl
      _ = pending p s filter b₀ ++ (published p post).filter filter.matches := hbal
      _ = (published p post).filter filter.matches := by rw [hnil, List.nil_append]

/-- A subscription was registered at some point. -/
theorem subscribe_of_lookup (h : (memoryEventBus queueCapacity).Run (State.new queueCapacity) tr b)
    (hm : b.subscriptions.lookup s = some m) : ∃ filter, .subscribe s filter ∈ tr := by
  refine Lts.Run.induct (P := fun tr b => ∀ m, b.subscriptions.lookup s = some m → ∃ filter, .subscribe s filter ∈ tr)
    (by simp [State.new]) ?_ h m hm
  intro tr t l u _ ih hstep m hm
  have hold : ∀ {m₀}, t.subscriptions.lookup s = some m₀ → ∃ filter, .subscribe s filter ∈ tr ++ [l] := by
    intro m₀ hm₀
    obtain ⟨filter, hmem⟩ := ih m₀ hm₀
    exact ⟨filter, List.mem_append_left _ hmem⟩
  have hupdate : ∀ {s₀ m₀ m₁}, t.subscriptions.lookup s₀ = some m₀ →
      (t.subscriptions.insert s₀ m₁).lookup s = some m → ∃ filter, .subscribe s filter ∈ tr ++ [l] := by
    intro s₀ m₀ m₁ hm₀ hlookup
    rcases Table.lookup_insert_eq_some.mp hlookup with ⟨rfl, _⟩ | ⟨_, hkept⟩
    · exact hold hm₀
    · exact hold hkept
  cases step_effect hstep with
  | subscribe s' filter =>
    rcases Table.lookup_insert_eq_some.mp hm with ⟨rfl, _⟩ | ⟨_, hkept⟩
    · exact ⟨filter, List.mem_append_right _ (List.mem_singleton_self _)⟩
    · exact hold hkept
  | send p s' result pub entry m₁ channel running found receiver => exact hupdate receiver hm
  | countMissed p s' pub m₁ running receiver => exact hupdate receiver hm
  | owner s' op m₁ m' owned => exact hupdate owned hm
  | detach s' m₁ m' owned => exact hupdate owned hm
  | _ => exact hold hm

/-- A task sends an open subscription no event more often than it publishes it. -/
theorem count_offers_le (h : (memoryEventBus queueCapacity).Run (State.new queueCapacity) tr b)
    (hm : b.subscriptions.lookup s = some m) (hopen : m.IsOpen) (p : TaskId) (event : Event) :
    (offers p s tr).count event ≤ (published p tr).count event := by
  obtain ⟨filter, hmem⟩ := subscribe_of_lookup h hm
  obtain ⟨pre, post, rfl⟩ := List.append_of_mem hmem
  have hbal := (offers_since_subscribe h hm hopen).2 p
  have hsub : ((published p post).filter m.filter.matches).Sublist
      (published p (pre ++ .subscribe s filter :: post)) := by
    rw [published_append]
    exact List.filter_sublist.trans (List.sublist_append_right _ _)
  calc (offers p s (pre ++ .subscribe s filter :: post)).count event
      ≤ (offers p s (pre ++ .subscribe s filter :: post) ++ pending p s m.filter b).count event :=
        (List.sublist_append_left _ _).count_le event
    _ = ((published p post).filter m.filter.matches).count event := by rw [hbal]
    _ ≤ (published p (pre ++ .subscribe s filter :: post)).count event := hsub.count_le event

end OrbitRelay.MemoryEventBus
