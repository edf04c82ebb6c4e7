import OrbitRelay.Server.Fresh
import OrbitRelay.Server.Work
import OrbitRelay.Storage.Pages

/-
  What a subscriber has missed, and where it still is.

  A full queue loses an event for its subscriber only: the store had the event
  before it was sent. So a subscriber that has been told of a gap reads the log
  with the query of its filter, at any time later, and has everything back.

  When no call is running the books close: a matching record of the store was
  published before the subscription was there, or was returned, or is queued, or
  was dropped, or belongs to a call that failed before it published anything.
-/

namespace OrbitRelay.PipelineAdapter

open MemoryEventStore (Paged records)
open MemoryEventBus (tries accepted dropped returned reported offers)

variable {storeId : EntityId} {queueCapacity : Nat} {σ σ' : State} {tr tr' before client later : List Label}
  {d : TaskId} {s : SubscriptionId} {f : EventFilter} {call : Dispatch} {event : Event} {m : MemorySubscription}
  {pages : List EventPage} {q : EventQuery}

/-! ## Reading a log that nobody writes -/

/-- What a client has got so far, and where it goes on: it has asked nothing, or
it has a cursor to follow. -/
def PagedTo (q : EventQuery) (tr : List Label) (pages : List EventPage) (start : Option EventCursor) : Prop :=
  (start = none ∧ tr = [] ∧ pages = []) ∨ ∃ c, start = some c ∧ Paging q tr pages (some c)

/-- One more request. -/
theorem PagedTo.ask {start : Option EventCursor} {limit : Nat} {page : EventPage} (h : PagedTo q tr pages start)
    (hlimit : 1 ≤ limit ∧ limit ≤ EventQuery.maxLimit) :
    Paging q (tr ++ [.query (q.page start limit) (.ok page)]) (pages ++ [page]) page.nextCursor := by
  obtain ⟨rfl, rfl, rfl⟩ | ⟨c, rfl, hpages⟩ := h
  · exact .first hlimit
  · rw [← List.append_nil tr]
    exact .follow hpages hlimit

/-- A conversation with the store, as the requests of a client that goes on from
where it is. -/
theorem PagedTo.finish (storeId : EntityId) (queueCapacity : Nat) {start : Option EventCursor} {limit : Nat}
    {more : List EventPage} (hlimit : 1 ≤ limit ∧ limit ≤ EventQuery.maxLimit)
    (hmore : Paged σ.store (q.page none limit) start more) (h : PagedTo q tr pages start) :
    ∃ client, (pipeline storeId queueCapacity).Run σ client σ ∧ Paging q (tr ++ client) (pages ++ more) none ∧
      (∀ l ∈ client, ∃ start page, l = .query (q.page start limit) (.ok page)) ∧ client.length = more.length := by
  have hask : ∀ {start page}, σ.store.query (q.page start limit) = .ok page →
      (pipeline storeId queueCapacity).step σ (.query (q.page start limit) (.ok page)) = some σ := by
    intro start page hquery
    exact if_pos hquery
  induction hmore generalizing tr pages with
  | @last start page hquery hnext =>
    refine ⟨[.query (q.page start limit) (.ok page)], Lts.Run.single (hask hquery), ?_, ?_, rfl⟩
    · rw [← hnext]
      exact h.ask hlimit
    · intro l hl
      exact ⟨start, page, List.mem_singleton.mp hl⟩
  | @next start page c more hquery hnext _ ih =>
    have hpaging : Paging q (tr ++ [.query (q.page start limit) (.ok page)]) _ _ := h.ask hlimit
    rw [hnext] at hpaging
    obtain ⟨client, hrun, hrest, hall, hlength⟩ := ih (.inr ⟨c, rfl, hpaging⟩)
    refine ⟨.query (q.page start limit) (.ok page) :: client, Lts.run_cons.mpr ⟨σ, hask hquery, hrun⟩, ?_, ?_, ?_⟩
    · rw [List.append_cons tr, List.append_cons pages]
      exact hrest
    · intro l hl
      rcases List.mem_cons.mp hl with rfl | hl
      · exact ⟨start, page, rfl⟩
      · exact hall l hl
    · rw [List.length_cons, List.length_cons, hlength]

/-! ## What was sent is stored -/

/-- A subscription keeps the filter it was registered with. -/
theorem filter_of_subscribe (h : (pipeline storeId queueCapacity).Run (State.new storeId queueCapacity) tr σ)
    (hsub : .bus (.subscribe s f) ∈ tr) :
    f.validate = .ok () ∧ ∃ m, σ.bus.subscriptions.lookup s = some m ∧ m.filter = f := by
  have hmem := (mem_busTrace rfl).mpr hsub
  obtain ⟨pre, post, b₀, b₁, _, hpre, (hstep : b₀.step (.subscribe s f) = some b₁), hpost⟩ :=
    (bus_run h).at_label hmem
  have hwf := MemoryEventBus.WellFormed.run hpre
  have hwf₁ := hwf.step hstep
  cases MemoryEventBus.step_effect hstep with
  | subscribe s f channel alive valid =>
    have hm₁ := AList.lookup_insert (a := s) (b := MemorySubscription.new f channel) b₀.subscriptions
    obtain ⟨m, hm, hfilter, _⟩ := hwf₁.subscription_run hpost hm₁
    exact ⟨valid, m, hm, hfilter⟩

/-- What is sent to a subscription matches its filter. -/
theorem matches_of_send (h : (pipeline storeId queueCapacity).Run (State.new storeId queueCapacity) tr σ)
    (hm : σ.bus.subscriptions.lookup s = some m) {result : TrySend} (hsend : .bus (.send d s event result) ∈ tr) :
    m.filter.matches event = true := by
  have hmem := (mem_busTrace rfl).mpr hsend
  obtain ⟨pre, post, b₀, b₁, _, hpre, (hstep : b₀.step (.send d s event result) = some b₁), hpost⟩ :=
    (bus_run h).at_label hmem
  have hwf := MemoryEventBus.WellFormed.run hpre
  obtain ⟨m₀, channel, _, hmatch, _, hm₁⟩ := hwf.send_step hstep
  obtain ⟨m', hm', hfilter, _⟩ := (hwf.step hstep).subscription_run hpost hm₁
  obtain rfl := Option.some.inj (hm.symm.trans hm')
  rw [hfilter]
  exact hmatch

/-- What is sent to a subscription is stored by then. -/
theorem stored_of_send (h : (pipeline storeId queueCapacity).Run (State.new storeId queueCapacity) tr σ)
    {result : TrySend} (hsend : .bus (.send d s event result) ∈ tr) :
    ∃ r ∈ σ.store.records, r.event = event := by
  have hinv := Invariant.run h
  obtain ⟨call, _, he, happended⟩ := hinv.batch_of_begun (begun_of_send h hsend)
  obtain ⟨r, hr, hevent⟩ := hinv.stored (happended ▸ he)
  exact ⟨r, (MemoryEventStore.State.get_eq_some_iff.mp hr).1, hevent⟩

/-- **Nothing is lost for good.** A client that pages the log with the query of
its filter, from the beginning and at any time after its registration, gets no
event twice and only matching ones, and among them every event that was sent to
its subscription before it began, whether it was queued, found the queue full or
found the subscription closed. From every state it can do so at once and alone,
in as few requests as the page limit allows. -/
theorem loss_recoverable (h : (pipeline storeId queueCapacity).Run (State.new storeId queueCapacity) before σ)
    (hsub : .bus (.subscribe s f) ∈ before) :
    (∀ client σ' pages, (pipeline storeId queueCapacity).Run σ client σ' → Paging f.query client pages none →
      let replayed := (records pages).map (·.event)
      replayed.Nodup ∧ (∀ event ∈ replayed, f.matches event = true) ∧
        (∀ x ∈ tries s (busTrace before), x.1 ∈ replayed) ∧ ∀ event ∈ returned s (busTrace before), event ∈ replayed) ∧
    ∀ limit, 1 ≤ limit ∧ limit ≤ EventQuery.maxLimit → ∃ client pages,
      (pipeline storeId queueCapacity).Run σ client σ ∧ Paging f.query client pages none ∧
      (∀ l ∈ client, ∃ start page, l = .query (f.query.page start limit) (.ok page)) ∧
      client.length = max 1 (((σ.store.records.filter fun r => f.matches r.event).length + limit - 1) / limit) := by
  obtain ⟨hvalid, m, hm, hfilter⟩ := filter_of_subscribe h hsub
  have hq := EventFilter.query_valid hvalid
  constructor
  · intro client σ' pages hclient hpages replayed
    have hreplayed : ∀ e, e ∈ replayed ↔ (∃ r ∈ σ'.store.records, r.event = e) ∧ f.matches e = true := by
      intro e
      rw [← f.matches_query e]
      exact hpages.mem_iff hq hclient
    have hgrown : σ.store.records <+: σ'.store.records :=
      (MemoryEventStore.run_extends (store_run hclient)).2
    have htried : ∀ x ∈ tries s (busTrace before), x.1 ∈ replayed := by
      intro x hx
      obtain ⟨pre, p, post, htr⟩ := MemoryEventBus.mem_tries hx
      have hsend : .bus (.send p s x.1 x.2) ∈ before := (mem_busTrace rfl).mp (by simp [htr])
      obtain ⟨r, hr, hevent⟩ := stored_of_send h hsend
      have hmatch := matches_of_send h hm hsend
      rw [hfilter] at hmatch
      exact (hreplayed x.1).mpr ⟨⟨r, hgrown.subset hr, hevent⟩, hmatch⟩
    refine ⟨hpages.nodup hq hclient, fun event he => ((hreplayed event).mp he).2, htried, ?_⟩
    intro event he
    have haccepted : event ∈ accepted s (busTrace before) := by
      rw [← MemoryEventBus.returned_append_queue (bus_run h) hm]
      exact List.mem_append_left _ he
    obtain ⟨x, hx, hevent⟩ := List.mem_map.mp haccepted
    rw [← hevent]
    exact htried x (List.mem_of_mem_filter hx)
  · intro limit hlimit
    have hselected : (σ.store.records.drop 0).filter (MemoryEventStore.selects (f.query.page none limit)) =
        σ.store.records.filter fun r => f.matches r.event := by
      rw [List.drop_zero]
      apply List.filter_congr
      intro r _
      exact f.matches_query r.event
    have hstart : σ.store.startPosition none = .ok 0 := rfl
    have hpage : (f.query.page none limit).FilterValid := hq
    obtain ⟨pages, hpaged, hchunks⟩ := MemoryEventStore.paged_chunks hpage hlimit hstart rfl
    obtain ⟨client, hrun, hpaging, hall, hlength⟩ :=
      PagedTo.finish storeId queueCapacity hlimit hpaged (.inl ⟨rfl, rfl, rfl⟩)
    refine ⟨client, pages, hrun, hpaging, hall, ?_⟩
    rw [← hselected, ← Paging.chunks_length hlimit.1, hlength, ← List.length_map, hchunks]
    rfl

/-- A queue of one that has lost the second event. -/
def lossy : List Label :=
  let held := Event.plain ⟨"held", by decide⟩ ⟨"canvas.drawn"⟩
  let missed := Event.plain ⟨"missed", by decide⟩ ⟨"canvas.drawn"⟩
  [.bus (.subscribe default .all), .dispatch 1 [held, missed],
    .append 1 held (.ok ⟨.forMemory default 1, held⟩), .append 1 missed (.ok ⟨.forMemory default 2, missed⟩),
    .persisted 1, .publish 1 held, .bus (.send 1 default held .sent), .bus (.endScan 1), .published 1,
    .publish 1 missed, .bus (.send 1 default missed .full), .bus (.countMissed 1 default)]

theorem loss_recoverable_lossy : ∃ client pages,
    (pipeline default 1).Run ((pipeline default 1).after lossy (by decide)) client
      ((pipeline default 1).after lossy (by decide)) ∧
    Paging EventFilter.all.query client pages none ∧ client.length = 1 ∧
    Event.plain ⟨"missed", by decide⟩ ⟨"canvas.drawn"⟩ ∈ (records pages).map (·.event) := by
  obtain ⟨hevery, halone⟩ := loss_recoverable (s := default) (f := .all)
    ((pipeline default 1).run_after lossy (by decide)) (by simp [lossy])
  obtain ⟨client, pages, hrun, hpages, _, hlength⟩ := halone 10 (by decide)
  refine ⟨client, pages, hrun, hpages, hlength.trans (by decide), ?_⟩
  exact (hevery client _ pages hrun hpages).2.2.1 (Event.plain ⟨"missed", by decide⟩ ⟨"canvas.drawn"⟩, .full)
    (by decide)

/-! ## The books at rest -/

/-- The events whose publish has begun, by any call. -/
def allBegun (tr : List Label) : List Event :=
  tr.filterMap fun
    | .publish _ event => some event
    | _ => none

/-- Whether a call has returned an error. -/
def failed (σ : State) (d : TaskId) : Bool :=
  match σ.dispatches.lookup d with
  | some ⟨_, .returned (.error _)⟩ => true
  | _ => false

/-- The event a step appends, and the call it appends it for. -/
def Label.append? : Label → Option (TaskId × Event)
  | .append d event (.ok _) => some (d, event)
  | _ => none

/-- The events that a call appended which has failed since. -/
def stranded (σ : State) (tr : List Label) : List Event :=
  ((tr.filterMap Label.append?).filter fun x => failed σ x.1).map Prod.snd

theorem appended_eq (d : TaskId) (tr : List Label) :
    appended d tr = ((tr.filterMap Label.append?).filter fun x => x.1 = d).map Prod.snd := by
  rw [appended, List.filter_filterMap, ← List.filterMap_eq_map, List.filterMap_filterMap]
  apply List.filterMap_congr
  intro l _
  cases l with
  | append d' event result =>
    cases result with
    | error => rfl
    | ok r => by_cases hd : d' = d <;> simp [Label.append?, Option.filter, hd]
  | _ => rfl

/-- With no call running, no publish is. -/
theorem AllReturned.idle (hrest : AllReturned σ) (h : Invariant tr σ) (p : TaskId) :
    σ.bus.publishes.lookup p = none := by
  cases hp : σ.bus.publishes.lookup p with
  | none => rfl
  | some pub =>
    obtain ⟨call, rest, hcall, hstage⟩ := h.publishing hp
    obtain ⟨result, hreturned⟩ := hrest p call hcall
    rw [hstage] at hreturned
    cases hreturned

/-- Only the call of an event begins to publish it. -/
theorem DispatchedOnce.count_allBegun (h : DispatchedOnce σ d call event)
    (hrun : (pipeline storeId queueCapacity).Run (State.new storeId queueCapacity) tr σ) (hp : before <+: tr) :
    (allBegun before).count event = (begun d before).count event := by
  rw [allBegun, begun, List.count, List.countP_filterMap, List.countP_filterMap]
  apply List.countP_congr
  intro l hl
  cases l with
  | publish d' e =>
    by_cases he : e = event
    · subst he
      have hbegun : e ∈ begun d' tr := List.mem_filterMap.mpr ⟨_, hp.subset hl, by simp⟩
      obtain ⟨call', hcall', he', _⟩ := (Invariant.run hrun).batch_of_begun hbegun
      obtain rfl := h.elsewhere hcall' he' rfl
      simp
    · by_cases hd : d' = d <;> simp [hd, he]
  | _ => simp

/-- Only the call of an event appends it. -/
theorem DispatchedOnce.task_of_append (h : DispatchedOnce σ d call event)
    (hrun : (pipeline storeId queueCapacity).Run (State.new storeId queueCapacity) tr σ) {d' : TaskId}
    (happend : (d', event) ∈ tr.filterMap Label.append?) : d' = d := by
  have happended : event ∈ appended d' tr := by
    rw [appended_eq]
    exact List.mem_map.mpr ⟨(d', event), List.mem_filter.mpr ⟨happend, by simp⟩, rfl⟩
  obtain ⟨call', hcall', he'⟩ := (Invariant.run hrun).mem_of_appended happended
  exact h.elsewhere hcall' he' rfl

/-- An event is stranded as often as its call has appended it, if the call failed. -/
theorem DispatchedOnce.count_stranded (h : DispatchedOnce σ d call event)
    (hrun : (pipeline storeId queueCapacity).Run (State.new storeId queueCapacity) tr σ) :
    (stranded σ tr).count event = if failed σ d then (appended d tr).count event else 0 := by
  have hcount : (stranded σ tr).count event =
      (tr.filterMap Label.append?).countP fun x => x.1 = d ∧ x.2 = event ∧ failed σ d = true := by
    rw [stranded, List.count, List.countP_map, List.countP_filter]
    apply List.countP_congr
    intro x hx
    by_cases he : x.2 = event
    · subst he
      have hd := h.task_of_append hrun hx
      simp [hd]
    · simp [he]
  rw [hcount]
  split
  · next hfailed =>
    rw [appended_eq, List.count, List.countP_map, List.countP_filter]
    apply List.countP_congr
    intro x _
    simp [hfailed, and_comm]
  · next hfailed => simp [hfailed]

/-- Of a call that failed nothing is published; of any other call that has
returned, everything is. -/
theorem failed_iff (h : (pipeline storeId queueCapacity).Run (State.new storeId queueCapacity) tr σ)
    (hrest : AllReturned σ) (hcall : σ.dispatches.lookup d = some call) :
    (failed σ d = true → begun d tr = []) ∧ (failed σ d = false → call.stage = .returned (.ok ())) := by
  obtain ⟨events, stage⟩ := call
  obtain ⟨result, rfl⟩ : ∃ result, stage = .returned result := hrest d _ hcall
  cases result with
  | ok => exact ⟨by simp [failed, hcall], fun _ => rfl⟩
  | error error => exact ⟨fun _ => begun_of_failed h ⟨_, error, hcall, rfl⟩, by simp [failed, hcall]⟩

/-- The event is in the batch of some call. -/
def Dispatched (σ : State) (event : Event) : Prop :=
  ∃ d call, σ.dispatches.lookup d = some call ∧ event ∈ call.events

/-- Whatever is stored, published, sent or stranded was dispatched. -/
theorem dispatched_of_mem (h : (pipeline storeId queueCapacity).Run (State.new storeId queueCapacity) tr σ)
    (hp : before <+: tr) (he : event ∈ σ.store.records.map (·.event) ∨ event ∈ allBegun before ∨
      event ∈ (tries s (busTrace tr)).map Prod.fst ∨ event ∈ stranded σ tr) : Dispatched σ event := by
  have hinv := Invariant.run h
  rcases he with he | he | he | he
  · obtain ⟨r, hr, rfl⟩ := List.mem_map.mp he
    obtain ⟨d, hd⟩ := hinv.origin hr
    exact ⟨d, hinv.mem_of_appended hd⟩
  · obtain ⟨l, hl, hevent⟩ := List.mem_filterMap.mp he
    cases l with
    | publish d e =>
      obtain rfl := Option.some.inj hevent
      have hbegun : e ∈ begun d tr := List.mem_filterMap.mpr ⟨_, hp.subset hl, by simp⟩
      obtain ⟨call, hcall, he', _⟩ := hinv.batch_of_begun hbegun
      exact ⟨d, call, hcall, he'⟩
    | _ => simp at hevent
  · obtain ⟨x, hx, rfl⟩ := List.mem_map.mp he
    obtain ⟨pre, d, post, htr⟩ := MemoryEventBus.mem_tries hx
    have hsend : .bus (.send d s x.1 x.2) ∈ tr := (mem_busTrace rfl).mp (by simp [htr])
    exact ⟨d, call_of_send h hsend⟩
  · obtain ⟨⟨d, e⟩, hx, rfl⟩ := List.mem_map.mp he
    have happended : e ∈ appended d tr := by
      rw [appended_eq]
      exact List.mem_map.mpr ⟨(d, e), List.mem_filter.mpr ⟨(List.mem_filter.mp hx).1, by simp⟩, rfl⟩
    exact ⟨d, hinv.mem_of_appended happended⟩

/-- The books of one event, whose call has returned. -/
theorem DispatchedOnce.balance (honce : DispatchedOnce σ d call event)
    (h : (pipeline storeId queueCapacity).Run (State.new storeId queueCapacity)
      (before ++ .bus (.subscribe s f) :: later) σ)
    (hm : σ.bus.subscriptions.lookup s = some m) (hopen : m.IsOpen)
    (hfresh : FreshIds (before ++ .bus (.subscribe s f) :: later)) (hrest : AllReturned σ)
    (hmatch : f.matches event = true) :
    (σ.store.records.map (·.event)).count event =
      (allBegun before).count event +
        ((tries s (busTrace (before ++ .bus (.subscribe s f) :: later))).map Prod.fst).count event +
        (stranded σ (before ++ .bus (.subscribe s f) :: later)).count event := by
  have hstored : (σ.store.records.map (·.event)).count event =
      (appended d (before ++ .bus (.subscribe s f) :: later)).count event := by
    rw [← hfresh.records_of_call h honce.called, List.count_filter (by simpa using honce.mem)]
  have hbegun : begun d (before ++ .bus (.subscribe s f) :: later) = begun d before ++ begun d later :=
    begun_append before _
  obtain ⟨hnone, hall⟩ := failed_iff h hrest honce.called
  rw [hstored, honce.count_allBegun h (List.prefix_append _ _), honce.count_tries h, honce.count_stranded h]
  cases hfailed : failed σ d with
  | true =>
    -- nothing of it was published, so nothing was sent
    have hempty := hnone hfailed
    have hle := MemoryEventBus.count_offers_le (bus_run h) hm hopen d event
    rw [published_busTrace h, hempty] at hle
    rw [hbegun] at hempty
    rw [(List.append_eq_nil_iff.mp hempty).1, Nat.le_zero.mp hle]
    simp
  | false =>
    -- all of it was published, before the registration or since
    have hreturned := hall hfailed
    have hprogress := (Invariant.run h).call honce.called
    rw [hreturned] at hprogress
    rw [offers_of_returned h hm hopen honce.called hreturned, List.count_filter hmatch, hprogress.1,
      ← hprogress.2, hbegun, List.count_append]
    simp

/-- With nothing in flight, what was dropped is reported or counted. -/
theorem reported_at_rest (h : (pipeline storeId queueCapacity).Run (State.new storeId queueCapacity) tr σ)
    (hm : σ.bus.subscriptions.lookup s = some m) (hrest : AllReturned σ)
    (hlimit : (dropped s (busTrace tr)).length < u64Max) :
    reported s (busTrace tr) + m.lagged = (dropped s (busTrace tr)).length := by
  -- no publisher stands before an addition
  have hidle : MemoryEventBus.inFlight s σ.bus = 0 := by
    rw [MemoryEventBus.inFlight, List.length_eq_zero_iff, List.filter_eq_nil_iff]
    intro x hx _
    have hnone := hrest.idle (Invariant.run h) x.1
    rw [Table.mem_entries_iff.mp hx] at hnone
    cases hnone
  rw [← MemoryEventBus.reported_add_lagged (bus_run h) hm hlimit, hidle, Nat.add_zero]

/-- **The books close.** When no call is running and no id was dispatched twice,
the matching records of the store are exactly, each once, the events published
before the subscription was registered, those it has returned, those it has
queued, those it has dropped, and those of failed calls, which were never
published; and it has been told, or has in its counter, how many it dropped. -/
theorem books_close_at_rest
    (h : (pipeline storeId queueCapacity).Run (State.new storeId queueCapacity)
      (before ++ .bus (.subscribe s f) :: later) σ)
    (hm : σ.bus.subscriptions.lookup s = some m) (hopen : m.IsOpen)
    (hfresh : FreshIds (before ++ .bus (.subscribe s f) :: later)) (hrest : AllReturned σ) :
    let tr := before ++ .bus (.subscribe s f) :: later
    ((σ.store.records.map (·.event)).filter f.matches).Perm
      ((allBegun before).filter f.matches ++
        (returned s (busTrace tr) ++ m.channel.queue ++ dropped s (busTrace tr)) ++
        (stranded σ tr).filter f.matches) ∧
    ((dropped s (busTrace tr)).length < u64Max →
      reported s (busTrace tr) + m.lagged = (dropped s (busTrace tr)).length) := by
  intro tr
  refine ⟨?_, reported_at_rest h hm hrest⟩
  have hfilter : m.filter = f := by
    have hsub : .bus (.subscribe s f) ∈ tr := List.mem_append_right _ List.mem_cons_self
    obtain ⟨_, m', hm', hfilter⟩ := filter_of_subscribe h hsub
    obtain rfl := Option.some.inj (hm.symm.trans hm')
    exact hfilter
  have htries : (returned s (busTrace tr) ++ m.channel.queue ++ dropped s (busTrace tr)).Perm
      ((tries s (busTrace tr)).map Prod.fst) :=
    MemoryEventBus.perm_tries (bus_run h) hm hopen
  apply List.Perm.trans _ ((htries.symm.append_left _).append_right _)
  rw [List.perm_iff_count]
  intro event
  rw [List.count_append, List.count_append]
  by_cases hmatch : f.matches event = true
  · rw [List.count_filter hmatch, List.count_filter hmatch, List.count_filter hmatch]
    by_cases hdispatched : Dispatched σ event
    · obtain ⟨d, call, hcall, he⟩ := hdispatched
      exact (hfresh.dispatchedOnce h hcall he).balance h hm hopen hfresh hrest hmatch
    · -- what was not dispatched is nowhere
      have hnowhere := mt (dispatched_of_mem (s := s) h (List.prefix_append before _)) hdispatched
      rw [List.count_eq_zero_of_not_mem fun he => hnowhere (.inl he),
        List.count_eq_zero_of_not_mem fun he => hnowhere (.inr (.inl he)),
        List.count_eq_zero_of_not_mem fun he => hnowhere (.inr (.inr (.inl he))),
        List.count_eq_zero_of_not_mem fun he => hnowhere (.inr (.inr (.inr he)))]
  · have hunsent : event ∉ (tries s (busTrace tr)).map Prod.fst := by
      intro he
      obtain ⟨x, hx, rfl⟩ := List.mem_map.mp he
      obtain ⟨pre, d, post, htr⟩ := MemoryEventBus.mem_tries hx
      have hsend : .bus (.send d s x.1 x.2) ∈ tr := (mem_busTrace rfl).mp (by simp [htr])
      have hsent := matches_of_send h hm hsend
      rw [hfilter] at hsent
      exact hmatch hsent
    have hdropped : ∀ events : List Event, (events.filter f.matches).count event = 0 := by
      intro events
      rw [List.count_eq_zero, List.mem_filter]
      exact fun hmem => hmatch hmem.2
    rw [hdropped, hdropped, hdropped, List.count_eq_zero_of_not_mem hunsent]

/-- An event before the registration, then three of which the second is lost, the
first is read and the third is queued, and a call that fails at its second event. -/
def beforeSubscribing : List Label :=
  let ahead := Event.plain ⟨"ahead", by decide⟩ ⟨"canvas.drawn"⟩
  [.dispatch 1 [ahead], .append 1 ahead (.ok ⟨.forMemory default 1, ahead⟩), .persisted 1, .publish 1 ahead,
    .bus (.endScan 1), .published 1, .returned 1]

def sinceSubscribing : List Label :=
  let held := Event.plain ⟨"held", by decide⟩ ⟨"canvas.drawn"⟩
  let missed := Event.plain ⟨"missed", by decide⟩ ⟨"canvas.drawn"⟩
  let queued := Event.plain ⟨"queued", by decide⟩ ⟨"canvas.drawn"⟩
  let halfway := Event.plain ⟨"halfway", by decide⟩ ⟨"canvas.drawn"⟩
  let refused := Event.plain ⟨"refused", by decide⟩ ⟨"canvas.drawn"⟩
  [.dispatch 2 [held, missed, queued], .append 2 held (.ok ⟨.forMemory default 2, held⟩),
    .append 2 missed (.ok ⟨.forMemory default 3, missed⟩), .append 2 queued (.ok ⟨.forMemory default 4, queued⟩),
    .persisted 2, .publish 2 held, .bus (.send 2 default held .sent), .bus (.endScan 2), .published 2,
    .publish 2 missed, .bus (.send 2 default missed .full), .bus (.countMissed 2 default), .bus (.endScan 2),
    .published 2, .bus (.owner default (.nextEvent (.lagged 1))), .bus (.owner default (.nextEvent (.receive false))),
    .bus (.owner default (.received (some held))),
    .publish 2 queued, .bus (.send 2 default queued .sent), .bus (.endScan 2), .published 2, .returned 2,
    .dispatch 3 [halfway, refused], .append 3 halfway (.ok ⟨.forMemory default 5, halfway⟩),
    .appendFailed 3 refused (.eventConflict refused.id)]

theorem books_close_at_rest_settled :
    let tr := beforeSubscribing ++ .bus (.subscribe default .all) :: sinceSubscribing
    ∃ queue, ((((pipeline default 1).after tr (by decide)).store.records.map (·.event)).filter
        EventFilter.all.matches).Perm
      ((allBegun beforeSubscribing).filter EventFilter.all.matches ++
        (returned default (busTrace tr) ++ queue ++ dropped default (busTrace tr)) ++
        (stranded ((pipeline default 1).after tr (by decide)) tr).filter EventFilter.all.matches) := by
  intro tr
  have hrest : AllReturned ((pipeline default 1).after tr (by decide)) := by
    intro d call hcall
    have hstages : ∀ x ∈ ((pipeline default 1).after tr (by decide)).dispatches.entries,
        x.2.stage = .returned (.ok ()) ∨
        x.2.stage = .returned (.error (persistenceFailed (Event.plain ⟨"refused", by decide⟩ ⟨"canvas.drawn"⟩))) := by
      decide
    rcases hstages _ (Table.mem_entries_iff.mpr hcall) with hstage | hstage
    · exact ⟨_, hstage⟩
    · exact ⟨_, hstage⟩
  exact ⟨_, (books_close_at_rest ((pipeline default 1).run_after tr (by decide)) (Option.some_get (by decide)).symm
    (by decide) (by decide) hrest).1⟩

end OrbitRelay.PipelineAdapter
