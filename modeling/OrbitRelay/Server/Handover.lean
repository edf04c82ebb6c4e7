import OrbitRelay.Server.Durability
import OrbitRelay.Storage.Replay

/-
  From replay to live delivery.

  A client subscribes, then reads the log from its beginning page by page, and
  keeps the subscription. An event published before the subscription was stored
  before it, so the pages have it; an event published after it is sent. Nothing
  else can happen to an event, since a publish is either over or still to come
  when the map takes a new entry. The filter and the query select by two
  functions written apart, and agree.
-/

namespace OrbitRelay

/-- The query with the conditions of a filter. -/
def EventFilter.query (f : EventFilter) : EventQuery :=
  { EventQuery.all with sessionId := f.sessionId, actorId := f.actorId, eventTypes := f.eventTypes }

/-- The two ways of matching agree. -/
theorem EventFilter.matches_query (f : EventFilter) (event : Event) :
    f.query.matches event = f.matches event := by
  simp only [EventFilter.query, EventQuery.matches, EventFilter.matches, EventQuery.all, Option.all_none,
    Bool.and_true]
  rw [Bool.and_assoc, Bool.and_assoc]
  congr 1
  exact Bool.and_comm _ _

theorem EventFilter.query_valid {f : EventFilter} (h : f.validate = .ok ()) : f.query.FilterValid :=
  ⟨(EventFilter.validate_ok_iff f).mp h, rfl⟩

namespace PipelineAdapter

open MemoryEventStore (Replay State.startsAt_none records)
open MemoryEventBus (accepted counting dropped inFlight offers pending refused reported returned tries)

/-- The requests of one client in a trace: the pages it has got, and the cursor
it follows next. What lies between two requests is anything. -/
inductive Paging (q : EventQuery) : List Label → List EventPage → Option EventCursor → Prop where
  | first {tr limit page} : 1 ≤ limit ∧ limit ≤ EventQuery.maxLimit →
      Paging q (tr ++ [.query (q.page none limit) (.ok page)]) [page] page.nextCursor
  | follow {tr tr' pages c limit page} : Paging q tr pages (some c) →
      1 ≤ limit ∧ limit ≤ EventQuery.maxLimit →
      Paging q (tr ++ tr' ++ [.query (q.page (some c) limit) (.ok page)]) (pages ++ [page]) page.nextCursor

variable {storeId : EntityId} {queueCapacity : Nat} {σ σ' : State} {l : Label} {tr before client later : List Label}
  {d : TaskId} {s : SubscriptionId} {f : EventFilter} {call : Dispatch} {event : Event} {m : MemorySubscription}
  {pages : List EventPage}

/-- A client's requests are a replay of the store. -/
theorem Paging.replay {q : EventQuery} {next : Option EventCursor} (h : Paging q tr pages next)
    (hrun : (pipeline storeId queueCapacity).Run σ tr σ') :
    Replay storeId q none σ.store pages σ'.store next := by
  have hlast : ∀ {τ τ' : State} {q' page}, τ.step (.query q' (.ok page)) = some τ' →
      τ.store.query q' = .ok page ∧ τ' = τ := by
    intro τ τ' q' page hstep
    simp only [State.step, Option.ite_none_right_eq_some, Option.some.injEq] at hstep
    exact ⟨hstep.1, hstep.2.symm⟩
  induction h generalizing σ' with
  | first hlimit =>
    obtain ⟨τ, hτ, hstep⟩ := Lts.run_snoc.mp hrun
    obtain ⟨hpage, rfl⟩ := hlast hstep
    exact .first (store_run hτ) hlimit hpage
  | follow _ hlimit ih =>
    obtain ⟨τ, hτ, hstep⟩ := Lts.run_snoc.mp hrun
    obtain ⟨hpage, rfl⟩ := hlast hstep
    -- the store may have moved between the two requests
    obtain ⟨υ, hυ, hυτ⟩ := Lts.run_append.mp hτ
    exact .follow (ih hυ) (store_run hυτ) hlimit hpage

/-! ## One event -/

/-- What a call has appended is from its batch. -/
theorem Invariant.mem_of_appended (h : Invariant tr σ) (he : event ∈ appended d tr) :
    ∃ call, σ.dispatches.lookup d = some call ∧ event ∈ call.events := by
  cases hcall : σ.dispatches.lookup d with
  | none => simp [(h.uncalled hcall).1] at he
  | some call => exact ⟨call, rfl, (h.appended_of_batch hcall).subset he⟩

/-- The id of `event` is dispatched once, by call `d`. -/
structure DispatchedOnce (σ : State) (d : TaskId) (call : Dispatch) (event : Event) : Prop where
  called : σ.dispatches.lookup d = some call
  mem : event ∈ call.events
  once : (call.events.map (·.id)).count event.id = 1
  elsewhere : ∀ {d' call' e}, σ.dispatches.lookup d' = some call' → e ∈ call'.events → e.id = event.id → d' = d

theorem DispatchedOnce.eq_of_id (h : DispatchedOnce σ d call event) {e : Event} (he : e ∈ call.events)
    (hid : e.id = event.id) : e = event := by
  have hone : (call.events.filter fun e => e.id = event.id).length = 1 := by
    rw [← h.once, List.count, List.countP_map, List.countP_eq_length_filter]
    congr 1
  obtain ⟨x, hx⟩ := List.length_eq_one_iff.mp hone
  have hmem : ∀ {y}, y ∈ call.events → y.id = event.id → y = x := fun hy hyid =>
    List.mem_singleton.mp (hx ▸ List.mem_filter.mpr ⟨hy, by simpa using hyid⟩)
  rw [hmem he hid, hmem h.mem rfl]

theorem DispatchedOnce.count_events (h : DispatchedOnce σ d call event) : call.events.count event = 1 := by
  have hle : call.events.count event ≤ (call.events.map (·.id)).count event.id := List.count_le_count_map
  have hpos := List.count_pos_iff.mpr h.mem
  have := h.once
  omega

/-- Only call `d` can have sent the event. -/
theorem DispatchedOnce.task_of_send (h : DispatchedOnce σ d call event)
    (hrun : (pipeline storeId queueCapacity).Run (State.new storeId queueCapacity) tr σ) {d' : TaskId}
    {result : TrySend} (hsend : .bus (.send d' s event result) ∈ tr) : d' = d := by
  obtain ⟨call', hcall', he, _⟩ := (Invariant.run hrun).batch_of_begun (begun_of_send hrun hsend)
  exact h.elsewhere hcall' he rfl

/-- The event is sent to `s` as often as call `d` sends it. -/
theorem DispatchedOnce.count_tries (h : DispatchedOnce σ d call event)
    (hrun : (pipeline storeId queueCapacity).Run (State.new storeId queueCapacity) tr σ) :
    ((tries s (busTrace tr)).map Prod.fst).count event = (offers d s (busTrace tr)).count event := by
  rw [← List.filterMap_eq_map, tries, List.filterMap_filterMap, offers, List.count,
    List.countP_filterMap, List.countP_filterMap]
  apply List.countP_congr
  intro k hk
  cases k with
  | send d' s' e result =>
    by_cases hs : s' = s
    · subst hs
      by_cases he : e = event
      · subst he
        obtain rfl := h.task_of_send hrun ((mem_busTrace rfl).mp hk)
        simp
      · by_cases hd : d' = d <;> simp [hd, he]
    · simp [hs]
  | _ => simp

/-- A stored record with the id is a record of the event. -/
theorem DispatchedOnce.eq_of_stored (h : DispatchedOnce σ d call event)
    (hrun : (pipeline storeId queueCapacity).Run (State.new storeId queueCapacity) tr σ) {r : StoredEvent}
    (hr : r ∈ σ.store.records) (hid : r.event.id = event.id) : r.event = event := by
  have hinv := Invariant.run hrun
  obtain ⟨d', hd'⟩ := hinv.origin hr
  obtain ⟨call', hcall', he⟩ := hinv.mem_of_appended hd'
  obtain rfl := h.elsewhere hcall' he hid
  obtain rfl := Option.some.inj (h.called.symm.trans hcall')
  exact h.eq_of_id he hid

/-! ## The hand-over -/

theorem busTrace_subscribe (before rest : List Label) (s : SubscriptionId) (f : EventFilter) :
    busTrace (before ++ .bus (.subscribe s f) :: rest) = busTrace before ++ .subscribe s f :: busTrace rest := by
  rw [busTrace_append]
  rfl

/-- A call that has returned owes nobody anything. -/
theorem Invariant.idle_of_returned (h : Invariant tr σ) (hcall : σ.dispatches.lookup d = some call)
    {result : Except PipelineError Unit} (hstage : call.stage = .returned result) :
    σ.bus.publishes.lookup d = none := by
  cases hp : σ.bus.publishes.lookup d with
  | none => rfl
  | some pub => exact absurd rfl (h.not_publishing hcall (by simp [hstage]) hp)

/-- What a call that has returned Ok has sent to a subscription: the matching
part of what it began to publish after the registration. -/
theorem offers_of_returned
    (h : (pipeline storeId queueCapacity).Run (State.new storeId queueCapacity)
      (before ++ .bus (.subscribe s f) :: later) σ)
    (hm : σ.bus.subscriptions.lookup s = some m) (hopen : m.IsOpen)
    (hcall : σ.dispatches.lookup d = some call) (hok : call.stage = .returned (.ok ())) :
    offers d s (busTrace (before ++ .bus (.subscribe s f) :: later)) = (begun d later).filter f.matches := by
  have hbus := bus_run h
  rw [busTrace_subscribe] at hbus ⊢
  obtain ⟨σ₀, σ₁, _, _, hpost⟩ := run_split.mp h
  obtain ⟨rfl, hoffers⟩ := MemoryEventBus.offers_since_subscribe hbus hm hopen
  have hbal := hoffers d
  rw [published_busTrace hpost, MemoryEventBus.pending_of_idle ((Invariant.run h).idle_of_returned hcall hok),
    List.append_nil] at hbal
  exact hbal

/-- With its call returned Ok, the event was published once. -/
theorem DispatchedOnce.count_begun (h : DispatchedOnce σ d call event)
    (hrun : (pipeline storeId queueCapacity).Run (State.new storeId queueCapacity) tr σ)
    (hok : call.stage = .returned (.ok ())) : (begun d tr).count event = 1 := by
  have hprogress := (Invariant.run hrun).call h.called
  rw [hok] at hprogress
  rw [hprogress.2, h.count_events]

/-- What the pages of a whole replay hold: the matching events that are stored
at its end. -/
theorem Paging.mem_iff {q : EventQuery} (hq : q.FilterValid) (h : Paging q tr pages none)
    (hrun : (pipeline storeId queueCapacity).Run σ tr σ') :
    event ∈ (records pages).map (·.event) ↔
      (∃ r ∈ σ'.store.records, r.event = event) ∧ q.matches event = true := by
  rw [(h.replay hrun).complete hq (State.startsAt_none _), List.drop_zero, List.mem_map]
  constructor
  · intro hmem
    obtain ⟨r, hr, rfl⟩ := hmem
    obtain ⟨hmem, hmatch⟩ := List.mem_filter.mp hr
    exact ⟨⟨r, hmem, rfl⟩, hmatch⟩
  · intro hmem
    obtain ⟨⟨r, hr, rfl⟩, hmatch⟩ := hmem
    exact ⟨r, List.mem_filter.mpr ⟨hr, hmatch⟩, rfl⟩

/-- The pages repeat no event. -/
theorem Paging.nodup {q : EventQuery} (hq : q.FilterValid) (h : Paging q tr pages none)
    (hrun : (pipeline storeId queueCapacity).Run σ tr σ') : ((records pages).map (·.event)).Nodup := by
  rw [(h.replay hrun).complete hq (State.startsAt_none _), List.drop_zero]
  exact σ'.store.nodup_events.sublist (List.filter_sublist.map _)

/-- **No gap and no duplicate.** A client subscribes, pages the log to its end
and keeps the subscription. An event whose id is dispatched once, by a call that
returned Ok at whatever time, is in the pages or was sent to the subscription
exactly once, and with what the pages already have dropped from the live events
it is there exactly once, if the filter matches it; and it is in neither if not.
As often as it was sent it was returned, is in the queue, or was dropped: every
send was queued or refused, what was queued is what the subscription has
returned and has in its queue, what was refused is what it has reported, has in
its lag counter, or what a publisher is about to add to it. The call has added
every drop of its own. -/
theorem no_gap_at_handover
    (h : (pipeline storeId queueCapacity).Run (State.new storeId queueCapacity)
      (before ++ .bus (.subscribe s f) :: (client ++ later)) σ)
    (hpages : Paging f.query client pages none)
    (hm : σ.bus.subscriptions.lookup s = some m) (hopen : m.IsOpen)
    (honce : DispatchedOnce σ d call event) (hok : call.stage = .returned (.ok ())) :
    let replayed := (records pages).map (·.event)
    let trace := busTrace (before ++ .bus (.subscribe s f) :: (client ++ later))
    let live := (tries s trace).map Prod.fst
    (f.matches event = true →
      (event ∈ replayed ∨ live.count event = 1) ∧
        replayed.count event + (live.filter fun e => e.id ∉ replayed.map (·.id)).count event = 1) ∧
    (f.matches event = false → event ∉ replayed ∧ event ∉ live) ∧ live.count event ≤ 1 ∧
    live.count event = (returned s trace ++ m.channel.queue).count event + (dropped s trace).count event ∧
    (∀ x ∈ tries s trace, x.2 = .sent ∨ x.2 = .full) ∧
    returned s trace ++ m.channel.queue = accepted s trace ∧
    ((dropped s trace).length < u64Max →
      reported s trace + m.lagged + inFlight s σ.bus = (dropped s trace).length) ∧
    (refused s trace).count d = (counting s trace).count d := by
  intro replayed trace live
  obtain ⟨σ₀, σ₁, hbefore, hstep, hrest⟩ := run_split.mp h
  obtain ⟨σ₂, hclient, hlater⟩ := Lts.run_append.mp hrest
  have hinv := Invariant.run h
  have hq : f.query.FilterValid := by
    cases step_effect hstep with
    | bus k bus foreign stepped =>
      cases MemoryEventBus.step_effect stepped with
      | subscribe s f channel alive valid => exact EventFilter.query_valid valid
  have hreplayed : ∀ e, e ∈ replayed ↔ (∃ r ∈ σ₂.store.records, r.event = e) ∧ f.matches e = true := by
    intro e
    rw [← f.matches_query e]
    exact hpages.mem_iff hq hclient
  have hgrown : σ₂.store.records <+: σ.store.records :=
    (MemoryEventStore.run_extends (store_run hlater)).2
  -- the live events are those of the call that began after the registration
  have hlive : live.count event = ((begun d (client ++ later)).filter f.matches).count event := by
    rw [← offers_of_returned h hm hopen honce.called hok]
    exact honce.count_tries h
  have hbegun : (begun d before).count event + (begun d (client ++ later)).count event = 1 := by
    have hone := honce.count_begun h hok
    rw [begun_append, List.count_append] at hone
    exact hone
  -- an event that was published before is stored before, and so in the pages
  have hearlier : 0 < (begun d before).count event → ∃ r ∈ σ₂.store.records, r.event = event := by
    intro hpos
    have hinv₀ := Invariant.run hbefore
    obtain ⟨_, _, he, happended⟩ := hinv₀.batch_of_begun (List.count_pos_iff.mp hpos)
    obtain ⟨r, hr, hevent⟩ := hinv₀.stored (happended ▸ he)
    have hmid : σ₀.store.records <+: σ₂.store.records :=
      (step_extends hstep).2.trans (MemoryEventStore.run_extends (store_run hclient)).2
    exact ⟨r, hmid.subset ((MemoryEventStore.State.get_eq_some_iff.mp hr).1), hevent⟩
  have hsame : event.id ∈ replayed.map (·.id) → event ∈ replayed := by
    intro hid
    obtain ⟨e, he, heid⟩ := List.mem_map.mp hid
    obtain ⟨⟨r, hr, rfl⟩, _⟩ := (hreplayed e).mp he
    rwa [honce.eq_of_stored h (hgrown.subset hr) heid] at he
  refine ⟨fun hmatch => ?_, fun hmatch => ?_, ?_, ?_, MemoryEventBus.sent_or_full (bus_run h) hm hopen,
    MemoryEventBus.returned_append_queue (bus_run h) hm, MemoryEventBus.reported_add_lagged (bus_run h) hm, ?_⟩
  -- it matches: in the pages it is dropped from the live events, else it is one of them
  · rw [List.count_filter hmatch] at hlive
    by_cases hin : event ∈ replayed
    · have hdropped : (live.filter fun e => e.id ∉ replayed.map (·.id)).count event = 0 := by
        rw [List.count_eq_zero, List.mem_filter]
        simpa using fun _ => ⟨event, hin, rfl⟩
      rw [List.count_eq_one_of_mem (hpages.nodup hq hclient) hin, hdropped]
      exact ⟨.inl hin, rfl⟩
    · have hone : live.count event = 1 := by
        have hnot : ¬0 < (begun d before).count event := fun hpos =>
          hin ((hreplayed event).mpr ⟨hearlier hpos, hmatch⟩)
        omega
      rw [List.count_filter (by simpa using mt hsame hin), hone, List.count_eq_zero_of_not_mem hin]
      exact ⟨.inr rfl, rfl⟩
  · refine ⟨fun hin => ?_, ?_⟩
    · simp [((hreplayed event).mp hin).2] at hmatch
    · rw [← List.count_eq_zero, hlive, List.count_eq_zero, List.mem_filter]
      simp [hmatch]
  · have hle : ((begun d (client ++ later)).filter f.matches).count event ≤ (begun d (client ++ later)).count event :=
      List.Sublist.count_le event List.filter_sublist
    omega
  · rw [← List.count_append]
    exact ((MemoryEventBus.perm_tries (bus_run h) hm hopen).count_eq event).symm
  · exact (MemoryEventBus.count_refused (bus_run h) hm d).1
      (MemoryEventBus.not_laggingAt_of_none (hinv.idle_of_returned honce.called hok))

/-- A client whose one page falls between the append and the publish of an event. -/
def clientSteps : List Label :=
  let event := Event.plain default ⟨"canvas.drawn"⟩
  [.dispatch 1 [event], .append 1 event (.ok ⟨.forMemory default 1, event⟩),
    .query (EventFilter.all.query.page none 10) (.ok ⟨[⟨.forMemory default 1, event⟩], none⟩)]

def laterSteps : List Label :=
  let event := Event.plain default ⟨"canvas.drawn"⟩
  [.persisted 1, .publish 1 event, .bus (.send 1 default event .sent), .bus (.endScan 1), .published 1, .returned 1]

/-- The event is both in the page and live, and so dropped from the live ones. -/
theorem no_gap_at_handover_between :
    let event := Event.plain default ⟨"canvas.drawn"⟩
    let live := (tries default (busTrace (.bus (.subscribe default .all) :: (clientSteps ++ laterSteps)))).map Prod.fst
    [event].count event + (live.filter fun e => e.id ∉ [event].map (·.id)).count event = 1 := by
  intro event live
  have hrun : (pipeline default 1).Run (State.new default 1)
      ([] ++ .bus (.subscribe default .all) :: (clientSteps ++ laterSteps)) _ :=
    (pipeline default 1).run_after _ (by decide)
  have hpages : Paging EventFilter.all.query clientSteps [⟨[⟨.forMemory default 1, event⟩], none⟩] none :=
    @Paging.first _ (clientSteps.take 2) 10 _ (by decide)
  have honce : DispatchedOnce ((pipeline default 1).after (.bus (.subscribe default .all) :: (clientSteps ++ laterSteps))
      (by decide)) 1 ⟨[event], .returned (.ok ())⟩ event := {
    called := by decide
    mem := by decide
    once := by decide
    elsewhere := by
      intro d' call' e hcall _ _
      have hkeys : ∀ x ∈ ((pipeline default 1).after (.bus (.subscribe default .all) :: (clientSteps ++ laterSteps))
          (by decide)).dispatches.entries, x.1 = 1 := by decide
      exact hkeys _ (Table.mem_entries_iff.mpr hcall) }
  exact ((no_gap_at_handover hrun hpages (Option.some_get (by decide)).symm (by decide) honce rfl).1
    (by decide)).2

end PipelineAdapter

end OrbitRelay
