import OrbitRelay.Lib.Paging
import OrbitRelay.Storage.Memory

/-
  Replay: reading the store page by page while it grows.

  A client asks for a page, then for the page after its `nextCursor`, and so
  on until there is none; between two requests anything may be appended, and
  every request picks its own limit. `Replay` is that conversation. Its
  invariant is that the pages so far are one window of the log: the matching
  records after the start and up to the position of the cursor to follow. The
  cursor is the store's own, so the next request is accepted, and its page is
  the window that meets this one.
-/

namespace OrbitRelay.MemoryEventStore

open Paging

/-- Whether a record is one the query selects. -/
def selects (q : EventQuery) (r : StoredEvent) : Bool := q.matches r.event

/-- `start` is no cursor at all, at position 0, or the cursor of the record at
position `p`. -/
def State.StartsAt (σ : State) (start : Option EventCursor) (p : Nat) : Prop :=
  match start with
  | none => p = 0
  | some c => 0 < p ∧ p ≤ σ.records.length ∧ c = EventCursor.forMemory σ.storeId p

variable {σ τ : State} {q : EventQuery} {start : Option EventCursor} {p limit : Nat}

theorem State.startsAt_none (σ : State) : σ.StartsAt none 0 := rfl

theorem State.StartsAt.le (h : σ.StartsAt start p) : p ≤ σ.records.length := by
  cases start with
  | none =>
    have hp : p = 0 := h
    omega
  | some c => exact h.2.1

theorem State.StartsAt.extends (h : σ.StartsAt start p) (hext : Extends σ τ) : τ.StartsAt start p := by
  cases start with
  | none => exact h
  | some c =>
    obtain ⟨hpos, hle, hc⟩ := h
    exact ⟨hpos, Nat.le_trans hle hext.2.length_le, by rw [hc, hext.1]⟩

/-- The cursor of any record is a start, at the record's position. -/
theorem State.startsAt_of_record {i : Nat} {r : StoredEvent} (h : σ.records[i]? = some r) :
    σ.StartsAt (some r.cursor) (i + 1) :=
  ⟨Nat.succ_pos i, (List.getElem?_eq_some_iff.mp h).1, σ.positioned i r h⟩

theorem State.StartsAt.not_isEmpty (h : σ.StartsAt start p) : start.all (!·.isEmpty) := by
  cases start with
  | none => rfl
  | some c =>
    obtain ⟨_, _, rfl⟩ := h
    simp [EventCursor.forMemory_isEmpty]

/-! ## One page -/

theorem State.startPosition_of_startsAt (h : σ.StartsAt start p) : σ.startPosition start = .ok p := by
  cases start with
  | none => exact congrArg Except.ok h.symm
  | some c =>
    obtain ⟨hpos, hle, rfl⟩ := h
    exact EventCursor.memoryPosition_forMemory σ.storeId hpos hle

/-- The look-ahead decides whether there is a next page; the page is cut to its
limit either way. -/
theorem State.pageFrom_page (σ : State) (q : EventQuery) (start : Option EventCursor) (p limit : Nat) :
    (σ.pageFrom (q.page start limit) p).events = (rest (selects q) p σ.records).take limit ∧
      (σ.pageFrom (q.page start limit) p).nextCursor =
        (if (rest (selects q) p σ.records).length ≤ limit then none
          else ((rest (selects q) p σ.records).take limit).getLast?.map (·.cursor)) := by
  have hrest : (σ.records.drop p).filter (fun r => (q.page start limit).matches r.event) =
      rest (selects q) p σ.records := rfl
  have hlim : (q.page start limit).limit = limit := rfl
  simp only [State.pageFrom, hrest, hlim, List.length_take]
  by_cases hmore : (rest (selects q) p σ.records).length ≤ limit
  · have hshort : ¬min (limit + 1) (rest (selects q) p σ.records).length > limit := by omega
    rw [if_neg hshort, if_pos hmore, List.take_of_length_le (by omega : _ ≤ limit + 1),
      List.take_of_length_le hmore]
    exact ⟨rfl, rfl⟩
  · have hlong : min (limit + 1) (rest (selects q) p σ.records).length > limit := by omega
    rw [if_pos hlong, if_neg hmore, List.take_take, Nat.min_eq_left (Nat.le_succ limit)]
    exact ⟨rfl, rfl⟩

/-- A page that is not the last is the window up to a position, and its cursor
names that position. -/
theorem State.pageFrom_next (σ : State) (q : EventQuery) (start : Option EventCursor) (p : Nat)
    {limit : Nat} (hlimit : 1 ≤ limit) (hmore : limit < (rest (selects q) p σ.records).length) :
    ∃ b, p < b ∧ b ≤ σ.records.length ∧
      window (selects q) p b σ.records = (rest (selects q) p σ.records).take limit ∧
      (σ.pageFrom (q.page start limit) p).nextCursor = some (EventCursor.forMemory σ.storeId b) := by
  obtain ⟨_, hnext⟩ := State.pageFrom_page σ q start p limit
  obtain ⟨b, hpb, hb, hwin, _, hlast⟩ := exists_cut (selects q) hlimit (Nat.zero_lt_of_lt hmore)
  have hlt : b - 1 < σ.records.length := by omega
  refine ⟨b, hpb, hb, hwin, ?_⟩
  rw [hnext, if_neg (by omega), ← hlast, List.getElem?_eq_getElem hlt, Option.map_some,
    σ.positioned (b - 1) _ (List.getElem?_eq_getElem hlt)]
  congr 2
  omega

/-- A valid query whose start the store accepts is answered. -/
theorem State.query_at (hq : q.validate = .ok ()) (hstart : σ.startPosition q.after = .ok p) :
    σ.query q = .ok (σ.pageFrom q p) := by
  simp only [State.query, hq, hstart, bind, Except.bind, pure, Except.pure]

theorem State.query_page (hq : q.FilterValid) (hlimit : 1 ≤ limit ∧ limit ≤ EventQuery.maxLimit)
    (hstart : σ.StartsAt start p) :
    σ.query (q.page start limit) = .ok (σ.pageFrom (q.page start limit) p) := by
  apply State.query_at
  · exact EventQuery.validate_page_ok hq hlimit hstart.not_isEmpty
  · exact startPosition_of_startsAt hstart

/-- A page by positions: it ends the list, or it is the window up to
the position its cursor names. -/
theorem State.query_window (hq : q.FilterValid) (hlimit : 1 ≤ limit ∧ limit ≤ EventQuery.maxLimit)
    (hstart : σ.StartsAt start p) {page : EventPage}
    (hpage : σ.query (q.page start limit) = .ok page) :
    ∃ b, p ≤ b ∧ b ≤ σ.records.length ∧ page.events = window (selects q) p b σ.records ∧
      (page.nextCursor = none → b = σ.records.length) ∧
      (page.nextCursor.isSome → σ.StartsAt page.nextCursor b) := by
  rw [State.query_page hq hlimit hstart] at hpage
  obtain rfl := Except.ok.inj hpage
  obtain ⟨hevents, hnext⟩ := State.pageFrom_page σ q start p limit
  -- without a further match the page is the last, and reaches to the end
  by_cases hmore : (rest (selects q) p σ.records).length ≤ limit
  · rw [if_pos hmore] at hnext
    refine ⟨σ.records.length, hstart.le, Nat.le_refl _, ?_, fun _ => rfl, ?_⟩
    · rw [hevents, List.take_of_length_le hmore, window_length]
    · rw [hnext]
      simp
  · obtain ⟨b, hpb, hb, hwin, hcursor⟩ := State.pageFrom_next σ q start p hlimit.1 (by omega)
    refine ⟨b, Nat.le_of_lt hpb, hb, by rw [hevents, hwin], ?_, ?_⟩
    · rw [hcursor]
      simp
    · rw [hcursor]
      exact fun _ => ⟨by omega, hb, rfl⟩

/-! ## The whole conversation -/

/-- The pages a client has received so far, the store at its last request, and
the cursor to follow next. -/
inductive Replay (storeId : EntityId) (q : EventQuery) (start : Option EventCursor) (σ₀ : State) :
    List EventPage → State → Option EventCursor → Prop where
  | first {tr σ limit page} : (memoryEventStore storeId).Run σ₀ tr σ →
      1 ≤ limit ∧ limit ≤ EventQuery.maxLimit → σ.query (q.page start limit) = .ok page →
      Replay storeId q start σ₀ [page] σ page.nextCursor
  | follow {pages σ c tr τ limit page} : Replay storeId q start σ₀ pages σ (some c) →
      (memoryEventStore storeId).Run σ tr τ →
      1 ≤ limit ∧ limit ≤ EventQuery.maxLimit → τ.query (q.page (some c) limit) = .ok page →
      Replay storeId q start σ₀ (pages ++ [page]) τ page.nextCursor

/-- The records of a list of pages. -/
def records (pages : List EventPage) : List StoredEvent := pages.flatMap (·.events)

/-- The pages so far are one window, up to where the next page will start. -/
theorem Replay.window {storeId : EntityId} {σ₀ : State} {pages : List EventPage}
    {next : Option EventCursor} (hq : q.FilterValid) (hstart : σ₀.StartsAt start p)
    (h : Replay storeId q start σ₀ pages σ next) :
    ∃ b, p ≤ b ∧ b ≤ σ.records.length ∧ records pages = Paging.window (selects q) p b σ.records ∧
      (next = none → b = σ.records.length) ∧ (next.isSome → σ.StartsAt next b) := by
  induction h with
  | first hrun hlimit hpage =>
    obtain ⟨b, hpb, hb, hwin, hnone, hsome⟩ :=
      State.query_window hq hlimit (hstart.extends (run_extends hrun)) hpage
    exact ⟨b, hpb, hb, by simpa [records] using hwin, hnone, hsome⟩
  | @follow pages σ c tr τ limit page _ hrun hlimit hpage ih =>
    obtain ⟨a, hpa, ha, hacc, _, hnext⟩ := ih
    have hext := run_extends hrun
    obtain ⟨b, hab, hb, hwin, hnone, hsome⟩ :=
      State.query_window hq hlimit ((hnext rfl).extends hext) hpage
    refine ⟨b, Nat.le_trans hpa hab, hb, ?_, hnone, hsome⟩
    -- what the earlier pages hold has not moved since
    have hstable := window_of_prefix (selects q) (a := p) hext.2 ha
    calc records (pages ++ [page])
        = records pages ++ page.events := by simp [records]
      _ = Paging.window (selects q) p a τ.records ++ Paging.window (selects q) a b τ.records := by
        rw [hacc, hwin, hstable]
      _ = Paging.window (selects q) p b τ.records := window_append (selects q) hpa hab _

/-- The store has only grown since the start. -/
theorem Replay.extends {storeId : EntityId} {σ₀ : State} {pages : List EventPage} {next : Option EventCursor}
    (h : Replay storeId q start σ₀ pages σ next) : Extends σ₀ σ := by
  induction h with
  | first hrun _ _ => exact run_extends hrun
  | follow _ hrun _ _ ih => exact ih.trans (run_extends hrun)

/-- Without a cursor to follow, the pages are all there is after the start. -/
theorem Replay.complete {storeId : EntityId} {σ₀ : State} {pages : List EventPage} (hq : q.FilterValid)
    (hstart : σ₀.StartsAt start p) (h : Replay storeId q start σ₀ pages σ none) :
    records pages = (σ.records.drop p).filter fun r => q.matches r.event := by
  obtain ⟨b, _, _, hacc, hend, _⟩ := h.window hq hstart
  rw [hacc, hend rfl, window_length]
  rfl

/-- **Paging is complete and exact while the log grows.** Every request of a
replay is accepted, and when no cursor is left the pages together are the
matching records after the start, each once, as the store is at the last
request. -/
theorem replay_complete (storeId : EntityId) (q : EventQuery) (hq : q.FilterValid)
    (start : Option EventCursor) (p : Nat) (σ₀ : State) (hstart : σ₀.StartsAt start p) :
    (∀ tr τ limit, (memoryEventStore storeId).Run σ₀ tr τ →
      1 ≤ limit ∧ limit ≤ EventQuery.maxLimit → ∃ page, τ.query (q.page start limit) = .ok page) ∧
    (∀ pages σ c, Replay storeId q start σ₀ pages σ (some c) →
      ∀ tr τ limit, (memoryEventStore storeId).Run σ tr τ →
        1 ≤ limit ∧ limit ≤ EventQuery.maxLimit →
        ∃ page, τ.query (q.page (some c) limit) = .ok page) ∧
    (∀ pages σ, Replay storeId q start σ₀ pages σ none →
      records pages = (σ.records.drop p).filter (fun r => q.matches r.event) ∧
      (records pages).Nodup) := by
  refine ⟨?_, ?_, ?_⟩
  · intro tr τ limit hrun hlimit
    exact ⟨_, State.query_page hq hlimit (hstart.extends (run_extends hrun))⟩
  · intro pages σ c hreplay tr τ limit hrun hlimit
    obtain ⟨b, _, _, _, _, hnext⟩ := hreplay.window hq hstart
    exact ⟨_, State.query_page hq hlimit ((hnext rfl).extends (run_extends hrun))⟩
  · intro pages σ hreplay
    refine ⟨hreplay.complete hq hstart, ?_⟩
    obtain ⟨b, _, _, hacc, _⟩ := hreplay.window hq hstart
    rw [hacc]
    exact window_nodup (selects q) σ.nodup

/-- Two events, and a third that arrives between the pages. -/
def twoEvents : List Label :=
  let a := Event.plain ⟨"early", by decide⟩ ⟨"first"⟩
  let b := Event.plain ⟨"later", by decide⟩ ⟨"second"⟩
  [.append a (.ok ⟨.forMemory default 1, a⟩), .append b (.ok ⟨.forMemory default 2, b⟩)]

def lateEvent : Label :=
  let c := Event.plain ⟨"c", by decide⟩ ⟨"third"⟩
  .append c (.ok ⟨.forMemory default 3, c⟩)

/-- A page of one event, and a second page after one more has arrived. -/
theorem replay_complete_late :
    ∃ pages, pages.length = 2 ∧ records pages =
      (((memoryEventStore default).after (twoEvents ++ [lateEvent]) (by decide)).records.drop 0).filter
        fun r => EventQuery.all.matches r.event := by
  have hrun := (memoryEventStore default).run_after twoEvents (by decide)
  have hmore := (memoryEventStore default).run_after (twoEvents ++ [lateEvent]) (by decide)
  obtain ⟨_, hrun', hlate⟩ := Lts.run_append.mp hmore
  obtain rfl := hrun.det hrun'
  obtain ⟨page₁, hpage₁, hnext₁⟩ : ∃ page,
      ((memoryEventStore default).after twoEvents (by decide)).query (EventQuery.all.page none 1) = .ok page ∧
      page.nextCursor = some (.forMemory default 1) := ⟨_, rfl, rfl⟩
  obtain ⟨page₂, hpage₂, hnext₂⟩ : ∃ page,
      ((memoryEventStore default).after (twoEvents ++ [lateEvent]) (by decide)).query
        (EventQuery.all.page (some (.forMemory default 1)) 1000) = .ok page ∧
      page.nextCursor = none := ⟨_, rfl, rfl⟩
  have hfirst := Replay.first hrun (by decide) hpage₁
  rw [hnext₁] at hfirst
  have hsecond := Replay.follow hfirst hlate (by decide) hpage₂
  rw [hnext₂] at hsecond
  have hcomplete := replay_complete default EventQuery.all (by decide) none 0 (State.new default) rfl
  exact ⟨_, rfl, (hcomplete.2.2 _ _ hsecond).1⟩

end OrbitRelay.MemoryEventStore
