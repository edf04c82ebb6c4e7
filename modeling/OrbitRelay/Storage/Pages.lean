import OrbitRelay.Storage.Cursor
import OrbitRelay.Storage.Replay

/-
  How many pages a store that stays as it is has for a query.

  Nothing is appended here, and the limit stays the same: a client sends the
  query, then follows `nextCursor` until there is none. `Paged` is that
  conversation. Its pages are the chunks of the matching records after the
  start, so their number and their lengths are those of `Paging.chunks`.
-/

namespace OrbitRelay.MemoryEventStore

open Paging

variable {σ : State} {q : EventQuery} {start : Option EventCursor} {p limit : Nat}

/-- The pages of a query and its follow-ups, on a state that stays as it is. -/
inductive Paged (σ : State) (q : EventQuery) : Option EventCursor → List EventPage → Prop where
  | last {start page} : σ.query (q.page start q.limit) = .ok page → page.nextCursor = none →
      Paged σ q start [page]
  | next {start page c pages} : σ.query (q.page start q.limit) = .ok page →
      page.nextCursor = some c → Paged σ q (some c) pages → Paged σ q start (page :: pages)

/-- The conversation has no choices. -/
theorem Paged.det {pages pages' : List EventPage} (h : Paged σ q start pages)
    (h' : Paged σ q start pages') : pages = pages' := by
  induction h generalizing pages' with
  | last hpage hnext =>
    cases h' with
    | last hpage' _ => rw [Except.ok.inj (hpage.symm.trans hpage')]
    | next hpage' hnext' _ =>
      obtain rfl := Except.ok.inj (hpage.symm.trans hpage')
      rw [hnext] at hnext'
      simp at hnext'
  | next hpage hnext _ ih =>
    cases h' with
    | last hpage' hnext' =>
      obtain rfl := Except.ok.inj (hpage.symm.trans hpage')
      rw [hnext] at hnext'
      simp at hnext'
    | next hpage' hnext' hrest =>
      obtain rfl := Except.ok.inj (hpage.symm.trans hpage')
      obtain rfl := Option.some.inj (hnext.symm.trans hnext')
      rw [ih hrest]

/-- Every page is one answer of the store. -/
theorem Paged.page_of_mem {pages : List EventPage} (h : Paged σ q start pages) {page : EventPage}
    (hpage : page ∈ pages) : ∃ start, page = σ.pageFrom q start := by
  have hanswer : ∀ {start page}, σ.query (q.page start q.limit) = .ok page →
      ∃ start, page = σ.pageFrom q start := by
    intro start page hquery
    obtain ⟨position, hposition⟩ := State.query_ok hquery
    exact ⟨position, hposition⟩
  induction h with
  | last hquery _ =>
    obtain rfl := List.mem_singleton.mp hpage
    exact hanswer hquery
  | next hquery _ _ ih =>
    rcases List.mem_cons.mp hpage with rfl | hpage
    · exact hanswer hquery
    · exact ih hpage

/-- From an accepted start the conversation ends, and its pages are the chunks
of the matching records. -/
theorem paged_chunks (hq : q.FilterValid) (hlimit : 1 ≤ q.limit ∧ q.limit ≤ EventQuery.maxLimit)
    (hstart : σ.startPosition start = .ok p) (hne : start.all (!·.isEmpty)) :
    ∃ pages, Paged σ q start pages ∧
      pages.map (·.events) = chunks q.limit (rest (selects q) p σ.records) := by
  induction hn : (rest (selects q) p σ.records).length using Nat.strongRecOn generalizing start p with
  | ind n ih =>
    have hquery : σ.query (q.page start q.limit) = .ok (σ.pageFrom (q.page start q.limit) p) :=
      State.query_at (EventQuery.validate_page_ok hq hlimit hne) hstart
    obtain ⟨hevents, hnext⟩ := State.pageFrom_page σ q start p q.limit
    -- the matches left fit on one page, or the page is full and the rest is paged from its cursor
    by_cases hle : (rest (selects q) p σ.records).length ≤ q.limit
    · rw [if_pos hle] at hnext
      refine ⟨_, .last hquery hnext, ?_⟩
      rw [List.map_singleton, hevents, List.take_of_length_le hle, chunks_of_le hle]
    · obtain ⟨b, _, hb, hwin, hcursor⟩ := State.pageFrom_next σ q start p hlimit.1 (by omega)
      have hposition : σ.startPosition (some (EventCursor.forMemory σ.storeId b)) = .ok b :=
        EventCursor.memoryPosition_forMemory σ.storeId (by omega) hb
      have hrest := rest_of_window (selects q) (by omega) hwin
      have hfewer : (rest (selects q) b σ.records).length < n := by
        rw [hrest, List.length_drop]
        omega
      obtain ⟨pages, hpages, hchunks⟩ :=
        ih _ hfewer hposition (by simp [EventCursor.forMemory_isEmpty]) rfl
      refine ⟨_, .next hquery hcursor hpages, ?_⟩
      have hcut : chunks q.limit (rest (selects q) p σ.records) = _ := chunks_of_lt hlimit.1 (by omega)
      rw [List.map_cons, hevents, hchunks, hcut, hrest]

/-- The conversation ends with all matching records after the start. -/
theorem exists_paged (hq : q.FilterValid) (hlimit : 1 ≤ q.limit ∧ q.limit ≤ EventQuery.maxLimit)
    (hstart : σ.startPosition start = .ok p) (hne : start.all (!·.isEmpty)) :
    ∃ pages, Paged σ q start pages ∧ records pages = rest (selects q) p σ.records := by
  obtain ⟨pages, hpaged, hchunks⟩ := paged_chunks hq hlimit hstart hne
  refine ⟨pages, hpaged, ?_⟩
  rw [records, List.flatMap_def, hchunks, chunks_flatten hlimit.1]

/-- A page is followed by a cursor if it does not take all matches. -/
theorem State.pageFrom_isSome_iff (σ : State) (q : EventQuery) (p : Nat) (hlimit : 1 ≤ q.limit) :
    (σ.pageFrom q p).nextCursor.isSome ↔ q.limit < (rest (selects q) p σ.records).length := by
  have hself : q.page q.after q.limit = q := rfl
  by_cases hle : (rest (selects q) p σ.records).length ≤ q.limit
  · have hnext := (State.pageFrom_page σ q q.after p q.limit).2
    rw [hself, if_pos hle] at hnext
    simp [hnext, hle]
  · obtain ⟨b, _, _, _, hnext⟩ := State.pageFrom_next σ q q.after p hlimit (Nat.not_le.mp hle)
    rw [hself] at hnext
    simpa [hnext] using hle

/-- A page is followed by a cursor exactly where a match lies behind its last
record, and the cursor is that record's. -/
theorem State.pageFrom_nextCursor (σ : State) (q : EventQuery) (p : Nat) (hlimit : 1 ≤ q.limit) :
    ((σ.pageFrom q p).nextCursor.isSome ↔
      ∃ r i s, (σ.pageFrom q p).events.getLast? = some r ∧ σ.records[i]? = some r ∧
        s ∈ σ.records.drop (i + 1) ∧ q.matches s.event) ∧
    ∀ c, (σ.pageFrom q p).nextCursor = some c →
      (σ.pageFrom q p).events.getLast?.map (·.cursor) = some c := by
  obtain ⟨hevents, hnext⟩ := State.pageFrom_page σ q q.after p q.limit
  have hself : q.page q.after q.limit = q := rfl
  rw [hself] at hevents hnext
  constructor
  · rw [State.pageFrom_isSome_iff σ q p hlimit, hevents]
    constructor
    · intro hmore
      obtain ⟨b, hpb, hb, _, hbehind, hlast⟩ := exists_cut (selects q) hlimit (Nat.zero_lt_of_lt hmore)
      obtain ⟨s, hs⟩ : ∃ s, s ∈ rest (selects q) b σ.records := by
        apply List.exists_mem_of_length_pos
        rw [hbehind, List.length_drop]
        omega
      obtain ⟨hin, hmatch⟩ := List.mem_filter.mp hs
      have hlt : b - 1 < σ.records.length := by omega
      refine ⟨σ.records[b - 1], b - 1, s, ?_, List.getElem?_eq_getElem hlt, ?_, hmatch⟩
      · rw [← hlast, List.getElem?_eq_getElem hlt]
      · rwa [Nat.sub_add_cancel (by omega)]
    · intro h
      obtain ⟨r, i, s, hr, hi, hs, hmatch⟩ := h
      have hsome : 0 < (rest (selects q) p σ.records).length := by
        apply List.length_pos_of_mem
        exact List.mem_of_mem_take (List.mem_of_getLast? hr)
      obtain ⟨b, hpb, hb, _, hbehind, hlast⟩ := exists_cut (selects q) hlimit hsome
      -- no record is stored twice, so the last one of the page is the one before `b`
      have hib : i = b - 1 := by
        apply State.index_unique hi _ rfl
        rw [hlast, hr]
      subst hib
      rw [Nat.sub_add_cancel (by omega)] at hs
      have hin : s ∈ rest (selects q) b σ.records := List.mem_filter.mpr ⟨hs, hmatch⟩
      rw [hbehind] at hin
      have hpos := List.length_pos_of_mem hin
      rw [List.length_drop] at hpos
      omega
  · intro c hc
    rw [hnext] at hc
    split at hc
    · simp at hc
    · rw [hevents]
      exact hc

/-- **Paging takes the fewest pages.** From an accepted start, a valid query and
its follow-ups have exactly one conversation. It has one page for every `limit`
of the `m` matching records after the start, the last one taking what is left,
and one page where there is nothing; and a page is followed by a cursor, its
last record's, exactly where a match lies behind that record. -/
theorem paging_minimal (σ : State) (q : EventQuery) (p : Nat) (hq : q.validate = .ok ())
    (hstart : σ.startPosition q.after = .ok p) :
    ∃ full last, Paged σ q q.after (full ++ [last]) ∧
      (∀ pages, Paged σ q q.after pages → pages = full ++ [last]) ∧
      (full ++ [last]).length =
        max 1 ((((σ.records.drop p).filter fun r => q.matches r.event).length + q.limit - 1) / q.limit) ∧
      (∀ page ∈ full, page.events.length = q.limit) ∧
      last.events.length ≤ q.limit ∧
      (((σ.records.drop p).filter fun r => q.matches r.event) ≠ [] → 1 ≤ last.events.length) ∧
      ∀ page ∈ full ++ [last],
        (page.nextCursor.isSome ↔
          ∃ r i s, page.events.getLast? = some r ∧ σ.records[i]? = some r ∧
            s ∈ σ.records.drop (i + 1) ∧ q.matches s.event) ∧
        ∀ c, page.nextCursor = some c → page.events.getLast?.map (·.cursor) = some c := by
  obtain ⟨hlimit, hfilter, hne⟩ := (EventQuery.validate_ok_iff q).mp hq
  obtain ⟨pages, hpaged, hchunks⟩ := paged_chunks hfilter hlimit hstart hne
  obtain ⟨full, last, hcut, hfull, hlast, hsome⟩ :=
    chunks_full hlimit.1 (rest (selects q) p σ.records)
  have hlength := chunks_length hlimit.1 (rest (selects q) p σ.records)
  rw [← hchunks, List.length_map] at hlength
  -- the pages are cut where their records are
  rw [hcut] at hchunks
  obtain ⟨full', rest', rfl, rfl, hone⟩ := List.map_eq_append_iff.mp hchunks
  obtain ⟨last', hlast', rfl⟩ := List.map_eq_singleton_iff.mp hone
  subst hlast'
  refine ⟨full', last', hpaged, fun _ h => h.det hpaged, hlength, ?_, hlast, hsome, ?_⟩
  · intro page hpage
    exact hfull _ (List.mem_map_of_mem hpage)
  · intro page hpage
    obtain ⟨start, rfl⟩ := hpaged.page_of_mem hpage
    exact σ.pageFrom_nextCursor q start hlimit.1

/-- Two records, read one at a time: two pages and no third, empty one. -/
theorem paging_minimal_two :
    ∃ pages, Paged ((memoryEventStore default).after twoEvents (by decide))
      (EventQuery.all.page none 1) none pages ∧ pages.length = 2 := by
  obtain ⟨full, last, hpaged, _, hlength, _⟩ :=
    paging_minimal ((memoryEventStore default).after twoEvents (by decide))
      (EventQuery.all.page none 1) 0 ((EventQuery.validate_ok_iff _).mpr (by decide)) rfl
  exact ⟨_, hpaged, hlength.trans (by decide)⟩

end OrbitRelay.MemoryEventStore
