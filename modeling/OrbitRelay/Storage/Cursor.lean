import OrbitRelay.Storage.Memory

/-
  Cursors: which tokens a store accepts, and for how long.

  A store prints its cursors in one way and reads them back field by field.
  The first two fields have to be the store's own, character for character; the
  third goes through the integer parser, which also takes a leading `+` and
  leading zeros. So a store accepts exactly the tokens it prints and these
  other spellings of them (`memoryPosition_eq_ok_iff`), and everything else is
  an invalid cursor.

  A token it did print it accepts for ever: records stay where they are, so
  the position stays in range, and the record there is the one the cursor was
  issued with. The store id in the token keeps every other store from
  accepting it.
-/

namespace OrbitRelay

namespace EventCursor

variable {cursor : EventCursor} {storeId : EntityId} {recordCount p : Nat} {field : List Char}

/-- A token of the store `storeId`, with any text as its position field. -/
def spelled (storeId : EntityId) (field : List Char) : EventCursor :=
  ⟨"memory:" ++ storeId.text ++ ":" ++ String.ofList field⟩

theorem spelled_toList (storeId : EntityId) (field : List Char) :
    (spelled storeId field).token.toList =
      "memory".toList ++ ':' :: (storeId.text.toList ++ ':' :: field) := by
  simp [spelled, String.toList_append]

theorem spelled_inj {field' : List Char} (h : spelled storeId field = spelled storeId field') :
    field = field' := by
  have hlist := congrArg (fun c => c.token.toList) h
  simpa [spelled_toList] using hlist

/-- What `forMemory` prints in the position field. -/
theorem forMemory_eq_spelled (storeId : EntityId) (position : Nat) :
    forMemory storeId position = spelled storeId (Nat.toDigits 10 position) := rfl

/-- The tokens a store accepts: its own prefix, and a numeral in range. -/
theorem memoryPosition_eq_ok_iff :
    cursor.memoryPosition storeId recordCount = .ok p ↔
      ∃ field, cursor = spelled storeId field ∧ Text.parseUnsigned field = some p ∧
        0 < p ∧ p ≤ recordCount := by
  constructor
  · intro h
    have hrange := memoryPosition_range h
    simp only [memoryPosition, positionWith] at h
    split at h
    · simp at h
    · next hfields =>
      split at h
      · next q hq =>
        obtain rfl : q = p := by simpa using h
        obtain ⟨hbind, _⟩ := Option.filter_eq_some_iff.mp hq
        obtain ⟨field, hfield, hparse⟩ := Option.bind_eq_some_iff.mp hbind
        refine ⟨field, ?_, hparse, hrange⟩
        -- three fields and no fourth, the first two the store's own
        simp only [not_or, ne_eq, Decidable.not_not, Bool.not_eq_true, Option.isSome_eq_false_iff,
          Option.isNone_iff_eq_none] at hfields
        obtain ⟨hbackend, hstore, hend⟩ := hfields
        have hsplit : List.splitOn ':' cursor.token.toList =
            ["memory".toList, storeId.text.toList, field] := by
          apply List.ext_getElem?
          intro i
          rcases i with _ | _ | _ | i
          · exact hbackend
          · exact hstore
          · exact hfield
          · rw [List.getElem?_eq_none_iff] at hend
            rw [List.getElem?_eq_none (by omega)]
            rfl
        have htoken := Text.of_splitOn_three hsplit
        rw [← spelled_toList, String.toList_inj] at htoken
        cases cursor
        exact congrArg EventCursor.mk htoken
      · simp at h
  · intro h
    obtain ⟨field, rfl, hparse, hpos, hle⟩ := h
    have hcolon : ':' ∉ field := by
      obtain ⟨sign, zeros, hsign, rfl⟩ := Text.parseUnsigned_eq_some_iff.mp hparse
      have hdigits := Text.not_mem_toDigits (c := ':') (by decide) p
      rcases hsign with rfl | rfl <;> simp [hdigits]
    have hsplit : List.splitOn ':' (spelled storeId field).token.toList =
        ["memory".toList, storeId.text.toList, field] := by
      rw [spelled_toList]
      exact Text.splitOn_three ':' _ _ _ (by decide) storeId.colonFree hcolon
    simp [memoryPosition, positionWith, hsplit, hparse, Option.filter_some, hpos, hle]

/-- A token that is not accepted is an invalid cursor. -/
theorem memoryPosition_error {error : StorageError}
    (h : cursor.memoryPosition storeId recordCount = .error error) :
    ∃ reason, error = .invalidCursor reason := by
  simp only [memoryPosition, positionWith] at h
  split at h
  · exact ⟨_, (Except.error.inj h).symm⟩
  · split at h
    · simp at h
    · exact ⟨_, (Except.error.inj h).symm⟩

/-- The token names a record of the store, but with a sign or with zeros in
front of the number. -/
def Respelled (cursor : EventCursor) (storeId : EntityId) (recordCount : Nat) : Prop :=
  ∃ sign zeros position, (sign = ['+'] ∨ sign = [] ∧ 0 < zeros) ∧
    1 ≤ position ∧ position ≤ recordCount ∧
    cursor = spelled storeId (sign ++ (List.replicate zeros '0' ++ Nat.toDigits 10 position))

/-- Such a token is accepted all the same. -/
theorem Respelled.accepted (h : Respelled cursor storeId recordCount) :
    ∃ p, cursor.memoryPosition storeId recordCount = .ok p ∧ cursor ≠ forMemory storeId p := by
  obtain ⟨sign, zeros, position, hsign, hpos, hle, rfl⟩ := h
  have hparse : Text.parseUnsigned (sign ++ (List.replicate zeros '0' ++ Nat.toDigits 10 position)) =
      some position := by
    apply Text.parseUnsigned_eq_some_iff.mpr
    rcases hsign with rfl | hsign
    · exact ⟨['+'], zeros, .inr rfl, rfl⟩
    · exact ⟨[], zeros, .inl rfl, by rw [hsign.1]⟩
  refine ⟨position, memoryPosition_eq_ok_iff.mpr ⟨_, rfl, hparse, hpos, hle⟩, ?_⟩
  intro heq
  rw [forMemory_eq_spelled] at heq
  have hlength := congrArg List.length (spelled_inj heq)
  simp only [List.length_append, List.length_replicate] at hlength
  -- the sign or the zeros make it longer than the printed number
  rcases hsign with rfl | hsign
  · rw [List.length_singleton] at hlength
    omega
  · omega

/-- An accepted token is the one printed for its position, or a respelling. -/
theorem forMemory_of_accepted (h : cursor.memoryPosition storeId recordCount = .ok p)
    (hspelled : ¬Respelled cursor storeId recordCount) : cursor = forMemory storeId p := by
  obtain ⟨field, rfl, hparse, hpos, hle⟩ := memoryPosition_eq_ok_iff.mp h
  obtain ⟨sign, zeros, hsign, rfl⟩ := Text.parseUnsigned_eq_some_iff.mp hparse
  rw [forMemory_eq_spelled]
  rcases hsign with rfl | rfl
  · cases zeros with
    | zero => rfl
    | succ zeros => exact absurd ⟨[], zeros + 1, p, .inr ⟨rfl, by omega⟩, hpos, hle, rfl⟩ hspelled
  · exact absurd ⟨['+'], zeros, p, .inl rfl, hpos, hle, rfl⟩ hspelled

/-- **When only issued tokens are accepted.** An accepted token is the one the
store prints for the position exactly when it is not a respelling. Of the
tokens that are no respellings, the store accepts one for each position, and
every token it does not accept is answered with an invalid cursor. -/
theorem accepts_only_issued_iff (cursor : EventCursor) (storeId : EntityId) (recordCount : Nat) :
    ((∀ p, cursor.memoryPosition storeId recordCount = .ok p →
        cursor = forMemory storeId p ∧ 1 ≤ p ∧ p ≤ recordCount) ↔
      ¬Respelled cursor storeId recordCount) ∧
    (∀ error, cursor.memoryPosition storeId recordCount = .error error →
      ∃ reason, error = .invalidCursor reason) ∧
    (∀ other p, ¬Respelled cursor storeId recordCount → ¬Respelled other storeId recordCount →
      cursor.memoryPosition storeId recordCount = .ok p →
      other.memoryPosition storeId recordCount = .ok p → cursor = other) := by
  refine ⟨⟨?_, ?_⟩, fun _ => memoryPosition_error, ?_⟩
  · intro honly hspelled
    obtain ⟨p, hp, hne⟩ := hspelled.accepted
    exact hne (honly p hp).1
  · intro hspelled p hp
    exact ⟨forMemory_of_accepted hp hspelled, memoryPosition_range hp⟩
  · intro other p hcursor hother hp hp'
    rw [forMemory_of_accepted hp hcursor, forMemory_of_accepted hp' hother]

/-- The second record's cursor with a sign, and with a zero in front. -/
theorem accepts_respelled :
    (spelled default ['+', '2']).memoryPosition default 2 = .ok 2 ∧
      (spelled default ['0', '2']).memoryPosition default 2 = .ok 2 ∧
      spelled default ['+', '2'] ≠ spelled default ['0', '2'] ∧
      ¬∀ (cursor : EventCursor) (storeId : EntityId) (recordCount p : Nat),
        cursor.memoryPosition storeId recordCount = .ok p →
          cursor = forMemory storeId p ∧ 1 ≤ p ∧ p ≤ recordCount := by
  have hsign : (spelled default ['+', '2']).memoryPosition default 2 = .ok 2 := by decide
  refine ⟨hsign, by decide, by decide, ?_⟩
  intro honly
  exact absurd (honly _ _ _ _ hsign).1 (by decide)

end EventCursor

/-! ## Cursors a store has issued -/

namespace MemoryEventStore

/-- The records in the answer of a call. -/
def Label.records : Label → List StoredEvent
  | .append _ (.ok r) => [r]
  | .get _ (some r) => [r]
  | .query _ (.ok page) => page.events
  | _ => []

/-- The cursors in the answer of a call: those of its records, and the one a
page is to be followed by. -/
def Label.cursors : Label → List EventCursor
  | .query _ (.ok page) => page.events.map (·.cursor) ++ page.nextCursor.toList
  | l => l.records.map (·.cursor)

variable {storeId : EntityId} {σ τ : State} {tr : List Label} {l : Label}

/-- A page holds records of the store, and is followed by one's cursor. -/
theorem State.mem_of_pageFrom (q : EventQuery) (start : Nat) :
    (∀ r ∈ (σ.pageFrom q start).events, r ∈ σ.records) ∧
      ∀ c, (σ.pageFrom q start).nextCursor = some c → ∃ r ∈ σ.records, r.cursor = c := by
  have hcut : ∀ n, ∀ r ∈ ((σ.records.drop start).filter fun r => q.matches r.event).take n,
      r ∈ σ.records := fun n r hr =>
    List.mem_of_mem_drop (List.mem_filter.mp (List.mem_of_mem_take hr)).1
  unfold State.pageFrom
  simp only
  split
  · refine ⟨fun r hr => hcut _ r (List.mem_of_mem_take hr), ?_⟩
    intro c hc
    obtain ⟨r, hr, rfl⟩ := Option.map_eq_some_iff.mp hc
    exact ⟨r, hcut _ r (List.mem_of_mem_take (List.mem_of_getLast? hr)), rfl⟩
  · exact ⟨hcut _, by simp⟩

theorem State.query_ok {q : EventQuery} {page : EventPage} (h : σ.query q = .ok page) :
    ∃ start, page = σ.pageFrom q start := by
  simp only [State.query, bind, Except.bind, pure, Except.pure] at h
  split at h
  · simp at h
  · split at h
    · simp at h
    · exact ⟨_, (Except.ok.inj h).symm⟩

/-- What a call returns is in the store when it returns. -/
theorem mem_of_step (h : step σ l = some τ) :
    (∀ r ∈ l.records, r ∈ τ.records) ∧ ∀ c ∈ l.cursors, ∃ r ∈ τ.records, r.cursor = c := by
  have hcursors : ∀ rs : List StoredEvent, (∀ r ∈ rs, r ∈ τ.records) →
      ∀ c ∈ rs.map (·.cursor), ∃ r ∈ τ.records, r.cursor = c := by
    intro rs hrs c hc
    obtain ⟨r, hr, rfl⟩ := List.mem_map.mp hc
    exact ⟨r, hrs r hr, rfl⟩
  match l, h with
  | .append event (.ok r), h =>
    have hin : ∀ s ∈ (Label.append event (.ok r)).records, s ∈ τ.records := by
      intro s hs
      obtain rfl := List.mem_singleton.mp hs
      obtain ⟨hres, rfl⟩ := step_append_iff.mp h
      exact (State.get_eq_some_iff.mp (State.get_of_append_ok hres).1).1
    exact ⟨hin, hcursors _ hin⟩
  | .get id (some r), h =>
    have hin : ∀ s ∈ (Label.get id (some r)).records, s ∈ τ.records := by
      intro s hs
      obtain rfl := List.mem_singleton.mp hs
      obtain ⟨hres, rfl⟩ := step_get_iff.mp h
      exact (State.get_eq_some_iff.mp hres).1
    exact ⟨hin, hcursors _ hin⟩
  | .query q (.ok page), h =>
    obtain ⟨hres, rfl⟩ := step_query_iff.mp h
    obtain ⟨start, rfl⟩ := State.query_ok hres
    obtain ⟨hevents, hnext⟩ := State.mem_of_pageFrom (σ := σ) q start
    refine ⟨hevents, ?_⟩
    intro c hc
    rcases List.mem_append.mp hc with hrecord | hfollow
    · exact hcursors _ hevents c hrecord
    · exact hnext c (Option.mem_toList.mp hfollow)
  | .append event (.error error), _ => simp [Label.records, Label.cursors]
  | .get id none, _ => simp [Label.records, Label.cursors]
  | .query q (.error error), _ => simp [Label.records, Label.cursors]

/-- The record at a place was appended when the store held that many. -/
theorem appended_at (h : (memoryEventStore storeId).Run (State.new storeId) tr σ) {k : Nat}
    {r : StoredEvent} (hr : σ.records[k]? = some r) :
    ∃ before later ρ, tr = before ++ .append r.event (.ok r) :: later ∧
      (memoryEventStore storeId).Run (State.new storeId) before ρ ∧ ρ.records.length = k := by
  revert k r
  refine Lts.Run.induct (P := fun tr σ => ∀ {k : Nat} {r : StoredEvent}, σ.records[k]? = some r →
    ∃ before later ρ, tr = before ++ .append r.event (.ok r) :: later ∧
      (memoryEventStore storeId).Run (State.new storeId) before ρ ∧ ρ.records.length = k) ?_ ?_ h
  · intro k r hr
    simp [State.new] at hr
  · intro tr σ l τ hrun ih hstep k r hr
    -- a record that was there before was appended before
    have hold : σ.records[k]? = some r → ∃ before later ρ,
        tr ++ [l] = before ++ .append r.event (.ok r) :: later ∧
          (memoryEventStore storeId).Run (State.new storeId) before ρ ∧ ρ.records.length = k := by
      intro hr
      obtain ⟨before, later, ρ, rfl, hbefore, hlength⟩ := ih hr
      exact ⟨before, later ++ [l], ρ, by simp, hbefore, hlength⟩
    cases l with
    | append event result =>
      obtain ⟨hres, rfl⟩ := step_append_iff.mp hstep
      cases hget : σ.get event.id with
      | some s =>
        rw [State.append_of_get_some hget] at hr
        exact hold hr
      | none =>
        obtain ⟨hok, hrecords⟩ := State.append_of_get_none hget
        rw [hrecords, List.getElem?_append] at hr
        split at hr
        · exact hold hr
        · next hge =>
          obtain ⟨hlt, hlast⟩ := List.getElem?_eq_some_iff.mp hr
          have hk : k = σ.records.length := by
            rw [List.length_singleton] at hlt
            omega
          subst hk
          simp only [Nat.sub_self, List.getElem_cons_zero] at hlast
          refine ⟨tr, [], σ, ?_, hrun, rfl⟩
          rw [← hres, hok, ← hlast]
    | get id result =>
      obtain ⟨_, rfl⟩ := step_get_iff.mp hstep
      exact hold hr
    | query q result =>
      obtain ⟨_, rfl⟩ := step_query_iff.mp hstep
      exact hold hr

/-- What a call of the run returned is in the store from then on. -/
theorem mem_of_returned {ρ : State} (h : (memoryEventStore storeId).Run ρ tr σ) (hl : l ∈ tr) :
    (∀ r ∈ l.records, r ∈ σ.records) ∧ ∀ c ∈ l.cursors, ∃ r ∈ σ.records, r.cursor = c := by
  obtain ⟨_, _, _, τ, _, _, hstep, hrest⟩ := h.at_label hl
  obtain ⟨hrecords, hcursors⟩ := mem_of_step hstep
  have hsub := (run_extends hrest).2.subset
  refine ⟨fun r hr => hsub (hrecords r hr), ?_⟩
  intro c hc
  obtain ⟨r, hr, rfl⟩ := hcursors c hc
  exact ⟨r, hsub hr, rfl⟩

/-- Records of one store with the same cursor are one record. -/
theorem State.eq_of_cursor_eq {r s : StoredEvent} (hr : r ∈ σ.records) (hs : s ∈ σ.records)
    (h : r.cursor = s.cursor) : r = s := by
  obtain ⟨i, hi⟩ := List.getElem?_of_mem hr
  obtain ⟨j, hj⟩ := List.getElem?_of_mem hs
  rw [σ.positioned i r hi, σ.positioned j s hj] at h
  have hij : i = j := Nat.succ.inj (EventCursor.forMemory_inj h)
  subst hij
  exact Option.some.inj (hi.symm.trans hj)

end MemoryEventStore

/-- A store rejects the cursors of another. -/
theorem EventCursor.memoryPosition_foreign {storeId other : EntityId} (hne : storeId ≠ other)
    (position recordCount : Nat) :
    (forMemory storeId position).memoryPosition other recordCount =
      .error (.invalidCursor "cursor does not belong to this memory event store") := by
  have htext : storeId.text.toList ≠ other.text.toList := by
    intro heq
    apply hne
    cases storeId
    cases other
    simpa [String.toList_inj] using heq
  simp [memoryPosition, positionWith, forMemory_parts, htext]

namespace MemoryEventStore

/-- **Issued cursors stay valid in their own store and in no other.** In every
run of a family of stores with different ids, a cursor that a call of the store
`i` returned is that of the record some append of the same store returned when
it held `position - 1` records. Store `i` reads it as that position ever after,
every other store rejects it whatever it holds, and no two records of a store
share a cursor. -/
theorem cursors_stay_in_own_store {ι : Type} [DecidableEq ι] (ids : ι → EntityId)
    (hids : Function.Injective ids) (tr : List (ι × Label)) (σ : ι → State)
    (h : (Lts.family fun i => memoryEventStore (ids i)).Run (fun i => State.new (ids i)) tr σ) :
    (∀ i l c, (i, l) ∈ tr → c ∈ l.cursors →
      ∃ r before later ρ position, r.cursor = c ∧
        Lts.member i tr = before ++ .append r.event (.ok r) :: later ∧
        (memoryEventStore (ids i)).Run (State.new (ids i)) before ρ ∧
        ρ.records.length + 1 = position ∧
        ∀ tr' τ, (Lts.family fun i => memoryEventStore (ids i)).Run σ tr' τ →
          (τ i).records[position - 1]? = some r ∧
          c.memoryPosition (τ i).storeId (τ i).records.length = .ok position ∧
          ∀ j ≠ i, ∀ recordCount, ∃ reason,
            c.memoryPosition (τ j).storeId recordCount = .error (.invalidCursor reason)) ∧
    (∀ i l r, (i, l) ∈ tr → r ∈ l.records → r ∈ (σ i).records) ∧
    (∀ i r s, r ∈ (σ i).records → s ∈ (σ i).records → r.cursor = s.cursor → r = s) := by
  have hown := Lts.family_run h
  have hmember : ∀ i l, (i, l) ∈ tr → l ∈ Lts.member i tr := by
    intro i l hl
    exact List.mem_filterMap.mpr ⟨(i, l), hl, by simp⟩
  refine ⟨?_, ?_, fun i _ _ => State.eq_of_cursor_eq⟩
  · intro i l c hl hc
    obtain ⟨r, hr, rfl⟩ := (mem_of_returned (hown i) (hmember i l hl)).2 c hc
    obtain ⟨k, hk⟩ := List.getElem?_of_mem hr
    obtain ⟨before, later, ρ, htr, hbefore, hlength⟩ := appended_at (hown i) hk
    refine ⟨r, before, later, ρ, k + 1, rfl, htr, hbefore, by omega, ?_⟩
    intro tr' τ hrest
    have hlater := fun j => run_extends (Lts.family_run hrest j)
    have hstore : ∀ j, (τ j).storeId = ids j := by
      intro j
      rw [(hlater j).1, (run_extends (hown j)).1]
      rfl
    have hkeep : (τ i).records[k]? = some r := by
      obtain ⟨more, hmore⟩ := (hlater i).2
      rw [← hmore, List.getElem?_append_left (List.getElem?_eq_some_iff.mp hk).1]
      exact hk
    have hcursor := (τ i).positioned k r hkeep
    refine ⟨hkeep, ?_, ?_⟩
    · rw [hcursor]
      exact EventCursor.memoryPosition_forMemory _ (Nat.succ_pos k)
        (List.getElem?_eq_some_iff.mp hkeep).1
    · intro j hj recordCount
      rw [hcursor, EventCursor.memoryPosition_foreign]
      · exact ⟨_, rfl⟩
      · rw [hstore, hstore]
        exact fun heq => hj (hids heq).symm
  · intro i l r hl hr
    exact (mem_of_returned (hown i) (hmember i l hl)).1 r hr

/-- Two stores, and the event both are given. -/
def twoStores (i : Bool) : EntityId := if i then default else ⟨"elsewhere", by decide⟩

def oneEach : List (Bool × Label) :=
  let a := Event.plain default ⟨"issued"⟩
  [(true, .append a (.ok ⟨.forMemory (twoStores true) 1, a⟩)),
    (false, .append a (.ok ⟨.forMemory (twoStores false) 1, a⟩))]

theorem cursors_stay_in_own_store_two :
    ∃ σ, (Lts.family fun i => memoryEventStore (twoStores i)).Run
        (fun i => State.new (twoStores i)) oneEach σ ∧
      ∀ recordCount, ∃ reason,
        (EventCursor.forMemory (twoStores true) 1).memoryPosition (σ false).storeId recordCount =
          .error (.invalidCursor reason) := by
  have hids : Function.Injective twoStores := by
    intro i j hij
    cases i <;> cases j <;> first | rfl | exact absurd hij (by decide)
  have hrun := (Lts.family fun i => memoryEventStore (twoStores i)).run_after oneEach (by decide)
  obtain ⟨_, _, _, _, _, _, _, _, _, hlater⟩ :=
    (cursors_stay_in_own_store twoStores hids oneEach _ hrun).1 true _ _ List.mem_cons_self
      (List.mem_singleton.mpr rfl)
  exact ⟨_, hrun, (hlater [] _ (Lts.Run.nil _ _)).2.2 false (by decide)⟩

end MemoryEventStore

end OrbitRelay
