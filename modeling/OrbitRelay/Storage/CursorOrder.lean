import Mathlib.Data.List.Dedup
import Mathlib.Data.List.Sort
import Mathlib.Data.String.Basic
import OrbitRelay.Storage.Converge
import OrbitRelay.Storage.Replay

/-
  The order of cursors (orbitrelay-storage: record.rs, the derived `Ord`).

  Two cursors compare as their tokens do, character by character. Those of one
  store differ in the position only, which is printed in decimal and without
  leading zeros; so what is compared are numerals, from the left, and that is
  the order of the positions as long as these have equally many digits. The
  tenth record is where it ends: its cursor comes before that of the second.
-/

namespace OrbitRelay

/-- The derived order, that of the tokens. -/
instance : LinearOrder EventCursor :=
  LinearOrder.lift' EventCursor.token fun a b h => by
    cases a
    cases b
    exact congrArg EventCursor.mk h

namespace EventCursor

theorem forMemory_lt_iff {storeId : EntityId} {p q : Nat} :
    forMemory storeId p < forMemory storeId q ↔ Nat.toDigits 10 p < Nat.toDigits 10 q := by
  have hdigits : ∀ p, (forMemory storeId p).token.toList =
      ("memory:" ++ storeId.text ++ ":").toList ++ Nat.toDigits 10 p := by
    intro p
    rw [forMemory, String.toList_append, Nat.toList_repr]
  have htoken : forMemory storeId p < forMemory storeId q ↔
      (forMemory storeId p).token < (forMemory storeId q).token := Iff.rfl
  rw [htoken, String.lt_iff_toList_lt, hdigits, hdigits, Text.append_lt_append_left]

end EventCursor

namespace MemoryEventStore

variable {storeId : EntityId} {σ : State} {tr : List Label} {i j : Nat} {r s : StoredEvent}

/-- The order of the cursors is the append order, for every use of it. -/
structure CursorsInOrder (σ : State) : Prop where
  appended : ∀ {i j : Nat} {r s : StoredEvent}, i < j → σ.records[i]? = some r → σ.records[j]? = some s →
    r.cursor < s.cursor
  /-- sorting the cursors gives the append order -/
  sorted : ∀ cursors, cursors.Perm (σ.records.map (·.cursor)) → cursors.Pairwise (· ≤ ·) →
    cursors = σ.records.map (·.cursor)
  /-- the largest cursor of those seen is that of the furthest record -/
  furthest : ∀ {seen : List StoredEvent} {i j : Nat} {r s : StoredEvent}, (∀ s ∈ seen, s.cursor ≤ r.cursor) →
    σ.records[i]? = some r → s ∈ seen → σ.records[j]? = some s → j ≤ i

/-- The cursors of two records, by their positions. -/
theorem State.cursor_lt_iff (hi : σ.records[i]? = some r) (hj : σ.records[j]? = some s) (h : i < j) :
    r.cursor < s.cursor ↔
      (i + 1) * 10 ^ ((Nat.toDigits 10 (j + 1)).length - (Nat.toDigits 10 (i + 1)).length) ≤ j + 1 := by
  rw [σ.positioned i r hi, σ.positioned j s hj, EventCursor.forMemory_lt_iff]
  exact Text.toDigits_lt_iff (Nat.succ_lt_succ h)

/-- If any two records are in order, so is what is made of the order. -/
theorem CursorsInOrder.of_appended
    (h : ∀ {i j : Nat} {r s : StoredEvent}, i < j → σ.records[i]? = some r → σ.records[j]? = some s →
      r.cursor < s.cursor) : CursorsInOrder σ where
  appended := h
  sorted := by
    intro cursors hperm hsorted
    have hordered : (σ.records.map (·.cursor)).Pairwise (· ≤ ·) := by
      rw [List.pairwise_map, List.pairwise_iff_getElem]
      intro i j hi hj hij
      exact le_of_lt (h hij (List.getElem?_eq_getElem hi) (List.getElem?_eq_getElem hj))
    exact hperm.eq_of_pairwise' hsorted hordered
  furthest := by
    intro seen i j r s hmax hi hs hj
    by_contra hlt
    exact absurd (hmax s hs) (not_le_of_gt (h (Nat.not_le.mp hlt) hi hj))

/-- Up to nine records, and no further, the cursors are in order. -/
theorem cursorsInOrder_iff (σ : State) : CursorsInOrder σ ↔ σ.records.length ≤ 9 := by
  constructor
  · intro h
    by_contra hlong
    have hi : σ.records[1]? = some σ.records[1] := List.getElem?_eq_getElem (by omega)
    have hj : σ.records[9]? = some σ.records[9] := List.getElem?_eq_getElem (by omega)
    exact absurd ((State.cursor_lt_iff hi hj (by decide)).mp (h.appended (by decide) hi hj)) (by decide)
  · intro hshort
    apply CursorsInOrder.of_appended
    intro i j r s hij hi hj
    have hlt : j < σ.records.length := (List.getElem?_eq_some_iff.mp hj).1
    rw [State.cursor_lt_iff hi hj hij, Nat.toDigits_of_lt_base (by omega), Nat.toDigits_of_lt_base (by omega)]
    simpa using Nat.le_of_lt hij

/-- A store has a record for each id that was appended. -/
theorem length_records (h : (memoryEventStore storeId).Run (State.new storeId) tr σ) :
    σ.records.length = ((appended tr).map (·.id)).dedup.length := by
  have hperm : (σ.records.map (·.event.id)).Perm ((appended tr).map (·.id)).dedup := by
    rw [List.perm_ext_iff_of_nodup σ.nodup_ids (List.nodup_dedup _)]
    intro id
    rw [List.mem_map, List.mem_dedup, List.mem_map]
    exact stored_id_iff h id
  rw [← hperm.length_eq, List.length_map]

/-- **Cursor order and append order.** Of two records the earlier has the
smaller cursor exactly if its position is not above the leading digits of the
other's, as many as it has itself. So the order of the cursors is the append
order exactly if a run appends at most nine events, different ids counted. -/
theorem cursor_order (h : (memoryEventStore storeId).Run (State.new storeId) tr σ) :
    (∀ i j r s, i < j → σ.records[i]? = some r → σ.records[j]? = some s →
      (r.cursor < s.cursor ↔
        (i + 1) * 10 ^ ((Nat.toDigits 10 (j + 1)).length - (Nat.toDigits 10 (i + 1)).length) ≤ j + 1)) ∧
    (CursorsInOrder σ ↔ ((appended tr).map (·.id)).dedup.length ≤ 9) := by
  constructor
  · intro i j r s hij hi hj
    exact State.cursor_lt_iff hi hj hij
  · rw [← length_records h]
    exact cursorsInOrder_iff σ

theorem cursor_order_two : CursorsInOrder ((memoryEventStore default).after twoEvents (by decide)) :=
  (cursor_order ((memoryEventStore default).run_after twoEvents (by decide))).2.mpr (by decide)

/-- Ten events under ten ids. -/
def tenEvents : List Event :=
  (List.range 10).map fun n => Event.plain ⟨String.ofList (List.replicate n 'e'), by simp⟩ ⟨"cursor.ordered"⟩

/-- With ten records the last cursor is not the largest. -/
theorem cursor_order_ten : ¬ ∀ storeId tr σ,
    (memoryEventStore storeId).Run (State.new storeId) tr σ → CursorsInOrder σ := by
  intro hall
  obtain ⟨tr, σ, hrun, happ⟩ := exists_run default tenEvents
  have hshort := (cursorsInOrder_iff σ).mp (hall _ _ _ hrun)
  rw [length_records hrun, happ] at hshort
  exact absurd hshort (by decide)

end MemoryEventStore

end OrbitRelay
