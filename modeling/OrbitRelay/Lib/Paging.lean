import Mathlib.Data.List.Nodup

/-
  Reading a growing list page by page.

  The reader wants the elements satisfying `p` and names a place in the list by
  a position: the number of elements up to and including the last one it got.
  `window p a b` is what lies after position `a` and up to position `b`. A page
  of at most `limit` elements is cut from the matching elements after its start
  with a look-ahead of one: only where a further match exists is there a next
  position, that of the last element of the page.

  The two facts a sequence of pages rests on: windows that meet join
  (`window_append`), and what was read stays what it was when the list grows
  (`window_of_prefix`). Of a list that does not grow the pages are its `chunks`.
-/

namespace Paging

variable {α : Type} (p : α → Bool)

/-- The matching elements at the positions `a + 1`, .., `b`. -/
def window (a b : Nat) (as : List α) : List α := ((as.take b).drop a).filter p

/-- The matching elements after position `a`. -/
def rest (a : Nat) (as : List α) : List α := (as.drop a).filter p

theorem window_append {a b c : Nat} (hab : a ≤ b) (hbc : b ≤ c) (as : List α) :
    window p a b as ++ window p b c as = window p a c as := by
  have hcut : (as.take b).drop a ++ (as.take c).drop b = (as.take c).drop a := by
    have htake : (as.take c).take b = as.take b := by rw [List.take_take, Nat.min_eq_left hbc]
    rw [← htake, List.drop_take, List.drop_take]
    have hsplit := List.take_append_drop (b - a) ((as.take c).drop a)
    rw [List.drop_drop, Nat.add_sub_cancel' hab] at hsplit
    simpa [List.drop_take] using hsplit
  rw [window, window, window, ← List.filter_append, hcut]

theorem window_length (a : Nat) (as : List α) : window p a as.length as = rest p a as := by
  rw [window, rest, List.take_length]

/-- A window and what lies behind it. -/
theorem window_append_rest {a b : Nat} (hab : a ≤ b) (as : List α) :
    window p a b as ++ rest p b as = rest p a as := by
  have hcut : (as.take b).drop a ++ as.drop b = as.drop a := by
    have hsplit := List.take_append_drop (b - a) (as.drop a)
    rw [List.drop_drop, Nat.add_sub_cancel' hab] at hsplit
    rw [List.drop_take, hsplit]
  rw [window, rest, rest, ← List.filter_append, hcut]

/-- Behind the window of the first `n` matches lie the others. -/
theorem rest_of_window {a b n : Nat} {as : List α} (hab : a ≤ b)
    (h : window p a b as = (rest p a as).take n) : rest p b as = (rest p a as).drop n := by
  have hsplit := window_append_rest p hab as
  rw [h] at hsplit
  exact List.append_cancel_left (hsplit.trans (List.take_append_drop n _).symm)

theorem window_of_prefix {a b : Nat} {as bs : List α} (hp : as <+: bs) (hb : b ≤ as.length) :
    window p a b bs = window p a b as := by
  obtain ⟨more, rfl⟩ := hp
  rw [window, window, List.take_append_of_le_length hb]

theorem window_nodup {a b : Nat} {as : List α} (h : as.Nodup) : (window p a b as).Nodup :=
  ((h.sublist (List.take_sublist _ _)).sublist (List.drop_sublist _ _)).filter _

/-- Cutting `n + 1` of the elements after `a` off at the last one kept: it sits
at a position `b`, and the window up to there is what was kept. -/
theorem exists_position : ∀ (as : List α) (a n : Nat), n < (rest p a as).length →
    ∃ b, a < b ∧ b ≤ as.length ∧ window p a b as = (rest p a as).take (n + 1) ∧
      as[b - 1]? = ((rest p a as).take (n + 1)).getLast? := by
  intro as a n
  induction hm : as.length - a generalizing a n with
  | zero =>
    intro hn
    have hnil : as.drop a = [] := by
      rw [List.drop_eq_nil_iff]
      omega
    simp [rest, hnil] at hn
  | succ m ih =>
    intro hn
    have ha : a < as.length := by omega
    have hdrop : as.drop a = as[a] :: as.drop (a + 1) := List.drop_eq_getElem_cons ha
    have hstep : window p a (a + 1) as = [as[a]].filter p := by
      rw [window, List.drop_take, hdrop, Nat.add_sub_cancel_left]
      rfl
    -- a match at `a` is the next one kept; anything else is passed over
    by_cases hpa : p as[a] = true
    · have hrest : rest p a as = as[a] :: rest p (a + 1) as := by
        rw [rest, hdrop, List.filter_cons_of_pos hpa, rest]
      cases n with
      | zero =>
        refine ⟨a + 1, by omega, ha, ?_, ?_⟩
        · rw [hstep, hrest, List.filter_cons_of_pos hpa]
          simp
        · rw [hrest, Nat.add_sub_cancel, List.getElem?_eq_getElem ha]
          simp
      | succ n =>
        rw [hrest, List.length_cons] at hn
        obtain ⟨b, hab, hb, hwin, hlast⟩ := ih (a + 1) n (by omega) (by omega)
        refine ⟨b, by omega, hb, ?_, ?_⟩
        · rw [← window_append p (Nat.le_succ a) (Nat.le_of_lt hab), hstep, hwin, hrest,
            List.filter_cons_of_pos hpa]
          simp
        · rw [hlast, hrest, List.take_succ_cons, List.getLast?_cons]
          have hne : (rest p (a + 1) as).take (n + 1) ≠ [] := by
            rw [← List.length_pos_iff, List.length_take]
            omega
          rw [List.getLast?_eq_getLast_of_ne_nil hne]
          simp
    · have hrest : rest p a as = rest p (a + 1) as := by
        rw [rest, hdrop, List.filter_cons_of_neg hpa, rest]
      rw [hrest] at hn
      obtain ⟨b, hab, hb, hwin, hlast⟩ := ih (a + 1) n (by omega) hn
      refine ⟨b, by omega, hb, ?_, ?_⟩
      · rw [← window_append p (Nat.le_succ a) (Nat.le_of_lt hab), hstep, hwin, hrest,
          List.filter_cons_of_neg hpa]
        simp
      · rw [hlast, hrest]

/-- A page of at most `limit` matches ends at a position: the matches before it
are the page, those behind it are the others, and the page's last element is
the one just before it. -/
theorem exists_cut {limit a : Nat} {as : List α} (hlimit : 1 ≤ limit) (hsome : 0 < (rest p a as).length) :
    ∃ b, a < b ∧ b ≤ as.length ∧ window p a b as = (rest p a as).take limit ∧
      rest p b as = (rest p a as).drop limit ∧ as[b - 1]? = ((rest p a as).take limit).getLast? := by
  -- a page that is not full ends with the last match there is
  obtain ⟨b, hab, hb, hwin, hlast⟩ :=
    exists_position p as a (min limit (rest p a as).length - 1) (by omega)
  have hcut : (rest p a as).take (min limit (rest p a as).length - 1 + 1) = (rest p a as).take limit := by
    rw [Nat.sub_add_cancel (by omega), ← List.take_eq_take_min]
  rw [hcut] at hwin hlast
  exact ⟨b, hab, hb, hwin, rest_of_window p (Nat.le_of_lt hab) hwin, hlast⟩

/-! ## All pages of a list that stays as it is -/

/-- The list cut into pages of `limit` elements, the last one taking what is
left: one page even of the empty list. -/
def chunks (limit : Nat) (as : List α) : List (List α) :=
  if as.length ≤ limit ∨ limit = 0 then [as] else as.take limit :: chunks limit (as.drop limit)
termination_by as.length
decreasing_by
  rw [List.length_drop]
  omega

variable {limit : Nat} {as : List α}

theorem chunks_of_le (h : as.length ≤ limit) : chunks limit as = [as] := by
  rw [chunks, if_pos (.inl h)]

theorem chunks_of_lt (hlimit : 1 ≤ limit) (h : limit < as.length) :
    chunks limit as = as.take limit :: chunks limit (as.drop limit) := by
  rw [chunks, if_neg (by omega)]

/-- The pages together are the list. -/
theorem chunks_flatten (hlimit : 1 ≤ limit) (as : List α) : (chunks limit as).flatten = as := by
  induction hn : as.length using Nat.strongRecOn generalizing as with
  | ind n ih =>
    by_cases hle : as.length ≤ limit
    · rw [chunks_of_le hle, List.flatten_singleton]
    · have hdrop : (as.drop limit).length = n - limit := by
        rw [List.length_drop, hn]
      rw [chunks_of_lt hlimit (by omega), List.flatten_cons, ih _ (by omega) _ hdrop, List.take_append_drop]

/-- As few pages as the length allows, and never none. -/
theorem chunks_length (hlimit : 1 ≤ limit) (as : List α) :
    (chunks limit as).length = max 1 ((as.length + limit - 1) / limit) := by
  induction hn : as.length using Nat.strongRecOn generalizing as with
  | ind n ih =>
    by_cases hle : as.length ≤ limit
    · have hceil : (n + limit - 1) / limit ≤ 1 := by
        apply Nat.le_of_lt_succ
        apply Nat.div_lt_of_lt_mul
        omega
      rw [chunks_of_le hle, List.length_singleton]
      omega
    · have hdrop : (as.drop limit).length = n - limit := by
        rw [List.length_drop, hn]
      have hceil : (n + limit - 1) / limit = (n - limit + limit - 1) / limit + 1 := by
        have hsum : n + limit - 1 = n - limit + limit - 1 + limit := by omega
        rw [hsum, Nat.add_div_right _ (by omega)]
      have hpos : 1 ≤ (n - limit + limit - 1) / limit := by
        apply (Nat.le_div_iff_mul_le (by omega)).mpr
        omega
      rw [chunks_of_lt hlimit (by omega), List.length_cons, ih _ (by omega) _ hdrop, hceil]
      omega

/-- Every page but the last is full, and the last is empty only where there was
nothing to read. -/
theorem chunks_full (hlimit : 1 ≤ limit) (as : List α) :
    ∃ full last, chunks limit as = full ++ [last] ∧ (∀ page ∈ full, page.length = limit) ∧
      last.length ≤ limit ∧ (as ≠ [] → 1 ≤ last.length) := by
  induction hn : as.length using Nat.strongRecOn generalizing as with
  | ind n ih =>
    by_cases hle : as.length ≤ limit
    · exact ⟨[], as, chunks_of_le hle, by simp, hle, List.length_pos_iff.mpr⟩
    · have hdrop : (as.drop limit).length = n - limit := by
        rw [List.length_drop, hn]
      obtain ⟨full, last, hchunks, hfull, hlast, hne⟩ := ih _ (by omega) _ hdrop
      refine ⟨as.take limit :: full, last, ?_, ?_, hlast, fun _ => ?_⟩
      · rw [chunks_of_lt hlimit (by omega), hchunks]
        rfl
      · intro page hpage
        rcases List.mem_cons.mp hpage with rfl | hpage
        · rw [List.length_take]
          omega
        · exact hfull page hpage
      · apply hne
        rw [← List.length_pos_iff]
        omega

end Paging
