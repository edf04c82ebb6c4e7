import Mathlib.Data.List.Nodup
import OrbitRelay.Lib.Lts

/-
  Linearizability, and linearization points as the way to it.

  Calls run side by side. Each begins with an operation and returns a result,
  and that is all their callers see: the history. A history is linearizable
  against a system with a step for every operation if its calls can be put in an
  order in which that system gives each its result, and in which a call that had
  returned before another began comes first.

  An implementation marks one step of every call as its point, between beginning
  and return. If its calls keep to that, and the points alone are steps of the
  specification, then the order of the points is such an order.

    `oneCall`                   what a call does: it begins, has its point, returns
    `Linearizes`                an order of the calls that explains a history
    `Linearization.linearizes`  the order of the points does
-/

namespace Lts

variable {σ ℓ τ κ ι ο : Type}

/-- What a call does. Nobody but the implementation sees its point. -/
inductive CallMark (ι ο : Type) where
  | call (op : ι)
  | point (op : ι) (res : ο)
  | ret (res : ο)
  deriving DecidableEq

/-- Where a call stands. -/
inductive CallPhase (ι ο : Type) where
  | idle
  | called (op : ι)
  | effected (op : ι) (res : ο)
  | returned (op : ι) (res : ο)
  deriving DecidableEq

/-- One call. It returns what it found at its point. -/
def oneCall (ι ο : Type) [DecidableEq ι] [DecidableEq ο] : Lts (CallPhase ι ο) (CallMark ι ο) where
  init := .idle
  step
    | .idle, .call op => some (.called op)
    | .called op, .point op' res => if op = op' then some (.effected op res) else none
    | .effected op res, .ret res' => if res = res' then some (.returned op res) else none
    | _, _ => none

theorem oneCall_point [DecidableEq ι] [DecidableEq ο] (op : ι) (res : ο) :
    (oneCall ι ο).step (.called op) (.point op res) = some (.effected op res) :=
  if_pos rfl

theorem oneCall_ret [DecidableEq ι] [DecidableEq ο] (op : ι) (res : ο) :
    (oneCall ι ο).step (.effected op res) (.ret res) = some (.returned op res) :=
  if_pos rfl

/-- What a call has done by the time it stands there. -/
def CallPhase.marks : CallPhase ι ο → List (CallMark ι ο)
  | .idle => []
  | .called op => [.call op]
  | .effected op res => [.call op, .point op res]
  | .returned op res => [.call op, .point op res, .ret res]

theorem oneCall_run [DecidableEq ι] [DecidableEq ο] {marks : List (CallMark ι ο)} {p : CallPhase ι ο}
    (h : (oneCall ι ο).Run .idle marks p) : marks = p.marks := by
  refine Run.induct (P := fun marks p => marks = p.marks) rfl ?_ h
  intro marks p m p' _ ih hstep
  subst ih
  cases p <;> cases m <;> simp_all [oneCall, CallPhase.marks] <;> obtain ⟨rfl, rfl⟩ := hstep <;> rfl

/-- A call does what it does beside the others. -/
theorem oneCall_single [DecidableEq κ] [DecidableEq ι] [DecidableEq ο] {phases phases' : κ → CallPhase ι ο} {c : κ}
    {m : CallMark ι ο} {p : CallPhase ι ο} (h : (oneCall ι ο).step (phases c) m = some p)
    (hphases : ∀ c', phases' c' = if c' = c then p else phases c') :
    (family fun _ : κ => oneCall ι ο).Run phases [(c, m)] phases' := by
  apply Run.single
  refine Option.map_eq_some_iff.mpr ⟨p, h, ?_⟩
  funext c'
  rw [hphases]

/-! ## Histories -/

/-- What the callers see. -/
def CallMark.visible : CallMark ι ο → Bool
  | .point _ _ => false
  | _ => true

/-- The calls and returns among the marks. -/
def history (marks : List (κ × CallMark ι ο)) : List (κ × CallMark ι ο) := marks.filter fun m => m.2.visible

/-- The operation and the result of a point. -/
def CallMark.point? : CallMark ι ο → Option (ι × ο)
  | .point op res => some (op, res)
  | _ => none

/-- The points among the marks, in order. -/
def points (marks : List (κ × CallMark ι ο)) : List (κ × ι × ο) :=
  marks.filterMap fun m => m.2.point?.map fun p => (m.1, p)

/-- The order explains the history: taken one after the other the calls get
their results, each call that returned is there once with the result it
returned, no call is there that never began, and calls that did not overlap are
in the order in which they were made. -/
structure Linearizes (A : Lts τ (ι × ο)) (order : List (κ × ι × ο)) (history : List (κ × CallMark ι ο)) : Prop where
  legal : ∃ y, A.Run A.init (order.map Prod.snd) y
  once : (order.map Prod.fst).Nodup
  called : ∀ {c op res}, (c, op, res) ∈ order → (c, .call op) ∈ history
  returned : ∀ {c res}, (c, .ret res) ∈ history → ∃ op, (c, op, res) ∈ order
  inOrder : ∀ {c c' res op}, [(c, .ret res), (c', .call op)].Sublist history → c' ∈ order.map Prod.fst →
    [c, c'].Sublist (order.map Prod.fst)

/-- An implementation with the points of its calls: what the calls do is done by
calls one by one, and what the points do by the specification. -/
structure Linearization (κ : Type) [DecidableEq κ] [DecidableEq ι] [DecidableEq ο] (L : Lts σ ℓ)
    (A : Lts τ (ι × ο)) where
  calls : Simulation L (family fun _ : κ => oneCall ι ο)
  effects : Simulation L A
  agree : ∀ l, effects.label l = (calls.label l).bind fun m => m.2.point?

/-! ## The order of the points -/

theorem mem_points {marks : List (κ × CallMark ι ο)} {c : κ} {op : ι} {res : ο} :
    (c, op, res) ∈ points marks ↔ (c, .point op res) ∈ marks := by
  rw [points, List.mem_filterMap]
  constructor
  · intro h
    obtain ⟨⟨c', m⟩, hm, heq⟩ := h
    cases m with
    | point op' res' =>
      obtain ⟨rfl, rfl, rfl⟩ : c' = c ∧ op' = op ∧ res' = res := by simpa [CallMark.point?] using heq
      exact hm
    | _ => simp [CallMark.point?] at heq
  · intro h
    exact ⟨_, h, rfl⟩

theorem points_map_snd (marks : List (κ × CallMark ι ο)) :
    (points marks).map Prod.snd = marks.filterMap fun m => m.2.point? := by
  rw [points, List.map_filterMap]
  congr 1
  funext m
  rw [Option.map_map]
  exact Option.map_id'

theorem points_append (marks marks' : List (κ × CallMark ι ο)) :
    points (marks ++ marks') = points marks ++ points marks' :=
  List.filterMap_append

section Calls

variable [DecidableEq κ] {marks : List (κ × CallMark ι ο)} {c : κ} {op : ι} {res : ο}

theorem mem_member {m : CallMark ι ο} : m ∈ member c marks ↔ (c, m) ∈ marks := by
  rw [member, List.mem_filterMap]
  constructor
  · intro h
    obtain ⟨⟨c', m'⟩, hm, heq⟩ := h
    obtain ⟨rfl, rfl⟩ : c' = c ∧ m' = m := by simpa using heq
    exact hm
  · intro h
    exact ⟨_, h, if_pos rfl⟩

/-- The points of a call are those among its marks. -/
theorem count_points : ∀ marks : List (κ × CallMark ι ο),
    ((points marks).map Prod.fst).count c = ((member c marks).filterMap CallMark.point?).length
  | [] => rfl
  | (c', m) :: marks => by
    have ih := count_points marks
    rw [points, member] at ih ⊢
    by_cases hc : c' = c <;> cases m <;> simp_all [CallMark.point?, List.filterMap_cons]

omit [DecidableEq κ] in
/-- A call has returned what it found at its point. -/
theorem CallPhase.point_of_ret {p : CallPhase ι ο} {before after : List (CallMark ι ο)}
    (h : p.marks = before ++ .ret res :: after) : ∃ op, .point op res ∈ before := by
  cases p with
  | returned op res' =>
    simp only [marks, List.cons_eq_append_iff, List.cons.injEq, reduceCtorEq, false_and, and_false, false_or] at h
    obtain ⟨_, rfl, _, rfl, ⟨rfl, hres, rfl⟩ | ⟨_, rfl, hnil⟩⟩ := h
    · obtain rfl := CallMark.ret.inj hres
      exact ⟨op, by simp⟩
    · simp at hnil
  | _ => simp [marks, List.cons_eq_append_iff] at h

omit [DecidableEq κ] in
/-- A call begins before anything else it does. -/
theorem CallPhase.nil_of_call {p : CallPhase ι ο} {before after : List (CallMark ι ο)}
    (h : p.marks = before ++ .call op :: after) : before = [] := by
  cases p with
  | idle => simp [marks] at h
  | _ => exact (by simpa [marks, List.cons_eq_append_iff] using h : before = [] ∧ _).1

omit [DecidableEq κ] in
/-- A call that has its point has begun. -/
theorem CallPhase.call_of_point {p : CallPhase ι ο} (h : .point op res ∈ p.marks) : .call op ∈ p.marks := by
  cases p <;> simp_all [marks]

omit [DecidableEq κ] in
/-- A call has one point at most. -/
theorem CallPhase.points_le (p : CallPhase ι ο) : (p.marks.filterMap CallMark.point?).length ≤ 1 := by
  cases p <;> simp [marks, CallMark.point?, List.filterMap_cons]

omit [DecidableEq κ] in
/-- The calls of the points. -/
theorem mem_points_map_fst : c ∈ (points marks).map Prod.fst ↔ ∃ op res, (c, .point op res) ∈ marks := by
  rw [List.mem_map]
  constructor
  · intro h
    obtain ⟨⟨_, op, res⟩, hmem, rfl⟩ := h
    exact ⟨op, res, mem_points.mp hmem⟩
  · intro h
    obtain ⟨op, res, hmem⟩ := h
    exact ⟨_, mem_points.mpr hmem, rfl⟩

/-- A call that returns before another begins has its point before the other. -/
theorem points_inOrder {c' : κ} (hphase : ∀ c, ∃ p : CallPhase ι ο, member c marks = p.marks)
    (hsub : [(c, CallMark.ret res), (c', .call op)].Sublist marks) (hlisted : c' ∈ (points marks).map Prod.fst) :
    [c, c'].Sublist ((points marks).map Prod.fst) := by
  obtain ⟨early, late, rfl, hret, hcall⟩ := List.cons_sublist_iff.mp hsub
  rw [List.singleton_sublist] at hcall
  have hmember : ∀ c, member c (early ++ late) = member c early ++ member c late := fun _ => List.filterMap_append
  have hfirst : c ∈ (points early).map Prod.fst := by
    obtain ⟨p, hp⟩ := hphase c
    obtain ⟨before, after, hsplit⟩ := List.append_of_mem (mem_member.mpr hret)
    rw [hmember, hsplit, List.append_assoc, List.cons_append] at hp
    obtain ⟨op, hpoint⟩ := CallPhase.point_of_ret hp.symm
    exact mem_points_map_fst.mpr ⟨op, res, mem_member.mp (hsplit ▸ List.mem_append_left _ hpoint)⟩
  have hsecond : c' ∈ (points late).map Prod.fst := by
    obtain ⟨p, hp⟩ := hphase c'
    obtain ⟨before, after, hsplit⟩ := List.append_of_mem (mem_member.mpr hcall)
    rw [hmember, hsplit, ← List.append_assoc] at hp
    have hnone : member c' early = [] := (List.append_eq_nil_iff.mp (CallPhase.nil_of_call hp.symm)).1
    obtain ⟨op', res', hpoint⟩ := mem_points_map_fst.mp hlisted
    refine mem_points_map_fst.mpr ⟨op', res', (List.mem_append.mp hpoint).resolve_left ?_⟩
    intro hearly
    simpa [hnone] using mem_member.mpr hearly
  rw [points_append, List.map_append]
  exact (List.singleton_sublist.mpr hfirst).append (List.singleton_sublist.mpr hsecond)

end Calls

/-- The order of the points explains the history of any run. -/
theorem Linearization.linearizes [DecidableEq κ] [DecidableEq ι] [DecidableEq ο] {L : Lts σ ℓ} {A : Lts τ (ι × ο)}
    (S : Linearization κ L A) {tr : List ℓ} {s : σ} (h : L.Run L.init tr s) :
    Linearizes A (points (tr.filterMap S.calls.label)) (history (tr.filterMap S.calls.label)) := by
  obtain ⟨phases, hcalls, _⟩ := S.calls.run h
  obtain ⟨y, heffects, _⟩ := S.effects.run h
  generalize hmarks : tr.filterMap S.calls.label = marks at hcalls
  have hphase : ∀ c, member c marks = (phases c).marks := fun c => oneCall_run (family_run hcalls c)
  have hpoints : tr.filterMap S.effects.label = (points marks).map Prod.snd := by
    rw [points_map_snd, ← hmarks, List.filterMap_filterMap]
    congr 1
    funext l
    exact S.agree l
  constructor
  · exact ⟨y, hpoints ▸ heffects⟩
  · apply List.nodup_iff_count_le_one.mpr
    intro c
    rw [count_points, hphase]
    exact CallPhase.points_le _
  · intro c op res hmem
    have hpoint : .point op res ∈ (phases c).marks := by
      rw [← hphase, mem_member]
      exact mem_points.mp hmem
    have hcall := CallPhase.call_of_point hpoint
    rw [← hphase, mem_member] at hcall
    exact List.mem_filter.mpr ⟨hcall, rfl⟩
  · intro c res hret
    obtain ⟨before, after, hsplit⟩ := List.append_of_mem (mem_member.mpr (List.mem_filter.mp hret).1)
    obtain ⟨op, hpoint⟩ := CallPhase.point_of_ret ((hphase c).symm.trans hsplit)
    refine ⟨op, mem_points.mpr (mem_member.mp ?_)⟩
    rw [hsplit]
    exact List.mem_append_left _ hpoint
  · intro c c' res op hsub hlisted
    exact points_inOrder (fun c => ⟨_, hphase c⟩) (hsub.trans List.filter_sublist) hlisted

end Lts
