import OrbitRelay.Wire

/-
  Decoding near the ends of the years that are represented.

  A date-time within an offset of the first or the last instant has a date at UTC
  that is in none of these years, and decoding it as a timestamp panics; no other
  value does. A record panics with its timestamp, provided that the decoder comes
  to it: the fields before are read, each for the first time (`ReachesEdge`).
-/

namespace OrbitRelay

variable {ω ε α β σ : Type} {wire : Wire ω ε} {w : ω} {x y : OffsetDateTime}

/-! ## Timestamps -/

/-- A date-time that has no date at UTC. -/
def Wire.AtEdge (wire : Wire ω ε) (w : ω) : Prop := ∃ x, wire.offsetDateTime w = .ok x ∧ x.LeavesUtcRange

namespace Timestamp

theorem deserialize_of_ok (hw : wire.offsetDateTime w = .ok x) :
    deserialize wire w = match wire.toUtc x with | some t => .ok (.ofUtc t) | none => .panic := by
  rw [deserialize, hw]
  rfl

theorem deserialize_of_error {e : ε} (hw : wire.offsetDateTime w = .error e) : deserialize wire w = .err e := by
  rw [deserialize, hw]
  rfl

theorem deserialize_eq_ok_iff {t : Timestamp} :
    deserialize wire w = .ok t ↔
      ∃ x u, wire.offsetDateTime w = .ok x ∧ wire.toUtc x = some u ∧ .ofUtc u = t := by
  cases hw : wire.offsetDateTime w with
  | error e => simp [deserialize_of_error hw]
  | ok x =>
    rw [deserialize_of_ok hw]
    cases hx : wire.toUtc x <;> simp [hx]

theorem deserialize_eq_panic_iff (h : ToUtc wire.toUtc) : deserialize wire w = .panic ↔ wire.AtEdge w := by
  rw [Wire.AtEdge]
  cases hw : wire.offsetDateTime w with
  | error e => simp [deserialize_of_error hw]
  | ok x =>
    rw [deserialize_of_ok hw]
    cases hx : wire.toUtc x with
    | none => simpa using h.eq_none_iff.mp hx
    | some t => simpa using h.exists_eq_some_iff.mp ⟨t, hx⟩

theorem deserialize_reads_iff (h : ToUtc wire.toUtc) :
    (∃ t, deserialize wire w = .ok t) ↔ ∃ x, wire.offsetDateTime w = .ok x ∧ ¬x.LeavesUtcRange := by
  constructor
  · rintro ⟨t, ht⟩
    obtain ⟨x, u, hw, hu, -⟩ := deserialize_eq_ok_iff.mp ht
    exact ⟨x, hw, h.exists_eq_some_iff.mp ⟨u, hu⟩⟩
  · rintro ⟨x, hw, hx⟩
    obtain ⟨u, hu⟩ := h.exists_eq_some_iff.mpr hx
    exact ⟨.ofUtc u, deserialize_eq_ok_iff.mpr ⟨x, u, hw, hu, rfl⟩⟩

/-- A timestamp is of the instant that was encoded. -/
theorem deserialize_nanos (h : ToUtc wire.toUtc) {t : Timestamp} (hw : wire.offsetDateTime w = .ok x)
    (ht : deserialize wire w = .ok t) : t.nanos = x.nanos := by
  obtain ⟨y, u, hy, hu, rfl⟩ := deserialize_eq_ok_iff.mp ht
  obtain rfl : x = y := Except.ok.inj (hw.symm.trans hy)
  exact h.same_instant hu

/-- Timestamps of one instant are equal. -/
theorem deserialize_congr (h : ToUtc wire.toUtc) {v : ω} (hv : wire.offsetDateTime v = .ok x)
    (hw : wire.offsetDateTime w = .ok y) (hxy : x.nanos = y.nanos) : deserialize wire v = deserialize wire w := by
  rw [deserialize_of_ok hv, deserialize_of_ok hw]
  by_cases hx : x.LeavesUtcRange
  · rw [h.eq_none_iff.mpr hx, h.eq_none_iff.mpr ((OffsetDateTime.leavesUtcRange_congr hxy).mp hx)]
  · obtain ⟨t, ht⟩ := h.exists_eq_some_iff.mpr hx
    obtain ⟨u, hu⟩ := h.exists_eq_some_iff.mpr (mt (OffsetDateTime.leavesUtcRange_congr hxy).mpr hx)
    have hnanos : t.nanos = u.nanos := by rw [h.same_instant ht, h.same_instant hu, hxy]
    rw [ht, hu]
    simp [ofUtc, hnanos]

end Timestamp

/-! ## Records -/

namespace Wire

/-- What the fields of a record are read as. -/
inductive FieldType where
  | entityId
  | string
  | timestamp
  | payload
  | metadata
  deriving DecidableEq

/-- A value is read as a field of the type. -/
def Reads (wire : Wire ω ε) : FieldType → ω → Prop
  | .entityId, w => ∃ a, wire.entityId w = .ok a
  | .string, w => ∃ a, wire.string w = .ok a
  | .timestamp, w => ∃ x, wire.offsetDateTime w = .ok x ∧ ¬x.LeavesUtcRange
  | .payload, w => ∃ a, wire.payload w = .ok a
  | .metadata, w => ∃ a, wire.metadata w = .ok a

/-- A timestamp at the edge that the decoder of a record comes to: it has read
the fields before, and none of them twice. -/
def ReachesEdge (wire : Wire ω ε) (fields : List (String × FieldType)) (entries : List (String × ω)) : Prop :=
  ∃ pre name w post, entries = pre ++ (name, w) :: post ∧ (name, .timestamp) ∈ fields ∧ wire.AtEdge w ∧
    (∀ entry ∈ pre, ∀ kind, (entry.1, kind) ∈ fields → wire.Reads kind entry.2) ∧
    (∀ entry ∈ pre, entry.1 ≠ name) ∧ pre.Pairwise fun a b => a.1 = b.1 → a.1 ∉ fields.map Prod.fst

section Fields

variable {fields : List (String × FieldType)} {seen : σ → String → Bool} {s : σ}
variable {kind : FieldType} {name : String} {slot : Option α} {read : ω → Fallible ε α} {put : Option α → σ}

/-- What reading a value as a field of the type can end in. -/
structure ReadsAs (wire : Wire ω ε) (kind : FieldType) (read : ω → Fallible ε α) : Prop where
  ok_iff : ∀ w, (∃ a, read w = .ok a) ↔ wire.Reads kind w
  panic_iff : ∀ w, read w = .panic ↔ kind = .timestamp ∧ wire.AtEdge w

/-- A value that is only wrapped does not panic. -/
theorem ReadsAs.wrap {read : ω → Except ε α} (mk : α → β) (hkind : kind ≠ .timestamp)
    (h : ∀ w, wire.Reads kind w ↔ ∃ a, read w = .ok a) : wire.ReadsAs kind (wrap read mk) where
  ok_iff := by
    intro w
    simp [h, Wire.wrap, Fallible.map_eq_ok]
  panic_iff := by
    intro w
    simp [hkind, Wire.wrap, Fallible.map_eq_panic]

theorem readsAs_entityId (mk : EntityId → β) : wire.ReadsAs .entityId (wrap wire.entityId mk) :=
  .wrap mk nofun fun _ => Iff.rfl

theorem readsAs_string (mk : String → β) : wire.ReadsAs .string (wrap wire.string mk) :=
  .wrap mk nofun fun _ => Iff.rfl

theorem readsAs_payload : wire.ReadsAs .payload (Fallible.ofExcept ∘ wire.payload) where
  ok_iff := by simp [Reads]
  panic_iff := by simp

theorem readsAs_metadata : wire.ReadsAs .metadata (Fallible.ofExcept ∘ wire.metadata) where
  ok_iff := by simp [Reads]
  panic_iff := by simp

theorem readsAs_timestamp (h : ToUtc wire.toUtc) : wire.ReadsAs .timestamp (Timestamp.deserialize wire) where
  ok_iff := by
    intro w
    exact Timestamp.deserialize_reads_iff h
  panic_iff := by
    intro w
    simp [Timestamp.deserialize_eq_panic_iff h]

theorem once_eq_ok_iff {t : σ} : put <$> wire.once name slot read w = .ok t ↔
    slot.isSome = false ∧ ∃ a, read w = .ok a ∧ put (some a) = t := by
  rw [once, Fallible.map_eq_ok]
  split
  · next hslot => simp [hslot]
  · next hslot => simp [hslot, Fallible.map_eq_ok]

theorem once_eq_panic_iff : put <$> wire.once name slot read w = .panic ↔
    slot.isSome = false ∧ read w = .panic := by
  rw [once, Fallible.map_eq_panic]
  split
  · next hslot => simp [hslot]
  · next hslot => simp [hslot, Fallible.map_eq_panic]

@[simp] theorem required_ne_panic : wire.required name slot ≠ .panic := by
  cases slot <;> simp [required]

/-- How a decoder visits a field: it passes over one that is not in the table,
and reads any other into its slot. -/
inductive Visit (wire : Wire ω ε) (fields : List (String × FieldType)) (seen : σ → String → Bool) (s : σ) :
    String × ω → Fallible ε σ → Prop where
  | unknown {name : String} {w : ω} (hname : name ∉ fields.map Prod.fst) :
    Visit wire fields seen s (name, w) (pure s)
  | field {α : Type} {kind : FieldType} {name : String} {w : ω} {slot : Option α} {read : ω → Fallible ε α}
    {put : Option α → σ} (hkind : ∀ other, (name, other) ∈ fields ↔ other = kind)
    (hread : wire.ReadsAs kind read) (hslot : slot.isSome = seen s name)
    (hput : ∀ a, ∀ other ∈ fields.map Prod.fst, seen (put (some a)) other = (other == name || seen s other)) :
    Visit wire fields seen s (name, w) (put <$> wire.once name slot read w)

end Fields

namespace Visit

variable {fields : List (String × FieldType)} {seen : σ → String → Bool} {s : σ}
variable {entry : String × ω} {result : Fallible ε σ} (h : wire.Visit fields seen s entry result)
include h

/-- A field is read if its value is one of the type, for the first time. -/
theorem ok_iff : (∃ t, result = .ok t) ↔
    ∀ kind, (entry.1, kind) ∈ fields → seen s entry.1 = false ∧ wire.Reads kind entry.2 := by
  cases h with
  | unknown hname =>
    constructor
    · intro _ kind hkind
      exact absurd (List.mem_map_of_mem hkind) hname
    · intro _
      exact ⟨s, rfl⟩
  | field hkind hread hslot hput =>
    simp [once_eq_ok_iff, hkind, hslot, hread.ok_iff]

/-- Then it has been seen. -/
theorem seen_iff {t : σ} (ht : result = .ok t) {other : String} (hother : other ∈ fields.map Prod.fst) :
    seen t other = true ↔ seen s other = true ∨ entry.1 = other := by
  cases h with
  | unknown hname =>
    obtain rfl : s = t := Fallible.ok.inj ht
    have hne := ne_of_mem_of_not_mem hother hname
    simp [hne.symm]
  | field hkind hread hslot hput =>
    obtain ⟨_, a, _, rfl⟩ := once_eq_ok_iff.mp ht
    rw [hput a other hother, Bool.or_eq_true, beq_iff_eq, or_comm, eq_comm (a := other)]

theorem panic_iff :
    result = .panic ↔ (entry.1, .timestamp) ∈ fields ∧ seen s entry.1 = false ∧ wire.AtEdge entry.2 := by
  cases h with
  | unknown hname =>
    constructor
    · intro hpanic
      cases hpanic
    · intro hedge
      exact absurd (List.mem_map_of_mem hedge.1) hname
  | field hkind hread hslot hput =>
    rw [once_eq_panic_iff, hkind, hslot, hread.panic_iff]
    grind

end Visit

section Run

variable {fields : List (String × FieldType)} {visit : σ → String × ω → Fallible ε σ}
variable {seen : σ → String → Bool} {s t : σ} {entries : List (String × ω)}
variable (hvisit : ∀ s entry, wire.Visit fields seen s entry (visit s entry))
include hvisit

/-- The fields that have been seen when some have been read. -/
theorem foldlM_seen {other : String} (hrun : entries.foldlM visit s = .ok t)
    (hother : other ∈ fields.map Prod.fst) :
    seen t other = true ↔ seen s other = true ∨ ∃ entry ∈ entries, entry.1 = other := by
  induction entries generalizing s with
  | nil =>
    obtain rfl : s = t := Fallible.ok.inj hrun
    simp
  | cons entry entries ih =>
    rw [List.foldlM_cons, Fallible.bind_eq_ok] at hrun
    obtain ⟨u, hfirst, hrest⟩ := hrun
    rw [ih hrest, (hvisit s entry).seen_iff hfirst hother, or_assoc]
    simp only [List.mem_cons, exists_eq_or_imp]

/-- The fields that can be read one after another. -/
theorem foldlM_ok_iff : (∃ t, entries.foldlM visit s = .ok t) ↔
    (∀ entry ∈ entries, ∀ kind, (entry.1, kind) ∈ fields →
      seen s entry.1 = false ∧ wire.Reads kind entry.2) ∧
      entries.Pairwise fun a b => a.1 = b.1 → a.1 ∉ fields.map Prod.fst := by
  induction entries generalizing s with
  | nil => simp
  | cons first entries ih =>
    rw [List.foldlM_cons, List.forall_mem_cons, List.pairwise_cons]
    constructor
    · intro h
      obtain ⟨t, hrun⟩ := h
      obtain ⟨u, hfirst, hrest⟩ := Fallible.bind_eq_ok.mp hrun
      obtain ⟨htail, hdistinct⟩ := ih.mp ⟨t, hrest⟩
      -- what is unseen after the first field was so before it, and is another
      have hseen : ∀ entry ∈ entries, ∀ kind, (entry.1, kind) ∈ fields →
          seen s entry.1 = false ∧ first.1 ≠ entry.1 := by
        intro entry hentry kind hkind
        have hfresh := (htail entry hentry kind hkind).1
        rw [Bool.eq_false_iff, ne_eq, (hvisit s first).seen_iff hfirst (List.mem_map_of_mem hkind), not_or] at hfresh
        exact ⟨Bool.eq_false_iff.mpr hfresh.1, hfresh.2⟩
      refine ⟨⟨(hvisit s first).ok_iff.mp ⟨u, hfirst⟩, ?_⟩, ?_, hdistinct⟩
      · intro entry hentry kind hkind
        exact ⟨(hseen entry hentry kind hkind).1, (htail entry hentry kind hkind).2⟩
      · intro entry hentry hname hknown
        rw [hname] at hknown
        obtain ⟨⟨_, kind⟩, hkind, rfl⟩ := List.mem_map.mp hknown
        exact (hseen entry hentry kind hkind).2 hname
    · intro h
      obtain ⟨⟨hhead, htail⟩, hothers, hdistinct⟩ := h
      obtain ⟨u, hu⟩ := (hvisit s first).ok_iff.mpr hhead
      have hrest : ∀ entry ∈ entries, ∀ kind, (entry.1, kind) ∈ fields →
          seen u entry.1 = false ∧ wire.Reads kind entry.2 := by
        intro entry hentry kind hkind
        obtain ⟨hfresh, hread⟩ := htail entry hentry kind hkind
        have hknown : entry.1 ∈ fields.map Prod.fst := List.mem_map_of_mem hkind
        refine ⟨?_, hread⟩
        rw [Bool.eq_false_iff, ne_eq, (hvisit s first).seen_iff hu hknown, hfresh]
        rintro (hs | hname)
        · cases hs
        · exact hothers entry hentry hname (hname ▸ hknown)
      obtain ⟨t, ht⟩ := ih.mpr ⟨hrest, hdistinct⟩
      exact ⟨t, Fallible.bind_eq_ok.mpr ⟨u, hu, ht⟩⟩

/-- A loop over the fields panics at a timestamp at the edge. -/
theorem foldlM_eq_panic_iff (hstart : ∀ name, seen s name = false) :
    entries.foldlM visit s = .panic ↔ wire.ReachesEdge fields entries := by
  rw [Fallible.foldlM_eq_panic]
  constructor
  · intro h
    obtain ⟨pre, ⟨name, w⟩, post, t, hsplit, hpre, hpanic⟩ := h
    obtain ⟨hfield, hfresh, hedge⟩ := (hvisit t (name, w)).panic_iff.mp hpanic
    obtain ⟨hread, hdistinct⟩ := (foldlM_ok_iff hvisit).mp ⟨t, hpre⟩
    refine ⟨pre, name, w, post, hsplit, hfield, hedge, fun entry hentry kind hkind =>
      (hread entry hentry kind hkind).2, ?_, hdistinct⟩
    intro entry hentry hname
    have hseen := (foldlM_seen hvisit hpre (List.mem_map_of_mem hfield)).mpr (.inr ⟨entry, hentry, hname⟩)
    exact absurd hseen (Bool.eq_false_iff.mp hfresh)
  · intro h
    obtain ⟨pre, name, w, post, hsplit, hfield, hedge, hread, hother, hdistinct⟩ := h
    obtain ⟨t, hpre⟩ := (foldlM_ok_iff hvisit).mpr ⟨fun entry hentry kind hkind =>
      ⟨hstart entry.1, hread entry hentry kind hkind⟩, hdistinct⟩
    refine ⟨pre, (name, w), post, t, hsplit, hpre, (hvisit t (name, w)).panic_iff.mpr ⟨hfield, ?_, hedge⟩⟩
    rw [Bool.eq_false_iff, ne_eq, foldlM_seen hvisit hpre (List.mem_map_of_mem hfield), hstart]
    rintro (hs | ⟨entry, hentry, hname⟩)
    · cases hs
    · exact hother entry hentry hname

/-- A record panics at a timestamp at the edge that its decoder comes to. -/
theorem record_eq_panic_iff {finish : σ → Fallible ε α} {body : Body ω ε}
    (hstart : ∀ name, seen s name = false) (hfinish : ∀ t, finish t ≠ .panic) :
    wire.record (fields.map Prod.fst) visit s finish body = .panic ↔
      wire.ReachesEdge fields (body.fields (fields.map Prod.fst)) := by
  rw [← foldlM_eq_panic_iff hvisit hstart]
  cases body with
  | object entries broken =>
    rw [record, Body.fields, Fallible.bind_eq_panic]
    cases broken <;> simp [hfinish]
  | array values broken =>
    rw [record, Body.fields, Fallible.bind_eq_panic]
    cases broken <;> grind
  | other error => simp [record, Body.fields]

end Run

end Wire

open Wire (FieldType)

namespace Action

def fieldTypes : List (String × FieldType) :=
  [("id", .entityId), ("session_id", .entityId), ("actor_id", .entityId), ("action_type", .string),
    ("requested_at", .timestamp), ("payload", .payload), ("metadata", .metadata)]

/-- Whether the field has been read. -/
def Fields.has (fields : Fields) : String → Bool
  | "id" => fields.id.isSome
  | "session_id" => fields.sessionId.isSome
  | "actor_id" => fields.actorId.isSome
  | "action_type" => fields.actionType.isSome
  | "requested_at" => fields.requestedAt.isSome
  | "payload" => fields.payload.isSome
  | "metadata" => fields.metadata.isSome
  | _ => false

theorem visits (h : ToUtc wire.toUtc) (s : Fields) (entry : String × ω) :
    wire.Visit fieldTypes Fields.has s entry (visit wire s entry) := by
  unfold visit
  split
  · exact .field (by simp [fieldTypes]) (Wire.readsAs_entityId _) rfl (by simp [fieldTypes, Fields.has])
  · exact .field (by simp [fieldTypes]) (Wire.readsAs_entityId _) rfl (by simp [fieldTypes, Fields.has])
  · exact .field (by simp [fieldTypes]) (Wire.readsAs_entityId _) rfl (by simp [fieldTypes, Fields.has])
  · exact .field (by simp [fieldTypes]) (Wire.readsAs_string _) rfl (by simp [fieldTypes, Fields.has])
  · exact .field (by simp [fieldTypes]) (Wire.readsAs_timestamp h) rfl (by simp [fieldTypes, Fields.has])
  · exact .field (by simp [fieldTypes]) Wire.readsAs_payload rfl (by simp [fieldTypes, Fields.has])
  · exact .field (by simp [fieldTypes]) Wire.readsAs_metadata rfl (by simp [fieldTypes, Fields.has])
  · exact .unknown (by simp_all [fieldTypes, Prod.ext_iff])

theorem has_none (name : String) : Fields.has ⟨none, none, none, none, none, none, none⟩ name = false := by
  unfold Fields.has
  split <;> rfl

theorem finish_ne_panic (fields : Fields) : finish wire fields ≠ .panic := by
  simp [finish, Fallible.bind_eq_panic]

theorem deserialize_eq_panic_iff (h : ToUtc wire.toUtc) {body : Body ω ε} :
    deserialize wire body = .panic ↔ wire.ReachesEdge fieldTypes (body.fields fieldNames) :=
  Wire.record_eq_panic_iff (visits h) has_none finish_ne_panic

end Action

namespace Event

def fieldTypes : List (String × FieldType) :=
  [("id", .entityId), ("session_id", .entityId), ("actor_id", .entityId), ("action_id", .entityId),
    ("event_type", .string), ("occurred_at", .timestamp), ("payload", .payload), ("metadata", .metadata)]

/-- Whether the field has been read. -/
def Fields.has (fields : Fields) : String → Bool
  | "id" => fields.id.isSome
  | "session_id" => fields.sessionId.isSome
  | "actor_id" => fields.actorId.isSome
  | "action_id" => fields.actionId.isSome
  | "event_type" => fields.eventType.isSome
  | "occurred_at" => fields.occurredAt.isSome
  | "payload" => fields.payload.isSome
  | "metadata" => fields.metadata.isSome
  | _ => false

theorem visits (h : ToUtc wire.toUtc) (s : Fields) (entry : String × ω) :
    wire.Visit fieldTypes Fields.has s entry (visit wire s entry) := by
  unfold visit
  split
  · exact .field (by simp [fieldTypes]) (Wire.readsAs_entityId _) rfl (by simp [fieldTypes, Fields.has])
  · exact .field (by simp [fieldTypes]) (Wire.readsAs_entityId _) rfl (by simp [fieldTypes, Fields.has])
  · exact .field (by simp [fieldTypes]) (Wire.readsAs_entityId _) rfl (by simp [fieldTypes, Fields.has])
  · exact .field (by simp [fieldTypes]) (Wire.readsAs_entityId _) rfl (by simp [fieldTypes, Fields.has])
  · exact .field (by simp [fieldTypes]) (Wire.readsAs_string _) rfl (by simp [fieldTypes, Fields.has])
  · exact .field (by simp [fieldTypes]) (Wire.readsAs_timestamp h) rfl (by simp [fieldTypes, Fields.has])
  · exact .field (by simp [fieldTypes]) Wire.readsAs_payload rfl (by simp [fieldTypes, Fields.has])
  · exact .field (by simp [fieldTypes]) Wire.readsAs_metadata rfl (by simp [fieldTypes, Fields.has])
  · exact .unknown (by simp_all [fieldTypes, Prod.ext_iff])

theorem has_none (name : String) : Fields.has ⟨none, none, none, none, none, none, none, none⟩ name = false := by
  unfold Fields.has
  split <;> rfl

theorem finish_ne_panic (fields : Fields) : finish wire fields ≠ .panic := by
  simp [finish, Fallible.bind_eq_panic]

theorem deserialize_eq_panic_iff (h : ToUtc wire.toUtc) {body : Body ω ε} :
    deserialize wire body = .panic ↔ wire.ReachesEdge fieldTypes (body.fields fieldNames) :=
  Wire.record_eq_panic_iff (visits h) has_none finish_ne_panic

end Event

namespace Session

def fieldTypes : List (String × FieldType) :=
  [("id", .entityId), ("created_at", .timestamp), ("metadata", .metadata)]

/-- Whether the field has been read. -/
def Fields.has (fields : Fields) : String → Bool
  | "id" => fields.id.isSome
  | "created_at" => fields.createdAt.isSome
  | "metadata" => fields.metadata.isSome
  | _ => false

theorem visits (h : ToUtc wire.toUtc) (s : Fields) (entry : String × ω) :
    wire.Visit fieldTypes Fields.has s entry (visit wire s entry) := by
  unfold visit
  split
  · exact .field (by simp [fieldTypes]) (Wire.readsAs_entityId _) rfl (by simp [fieldTypes, Fields.has])
  · exact .field (by simp [fieldTypes]) (Wire.readsAs_timestamp h) rfl (by simp [fieldTypes, Fields.has])
  · exact .field (by simp [fieldTypes]) Wire.readsAs_metadata rfl (by simp [fieldTypes, Fields.has])
  · exact .unknown (by simp_all [fieldTypes, Prod.ext_iff])

theorem has_none (name : String) : Fields.has ⟨none, none, none⟩ name = false := by
  unfold Fields.has
  split <;> rfl

theorem finish_ne_panic (fields : Fields) : finish wire fields ≠ .panic := by
  simp [finish, Fallible.bind_eq_panic]

theorem deserialize_eq_panic_iff (h : ToUtc wire.toUtc) {body : Body ω ε} :
    deserialize wire body = .panic ↔ wire.ReachesEdge fieldTypes (body.fields fieldNames) :=
  Wire.record_eq_panic_iff (visits h) has_none finish_ne_panic

end Session

/-! ## What decoding can end in -/

/-- **When decoding returns.** A timestamp is decoded or refused unless its
date-time is within an offset of the ends of the range, and so is a record unless
its decoder comes to one. A timestamp that is decoded is of the instant that was
encoded, whatever the offset. -/
theorem Wire.decoding_returns_iff (wire : Wire ω ε) (h : ToUtc wire.toUtc) :
    (∀ w e, wire.offsetDateTime w = .error e → Timestamp.deserialize wire w = .err e) ∧
    (∀ w x, wire.offsetDateTime w = .ok x → (Timestamp.deserialize wire w ≠ .panic ↔ ¬x.LeavesUtcRange)) ∧
    (∀ w x t, wire.offsetDateTime w = .ok x → Timestamp.deserialize wire w = .ok t → t.nanos = x.nanos) ∧
    (∀ v w x y, wire.offsetDateTime v = .ok x → wire.offsetDateTime w = .ok y → x.nanos = y.nanos →
      Timestamp.deserialize wire v = Timestamp.deserialize wire w) ∧
    (∀ body, Action.deserialize wire body ≠ .panic ↔
      ¬wire.ReachesEdge Action.fieldTypes (body.fields Action.fieldNames)) ∧
    (∀ body, Event.deserialize wire body ≠ .panic ↔
      ¬wire.ReachesEdge Event.fieldTypes (body.fields Event.fieldNames)) ∧
    ∀ body, Session.deserialize wire body ≠ .panic ↔
      ¬wire.ReachesEdge Session.fieldTypes (body.fields Session.fieldNames) := by
  refine ⟨fun w e => Timestamp.deserialize_of_error, ?_, fun w x t => Timestamp.deserialize_nanos h,
    fun v w x y => Timestamp.deserialize_congr h, fun body => not_congr (Action.deserialize_eq_panic_iff h),
    fun body => not_congr (Event.deserialize_eq_panic_iff h),
    fun body => not_congr (Session.deserialize_eq_panic_iff h)⟩
  intro w x hw
  rw [ne_eq, Timestamp.deserialize_eq_panic_iff h, AtEdge, hw]
  simp

/-! ## Worked instances -/

/-- A few encoded values. -/
inductive Encoded where
  | text (s : String)
  | dateTime (x : OffsetDateTime)
  | object

/-- These read as what they are; an object is empty, and a text that is an id
is the one without a bit set. -/
def Wire.plain : Wire Encoded String where
  entityId
    | .text "00000000-0000-0000-0000-000000000000" => .ok ⟨"00000000-0000-0000-0000-000000000000", by decide⟩
    | _ => .error "invalid id"
  string
    | .text s => .ok s
    | _ => .error "expected a string"
  payload
    | .object => .ok Payload.new
    | _ => .error "expected an object"
  metadata
    | .object => .ok BTreeMap.new
    | _ => .error "expected an object"
  offsetDateTime
    | .dateTime x => .ok x
    | _ => .error "expected a date-time"
  toUtc := toOffsetUtc
  duplicateField name := "duplicate field " ++ name
  missingField name := "missing field " ++ name
  invalidLength n := "invalid length " ++ toString n
  trailingValues := "trailing characters"

/-- The last second of the year 9999, by a clock an hour behind UTC. -/
def lastSecond : OffsetDateTime where
  «local» := ⟨.lastOfYear 9999, ⟨23, 59, 59, 0, by decide⟩, by decide⟩
  offset := ⟨-3600, by decide⟩

/-- A moment in 2023, by a clock some hours ahead of UTC. -/
def midday (hours : Nat) (h : hours < 12) : OffsetDateTime where
  «local» := ⟨⟨2023, 11, 14, by decide, by decide⟩, ⟨12 + hours, 0, 0, 0, by omega⟩, by decide⟩
  offset := ⟨3600 * hours, by omega⟩

/-- A session created in the last second. -/
def lastSession : Body Encoded String :=
  .object [("id", .text "00000000-0000-0000-0000-000000000000"), ("created_at", .dateTime lastSecond),
    ("metadata", .object)] none

theorem Wire.decoding_returns_midday :
    Timestamp.deserialize Wire.plain (.dateTime (midday 1 (by decide))) ≠ .panic ∧
      Timestamp.deserialize Wire.plain (.dateTime (midday 1 (by decide))) =
        Timestamp.deserialize Wire.plain (.dateTime (midday 0 (by decide))) ∧
      Session.deserialize Wire.plain lastSession = .panic := by
  obtain ⟨-, hreturns, -, hsame, -, -, hsession⟩ := Wire.decoding_returns_iff Wire.plain toUtc_toOffsetUtc
  refine ⟨(hreturns _ _ rfl).mpr (by decide), hsame _ _ _ _ rfl rfl (by decide), ?_⟩
  rw [← not_ne_iff, hsession, not_not]
  refine ⟨[("id", .text "00000000-0000-0000-0000-000000000000")], "created_at", .dateTime lastSecond,
    [("metadata", .object)], rfl, by simp [Session.fieldTypes], ⟨lastSecond, rfl, by decide⟩, ?_, by simp,
    by simp⟩
  simp [Session.fieldTypes, Wire.Reads, Wire.plain]

/-- The last second of 9999 an hour behind UTC is an hour into the year 10000. -/
theorem Wire.decoding_panics_lastSecond :
    ¬∀ w x, Wire.plain.offsetDateTime w = .ok x → Timestamp.deserialize Wire.plain w ≠ .panic := by
  intro hall
  have hedge : Timestamp.deserialize Wire.plain (.dateTime lastSecond) = .panic :=
    (Timestamp.deserialize_eq_panic_iff toUtc_toOffsetUtc).mpr ⟨lastSecond, rfl, by decide⟩
  exact hall _ _ rfl hedge

end OrbitRelay
