import OrbitRelay.Decoding
import OrbitRelay.Encoding

/-
  What the derived decoders accept, and that they read what the encoders write.

  Reading a record is reading its fields by name (`Schema.decode_iff`): each has
  to be there once, in any order and among any others, with a value that reads as
  the field's. What is written has that form. What the format itself owes is
  `Faithful`: it reads the values it has written, a date-time up to its offset.
-/

namespace OrbitRelay

open Record (Schema)

variable {ω ε α σ τ : Type} {F : Format ω ε}

/-! ## Reading records -/

/-- The text of a record goes on after its values as it should: it is not
malformed, and an array has as many values as the record has fields. -/
def Body.WellEnded (names : List String) : Body ω ε → Prop
  | .object _ broken => broken = none
  | .array values broken => broken = none ∧ values.length = names.length
  | .other _ => False

namespace Wire

variable {wire : Wire ω ε}

theorem record_eq_ok_iff {names : List String} {visit : σ → String × ω → Fallible ε σ} {start : σ}
    {finish : σ → Fallible ε α} {body : Body ω ε} {a : α} :
    wire.record names visit start finish body = .ok a ↔
      body.WellEnded names ∧ ((body.fields names).foldlM visit start >>= finish) = .ok a := by
  cases body with
  | object entries broken =>
    rw [record, Body.WellEnded, Body.fields, Fallible.bind_eq_ok]
    cases broken <;> simp [Fallible.bind_eq_ok]
  | array values broken =>
    rw [record, Body.WellEnded, Body.fields, Fallible.bind_eq_ok, Fallible.bind_eq_ok]
    rcases Nat.lt_trichotomy values.length names.length with hlt | heq | hgt
    · simp [hlt, hlt.ne]
    · cases broken <;> simp [heq]
    · simp [hgt, hgt.ne', Nat.not_lt.mpr (Nat.le_of_lt hgt)]
  | other error => simp [record, Body.WellEnded]

/-- A slot that is put into its record when it has been read. -/
theorem map_once {name : String} {slot : Option α} {read : ω → Fallible ε α} {put : Option α → σ} {w : ω} :
    put <$> wire.once name slot read w =
      if slot.isSome then .err (wire.duplicateField name) else (fun a => put (some a)) <$> read w := by
  rw [once]
  split
  · rfl
  · cases read w <;> rfl

end Wire

/-! ## The decoders that are written out -/

theorem Action.visit_eq (F : Format ω ε) (s : Action.Fields) (entry : String × ω) :
    Action.visit F.toWire s entry = Record.visit F.duplicateField (Action.fields F) s entry := by
  unfold Action.visit
  split
  · exact Wire.map_once
  · exact Wire.map_once
  · exact Wire.map_once
  · exact Wire.map_once
  · exact Wire.map_once
  · exact Wire.map_once
  · exact Wire.map_once
  · exact (Record.visit_other (by simp_all [Action.fields, Prod.ext_iff, eq_comm])).symm

theorem Action.deserialize_eq (F : Format ω ε) : Action.deserialize F.toWire = F.deserialize (Action.schema F) := by
  rw [Action.deserialize, funext₂ (Action.visit_eq F)]
  rfl

theorem Event.visit_eq (F : Format ω ε) (s : Event.Fields) (entry : String × ω) :
    Event.visit F.toWire s entry = Record.visit F.duplicateField (Event.fields F) s entry := by
  unfold Event.visit
  split
  · exact Wire.map_once
  · exact Wire.map_once
  · exact Wire.map_once
  · exact Wire.map_once
  · exact Wire.map_once
  · exact Wire.map_once
  · exact Wire.map_once
  · exact Wire.map_once
  · exact (Record.visit_other (by simp_all [Event.fields, Prod.ext_iff, eq_comm])).symm

theorem Event.deserialize_eq (F : Format ω ε) : Event.deserialize F.toWire = F.deserialize (Event.schema F) := by
  rw [Event.deserialize, funext₂ (Event.visit_eq F)]
  rfl

theorem Session.visit_eq (F : Format ω ε) (s : Session.Fields) (entry : String × ω) :
    Session.visit F.toWire s entry = Record.visit F.duplicateField (Session.fields F) s entry := by
  unfold Session.visit
  split
  · exact Wire.map_once
  · exact Wire.map_once
  · exact Wire.map_once
  · exact (Record.visit_other (by simp_all [Session.fields, Prod.ext_iff, eq_comm])).symm

theorem Session.deserialize_eq (F : Format ω ε) :
    Session.deserialize F.toWire = F.deserialize (Session.schema F) := by
  rw [Session.deserialize, funext₂ (Session.visit_eq F)]
  rfl

/-! ## What is accepted -/

namespace Format

/-- A decoder reads the fields of its record by name, in any order and among any
others. -/
structure DecodesByName (S : Schema ω ε σ α) (deserialize : Body ω ε → Fallible ε α) : Prop where
  accepts : ∀ body a, deserialize body = .ok a ↔ body.WellEnded S.names ∧ S.Spells a (body.fields S.names)
  rearrange : ∀ {entries others entries' a}, deserialize (.object entries none) = .ok a →
    (∀ entry ∈ others, entry.1 ∉ S.names) → (entries ++ others).Perm entries' →
    deserialize (.object entries' none) = .ok a

theorem decodesByName (F : Format ω ε) (S : Schema ω ε σ α) : DecodesByName S (F.deserialize S) := by
  have haccepts : ∀ body a, F.deserialize S body = .ok a ↔
      body.WellEnded S.names ∧ S.Spells a (body.fields S.names) := by
    intro body a
    rw [deserialize, Wire.record_eq_ok_iff]
    exact and_congr_right fun _ => S.decode_iff
  refine ⟨haccepts, ?_⟩
  intro entries others entries' a hread hothers hperm
  have hspells := ((haccepts _ a).mp hread).2
  exact (haccepts _ a).mpr ⟨rfl, hspells.rearrange hothers hperm⟩

end Format

/-- **Records are read by name.** Every record decoder accepts a body as `a`
exactly when its text is well formed and every field of the record is there once,
with a value that is read as the one it has in `a`; an optional field may be
missing, for `None`. Neither the order of the fields nor fields of other names
make a difference, and an array is read as the fields in their order. -/
theorem records_decode_by_name (F : Format ω ε) (c : Codec ω ε τ) :
    Format.DecodesByName (Action.schema F) (Action.deserialize F.toWire) ∧
    Format.DecodesByName (Event.schema F) (Event.deserialize F.toWire) ∧
    Format.DecodesByName (Session.schema F) (Session.deserialize F.toWire) ∧
    Format.DecodesByName (Version.schema F) (Version.deserialize F) ∧
    Format.DecodesByName (Actor.schema F) (Actor.deserialize F) ∧
    Format.DecodesByName (MessageEnvelope.schema F c) (MessageEnvelope.deserialize F c) ∧
    Format.DecodesByName (StoredEvent.schema F) (StoredEvent.deserialize F) ∧
    Format.DecodesByName (EventPage.schema F) (EventPage.deserialize F) ∧
    Format.DecodesByName (Node.schema F) (Node.deserialize F) := by
  rw [Action.deserialize_eq, Event.deserialize_eq, Session.deserialize_eq]
  exact ⟨F.decodesByName _, F.decodesByName _, F.decodesByName _, F.decodesByName _, F.decodesByName _,
    F.decodesByName _, F.decodesByName _, F.decodesByName _, F.decodesByName _⟩

/-! ## What is written is read back -/

/-- A date-time at UTC stays where it is. -/
theorem PrimitiveDateTime.not_leavesUtcRange (t : PrimitiveDateTime) :
    ¬(⟨t, ⟨0, by decide⟩⟩ : OffsetDateTime).LeavesUtcRange := by
  have hsame : (⟨t, ⟨0, by decide⟩⟩ : OffsetDateTime).utcDate = t.date := by
    have htime := t.time.seconds_lt
    have hday : ((t.time.seconds : Int) - 0) / 86400 = 0 := by omega
    rw [OffsetDateTime.utcDate, hday]
    rfl
  rw [← OffsetDateTime.utcDate_year_iff, hsame]
  exact t.inRange

namespace Format

/-- A format reads what it has written: a value as itself, a date-time as one of
the same instant, and a text that is not null as a text that may be. -/
structure Faithful (F : Format ω ε) : Prop where
  entityId : ∀ {a w}, F.writeEntityId a = .ok w → F.entityId w = .ok a
  string : ∀ {a w}, F.writeString a = .ok w → F.string w = .ok a
  payload : ∀ {a w}, F.writePayload a = .ok w → F.payload w = .ok a
  metadata : ∀ {a w}, F.writeMetadata a = .ok w → F.metadata w = .ok a
  u16 : ∀ {a w}, F.writeU16 a = .ok w → F.u16 w = .ok a
  offsetDateTime : ∀ {x w}, F.writeOffsetDateTime x = .ok w → ∃ y, F.offsetDateTime w = .ok y ∧ y.nanos = x.nanos
  variant : ∀ {name w}, F.writeVariant name = .ok w → F.variant w = .ok name ∧ F.unitVariant w = .ok ()
  items : ∀ {ws w}, F.writeItems ws = .ok w → F.items w = .ok (ws, none)
  null : ∀ {w}, F.writeOption none = .ok w → F.option w = .ok none
  someString : ∀ {a v w}, F.writeString a = .ok v → F.writeOption (some v) = .ok w → F.option w = .ok (some v)
  body : ∀ {entries w}, F.writeRecord entries = .ok w → F.body w = .object entries none
  toUtc : ToUtc F.toUtc

namespace Faithful

variable {β : Type} {c : Codec ω ε α} (h : F.Faithful)
include h

theorem entityIdCodec : F.entityIdCodec.Faithful := fun _ _ hw => Fallible.ofExcept_eq_ok.mpr (h.entityId hw)

theorem stringCodec : F.stringCodec.Faithful := fun _ _ hw => Fallible.ofExcept_eq_ok.mpr (h.string hw)

theorem u16Codec : F.u16Codec.Faithful := fun _ _ hw => Fallible.ofExcept_eq_ok.mpr (h.u16 hw)

theorem payloadCodec : F.payloadCodec.Faithful := fun _ _ hw => Fallible.ofExcept_eq_ok.mpr (h.payload hw)

theorem metadataCodec : F.metadataCodec.Faithful := fun _ _ hw => Fallible.ofExcept_eq_ok.mpr (h.metadata hw)

/-- A timestamp is written at UTC, so whatever offset it is read with it does
not leave the range. -/
theorem timestampCodec : F.timestampCodec.Faithful := by
  intro t w hw
  obtain ⟨y, hy, hnanos⟩ := h.offsetDateTime hw
  obtain ⟨u, hu⟩ : ∃ u, F.toUtc y = some u := by
    apply h.toUtc.exists_eq_some_iff.mpr
    rw [OffsetDateTime.leavesUtcRange_congr hnanos]
    exact t.utc.not_leavesUtcRange
  have hinstant : u.nanos = t.nanos := by
    rw [h.toUtc.same_instant hu, hnanos, OffsetDateTime.nanos, Timestamp.nanos_utc]
    simp
  refine Timestamp.deserialize_eq_ok_iff.mpr ⟨y, u, hy, hu, ?_⟩
  obtain ⟨nanos, inRange⟩ := t
  simp only [Timestamp.ofUtc, Timestamp.mk.injEq]
  exact hinstant

theorem optionCodec (hc : c.Faithful)
    (hsome : ∀ {a v w}, c.write a = .ok v → F.writeOption (some v) = .ok w → F.option w = .ok (some v)) :
    (F.optionCodec c).Faithful := by
  intro o w hw
  cases o with
  | none =>
    have hnone := h.null hw
    simp only [Format.optionCodec, hnone]
    rfl
  | some a =>
    obtain ⟨v, hv, hsomev⟩ := Outcome.bind_eq_ok.mp hw
    have hread := hc a v hv
    simp only [Format.optionCodec, hsome hv hsomev]
    exact Fallible.map_eq_ok.mpr ⟨a, hread, rfl⟩

theorem itemsCodec (hc : c.Faithful) : (F.itemsCodec c).Faithful := by
  intro as w hw
  obtain ⟨ws, hws, hitems⟩ := Outcome.bind_eq_ok.mp hw
  simp only [Format.itemsCodec, h.items hitems]
  exact Fallible.bind_eq_ok.mpr ⟨(ws, none), rfl, Fallible.bind_eq_ok.mpr ⟨as, hc.mapM hws, rfl⟩⟩

theorem variantCodec {variants : List (String × α)} {name : α → String}
    (hname : ∀ a, variants.lookup (name a) = some a) : (F.variantCodec variants name).Faithful := by
  intro a w hw
  obtain ⟨hvariant, hunit⟩ := h.variant hw
  refine Fallible.bind_eq_ok.mpr ⟨name a, Fallible.ofExcept_eq_ok.mpr hvariant, ?_⟩
  simp only [hname a, hunit]
  rfl

/-- A wrapper of an id, and one of a string. -/
theorem id {mk : EntityId → β} {inner : β → EntityId} (hinner : ∀ b, mk (inner b) = b) :
    (F.entityIdCodec.wrap mk inner).Faithful :=
  h.entityIdCodec.wrap hinner

theorem text {mk : String → β} {inner : β → String} (hinner : ∀ b, mk (inner b) = b) :
    (F.stringCodec.wrap mk inner).Faithful :=
  h.stringCodec.wrap hinner

/-- A record is read back if its fields are. -/
theorem record {S : Schema ω ε σ α} (hS : S.Faithful) {deserialize : Body ω ε → Fallible ε α}
    (hdeserialize : deserialize = F.deserialize S) :
    (⟨fun w => deserialize (F.body w), F.serialize S, none⟩ : Codec ω ε α).Faithful := by
  intro a w hw
  obtain ⟨entries, hentries, hrecord⟩ := Outcome.bind_eq_ok.mp hw
  have hbody := h.body hrecord
  subst hdeserialize
  simp only [hbody]
  exact ((F.decodesByName S).accepts _ a).mpr ⟨rfl, S.encode_spells hS hentries⟩

end Faithful

end Format

/-! ## The records -/

theorem Action.schema_faithful (h : F.Faithful) : (Action.schema F).Faithful := by
  simp only [Schema.Faithful, Action.schema, Action.fields, List.forall_mem_cons]
  exact ⟨h.id fun _ => rfl, h.id fun _ => rfl, h.id fun _ => rfl, h.text fun _ => rfl, h.timestampCodec,
    h.payloadCodec, h.metadataCodec, nofun⟩

theorem Event.schema_faithful (h : F.Faithful) : (Event.schema F).Faithful := by
  simp only [Schema.Faithful, Event.schema, Event.fields, List.forall_mem_cons]
  exact ⟨h.id fun _ => rfl, h.id fun _ => rfl, h.id fun _ => rfl, h.id fun _ => rfl, h.text fun _ => rfl,
    h.timestampCodec, h.payloadCodec, h.metadataCodec, nofun⟩

theorem Event.codec_faithful (h : F.Faithful) : (Event.codec F).Faithful :=
  h.record (Event.schema_faithful h) (Event.deserialize_eq F)

theorem Session.schema_faithful (h : F.Faithful) : (Session.schema F).Faithful := by
  simp only [Schema.Faithful, Session.schema, Session.fields, List.forall_mem_cons]
  exact ⟨h.id fun _ => rfl, h.timestampCodec, h.metadataCodec, nofun⟩

theorem Version.schema_faithful (h : F.Faithful) : (Version.schema F).Faithful := by
  simp only [Schema.Faithful, Version.schema, Version.fields, List.forall_mem_cons]
  exact ⟨h.u16Codec, h.u16Codec, h.u16Codec, nofun⟩

theorem Version.codec_faithful (h : F.Faithful) : (Version.codec F).Faithful :=
  h.record (Version.schema_faithful h) rfl

theorem Actor.schema_faithful (h : F.Faithful) : (Actor.schema F).Faithful := by
  simp only [Schema.Faithful, Actor.schema, Actor.fields, List.forall_mem_cons]
  exact ⟨h.id fun _ => rfl, h.variantCodec fun a => by cases a <;> rfl, h.metadataCodec, nofun⟩

theorem MessageEnvelope.schema_faithful {c : Codec ω ε τ} (h : F.Faithful) (hc : c.Faithful) :
    (MessageEnvelope.schema F c).Faithful := by
  simp only [Schema.Faithful, MessageEnvelope.schema, MessageEnvelope.fields, List.forall_mem_cons]
  exact ⟨Version.codec_faithful h, h.id fun _ => rfl, h.text fun _ => rfl, hc, nofun⟩

theorem StoredEvent.schema_faithful (h : F.Faithful) : (StoredEvent.schema F).Faithful := by
  simp only [Schema.Faithful, StoredEvent.schema, StoredEvent.fields, List.forall_mem_cons]
  exact ⟨h.text fun _ => rfl, Event.codec_faithful h, nofun⟩

theorem StoredEvent.codec_faithful (h : F.Faithful) : (StoredEvent.codec F).Faithful :=
  h.record (StoredEvent.schema_faithful h) rfl

theorem EventPage.schema_faithful (h : F.Faithful) : (EventPage.schema F).Faithful := by
  simp only [Schema.Faithful, EventPage.schema, EventPage.fields, List.forall_mem_cons]
  exact ⟨h.itemsCodec (StoredEvent.codec_faithful h), h.optionCodec (h.text fun _ => rfl) h.someString, nofun⟩

theorem Node.schema_faithful (h : F.Faithful) : (Node.schema F).Faithful := by
  simp only [Schema.Faithful, Node.schema, Node.fields, List.forall_mem_cons]
  exact ⟨h.id fun _ => rfl, h.metadataCodec, h.variantCodec fun a => by cases a <;> rfl,
    (h.itemsCodec (h.text fun _ => rfl)).wrap fun s => s.sort_toFinset _, nofun⟩

/-- **Round trips.** Where the format reads the values it has written, every type
that goes over the wire is read back as what was written: timestamps, which never
panic on what they wrote, the protocol's records, the pages of a store with the
cursor that continues them, and envelopes of any payload that is itself read back. -/
theorem values_round_trip (h : F.Faithful) (c : Codec ω ε τ) (hc : c.Faithful) :
    F.timestampCodec.Faithful ∧ (Action.codec F).Faithful ∧ (Event.codec F).Faithful ∧ (Session.codec F).Faithful ∧
    (Version.codec F).Faithful ∧ (Actor.codec F).Faithful ∧ (MessageEnvelope.codec F c).Faithful ∧
    (StoredEvent.codec F).Faithful ∧ (EventPage.codec F).Faithful ∧ (Node.codec F).Faithful :=
  ⟨h.timestampCodec, h.record (Action.schema_faithful h) (Action.deserialize_eq F), Event.codec_faithful h,
    h.record (Session.schema_faithful h) (Session.deserialize_eq F), Version.codec_faithful h,
    h.record (Actor.schema_faithful h) rfl, h.record (MessageEnvelope.schema_faithful h hc) rfl,
    StoredEvent.codec_faithful h, h.record (EventPage.schema_faithful h) rfl, h.record (Node.schema_faithful h) rfl⟩

/-- Encoded values that say what they are. -/
inductive Datum where
  | null
  | text (s : String)
  | number (n : UInt16)
  | dateTime (x : OffsetDateTime)
  | payload (p : Payload)
  | metadata (m : Metadata)
  | items (values : List Datum)
  | record (entries : List (String × Datum))

/-- A format whose values are read as what they say they are. -/
def Format.plain : Format Datum String where
  entityId
    | .text s => if h : ':' ∉ s.toList then .ok ⟨s, h⟩ else .error "invalid id"
    | _ => .error "invalid id"
  string
    | .text s => .ok s
    | _ => .error "expected a string"
  payload
    | .payload p => .ok p
    | _ => .error "expected an object"
  metadata
    | .metadata m => .ok m
    | _ => .error "expected an object"
  offsetDateTime
    | .dateTime x => .ok x
    | _ => .error "expected a date-time"
  toUtc := toOffsetUtc
  duplicateField name := "duplicate field " ++ name
  missingField name := "missing field " ++ name
  invalidLength n := "invalid length " ++ toString n
  trailingValues := "trailing characters"
  body
    | .record entries => .object entries none
    | .items values => .array values none
    | _ => .other "expected a record"
  items
    | .items values => .ok (values, none)
    | _ => .error "expected a sequence"
  option
    | .null => .ok none
    | w => .ok (some w)
  u16
    | .number n => .ok n
    | _ => .error "expected a number"
  variant
    | .text s => .ok s
    | _ => .error "expected a variant"
  unitVariant _ := .ok ()
  unknownVariant name := "unknown variant " ++ name
  writeEntityId a := .ok (.text a.text)
  writeString s := .ok (.text s)
  writePayload p := .ok (.payload p)
  writeMetadata m := .ok (.metadata m)
  writeOffsetDateTime x := .ok (.dateTime x)
  writeItems values := .ok (.items values)
  writeOption
    | none => .ok .null
    | some w => .ok w
  writeU16 n := .ok (.number n)
  writeVariant name := .ok (.text name)
  writeRecord entries := .ok (.record entries)

theorem Format.plain_faithful : Format.plain.Faithful where
  entityId := by
    rintro a _ ⟨⟩
    exact dif_pos a.colonFree
  string := by
    rintro _ _ ⟨⟩
    rfl
  payload := by
    rintro _ _ ⟨⟩
    rfl
  metadata := by
    rintro _ _ ⟨⟩
    rfl
  u16 := by
    rintro _ _ ⟨⟩
    rfl
  offsetDateTime := by
    rintro x _ ⟨⟩
    exact ⟨x, rfl, rfl⟩
  variant := by
    rintro _ _ ⟨⟩
    exact ⟨rfl, rfl⟩
  items := by
    rintro _ _ ⟨⟩
    rfl
  null := by
    rintro _ ⟨⟩
    rfl
  someString := by
    rintro _ _ _ ⟨⟩ ⟨⟩
    rfl
  body := by
    rintro _ _ ⟨⟩
    rfl
  toUtc := toUtc_toOffsetUtc

/-- A page of one event and the cursor behind it, in an envelope. -/
def sentPage : MessageEnvelope EventPage where
  version := ⟨0, 1, 0⟩
  messageId := default
  messageType := ⟨"page"⟩
  payload := ⟨[⟨.forMemory default 1, Event.plain default ⟨"canvas.drawn"⟩⟩], some (.forMemory default 1)⟩

theorem values_round_trip_page : ∃ w, (MessageEnvelope.codec .plain (EventPage.codec .plain)).write sentPage = .ok w ∧
    (MessageEnvelope.codec .plain (EventPage.codec .plain)).read w = .ok sentPage := by
  have hpage := (values_round_trip Format.plain_faithful _ Format.plain_faithful.stringCodec).2.2.2.2.2.2.2.2.1
  have henvelope := (values_round_trip Format.plain_faithful _ hpage).2.2.2.2.2.2.1
  obtain ⟨w, hw⟩ : ∃ w, (MessageEnvelope.codec .plain (EventPage.codec .plain)).write sentPage = .ok w := ⟨_, rfl⟩
  exact ⟨w, hw, henvelope _ w hw⟩

end OrbitRelay
