import Mathlib.Data.List.Forall2
import Mathlib.Data.List.Nodup
import Mathlib.Data.List.Perm.Basic
import OrbitRelay.Lib.Outcome

/-
  Values that are written and read back, and records of them that are written
  field by field and read by name.

  A `Field` is all a derived codec knows of one field: its name, where the
  decoder keeps it while it reads, and how its value is read and written.
  `visit` is one step of the decoder: it passes over a name that is no field,
  refuses one it has had, and reads any other into its slot.

    `Schema.decode_iff`         the entries that are read as a given record
    `Schema.encode_spells`      what is written is among them
    `Schema.Spells.rearrange`   and so is any rearrangement of it, with further entries
-/

/-- How the values of a type are written and read, in encodings `ω`; and the
value of a field that is missing, if there is one. -/
structure Codec (ω ε α : Type) where
  read : ω → Fallible ε α
  write : α → Except ε ω
  absent : Option α

namespace Codec

variable {ω ε α β : Type} {c : Codec ω ε α}

/-- What is written is read as what it was. -/
def Faithful (c : Codec ω ε α) : Prop := ∀ a w, c.write a = .ok w → c.read w = .ok a

/-- The codec of a type that wraps another. -/
def wrap (c : Codec ω ε α) (mk : α → β) (inner : β → α) : Codec ω ε β :=
  ⟨fun w => mk <$> c.read w, fun b => c.write (inner b), c.absent.map mk⟩

theorem Faithful.wrap (h : c.Faithful) {mk : α → β} {inner : β → α} (hinner : ∀ b, mk (inner b) = b) :
    (c.wrap mk inner).Faithful := by
  intro b w hwrite
  exact Fallible.map_eq_ok.mpr ⟨inner b, h _ w hwrite, hinner b⟩

/-- Elements that are written one by one are read one by one. -/
theorem Faithful.mapM (h : c.Faithful) {as : List α} {ws : List ω} (hwrite : as.mapM c.write = .ok ws) :
    ws.mapM c.read = .ok as := by
  apply Fallible.mapM_eq_ok.mpr
  exact ((Outcome.mapM_eq_ok.mp hwrite).imp h).flip

end Codec

namespace Record

/-- A field of a record `α`, for a decoder with the slots `σ`. -/
structure Field (ω ε σ α : Type) where
  name : String
  Value : Type
  slot : σ → Option Value
  put : σ → Value → σ
  codec : Codec ω ε Value
  get : α → Value

variable {ω ε σ α : Type} {duplicate : String → ε} {fields : List (Field ω ε σ α)} {f g : Field ω ε σ α}
  {s t : σ} {a : α} {entries entries' : List (String × ω)} {name : String} {w : ω}

/-- One entry. -/
def visit (duplicate : String → ε) (fields : List (Field ω ε σ α)) (s : σ) (entry : String × ω) : Fallible ε σ :=
  match fields.find? fun f => f.name == entry.1 with
  | some f => if (f.slot s).isSome then .err (duplicate f.name) else f.put s <$> f.codec.read entry.2
  | none => pure s

/-- Fields have names and slots of their own. -/
structure Distinct (fields : List (Field ω ε σ α)) : Prop where
  names : (fields.map (·.name)).Nodup
  same : ∀ f ∈ fields, ∀ s v, f.slot (f.put s v) = some v
  other : ∀ f ∈ fields, ∀ g ∈ fields, f.name ≠ g.name → ∀ s v, g.slot (f.put s v) = g.slot s

/-- The entries of a field. -/
def Field.among (f : Field ω ε σ α) (entries : List (String × ω)) : List (String × ω) :=
  entries.filter fun entry => entry.1 == f.name

/-- The entries give the field its value in `a`: it is there once and reads as
that value, or it is missing and may be. -/
def Field.Spells (f : Field ω ε σ α) (a : α) (entries : List (String × ω)) : Prop :=
  (∃ w, f.among entries = [(f.name, w)] ∧ f.codec.read w = .ok (f.get a)) ∨
    (f.among entries = [] ∧ f.codec.absent = some (f.get a))

theorem Distinct.eq_of_name (h : Distinct fields) (hf : f ∈ fields) (hg : g ∈ fields) (hname : f.name = g.name) :
    f = g :=
  List.inj_on_of_nodup_map h.names hf hg hname

theorem Distinct.find? (h : Distinct fields) (hf : f ∈ fields) :
    (fields.find? fun g => g.name == f.name) = some f := by
  cases hfind : fields.find? fun g => g.name == f.name with
  | none => simpa using List.find?_eq_none.mp hfind f hf
  | some g =>
    have hname : g.name = f.name := by simpa using List.find?_some hfind
    rw [h.eq_of_name (List.mem_of_find?_eq_some hfind) hf hname]

/-- An entry of a field. -/
theorem visit_field (h : Distinct fields) (hf : f ∈ fields) :
    visit duplicate fields s (f.name, w) = .ok t ↔ f.slot s = none ∧ ∃ v, f.codec.read w = .ok v ∧ f.put s v = t := by
  rw [visit, h.find? hf]
  cases hslot : f.slot s <;> simp [hslot, Fallible.map_eq_ok]

/-- An entry of no field. -/
theorem visit_other (hname : ∀ f ∈ fields, f.name ≠ name) : visit duplicate fields s (name, w) = .ok s := by
  have hnone : (fields.find? fun f => f.name == name) = none :=
    List.find?_eq_none.mpr fun f hf => by simpa using hname f hf
  rw [visit, hnone]
  rfl

/-- A name is one of a field, or of none. -/
theorem field_or_other (fields : List (Field ω ε σ α)) (name : String) :
    (∃ f ∈ fields, f.name = name) ∨ ∀ f ∈ fields, f.name ≠ name := by
  by_cases h : ∃ f ∈ fields, f.name = name
  · exact .inl h
  · exact .inr fun f hf hname => h ⟨f, hf, hname⟩

/-! ## What the slots hold -/

/-- The slot of a field after some entries: as it was, if there was none of the
field; with the value of its only entry else, and then it was empty before. -/
def Field.Filled (f : Field ω ε σ α) (s : σ) (entries : List (String × ω)) (t : σ) : Prop :=
  (f.among entries = [] ∧ f.slot t = f.slot s) ∨
    ∃ w v, f.among entries = [(f.name, w)] ∧ f.slot s = none ∧ f.codec.read w = .ok v ∧ f.slot t = some v

theorem Field.among_cons_self (f : Field ω ε σ α) (w : ω) (entries : List (String × ω)) :
    f.among ((f.name, w) :: entries) = (f.name, w) :: f.among entries := by
  simp [among]

theorem Field.among_cons_ne (hname : f.name ≠ name) :
    f.among ((name, w) :: entries) = f.among entries := by
  simp [among, Ne.symm hname]

theorem filled_of_foldlM (h : Distinct fields) (hg : g ∈ fields)
    (hrun : entries.foldlM (visit duplicate fields) s = .ok t) : g.Filled s entries t := by
  induction entries generalizing s with
  | nil =>
    obtain rfl : s = t := Fallible.ok.inj hrun
    exact .inl ⟨rfl, rfl⟩
  | cons entry entries ih =>
    obtain ⟨name, w⟩ := entry
    rw [List.foldlM_cons, Fallible.bind_eq_ok] at hrun
    obtain ⟨u, hfirst, hrest⟩ := hrun
    have hlater := ih hrest
    by_cases hname : g.name = name
    · subst hname
      obtain ⟨hempty, v, hread, rfl⟩ := (visit_field h hg).mp hfirst
      have hslot := h.same g hg s v
      rw [Field.Filled, Field.among_cons_self]
      -- the slot is taken now, so no other entry of the field was left
      obtain ⟨hnone, hkept⟩ | ⟨w', v', _, hfree, _⟩ := hlater
      · exact .inr ⟨w, v, by rw [hnone], hempty, hread, hkept.trans hslot⟩
      · simp [hslot] at hfree
    · have hkept : g.slot u = g.slot s := by
        obtain ⟨f, hf, rfl⟩ | hother := field_or_other fields name
        · obtain ⟨_, v, _, rfl⟩ := (visit_field h hf).mp hfirst
          exact h.other f hf g hg (Ne.symm hname) s v
        · rw [visit_other hother] at hfirst
          rw [Fallible.ok.inj hfirst]
      rw [Field.Filled, Field.among_cons_ne hname, ← hkept]
      exact hlater

/-- The decoder gets through the entries if every field is there once at most,
is one it has not had, and can be read. -/
theorem exists_foldlM (h : Distinct fields)
    (hall : ∀ f ∈ fields, f.among entries = [] ∨
      ∃ w v, f.among entries = [(f.name, w)] ∧ f.slot s = none ∧ f.codec.read w = .ok v) :
    ∃ t, entries.foldlM (visit duplicate fields) s = .ok t := by
  induction entries generalizing s with
  | nil => exact ⟨s, rfl⟩
  | cons entry entries ih =>
    obtain ⟨name, w⟩ := entry
    obtain ⟨f, hf, rfl⟩ | hother := field_or_other fields name
    · have hfirst := hall f hf
      rw [Field.among_cons_self] at hfirst
      obtain hnone | ⟨w', v, honly, hempty, hread⟩ := hfirst
      · simp at hnone
      · obtain ⟨hw, hlast⟩ := List.cons.inj honly
        obtain rfl : w = w' := congrArg Prod.snd hw
        obtain ⟨t, ht⟩ := ih (s := f.put s v) (by
          intro g hg
          by_cases hname : g.name = f.name
          · rw [h.eq_of_name hg hf hname]
            exact .inl hlast
          · have hlater := hall g hg
            rw [Field.among_cons_ne hname] at hlater
            rw [h.other f hf g hg (Ne.symm hname)]
            exact hlater)
        refine ⟨t, ?_⟩
        rw [List.foldlM_cons, Fallible.bind_eq_ok]
        exact ⟨f.put s v, (visit_field h hf).mpr ⟨hempty, v, hread, rfl⟩, ht⟩
    · obtain ⟨t, ht⟩ := ih (s := s) (by
        intro g hg
        have hlater := hall g hg
        rwa [Field.among_cons_ne (hother g hg)] at hlater)
      refine ⟨t, ?_⟩
      rw [List.foldlM_cons, visit_other hother]
      exact ht

/-! ## Reading a record -/

/-- The record that a decoder makes of its slots is `a`. -/
def Makes (fields : List (Field ω ε σ α)) (t : σ) (a : α) : Prop :=
  ∀ f ∈ fields, (f.slot t).or f.codec.absent = some (f.get a)

/-- A derived codec: its fields, the slots it starts with, and the record it
makes of them. -/
structure Schema (ω ε σ α : Type) where
  fields : List (Field ω ε σ α)
  start : σ
  finish : σ → Fallible ε α
  distinct : Distinct fields
  starts : ∀ f ∈ fields, f.slot start = none
  makes : ∀ t a, finish t = .ok a ↔ Makes fields t a

namespace Schema

variable {S : Schema ω ε σ α}

def names (S : Schema ω ε σ α) : List String := S.fields.map (·.name)

def decode (S : Schema ω ε σ α) (duplicate : String → ε) (entries : List (String × ω)) : Fallible ε α :=
  entries.foldlM (visit duplicate S.fields) S.start >>= S.finish

/-- The entries a record is written as. -/
def encode (S : Schema ω ε σ α) (a : α) : Except ε (List (String × ω)) :=
  S.fields.mapM fun f => (f.name, ·) <$> f.codec.write (f.get a)

/-- The entries give every field its value in `a`. -/
def Spells (S : Schema ω ε σ α) (a : α) (entries : List (String × ω)) : Prop := ∀ f ∈ S.fields, f.Spells a entries

/-- What is written for the value of a field is read as what it was. -/
def Faithful (S : Schema ω ε σ α) : Prop := ∀ f ∈ S.fields, f.codec.Faithful

/-- The entries that are read as `a`: each of the fields is spelled by them. -/
theorem decode_iff : S.decode duplicate entries = .ok a ↔ S.Spells a entries := by
  rw [decode, Fallible.bind_eq_ok]
  constructor
  · intro hread f hf
    obtain ⟨t, hrun, hmade⟩ := hread
    have hslot := (S.makes t a).mp hmade f hf
    obtain ⟨hnone, hkept⟩ | ⟨w, v, honly, _, hread, hfull⟩ := filled_of_foldlM S.distinct hf hrun
    · rw [hkept, S.starts f hf, Option.none_or] at hslot
      exact .inr ⟨hnone, hslot⟩
    · rw [hfull, Option.some_or, Option.some.injEq] at hslot
      subst hslot
      exact .inl ⟨w, honly, hread⟩
  · intro hspells
    have hready : ∀ f ∈ S.fields, f.among entries = [] ∨
        ∃ w v, f.among entries = [(f.name, w)] ∧ f.slot S.start = none ∧ f.codec.read w = .ok v := by
      intro f hf
      obtain ⟨w, honly, hread⟩ | ⟨hnone, _⟩ := hspells f hf
      · exact .inr ⟨w, f.get a, honly, S.starts f hf, hread⟩
      · exact .inl hnone
    obtain ⟨t, hrun⟩ : ∃ t, entries.foldlM (visit duplicate S.fields) S.start = .ok t :=
      exists_foldlM S.distinct hready
    refine ⟨t, hrun, (S.makes t a).mpr ?_⟩
    intro f hf
    -- a field has one spelling, so its slot holds the value it has in `a`
    obtain ⟨hnone, hkept⟩ | ⟨w, v, honly, _, hread, hfull⟩ := filled_of_foldlM S.distinct hf hrun
    · obtain ⟨w, honly, _⟩ | ⟨_, habsent⟩ := hspells f hf
      · simp [hnone] at honly
      · rw [hkept, S.starts f hf, Option.none_or, habsent]
    · obtain ⟨w', honly', hread'⟩ | ⟨hnone, _⟩ := hspells f hf
      · obtain ⟨hw, _⟩ := List.cons.inj (honly.symm.trans honly')
        obtain rfl : w = w' := congrArg Prod.snd hw
        obtain rfl := Fallible.ok.inj (hread.symm.trans hread')
        rw [hfull, Option.some_or]
      · simp [hnone] at honly

/-- The order of the entries does not matter, nor do entries of no field. -/
theorem Spells.rearrange {others : List (String × ω)} (h : S.Spells a entries)
    (hothers : ∀ entry ∈ others, entry.1 ∉ S.names) (hperm : (entries ++ others).Perm entries') :
    S.Spells a entries' := by
  intro f hf
  have hamong : (f.among entries).Perm (f.among entries') := by
    have hnone : f.among others = [] := by
      apply List.filter_eq_nil_iff.mpr
      intro entry hentry hname
      apply hothers entry hentry
      rw [beq_iff_eq.mp hname]
      exact List.mem_map_of_mem hf
    have hfilter := hperm.filter fun entry => entry.1 == f.name
    rw [List.filter_append] at hfilter
    change (f.among entries ++ f.among others).Perm (f.among entries') at hfilter
    rwa [hnone, List.append_nil] at hfilter
  obtain ⟨w, honly, hread⟩ | ⟨hnone, habsent⟩ := h f hf
  · rw [honly] at hamong
    exact .inl ⟨w, (List.singleton_perm.mp hamong).symm, hread⟩
  · rw [hnone] at hamong
    exact .inr ⟨List.nil_perm.mp hamong, habsent⟩

end Schema

/-! ## Writing a record -/

/-- An entry is written for each field, in order. -/
theorem names_of_written
    (h : List.Forall₂ (fun f entry => ∃ w, f.codec.write (f.get a) = .ok w ∧ (f.name, w) = entry) fields entries) :
    entries.map Prod.fst = fields.map (·.name) := by
  induction h with
  | nil => rfl
  | cons hfirst _ ih =>
    obtain ⟨w, _, rfl⟩ := hfirst
    rw [List.map_cons, List.map_cons, ih]

theorem spells_of_written (hnames : (fields.map (·.name)).Nodup) (hfaithful : ∀ f ∈ fields, f.codec.Faithful)
    (h : List.Forall₂ (fun f entry => ∃ w, f.codec.write (f.get a) = .ok w ∧ (f.name, w) = entry) fields entries) :
    ∀ f ∈ fields, f.Spells a entries := by
  induction h with
  | nil => simp
  | @cons g entry fields rest hfirst hrest ih =>
    obtain ⟨w, hw, rfl⟩ := hfirst
    rw [List.map_cons, List.nodup_cons] at hnames
    intro f hf
    rcases List.mem_cons.mp hf with rfl | hf
    · have hnone : f.among rest = [] := by
        apply List.filter_eq_nil_iff.mpr
        intro entry hentry hname
        apply hnames.1
        rw [← names_of_written hrest, ← beq_iff_eq.mp hname]
        exact List.mem_map_of_mem hentry
      refine .inl ⟨w, ?_, hfaithful f List.mem_cons_self _ w hw⟩
      rw [Field.among_cons_self, hnone]
    · have hne : f.name ≠ g.name := by
        intro heq
        exact hnames.1 (heq ▸ List.mem_map_of_mem hf)
      have hlater := ih hnames.2 (fun f hf => hfaithful f (List.mem_cons_of_mem _ hf)) f hf
      rwa [Field.Spells, Field.among_cons_ne hne]

/-- What is written for a record is read as it. -/
theorem Schema.encode_spells {S : Schema ω ε σ α} (h : S.Faithful) (hwrite : S.encode a = .ok entries) :
    S.Spells a entries := by
  rw [encode, Outcome.mapM_eq_ok] at hwrite
  simp only [Outcome.map_eq_ok] at hwrite
  exact spells_of_written S.distinct.names h hwrite

end Record
