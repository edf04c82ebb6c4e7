import Mathlib.Data.Finset.Max
import Mathlib.Data.String.Basic
import OrbitRelay.Core
import OrbitRelay.Lib.Outcome
import OrbitRelay.Lib.Table
import OrbitRelay.Lib.Text

/-
  orbitrelay-node: node descriptions and the registry that holds them.

  A registry has the current snapshot of every node. `register` creates or
  replaces one and `unregister` removes one, present or not. The memory registry
  fails on a node it finds invalid, and any registry may fail an operation for
  reasons of its own, with nothing changed; what it fails with then is the
  `fault` of the operation.

  Identifiers are in the order of the text they print, which for hexadecimal
  digits of fixed width is the order of the bytes.
-/

namespace OrbitRelay

/-- Identifies one service instance. -/
structure NodeId where
  entityId : EntityId
  deriving DecidableEq, Inhabited

/-- An extensible capability advertised by a node, such as `sync` or `storage`. -/
structure Capability where
  value : String
  deriving DecidableEq

namespace Capability

/-- The order of a `BTreeSet` of capabilities. -/
instance : LinearOrder Capability :=
  LinearOrder.lift' Capability.value fun a b h => by cases a; cases b; exact congrArg mk h

/-- Empty, or with white space around it. -/
def malformed (c : Capability) : Bool := Text.trim c.value = [] || Text.trim c.value ≠ c.value.toList

end Capability

/-- The externally visible lifecycle state of a node. -/
inductive NodeState where
  | starting
  | ready
  | draining
  | offline
  deriving DecidableEq

/-- A snapshot describing one node and the capabilities it advertises. -/
structure Node where
  id : NodeId
  metadata : Metadata
  state : NodeState
  capabilities : Finset Capability
  deriving DecidableEq

/-- Errors produced while validating or registering node descriptions. -/
inductive NodeError where
  | invalidNode (reason : String)
  | registryUnavailable (message : String)
  | registryFailure (message : String)
  deriving DecidableEq

/-- The error names the first malformed capability in lexical order. -/
def Node.validate (node : Node) : Except NodeError Unit :=
  if h : (node.capabilities.filter fun c => c.malformed).Nonempty then
    .error (.invalidNode ("capability `" ++ (Finset.min' _ h).value ++
      "` must be non-empty and contain no surrounding whitespace"))
  else .ok ()

theorem Node.validate_ok_iff (node : Node) :
    node.validate = .ok () ↔ ∀ c ∈ node.capabilities, c.malformed = false := by
  unfold validate
  split
  · next h =>
    obtain ⟨c, hc⟩ := h
    obtain ⟨hmem, hbad⟩ := Finset.mem_filter.mp hc
    simp only [reduceCtorEq, false_iff]
    intro hall
    simp [hall c hmem] at hbad
  · next h =>
    simp only [true_iff]
    intro c hc
    rw [← Bool.not_eq_true]
    exact fun hbad => h ⟨c, Finset.mem_filter.mpr ⟨hc, hbad⟩⟩

/-- The nodes a registry holds. -/
abbrev NodeRegistry := Table NodeId Node

namespace NodeRegistry

/-- Creates or replaces the snapshot for a node. -/
def register (nodes : NodeRegistry) (fault : Option NodeError) (node : Node) : Except NodeError NodeRegistry :=
  match fault with
  | some error => .error error
  | none => do
    node.validate
    return nodes.insert node.id node

/-- Removes a node if present. -/
def unregister (nodes : NodeRegistry) (fault : Option NodeError) (id : NodeId) : Except NodeError NodeRegistry :=
  match fault with
  | some error => .error error
  | none => .ok (nodes.erase id)

/-- Gets the current snapshot for a node. -/
def get (nodes : NodeRegistry) (fault : Option NodeError) (id : NodeId) : Except NodeError (Option Node) :=
  match fault with
  | some error => .error error
  | none => .ok (nodes.lookup id)

/-- Lists all currently registered nodes in identifier order. -/
def list (nodes : NodeRegistry) (fault : Option NodeError) : Except NodeError (List Node) :=
  match fault with
  | some error => .error error
  | none => .ok ((nodes.entries.mergeSort fun a b => a.1.entityId.text ≤ b.1.entityId.text).map (·.2))

variable {nodes nodes' : NodeRegistry} {fault : Option NodeError} {node : Node} {id id' : NodeId} {listed : List Node}

theorem register_ok_iff :
    nodes.register fault node = .ok nodes' ↔
      fault = none ∧ node.validate = .ok () ∧ nodes' = nodes.insert node.id node := by
  unfold register
  cases fault with
  | some error => simp
  | none =>
    simp only [Outcome.bind_eq_ok, Outcome.pure_eq_ok, true_and]
    constructor
    · intro h
      obtain ⟨_, hvalid, heq⟩ := h
      exact ⟨hvalid, heq.symm⟩
    · intro h
      exact ⟨(), h.1, h.2.symm⟩

theorem unregister_ok_iff :
    nodes.unregister fault id = .ok nodes' ↔ fault = none ∧ nodes' = nodes.erase id := by
  unfold unregister
  cases fault <;> simp [eq_comm]

theorem mem_list (h : nodes.list none = .ok listed) : node ∈ listed ↔ ∃ id, nodes.lookup id = some node := by
  obtain rfl := Except.ok.inj h
  rw [List.mem_map]
  constructor
  · intro h
    obtain ⟨entry, hentry, rfl⟩ := h
    exact ⟨entry.1, Table.mem_entries_iff.mp (List.mem_mergeSort.mp hentry)⟩
  · intro h
    obtain ⟨id, hid⟩ := h
    exact ⟨⟨id, node⟩, List.mem_mergeSort.mpr (Table.mem_entries_iff.mpr hid), rfl⟩

theorem id_eq_of_text (h : id.entityId.text = id'.entityId.text) : id = id' := by
  obtain ⟨⟨text, _⟩⟩ := id
  obtain ⟨⟨text', _⟩⟩ := id'
  obtain rfl : text = text' := h
  rfl

/-- A list of nodes that are each under their own id has no id twice. -/
theorem list_sorted (hkeys : ∀ {id node}, nodes.lookup id = some node → node.id = id)
    (h : nodes.list none = .ok listed) :
    listed.Pairwise fun a b => a.id.entityId.text < b.id.entityId.text := by
  obtain rfl := Except.ok.inj h
  have hle : (nodes.entries.mergeSort fun a b => a.1.entityId.text ≤ b.1.entityId.text).Pairwise
      fun a b => a.1.entityId.text ≤ b.1.entityId.text := by
    refine (List.pairwise_mergeSort ?_ ?_ nodes.entries).imp fun h => of_decide_eq_true h
    · intro a b c hab hbc
      exact decide_eq_true (le_trans (of_decide_eq_true hab) (of_decide_eq_true hbc))
    · intro a b
      simpa using le_total a.1.entityId.text b.1.entityId.text
  have hne : (nodes.entries.mergeSort fun a b => a.1.entityId.text ≤ b.1.entityId.text).Pairwise
      fun a b => a.1 ≠ b.1 :=
    List.pairwise_map.mp (((List.mergeSort_perm _ _).map Sigma.fst).nodup_iff.mpr nodes.nodupKeys)
  have hid : ∀ entry ∈ nodes.entries.mergeSort fun a b => a.1.entityId.text ≤ b.1.entityId.text,
      entry.2.id = entry.1 :=
    fun entry hentry => hkeys (Table.mem_entries_iff.mp (List.mem_mergeSort.mp hentry))
  rw [List.pairwise_map]
  refine (hle.and hne).imp_of_mem ?_
  intro a b ha hb hab
  rw [hid a ha, hid b hb]
  exact lt_of_le_of_ne hab.1 fun heq => hab.2 (id_eq_of_text heq)

end NodeRegistry

end OrbitRelay
