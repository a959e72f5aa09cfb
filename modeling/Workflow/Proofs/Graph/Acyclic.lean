import Mathlib.Algebra.Order.BigOperators.Group.Finset
import Mathlib.Data.Finset.Card
import Mathlib.Logic.Relation
import Workflow.Proofs.Graph.Compile

/-!
# Processes without cycles

The flow goes on from an activity along an edge that its definition lists as outgoing, or out of its
boundary event along an edge of that (`Graph.Leads`).  In a process in which no activity leads back
to itself, however far around, fewer targets lie beyond an activity the further the flow has gone
(`Graph.rank_lt`).  So every activity can be given a weight that is more than the weights of all
activities to which it leads taken together (`Graph.sum_weight_lt`): what the flow gives up when it
goes on from an activity outweighs what it reaches, however many branches it splits into.
-/

namespace Workflow

namespace Graph

variable {g : Graph} {source target id : String}

/-- Whether the flow may go on from one activity to another. -/
def Leads (g : Graph) (source target : String) : Prop :=
  ∃ d, g.activity? source = some d ∧
    ((∃ f ∈ g.edges, f.id ∈ Document.records d.outgoing ∧ f.target = target) ∨
      ∃ b, d.boundary? = some b ∧ ∃ f ∈ g.edges, f.source = b.id ∧ f.target = target)

/-- Whether no activity leads back to itself, directly or through others. -/
def Acyclic (g : Graph) : Prop := ∀ id, ¬ Relation.TransGen g.Leads id id

/-- A process in which the flow goes on to higher ranks only has no cycles. -/
theorem acyclic_of_rank (rank : String → ℕ)
    (along : ∀ d ∈ g.activities, ∀ f ∈ g.edges, f.id ∈ Document.records d.outgoing →
      rank d.id < rank f.target)
    (out : ∀ d ∈ g.activities, ∀ b ∈ d.boundary?, ∀ f ∈ g.edges, f.source = b.id →
      rank d.id < rank f.target) : g.Acyclic := by
  have hgrows : ∀ source target, g.Leads source target → rank source < rank target := by
    rintro source target ⟨d, hd, hlead⟩
    obtain ⟨hmem, rfl⟩ := activity?_some hd
    rcases hlead with ⟨f, hf, hid, rfl⟩ | ⟨b, hb, f, hf, hsource, rfl⟩
    · exact along d hmem f hf hid
    · exact out d hmem b hb f hf hsource
  intro id hcycle
  have hpath : Relation.TransGen (· < ·) (rank id) (rank id) := hcycle.lift rank hgrows
  rw [Relation.transGen_eq_self] at hpath
  exact Nat.lt_irrefl _ hpath

/-- The targets of all edges. -/
def targets (g : Graph) : Finset String := (g.edges.map (·.target)).toFinset

/-- There are no more targets than edges. -/
theorem card_targets_le (g : Graph) : g.targets.card ≤ g.edges.length := by
  have hcard := List.toFinset_card_le (g.edges.map (·.target))
  rwa [List.length_map] at hcard

/-- The flow goes on to targets of edges. -/
theorem Leads.mem_targets (h : g.Leads source target) : target ∈ g.targets := by
  unfold targets
  rw [List.mem_toFinset]
  obtain ⟨d, -, ⟨f, hf, -, rfl⟩ | ⟨b, -, f, hf, -, rfl⟩⟩ := h
  · exact List.mem_map_of_mem hf
  · exact List.mem_map_of_mem hf

section Weight

open scoped Classical

/-- The targets to which an activity leads. -/
noncomputable def successors (g : Graph) (id : String) : Finset String :=
  g.targets.filter (g.Leads id)

/-- The targets that lie beyond an activity. -/
noncomputable def beyond (g : Graph) (id : String) : Finset String :=
  g.targets.filter (Relation.TransGen g.Leads id)

/-- How many targets lie beyond an activity. -/
noncomputable def rank (g : Graph) (id : String) : ℕ := (g.beyond id).card

/-- What an activity is worth: more than everything to which it leads. -/
noncomputable def weight (g : Graph) (id : String) : ℕ := (g.edges.length + 1) ^ g.rank id

/-- Successors are the activities to which the flow goes on. -/
theorem mem_successors : target ∈ g.successors source ↔ g.Leads source target := by
  unfold successors
  rw [Finset.mem_filter]
  exact ⟨And.right, fun h => ⟨h.mem_targets, h⟩⟩

/-- Beyond an activity lies whatever the flow may come to. -/
theorem mem_beyond : target ∈ g.beyond source ↔ Relation.TransGen g.Leads source target := by
  unfold beyond
  rw [Finset.mem_filter]
  refine ⟨And.right, fun h => ⟨?_, h⟩⟩
  cases h with
  | single hlead => exact hlead.mem_targets
  | tail _ hlead => exact hlead.mem_targets

/-- Fewer targets lie beyond a successor. -/
theorem rank_lt (acyclic : g.Acyclic) (h : g.Leads source target) :
    g.rank target < g.rank source := by
  refine Finset.card_lt_card (Finset.ssubset_iff_of_subset ?_ |>.mpr ?_)
  · intro id hid
    exact mem_beyond.mpr (.head h (mem_beyond.mp hid))
  · -- The successor lies beyond the activity, and not beyond itself.
    exact ⟨target, mem_beyond.mpr (.single h), fun hself => acyclic target (mem_beyond.mp hself)⟩

/-- No more targets lie beyond an activity than there are edges. -/
theorem rank_le (g : Graph) (id : String) : g.rank id ≤ g.edges.length :=
  (Finset.card_filter_le _ _).trans g.card_targets_le

/-- No activity weighs more than one beyond which every target lies. -/
theorem weight_le (g : Graph) (id : String) :
    g.weight id ≤ (g.edges.length + 1) ^ g.edges.length :=
  Nat.pow_le_pow_right (Nat.succ_pos _) (g.rank_le id)

/-- An activity weighs more than its successors together. -/
theorem sum_weight_lt (acyclic : g.Acyclic) (id : String) :
    ∑ target ∈ g.successors id, g.weight target < g.weight id := by
  have hcard : (g.successors id).card ≤ g.edges.length :=
    (Finset.card_filter_le _ _).trans g.card_targets_le
  cases hrank : g.rank id with
  | zero =>
    -- Nothing lies beyond the activity, so it has no successors.
    have hnone : g.successors id = ∅ := by
      rw [Finset.eq_empty_iff_forall_notMem]
      intro target htarget
      have hlt := rank_lt acyclic (mem_successors.mp htarget)
      omega
    rw [hnone, Finset.sum_empty]
    exact Nat.pow_pos (Nat.succ_pos _)
  | succ r =>
    have heach : ∀ target ∈ g.successors id, g.weight target ≤ (g.edges.length + 1) ^ r := by
      intro target htarget
      have hlt := rank_lt acyclic (mem_successors.mp htarget)
      exact Nat.pow_le_pow_right (Nat.succ_pos _) (by omega)
    calc ∑ target ∈ g.successors id, g.weight target
        ≤ (g.successors id).card • (g.edges.length + 1) ^ r := Finset.sum_le_card_nsmul _ _ _ heach
      _ ≤ g.edges.length * (g.edges.length + 1) ^ r := Nat.mul_le_mul_right _ hcard
      _ < (g.edges.length + 1) * (g.edges.length + 1) ^ r :=
        Nat.mul_lt_mul_of_pos_right (Nat.lt_succ_self _) (Nat.pow_pos (Nat.succ_pos _))
      _ = g.weight id := by rw [weight, hrank, Nat.pow_succ, Nat.mul_comm]

end Weight

/-- More than all activities of a process weigh together. -/
def bound (g : Graph) : ℕ := g.activities.length * (g.edges.length + 1) ^ g.edges.length + 1

/-- Activities of a process weigh less together than its bound. -/
theorem sum_weight_lt_bound {ids : Finset String}
    (known : ids ⊆ (g.activities.map (·.id)).toFinset) : ∑ id ∈ ids, g.weight id < g.bound := by
  have hcard : ids.card ≤ g.activities.length := by
    have hids := List.toFinset_card_le (g.activities.map (·.id))
    rw [List.length_map] at hids
    exact (Finset.card_le_card known).trans hids
  calc ∑ id ∈ ids, g.weight id
      ≤ ids.card • (g.edges.length + 1) ^ g.edges.length :=
        Finset.sum_le_card_nsmul _ _ _ fun id _ => g.weight_le id
    _ ≤ g.activities.length * (g.edges.length + 1) ^ g.edges.length := Nat.mul_le_mul_right _ hcard
    _ < g.bound := Nat.lt_succ_self _

end Graph

end Workflow
