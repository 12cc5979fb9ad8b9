import ModuleAtlas.Proofs.Adjacency
import Mathlib.Logic.ExistsUnique

/-! Lists of components, sinks first, and how they come about one component at a time. -/

namespace ModuleAtlas.Components

variable {adjacency : Adjacency} {members : List Nat} {found : List (List Nat)}

/-- The components of a graph, with edges between them leading to earlier ones only. -/
structure Condensation (adjacency : Adjacency) (components : List (List Nat)) : Prop where
  in_range : ∀ members ∈ components, ∀ v ∈ members, v < adjacency.size
  once : ∀ v < adjacency.size, ∃! i : Nat,
    ∃ members : List Nat, components[i]? = some members ∧ v ∈ members
  connected : ∀ u < adjacency.size, ∀ v < adjacency.size,
    (∃ members ∈ components, u ∈ members ∧ v ∈ members) ↔ adjacency.Mutual u v
  nonempty : ∀ members ∈ components, members ≠ []
  ascending : ∀ members ∈ components, members.Pairwise (· < ·)
  sinks_first : ∀ (i j : Nat) (source target : List Nat),
    components[i]? = some source → components[j]? = some target → i ≠ j →
      ∀ u ∈ source, ∀ v ∈ target, adjacency.Edge u v → j < i

/-- `members` is a component, with edges only to its own nodes and those of `found`. -/
structure Completes (adjacency : Adjacency) (members : List Nat) (found : List (List Nat)) :
    Prop where
  nonempty : members ≠ []
  ascending : members.Pairwise (· < ·)
  connected : ∀ u ∈ members, ∀ v, v ∈ members ↔ adjacency.Mutual u v
  fresh : ∀ u ∈ members, ∀ other ∈ found, u ∉ other
  leads : ∀ u ∈ members, ∀ v, adjacency.Edge u v → v ∈ members ∨ ∃ other ∈ found, v ∈ other

/-- Components found one after the other, the last one first. -/
inductive Emitted (adjacency : Adjacency) : List (List Nat) → Prop where
  | nil : Emitted adjacency []
  | cons {members : List Nat} {found : List (List Nat)}
      (completes : Completes adjacency members found) (earlier : Emitted adjacency found) :
      Emitted adjacency (members :: found)

namespace Emitted

theorem edge_stays (h : Emitted adjacency found) {u v : Nat} (hu : ∃ members ∈ found, u ∈ members)
    (edge : adjacency.Edge u v) : ∃ members ∈ found, v ∈ members := by
  induction h with
  | nil => simp at hu
  | cons completes _ ih =>
    simp only [List.mem_cons, exists_eq_or_imp] at hu ⊢
    rcases hu with hu | hu
    · exact completes.leads u hu v edge
    · exact .inr (ih hu)

theorem reach_stays (h : Emitted adjacency found) {u v : Nat}
    (hu : ∃ members ∈ found, u ∈ members) (path : adjacency.Reach u v) :
    ∃ members ∈ found, v ∈ members :=
  path.stays hu fun _ _ => h.edge_stays

theorem of_mem (h : Emitted adjacency found) :
    ∀ members ∈ found, members ≠ [] ∧ members.Pairwise (· < ·) ∧
      ∀ u ∈ members, ∀ v, v ∈ members ↔ adjacency.Mutual u v := by
  induction h with
  | nil => simp
  | cons completes _ ih =>
    rw [List.forall_mem_cons]
    exact ⟨⟨completes.nonempty, completes.ascending, completes.connected⟩, ih⟩

/-- No node is in two components, and no edge leads from an earlier component to a later one. -/
theorem pairwise (h : Emitted adjacency found) :
    found.Pairwise fun later earlier =>
      ∀ v ∈ later, v ∉ earlier ∧ ∀ u ∈ earlier, ¬ adjacency.Edge u v := by
  induction h with
  | nil => exact .nil
  | @cons members found completes earlier ih =>
    refine .cons ?_ ih
    intro other hother v hv
    refine ⟨completes.fresh v hv other hother, fun u hu edge => ?_⟩
    obtain ⟨again, hagain, hv'⟩ := earlier.edge_stays ⟨other, hother, hu⟩ edge
    exact completes.fresh v hv again hagain hv'

theorem apart (h : Emitted adjacency found) {i j : Nat} {earlier later : List Nat} (lt : i < j)
    (hi : found.reverse[i]? = some earlier) (hj : found.reverse[j]? = some later) :
    ∀ v ∈ later, v ∉ earlier ∧ ∀ u ∈ earlier, ¬ adjacency.Edge u v := by
  obtain ⟨bound_i, rfl⟩ := List.getElem?_eq_some_iff.mp hi
  obtain ⟨bound_j, rfl⟩ := List.getElem?_eq_some_iff.mp hj
  exact List.pairwise_iff_getElem.mp (List.pairwise_reverse.mpr h.pairwise) i j _ _ lt

theorem condensation (h : Emitted adjacency found)
    (covered : ∀ v, v < adjacency.size ↔ ∃ members ∈ found, v ∈ members) :
    Condensation adjacency found.reverse := by
  have each : ∀ members ∈ found.reverse, members ≠ [] ∧ members.Pairwise (· < ·) ∧
      ∀ u ∈ members, ∀ v, v ∈ members ↔ adjacency.Mutual u v :=
    fun members hmem => h.of_mem members (List.mem_reverse.mp hmem)
  exact {
    in_range := fun members hmem v hv => (covered v).mpr ⟨members, List.mem_reverse.mp hmem, hv⟩
    once := by
      intro v hv
      obtain ⟨members, hmem, hv⟩ := (covered v).mp hv
      obtain ⟨i, hi⟩ := List.mem_iff_getElem?.mp (List.mem_reverse.mpr hmem)
      refine ⟨i, ⟨members, hi, hv⟩, ?_⟩
      rintro j ⟨others, hj, hv'⟩
      rcases Nat.lt_trichotomy i j with lt | rfl | lt
      · exact absurd hv (h.apart lt hi hj v hv').1
      · rfl
      · exact absurd hv' (h.apart lt hj hi v hv).1
    connected := by
      intro u hu v _
      constructor
      · rintro ⟨members, hmem, hu, hv⟩
        exact ((each members hmem).2.2 u hu v).mp hv
      · intro both
        obtain ⟨members, hmem, hu⟩ := (covered u).mp hu
        have hmem := List.mem_reverse.mpr hmem
        exact ⟨members, hmem, hu, ((each members hmem).2.2 u hu v).mpr both⟩
    nonempty := fun members hmem => (each members hmem).1
    ascending := fun members hmem => (each members hmem).2.1
    sinks_first := by
      intro i j source target hi hj ne u hu v hv edge
      rcases Nat.lt_or_gt_of_ne ne with lt | lt
      · exact absurd edge ((h.apart lt hi hj v hv).2 u hu)
      · exact lt }

end Emitted

end ModuleAtlas.Components
