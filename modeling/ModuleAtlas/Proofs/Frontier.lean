import Mathlib.Logic.Relation
import Std.Data.ExtTreeSet

/-! Search level by level. Each level holds what the last one leads to and was not seen before, so
the search is over when a level is empty, and that is so after as many levels as there are nodes. -/

namespace ModuleAtlas

open Relation (ReflTransGen)

variable {α : Type}

/-- A search from `start` whose last level is `front`: what was seen before that level leads to
seen nodes only. -/
structure Frontier (edge : α → α → Prop) (start : α) (front : List α) (seen : α → Prop) : Prop where
  start_seen : seen start
  front_seen : ∀ v ∈ front, seen v
  reached : ∀ v, seen v → ReflTransGen edge start v
  closed : ∀ u v, seen u → edge u v → u ∈ front ∨ seen v

namespace Frontier

variable {edge : α → α → Prop} {start : α} {front front' : List α} {seen seen' : α → Prop}

theorem mem_first [Ord α] [Std.TransOrd α] [Std.LawfulEqOrd α] {v : α} :
    v ∈ Std.ExtTreeSet.ofList [start] ↔ v = start := by
  classical
  simp only [Std.ExtTreeSet.mem_ofList, List.contains_iff_mem, List.mem_singleton]

/-- **The first level.** -/
theorem first [Ord α] [Std.TransOrd α] [Std.LawfulEqOrd α] :
    Frontier edge start [start] (· ∈ Std.ExtTreeSet.ofList [start]) where
  start_seen := mem_first.mpr rfl
  front_seen _ hv := mem_first.mpr (List.mem_singleton.mp hv)
  reached _ hv := mem_first.mp hv ▸ .refl
  closed _ _ hu _ := .inl (List.mem_singleton.mpr (mem_first.mp hu))

/-- **One level.** -/
theorem next (h : Frontier edge start front seen)
    (seen_iff : ∀ v, seen' v ↔ seen v ∨ ∃ u ∈ front, edge u v)
    (front_iff : ∀ v, v ∈ front' ↔ seen' v ∧ ¬ seen v) : Frontier edge start front' seen' where
  start_seen := (seen_iff start).mpr (.inl h.start_seen)
  front_seen v hv := ((front_iff v).mp hv).1
  reached v hv := by
    rcases (seen_iff v).mp hv with old | ⟨u, hu, leads⟩
    · exact h.reached v old
    · exact (h.reached u (h.front_seen u hu)).tail leads
  closed u v hu leads := by
    by_cases old : seen u
    · rcases h.closed u v old leads with here | known
      · exact .inr ((seen_iff v).mpr (.inr ⟨u, here, leads⟩))
      · exact .inr ((seen_iff v).mpr (.inl known))
    · exact .inl ((front_iff u).mpr ⟨hu, old⟩)

/-- With an empty level everything that can be reached has been seen. -/
theorem seen_iff_reach (h : Frontier edge start [] seen) (v : α) :
    seen v ↔ ReflTransGen edge start v := by
  refine ⟨h.reached v, fun path => ?_⟩
  induction path with
  | refl => exact h.start_seen
  | tail _ leads ih => exact (h.closed _ _ ih leads).resolve_left List.not_mem_nil

/-- A level that is not empty leaves fewer nodes unseen. -/
theorem unseen_lt [DecidablePred seen] [DecidablePred seen'] {nodes : List α}
    (grown : ∀ v, seen v → seen' v) (front_iff : ∀ v, v ∈ front' ↔ seen' v ∧ ¬ seen v)
    (inside : ∀ v ∈ front', v ∈ nodes) (nonempty : front' ≠ []) :
    nodes.countP (fun v => ¬ seen' v) < nodes.countP fun v => ¬ seen v := by
  obtain ⟨v, rest, rfl⟩ := List.exists_cons_of_ne_nil nonempty
  obtain ⟨now, before⟩ := (front_iff v).mp List.mem_cons_self
  obtain ⟨l, r, rfl⟩ := List.append_of_mem (inside v List.mem_cons_self)
  have fewer : ∀ nodes : List α,
      nodes.countP (fun v => ¬ seen' v) ≤ nodes.countP fun v => ¬ seen v := by
    intro nodes
    apply List.countP_mono_left
    intro u _ unseen
    simp only [decide_eq_true_eq] at unseen ⊢
    exact fun old => unseen (grown u old)
  have left := fewer l
  have right := fewer r
  simp only [List.countP_append, List.countP_cons, now, before, not_true_eq_false, decide_false,
    Bool.false_eq_true, ↓reduceIte, not_false_eq_true, decide_true]
  omega

end Frontier

end ModuleAtlas
