import ModuleAtlas.Proofs.Cycles.Walk
import ModuleAtlas.Proofs.Graph.View

/-! The cycles reported for a graph of modules, against the imports between its modules. -/

namespace ModuleAtlas.Cycles

open Relation (TransGen)

variable {α β : Type}

theorem Closes.map (f : α → β) {cycles : List (List α)} {source target : α}
    (h : Closes cycles source target) :
    Closes (cycles.map (List.map f)) (f source) (f target) := by
  obtain ⟨cycle, member, last, first⟩ := h
  exact ⟨cycle.map f, List.mem_map_of_mem member, by simp [last], by simp [first]⟩

theorem Loop.map {edge : α → α → Prop} {edge' : β → β → Prop} (f : α → β)
    (kept : ∀ a b, edge a b → edge' (f a) (f b)) {cycle : List α} (loop : Loop edge cycle) :
    Loop edge' (cycle.map f) := by
  have same : around (cycle.map f) = (around cycle).map f := by
    cases cycle <;> simp [around]
  refine ⟨by simpa using loop.nonempty, ?_⟩
  rw [same]
  exact List.isChain_map_of_isChain f kept loop.chain

/-- A cycle that an acyclic part of the edges does not account for has an edge outside that
part. -/
theorem Loop.exists_step {edge kept : α → α → Prop} {cycle : List α} (loop : Loop edge cycle)
    (acyclic : Acyclic fun a b => edge a b ∧ kept a b) :
    ∃ a b, [a, b] <:+: around cycle ∧ ¬ kept a b := by
  by_contra none
  push Not at none
  have chain : (around cycle).IsChain fun a b => edge a b ∧ kept a b := by
    rw [List.isChain_iff_getElem]
    intro i bound
    exact ⟨loop.chain.getElem i bound, none _ _ ((List.isChain_isInfix _).getElem i bound)⟩
  obtain ⟨a, path⟩ := Loop.exists_transGen ⟨loop.nonempty, chain⟩
  exact acyclic a path

open ModuleAtlas.Graph in
/-- **No cycle is missed.** Without the edges from the last to the first module of each reported
cycle the imports between modules form no cycle. So every cycle of imports runs through such an
edge, and nothing is reported exactly when there is none. -/
theorem cycles_miss_nothing {g : Graph} (h : Reachable g) :
    Acyclic (fun source target => g.Link source target ∧ ¬ Closes g.cycles source target) ∧
    (∀ cycle, Loop g.Link cycle →
      ∃ source target, [source, target] <:+: around cycle ∧ Closes g.cycles source target) ∧
    (g.cycles = [] ↔ Acyclic g.Link) := by
  have derived := h.derived
  have rest : Acyclic fun source target => g.Link source target ∧ ¬ Closes g.cycles source target := by
    intro name path
    refine acyclic_without_closing derived.view_closed (g.view.names.idxOf name)
      (TransGen.lift g.view.names.idxOf ?_ _ _ path)
    rintro source target ⟨link, opens⟩
    refine ⟨derived.edge_of_link link, fun closes => opens ?_⟩
    have named := View.name_eq_of_getElem? (derived.getElem?_number link.source_live)
    have named' := View.name_eq_of_getElem? (derived.getElem?_number link.1)
    rw [← named, ← named']
    exact closes.map g.view.name
  refine ⟨rest, fun cycle loop => ?_, fun none => ?_, fun acyclic => ?_⟩
  · obtain ⟨source, target, step, closes⟩ := loop.exists_step rest
    exact ⟨source, target, step, not_not.mp closes⟩
  · intro name path
    refine rest name (TransGen.mono ?_ _ _ path)
    intro source target link
    exact ⟨link, by simp [none, Closes]⟩
  · apply List.eq_nil_iff_forall_not_mem.mpr
    intro cycle member
    obtain ⟨nodes, reported, rfl⟩ := List.mem_map.mp member
    have loop := loop_of_mem_cycles derived.view_closed nodes reported
    obtain ⟨name, path⟩ := (loop.map g.view.name fun _ _ => derived.link_of_edge).exists_transGen
    exact acyclic name path

open ModuleAtlas.Graph in
/-- Two modules that import each other, with an import that leads nowhere beside it. -/
theorem cycles_miss_nothing_ring :
    let a : FileFacts := { path := "a", moduleField := "m", imports := [.plain "n", .plain "o"] }
    let b : FileFacts := { path := "b", moduleField := "n", imports := [.plain "m"] }
    let g := ((Graph.empty 1).add a).add b
    Loop g.Link ["m", "n"] ∧ g.cycles ≠ [] ∧
      ∃ source target, [source, target] <:+: ["m", "n", "m"] ∧ Closes g.cycles source target := by
  intro a b g
  have reached : Reachable g := .add b (.add a (.start 1))
  have forth : g.Link "m" "n" := reached.derived.mem_importersOf.mp (by decide +kernel)
  have back : g.Link "n" "m" := reached.derived.mem_importersOf.mp (by decide +kernel)
  have loop : Loop g.Link ["m", "n"] := ⟨by simp, by simp [around, forth, back]⟩
  obtain ⟨-, runs, none_iff⟩ := cycles_miss_nothing reached
  obtain ⟨name, path⟩ := loop.exists_transGen
  exact ⟨loop, fun none => none_iff.mp none name path, runs ["m", "n"] loop⟩

end ModuleAtlas.Cycles
