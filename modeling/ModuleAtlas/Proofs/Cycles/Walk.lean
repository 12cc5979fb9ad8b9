import ModuleAtlas.Proofs.Cycles.Trail
import Mathlib.Logic.Function.Iterate

/-!
# The walk and its cycles

`Sound` ties the marks to the path and to the nodes that were left. Every step of a walk keeps it.
When no visit is under way each node that was seen has been left, so by `Settled` every cycle of the
graph runs through an edge that closes one of the cycles found.
-/

namespace ModuleAtlas

namespace Cycles

open DepthFirst (Mark Onward)

variable {adjacency : Adjacency} {left inside : List Nat} {w : Walk}

/-- What holds of a walk at every step. The nodes `inside` are successors of the innermost node
that are just looked at. -/
structure Sound (adjacency : Adjacency) (left inside : List Nat) (w : Walk) : Prop where
  size : w.marks.size = adjacency.size
  marked_path : ∀ v place : Nat, w.marks[v]? = some (.held place) ↔ w.path[place]? = some v
  marked_left : ∀ v : Nat, w.marks[v]? = some .settled ↔ v ∈ left
  trail : Trail adjacency w.found left inside w.visits
  settled : Settled adjacency w.found left
  loops : ∀ cycle ∈ w.found, Loop adjacency.Edge cycle

theorem Walk.path_cons {visit : Visit} {outer : List Visit} (visits : w.visits = visit :: outer) :
    w.path = (outer.map (·.node)).reverse ++ [visit.node] := by
  rw [Walk.path, visits, List.map_cons, List.reverse_cons]

theorem Walk.visit_of_unseen {root : Nat} (fresh : w.marks[root]? = some .unseen) :
    w.visit adjacency root = (w.enter adjacency root).run adjacency := by
  simp only [Walk.visit, fresh]

theorem Walk.visit_of_seen {root : Nat} (seen : w.marks[root]? ≠ some .unseen) :
    w.visit adjacency root = w := by
  unfold Walk.visit
  split
  · contradiction
  · rfl

namespace Sound

/-- A node that has not been seen joins the path. -/
theorem enter {node : Nat} (sound : Sound adjacency left [node] w)
    (fresh : w.marks[node]? = some .unseen) : Sound adjacency left [] (w.enter adjacency node) := by
  have bound := (Array.getElem?_eq_some_iff.mp fresh).1
  have here : (w.marks.setIfInBounds node (.held w.visits.length))[node]? =
      some (.held w.visits.length) := Array.getElem?_setIfInBounds_self_of_lt bound
  have there : ∀ v, v ≠ node → (w.marks.setIfInBounds node (.held w.visits.length))[v]? =
      w.marks[v]? := fun v other => Array.getElem?_setIfInBounds_ne (Ne.symm other)
  have path : (w.enter adjacency node).path = w.path ++ [node] := by
    simp [Walk.enter, Walk.path]
  have length : w.path.length = w.visits.length := by simp [Walk.path]
  exact {
    size := by simpa [Walk.enter] using sound.size
    marked_path := by
      intro v place
      have before := sound.marked_path v place
      rw [path]
      change (w.marks.setIfInBounds node _)[v]? = _ ↔ _
      grind
    marked_left := by
      intro v
      rw [← sound.marked_left]
      change (w.marks.setIfInBounds node _)[v]? = _ ↔ _
      by_cases same : v = node
      · subst same
        simp [here, fresh]
      · rw [there v same]
    trail := .cons (fun v pending => pending) (by simp) (fun v edge => .inl edge) sound.trail
    settled := sound.settled
    loops := sound.loops }

/-- With no visit under way any node may be looked at. -/
theorem at_root (sound : Sound adjacency left [] w) (idle : w.visits = []) (root : Nat) :
    Sound adjacency left [root] w :=
  { sound with trail := by rw [idle]; exact .nil }

/-- An edge back to a node of the path closes the part of the path from there on. -/
theorem loop_back {visit : Visit} {outer : List Visit} {next place : Nat}
    (sound : Sound adjacency left [next] w) (visits : w.visits = visit :: outer)
    (back : w.marks[next]? = some (.held place)) :
    (w.path.drop place).getLast? = some visit.node ∧ (w.path.drop place).head? = some next ∧
      Loop adjacency.Edge (w.path.drop place) := by
  have held := (sound.marked_path next place).mp back
  have bound := (List.getElem?_eq_some_iff.mp held).1
  have first : (w.path.drop place).head? = some next := by rw [List.head?_drop, held]
  have last : (w.path.drop place).getLast? = some visit.node := by
    rw [List.getLast?_drop, if_neg (Nat.not_le_of_lt bound), Walk.path_cons visits,
      List.getLast?_concat]
  have trail := sound.trail
  rw [visits] at trail
  refine ⟨last, first, ?_, ?_⟩
  · rw [Ne, List.drop_eq_nil_iff]
    exact Nat.not_le_of_lt bound
  · rw [around, first]
    refine (sound.trail.chain.drop place).append (.singleton next) ?_
    intro u hu v hv
    obtain rfl : visit.node = u := Option.some.inj (last.symm.trans hu)
    obtain rfl : next = v := by simpa using hv
    cases trail with
    | cons _ inner _ _ => exact inner next (List.mem_singleton_self _)

/-- A successor of the innermost node is dealt with, or its visit begins. -/
theorem look {next : Nat} (closed : adjacency.Closed) (sound : Sound adjacency left [next] w)
    {visit : Visit} {outer : List Visit} (visits : w.visits = visit :: outer) :
    Sound adjacency left [] (w.look adjacency next) ∧
      Onward w.marks (w.look adjacency next).marks := by
  have trail := sound.trail
  unfold Walk.look
  cases marked : w.marks[next]? with
  | none =>
    -- Every successor is there.
    rw [visits] at trail
    cases trail with
    | cons _ inner _ _ =>
      have bound := closed.edge_lt (inner next (List.mem_singleton_self _))
      rw [← sound.size] at bound
      simp [bound] at marked
  | some mark =>
    cases mark with
    | unseen => exact ⟨sound.enter marked, .set _ _ Mark.noConfusion⟩
    | settled =>
      have settled : Trail adjacency w.found left [] w.visits :=
        trail.settle fun _ _ v hv => .inl (List.mem_singleton.mp hv ▸ (sound.marked_left next).mp marked)
      exact ⟨{ sound with trail := settled }, .refl w.marks⟩
    | held place =>
      obtain ⟨last, first, loop⟩ := sound.loop_back visits marked
      have more : w.found ⊆ w.path.drop place :: w.found := List.subset_cons_self _ _
      refine ⟨{ sound with trail := ?_, settled := ?_, loops := ?_ }, .refl w.marks⟩
      · refine (trail.mono more (List.Subset.refl _)).settle ?_
        intro inner hinner v hv
        obtain rfl : visit = inner := by simpa [visits] using hinner
        obtain rfl := List.mem_singleton.mp hv
        exact .inr ⟨_, List.mem_cons_self, last, first⟩
      · exact sound.settled.mono more
      · exact List.forall_mem_cons.mpr ⟨loop, sound.loops⟩

/-- A node without pending successors is left. -/
theorem leave {visit : Visit} {outer : List Visit} (sound : Sound adjacency left [] w)
    (visits : w.visits = visit :: outer) (done : visit.pending = []) :
    Sound adjacency (visit.node :: left) []
      { w with marks := w.marks.setIfInBounds visit.node .settled, visits := outer } := by
  have path := Walk.path_cons visits
  have marked : w.marks[visit.node]? = some (.held outer.length) := by
    rw [sound.marked_path, path, List.getElem?_append_right (by simp)]
    simp
  have bound := (Array.getElem?_eq_some_iff.mp marked).1
  have here : (w.marks.setIfInBounds visit.node .settled)[visit.node]? = some .settled :=
    Array.getElem?_setIfInBounds_self_of_lt bound
  have there : ∀ v, v ≠ visit.node → (w.marks.setIfInBounds visit.node .settled)[v]? = w.marks[v]? :=
    fun v other => Array.getElem?_setIfInBounds_ne (Ne.symm other)
  have trail := sound.trail
  rw [visits] at trail
  cases trail with
  | cons _ _ looked outside =>
    rw [done] at looked
    have leads : ∀ v, adjacency.Edge visit.node v → v ∈ left ∨ Closes w.found visit.node v := by
      simpa using looked
    exact {
      size := by simpa using sound.size
      marked_path := by
        intro v place
        change _ ↔ (outer.map (·.node)).reverse[place]? = some v
        have before := sound.marked_path v place
        rw [path] at before
        by_cases same : v = visit.node
        · subst same
          -- A node stands on the path once.
          have once : ¬ (outer.map (·.node)).reverse[place]? = some visit.node := by
            intro again
            have earlier := (List.getElem?_eq_some_iff.mp again).1
            rw [List.getElem?_append_left earlier] at before
            obtain rfl : outer.length = place := by simpa [marked] using before.mpr again
            simp at earlier
          simp [here, once]
        · rw [there v same, before]
          grind
      marked_left := by
        intro v
        rw [List.mem_cons, ← sound.marked_left]
        by_cases same : v = visit.node
        · subst same
          simp [here]
        · simp [there v same, same]
      trail := by
        refine (outside.mono (List.Subset.refl _) (List.subset_cons_self _ _)).settle ?_
        intro _ _ v hv
        exact .inl (List.mem_singleton.mp hv ▸ List.mem_cons_self)
      settled := .cons leads sound.settled
      loops := sound.loops }

/-- The innermost visit turns to its next successor. -/
theorem advance {visit : Visit} {outer : List Visit} {next : Nat} {pending : List Nat}
    (sound : Sound adjacency left [] w) (visits : w.visits = visit :: outer)
    (waits : visit.pending = next :: pending) :
    Sound adjacency left [next] { w with visits := { visit with pending } :: outer } :=
  { sound with
    marked_path := by
      intro v place
      rw [sound.marked_path, Walk.path_cons visits]
      simp [Walk.path]
    trail := (visits ▸ sound.trail).advance waits }

/-- **One step.** -/
theorem step (closed : adjacency.Closed) (sound : Sound adjacency left [] w)
    (busy : w.visits ≠ []) :
    ∃ left', Sound adjacency left' [] (w.step adjacency) ∧
      Onward w.marks (w.step adjacency).marks := by
  obtain ⟨visit, outer, visits⟩ := List.exists_cons_of_ne_nil busy
  simp only [Walk.step, visits]
  cases successors : visit.pending with
  | nil => exact ⟨_, sound.leave visits successors, .set _ _ Mark.noConfusion⟩
  | cons next pending => exact ⟨left, (sound.advance visits successors).look closed rfl⟩

/-- **A run.** The visits under way all come to their end. -/
theorem run (closed : adjacency.Closed) (sound : Sound adjacency left [] w) :
    ∃ left', Sound adjacency left' [] (w.run adjacency) ∧ (w.run adjacency).visits = [] ∧
      Onward w.marks (w.run adjacency).marks := by
  fun_induction Walk.run adjacency w generalizing left with
  | case1 w idle => exact ⟨left, sound, idle, .refl w.marks⟩
  | case2 w busy ih =>
    obtain ⟨left₁, sound₁, onward₁⟩ := sound.step closed busy
    obtain ⟨left₂, sound₂, idle, onward₂⟩ := ih sound₁
    exact ⟨left₂, sound₂, idle, onward₁.trans onward₂⟩

theorem visit (closed : adjacency.Closed) (sound : Sound adjacency left [] w)
    (idle : w.visits = []) (root : Nat) :
    ∃ left', Sound adjacency left' [] (w.visit adjacency root) ∧
      (w.visit adjacency root).visits = [] ∧ Onward w.marks (w.visit adjacency root).marks ∧
      (w.visit adjacency root).marks[root]? ≠ some .unseen := by
  by_cases fresh : w.marks[root]? = some .unseen
  · have entered := (sound.at_root idle root).enter fresh
    obtain ⟨left', sound', idle', onward⟩ := entered.run closed
    have bound := (Array.getElem?_eq_some_iff.mp fresh).1
    have seen : (w.enter adjacency root).marks[root]? ≠ some .unseen := by
      simp [Walk.enter, bound]
    rw [Walk.visit_of_unseen fresh]
    exact ⟨left', sound', idle', (Onward.set _ _ Mark.noConfusion).trans onward,
      fun unseen => seen (onward root unseen)⟩
  · rw [Walk.visit_of_seen fresh]
    exact ⟨left, sound, idle, .refl w.marks, fresh⟩

theorem visitAll (closed : adjacency.Closed) (sound : Sound adjacency left [] w)
    (idle : w.visits = []) (roots : List Nat) :
    ∃ left', Sound adjacency left' [] (roots.foldl (Walk.visit adjacency) w) ∧
      (roots.foldl (Walk.visit adjacency) w).visits = [] ∧
      Onward w.marks (roots.foldl (Walk.visit adjacency) w).marks ∧
      ∀ root ∈ roots, (roots.foldl (Walk.visit adjacency) w).marks[root]? ≠ some .unseen := by
  induction roots generalizing w left with
  | nil => exact ⟨left, sound, idle, .refl w.marks, by simp⟩
  | cons root roots ih =>
    obtain ⟨left₁, sound₁, idle₁, onward₁, seen⟩ := sound.visit closed idle root
    obtain ⟨left₂, sound₂, idle₂, onward₂, rest⟩ := ih sound₁ idle₁
    refine ⟨left₂, sound₂, idle₂, onward₁.trans onward₂, ?_⟩
    rw [List.forall_mem_cons]
    exact ⟨fun unseen => seen (onward₂ root unseen), rest⟩

theorem start (adjacency : Adjacency) : Sound adjacency [] [] (.start adjacency.size) where
  size := Array.size_replicate
  marked_path v place := by simp [Walk.start, Walk.path, Array.getElem?_replicate]
  marked_left v := by simp [Walk.start, Array.getElem?_replicate]
  trail := .nil
  settled := .nil
  loops := by simp [Walk.start]

/-- When no visit is under way, a node that was seen has been left. -/
theorem left_of_seen (sound : Sound adjacency left [] w) (idle : w.visits = []) {v : Nat}
    (bound : v < adjacency.size) (seen : w.marks[v]? ≠ some .unseen) : v ∈ left := by
  rw [← sound.marked_left]
  cases marked : w.marks[v]? with
  | none => simp [sound.size, bound] at marked
  | some mark =>
    cases mark with
    | unseen => exact absurd marked seen
    | settled => rfl
    | held place =>
      rw [sound.marked_path, Walk.path, idle] at marked
      simp at marked

end Sound

/-- Where every edge leads to a node that is there, the walk leaves every node. -/
theorem walkAll_sound (closed : adjacency.Closed) :
    ∃ left, Sound adjacency left [] (walkAll adjacency) ∧ ∀ v < adjacency.size, v ∈ left := by
  obtain ⟨left, sound, idle, -, seen⟩ :=
    (Sound.start adjacency).visitAll closed rfl (List.range adjacency.size)
  exact ⟨left, sound, fun v bound => sound.left_of_seen idle bound (seen v (by simpa using bound))⟩

/-- What the walk reports are cycles. -/
theorem loop_of_mem_cycles (closed : adjacency.Closed) :
    ∀ cycle ∈ adjacency.cycles, Loop adjacency.Edge cycle := by
  obtain ⟨left, sound, -⟩ := walkAll_sound closed
  intro cycle member
  exact sound.loops cycle (List.mem_reverse.mp member)

/-- Without the edges that close the reported cycles there are none. -/
theorem acyclic_without_closing (closed : adjacency.Closed) :
    Acyclic fun u v => adjacency.Edge u v ∧ ¬ Closes adjacency.cycles u v := by
  obtain ⟨left, sound, all⟩ := walkAll_sound closed
  have same : Closes adjacency.cycles = Closes (walkAll adjacency).found := by
    funext u v
    simp [Closes, Adjacency.cycles]
  rw [same]
  intro u path
  obtain ⟨v, -, edge⟩ := Relation.TransGen.tail'_iff.mp path
  exact sound.settled.no_return u (all u (closed.edge_lt edge.1)) path

/-! ## A walk by a number of steps

A run ends because less and less is left to do, which does not say how many steps it takes. Where a
number of steps is enough, the cycles can be evaluated. -/

def Walk.runWithin? (steps : Nat) (adjacency : Adjacency) (w : Walk) : Option Walk :=
  let w' := (Walk.step adjacency)^[steps] w
  if w'.visits = [] then some w' else none

theorem Walk.run_iterate (steps : Nat) (w : Walk) :
    ((Walk.step adjacency)^[steps] w).run adjacency = w.run adjacency := by
  induction steps generalizing w with
  | zero => rfl
  | succ steps ih =>
    rw [Function.iterate_succ_apply, ih]
    by_cases idle : w.visits = []
    · have stays : w.step adjacency = w := by simp only [Walk.step, idle]
      rw [stays]
    · rw [Walk.run.eq_def adjacency w, if_neg idle]

theorem Walk.run_eq_of_within {steps : Nat} {w w' : Walk}
    (ends : w.runWithin? steps adjacency = some w') : w.run adjacency = w' := by
  obtain ⟨idle, same⟩ := Option.ite_none_right_eq_some.mp ends
  obtain rfl := Option.some.inj same
  rw [← Walk.run_iterate steps w, Walk.run]
  exact if_pos idle

def Walk.visitWithin? (steps : Nat) (adjacency : Adjacency) (w : Walk) (root : Nat) : Option Walk :=
  if w.marks[root]? = some .unseen then (w.enter adjacency root).runWithin? steps adjacency
  else some w

theorem Walk.visit_eq_of_within {steps root : Nat} {w w' : Walk}
    (ends : w.visitWithin? steps adjacency root = some w') : w.visit adjacency root = w' := by
  unfold Walk.visitWithin? at ends
  split at ends
  · next fresh => rw [Walk.visit_of_unseen fresh, Walk.run_eq_of_within ends]
  · next seen =>
    rw [Walk.visit_of_seen seen]
    exact Option.some.inj ends

theorem Walk.foldl_visit_eq_of_within {steps : Nat} {roots : List Nat} {w w' : Walk}
    (ends : roots.foldlM (Walk.visitWithin? steps adjacency) w = some w') :
    roots.foldl (Walk.visit adjacency) w = w' := by
  induction roots generalizing w with
  | nil => exact Option.some.inj ends
  | cons root roots ih =>
    obtain ⟨w₁, first, rest⟩ := Option.bind_eq_some_iff.mp ends
    rw [List.foldl_cons, Walk.visit_eq_of_within first]
    exact ih rest

end Cycles

namespace Graph

open Cycles (Walk)

/-- The cycles, if from each module the walk ends within a number of steps. -/
def cyclesWithin? (steps : Nat) (g : Graph) : Option (List (List String)) :=
  let adjacency := g.view.adjacency
  let start := Walk.start adjacency.size
  ((List.range adjacency.size).foldlM (Walk.visitWithin? steps adjacency) start).map fun w =>
    w.found.reverse.map fun cycle => cycle.map g.view.name

theorem cycles_eq_of_within (steps : Nat) {g : Graph} {cycles : List (List String)}
    (ends : g.cyclesWithin? steps = some cycles) : g.cycles = cycles := by
  obtain ⟨w, walked, rfl⟩ := Option.map_eq_some_iff.mp ends
  rw [Graph.cycles, Adjacency.cycles, Cycles.walkAll, Walk.foldl_visit_eq_of_within walked]

end Graph

end ModuleAtlas
