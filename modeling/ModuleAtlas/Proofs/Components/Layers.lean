import ModuleAtlas.Graph.Components
import ModuleAtlas.Proofs.Adjacency

/-!
# The stack of a component search

The nodes on the stack fall into layers, one for each visit under way. A layer is strongly
connected, and from the node of a visit the path goes on to the nodes of the visits inside it. So
an ending visit either leads back into the layer below, which then takes its nodes over, or its
layer is a component.
-/

namespace ModuleAtlas.Components

open DepthFirst (Mark)

variable {adjacency : Adjacency} {marks marks' : Array Mark}

/-- A node that has been seen and leads back no further than the number `low`, unless its
component is complete. -/
def Behind (marks : Array Mark) (low node : Nat) : Prop :=
  marks[node]? = some .settled ∨ ∃ number, marks[node]? = some (.held number) ∧ low ≤ number

theorem Behind.lower {low low' node : Nat} (h : Behind marks low node) (le : low' ≤ low) :
    Behind marks low' node := by
  rcases h with settled | ⟨number, stacked, bound⟩
  · exact .inl settled
  · exact .inr ⟨number, stacked, Nat.le_trans le bound⟩

/-- What holds of the visit `visit` with the nodes `above` it in its layer, and `below` under it on
the stack. -/
structure Layer (adjacency : Adjacency) (marks : Array Mark) (visit : Visit)
    (above below : List Nat) : Prop where
  numbered : marks[visit.node]? = some (.held visit.number)
  pending : ∀ next ∈ visit.pending, adjacency.Edge visit.node next
  joined : ∀ v ∈ above, adjacency.Mutual visit.node v
  low_reached : ∃ w ∈ visit.node :: below,
    marks[w]? = some (.held visit.low) ∧ adjacency.Reach visit.node w
  looked : ∀ w, adjacency.Edge visit.node w → w ∈ visit.pending ∨ Behind marks visit.low w
  finished : ∀ v ∈ above, ∀ w, adjacency.Edge v w → Behind marks visit.low w

/-- The stack as the layers of the visits under way, the innermost on top. -/
inductive Layers (adjacency : Adjacency) (marks : Array Mark) : List Visit → List Nat → Prop where
  | nil : Layers adjacency marks [] []
  | cons {visit : Visit} {outer : List Visit} {above below : List Nat}
      (layer : Layer adjacency marks visit above below)
      (inner : ∀ parent ∈ outer.head?, adjacency.Reach parent.node visit.node)
      (rest : Layers adjacency marks outer below) :
      Layers adjacency marks (visit :: outer) (above ++ visit.node :: below)

theorem Layers.split {visit : Visit} {outer : List Visit} {stack : List Nat}
    (h : Layers adjacency marks (visit :: outer) stack) :
    ∃ above below, stack = above ++ visit.node :: below ∧
      Layer adjacency marks visit above below ∧
      (∀ parent ∈ outer.head?, adjacency.Reach parent.node visit.node) ∧
      Layers adjacency marks outer below := by
  cases h with
  | cons layer inner rest => exact ⟨_, _, rfl, layer, inner, rest⟩

theorem Layers.stack_eq_nil {stack : List Nat} (h : Layers adjacency marks [] stack) :
    stack = [] := by
  cases h
  rfl

/-- Layers stay when marks change elsewhere, and nodes that have been seen stay behind. -/
theorem Layers.mono {visits : List Visit} {stack : List Nat}
    (h : Layers adjacency marks visits stack)
    (keep : ∀ v ∈ stack, marks'[v]? = marks[v]?)
    (behind : ∀ low w, Behind marks low w → Behind marks' low w) :
    Layers adjacency marks' visits stack := by
  induction h with
  | nil => exact .nil
  | @cons visit outer above below layer inner rest ih =>
    have kept : ∀ v ∈ visit.node :: below, marks'[v]? = marks[v]? :=
      fun v hv => keep v (List.mem_append_right above hv)
    refine .cons ?_ inner (ih fun v hv => kept v (List.mem_cons_of_mem _ hv))
    obtain ⟨w, hw, number, path⟩ := layer.low_reached
    exact {
      numbered := (kept _ List.mem_cons_self).trans layer.numbered
      pending := layer.pending
      joined := layer.joined
      low_reached := ⟨w, hw, (kept w hw).trans number, path⟩
      looked := fun w edge => (layer.looked w edge).imp_right (behind _ _)
      finished := fun v hv w edge => behind _ _ (layer.finished v hv w edge) }

/-- Every node on the stack leads to the node of the innermost visit. -/
theorem Layers.reach_top {visits : List Visit} {stack : List Nat}
    (h : Layers adjacency marks visits stack) :
    ∀ top ∈ visits.head?, ∀ v ∈ stack, adjacency.Reach v top.node := by
  induction h with
  | nil => rintro _ ⟨⟩
  | @cons visit outer above below layer inner rest ih =>
    rintro _ ⟨⟩ v hv
    rcases List.mem_append.mp hv with hv | hv
    · exact (layer.joined v hv).2
    rcases List.mem_cons.mp hv with rfl | hv
    · exact .refl _
    cases outer with
    | nil =>
      obtain rfl := rest.stack_eq_nil
      cases hv
    | cons parent outer => exact (ih parent rfl v hv).trans (inner parent rfl)

/-- Higher on the stack means discovered later. -/
def Ordered (marks : Array Mark) (stack : List Nat) : Prop :=
  stack.Pairwise fun a b => ∀ i j,
    marks[a]? = some (.held i) → marks[b]? = some (.held j) → j < i

theorem Ordered.mono {stack : List Nat} (h : Ordered marks stack)
    (keep : ∀ v ∈ stack, marks'[v]? = marks[v]?) : Ordered marks' stack := by
  refine List.Pairwise.imp_of_mem ?_ h
  intro a b ha hb later i j hi hj
  exact later i j (keep a ha ▸ hi) (keep b hb ▸ hj)

theorem Ordered.nodup {stack : List Nat} (h : Ordered marks stack)
    (stacked : ∀ v ∈ stack, ∃ i, marks[v]? = some (.held i)) : stack.Nodup := by
  refine List.Pairwise.imp_of_mem ?_ h
  rintro a b ha _ later rfl
  obtain ⟨i, hi⟩ := stacked a ha
  exact Nat.lt_irrefl i (later i i hi hi)

section
variable {visit : Visit} {above below : List Nat}

theorem Ordered.lower (h : Ordered marks (above ++ visit.node :: below)) : Ordered marks below :=
  (List.pairwise_cons.mp (List.pairwise_append.mp h).2.1).2

theorem Ordered.above_gt (h : Ordered marks (above ++ visit.node :: below))
    (numbered : marks[visit.node]? = some (.held visit.number)) {v i : Nat} (hv : v ∈ above)
    (stacked : marks[v]? = some (.held i)) : visit.number < i :=
  (List.pairwise_append.mp h).2.2 v hv visit.node List.mem_cons_self i _ stacked numbered

theorem Ordered.below_lt (h : Ordered marks (above ++ visit.node :: below))
    (numbered : marks[visit.node]? = some (.held visit.number)) {v i : Nat} (hv : v ∈ below)
    (stacked : marks[v]? = some (.held i)) : i < visit.number :=
  (List.pairwise_cons.mp (List.pairwise_append.mp h).2.1).1 v hv _ i numbered stacked

theorem Layer.low_le (layer : Layer adjacency marks visit above below)
    (order : Ordered marks (above ++ visit.node :: below)) : visit.low ≤ visit.number := by
  obtain ⟨w, hw, stacked, _⟩ := layer.low_reached
  rcases List.mem_cons.mp hw with rfl | hw
  · have same := stacked.symm.trans layer.numbered
    exact Nat.le_of_eq (Mark.held.inj (Option.some.inj same))
  · exact Nat.le_of_lt (order.below_lt layer.numbered hw stacked)

/-- A node found on the stack may be how far back a visit leads. -/
theorem Layer.min_reached (layer : Layer adjacency marks visit above below)
    (order : Ordered marks (above ++ visit.node :: below)) {v number : Nat}
    (hv : v ∈ above ++ visit.node :: below) (stacked : marks[v]? = some (.held number))
    (path : adjacency.Reach visit.node v) :
    ∃ w ∈ visit.node :: below, marks[w]? = some (.held (min visit.low number)) ∧
      adjacency.Reach visit.node w := by
  rcases Nat.le_total visit.low number with le | le
  · rw [Nat.min_eq_left le]
    exact layer.low_reached
  · rw [Nat.min_eq_right le]
    refine ⟨v, ?_, stacked, path⟩
    rcases List.mem_append.mp hv with hv | hv
    · have := order.above_gt layer.numbered hv stacked
      have := layer.low_le order
      omega
    · exact hv

/-- The next successor can be crossed off once it lies behind the visit. -/
theorem Layer.look (layer : Layer adjacency marks visit above below) {next low : Nat}
    {pending : List Nat} (successors : visit.pending = next :: pending) (le : low ≤ visit.low)
    (reached : ∃ w ∈ visit.node :: below,
      marks[w]? = some (.held low) ∧ adjacency.Reach visit.node w)
    (behind : Behind marks low next) :
    Layer adjacency marks { visit with low, pending } above below where
  numbered := layer.numbered
  pending v hv := layer.pending v (successors ▸ List.mem_cons_of_mem _ hv)
  joined := layer.joined
  low_reached := reached
  looked w edge := by
    rcases layer.looked w edge with waiting | seen
    · rw [successors] at waiting
      rcases List.mem_cons.mp waiting with rfl | waiting
      · exact .inr behind
      · exact .inl waiting
    · exact .inr (seen.lower le)
  finished v hv w edge := (layer.finished v hv w edge).lower le

theorem Layer.connected (layer : Layer adjacency marks visit above below) :
    ∀ v ∈ above ++ [visit.node], adjacency.Mutual visit.node v := by
  intro v hv
  rcases List.mem_append.mp hv with hv | hv
  · exact layer.joined v hv
  · obtain rfl := List.mem_singleton.mp hv
    exact .refl _

theorem Layer.all_behind (layer : Layer adjacency marks visit above below)
    (done : visit.pending = []) :
    ∀ v ∈ above ++ [visit.node], ∀ w, adjacency.Edge v w → Behind marks visit.low w := by
  intro v hv w edge
  rcases List.mem_append.mp hv with hv | hv
  · exact layer.finished v hv w edge
  · obtain rfl := List.mem_singleton.mp hv
    rcases layer.looked w edge with waiting | seen
    · simp [done] at waiting
    · exact seen

/-- A visit that leads back into the layer below leaves its nodes to that layer. -/
theorem Layer.absorb {parent : Visit} {between under : List Nat}
    (layer : Layer adjacency marks visit above (between ++ parent.node :: under))
    (lower : Layer adjacency marks parent between under) (done : visit.pending = [])
    (both : adjacency.Mutual parent.node visit.node)
    (reached : ∃ w ∈ parent.node :: under,
      marks[w]? = some (.held (min parent.low visit.low)) ∧ adjacency.Reach parent.node w) :
    Layer adjacency marks { parent with low := min parent.low visit.low }
      (above ++ [visit.node] ++ between) under where
  numbered := lower.numbered
  pending := lower.pending
  joined v hv := by
    rcases List.mem_append.mp hv with hv | hv
    · exact both.trans (layer.connected v hv)
    · exact lower.joined v hv
  low_reached := reached
  looked w edge := (lower.looked w edge).imp_right (·.lower (Nat.min_le_left _ _))
  finished v hv w edge := by
    rcases List.mem_append.mp hv with hv | hv
    · exact (layer.all_behind done v hv w edge).lower (Nat.min_le_right _ _)
    · exact (lower.finished v hv w edge).lower (Nat.min_le_left _ _)

end

section
variable {visit : Visit} {outer : List Visit} {stack pending : List Nat} {next number : Nat}

theorem Layers.look (h : Layers adjacency marks (visit :: outer) stack)
    (successors : visit.pending = next :: pending) (behind : Behind marks visit.low next) :
    Layers adjacency marks ({ visit with pending } :: outer) stack := by
  obtain ⟨above, below, rfl, layer, inner, rest⟩ := h.split
  exact .cons (layer.look successors (Nat.le_refl _) layer.low_reached behind) inner rest

theorem Layers.look_back (h : Layers adjacency marks (visit :: outer) stack)
    (order : Ordered marks stack) (successors : visit.pending = next :: pending)
    (hnext : next ∈ stack) (stacked : marks[next]? = some (.held number)) :
    Layers adjacency marks
      ({ visit with low := min visit.low number, pending } :: outer) stack := by
  obtain ⟨above, below, rfl, layer, inner, rest⟩ := h.split
  have edge : adjacency.Edge visit.node next :=
    layer.pending next (successors ▸ List.mem_cons_self)
  have reached := layer.min_reached order hnext stacked edge.reach
  have behind : Behind marks (min visit.low number) next :=
    .inr ⟨number, stacked, Nat.min_le_right _ _⟩
  exact .cons (layer.look successors (Nat.min_le_left _ _) reached behind) inner rest

/-- A visit around the innermost one leads back further than to the innermost one's node. -/
theorem Layers.outer_low_le {above below : List Nat} (h : Layers adjacency marks outer below)
    (order : Ordered marks (above ++ visit.node :: below))
    (numbered : marks[visit.node]? = some (.held visit.number)) :
    ∀ parent ∈ outer.head?, parent.low ≤ visit.number := by
  cases h with
  | nil => rintro _ ⟨⟩
  | @cons parent outer between under layer inner rest =>
    rintro _ ⟨⟩
    have := layer.low_le order.lower
    have := order.below_lt numbered (List.mem_append_right _ List.mem_cons_self) layer.numbered
    omega

end

/-- Ending a visit that leads back below its node joins its layer to the one around it. -/
theorem Layers.merge {visit : Visit} {outer : List Visit} {stack : List Nat}
    (h : Layers adjacency marks (visit :: outer) stack) (order : Ordered marks stack)
    (done : visit.pending = []) (back : visit.low ≠ visit.number) :
    Layers adjacency marks (report visit.low outer) stack := by
  obtain ⟨above, below, rfl, layer, inner, rest⟩ := h.split
  obtain ⟨w, hw, stacked, path⟩ := layer.low_reached
  have hw : w ∈ below := by
    rcases List.mem_cons.mp hw with rfl | hw
    · have same := stacked.symm.trans layer.numbered
      exact absurd (Mark.held.inj (Option.some.inj same)) back
    · exact hw
  cases outer with
  | nil =>
    obtain rfl := rest.stack_eq_nil
    cases hw
  | cons parent outer =>
    have down : adjacency.Reach parent.node visit.node := inner parent rfl
    have up : adjacency.Reach visit.node parent.node :=
      path.trans (rest.reach_top parent rfl w hw)
    obtain ⟨between, under, rfl, lower, further, rest⟩ := rest.split
    have reached := lower.min_reached order.lower hw stacked (down.trans path)
    have joined := Layers.cons (layer.absorb lower done ⟨down, up⟩ reached) further rest
    rwa [List.append_assoc, ← List.append_cons] at joined

end ModuleAtlas.Components
