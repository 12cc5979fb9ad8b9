import ModuleAtlas.Proofs.Components.Condensation
import ModuleAtlas.Proofs.Components.Layers

/-!
# The search finds the components

`Sound` ties the marks, the stack, the visits under way and the components found together. Every
step of a search keeps it and finds each node it asks for. When no visit is under way the stack is
empty, so each node that has been seen is in a component.
-/

namespace ModuleAtlas.Components

open DepthFirst (Mark Onward)

variable {adjacency : Adjacency} {marks marks' : Array Mark}

theorem mark?_eq_some {node : Nat} (mark : Mark) (bound : node < marks.size) :
    mark? mark marks node = some (marks.setIfInBounds node mark) :=
  if_pos bound

/-- Marking nodes that are there changes their marks and no others. -/
theorem markAll?_spec (mark : Mark) (nodes : List Nat) (bound : ∀ v ∈ nodes, v < marks.size) :
    ∃ marks', markAll? mark marks nodes = some marks' ∧ marks'.size = marks.size ∧
      ∀ v, marks'[v]? = if v ∈ nodes then some mark else marks[v]? := by
  induction nodes generalizing marks with
  | nil => exact ⟨marks, rfl, rfl, by simp⟩
  | cons node nodes ih =>
    rw [List.forall_mem_cons] at bound
    have rest : ∀ v ∈ nodes, v < (marks.setIfInBounds node mark).size := by simpa using bound.2
    obtain ⟨marks', marked, size, get⟩ := ih rest
    refine ⟨marks', ?_, by simpa using size, ?_⟩
    · simp only [markAll?, List.foldlM_cons, mark?_eq_some mark bound.1]
      exact marked
    · intro v
      rw [get, Array.getElem?_setIfInBounds, if_pos bound.1]
      by_cases later : v ∈ nodes <;> simp [later, eq_comm]

/-- What holds of a search at every step. -/
structure Sound (adjacency : Adjacency) (s : Search) : Prop where
  size : s.marks.size = adjacency.size
  stacked : ∀ v : Nat, v ∈ s.stack ↔ ∃ number, s.marks[v]? = some (.held number)
  counted : ∀ v number : Nat, s.marks[v]? = some (.held number) → number < s.count
  ordered : Ordered s.marks s.stack
  layers : Layers adjacency s.marks s.visits s.stack
  settled : ∀ v : Nat, s.marks[v]? = some .settled ↔ ∃ members ∈ s.found, v ∈ members
  emitted : Emitted adjacency s.found

section
variable {s : Search} {node : Nat}

theorem Sound.not_stacked (sound : Sound adjacency s) (fresh : s.marks[node]? = some .unseen) :
    ∀ v ∈ s.stack, v ≠ node := by
  rintro v hv rfl
  obtain ⟨number, stacked⟩ := (sound.stacked v).mp hv
  simp [fresh] at stacked

/-- Giving a new node its number keeps the layers under way. -/
theorem Sound.discover (sound : Sound adjacency s) (fresh : s.marks[node]? = some .unseen) :
    Layers adjacency (s.marks.setIfInBounds node (.held s.count)) s.visits s.stack := by
  refine sound.layers.mono ?_ ?_
  · intro v hv
    exact Array.getElem?_setIfInBounds_ne (sound.not_stacked fresh v hv).symm
  · intro low w behind
    have other : node ≠ w := by
      rintro rfl
      simp [Behind, fresh] at behind
    unfold Behind
    rw [Array.getElem?_setIfInBounds_ne other]
    exact behind

theorem layer_new {pending below : List Nat} {number : Nat} (row : adjacency[node]? = some pending)
    (numbered : marks[node]? = some (.held number)) :
    Layer adjacency marks { node, number, low := number, pending } [] below where
  numbered := numbered
  pending v hv := by rwa [Adjacency.Edge, Adjacency.successors_eq_of_getElem? row]
  joined := by simp
  low_reached := ⟨node, List.mem_cons_self, numbered, .refl node⟩
  looked w edge := by
    rw [Adjacency.Edge, Adjacency.successors_eq_of_getElem? row] at edge
    exact .inl edge
  finished := by simp

/-- `visits` are the visits under way once the new node is crossed off in the innermost of them. -/
theorem Sound.enter (sound : Sound adjacency s) (fresh : s.marks[node]? = some .unseen)
    {visits : List Visit}
    (layers : Layers adjacency (s.marks.setIfInBounds node (.held s.count)) visits s.stack)
    (inner : ∀ parent ∈ visits.head?, adjacency.Reach parent.node node) :
    ∃ s', Search.enter adjacency { s with visits } node = some s' ∧ Sound adjacency s' ∧
      Onward s.marks s'.marks ∧ s'.marks[node]? ≠ some .unseen := by
  have bound := (Array.getElem?_eq_some_iff.mp fresh).1
  have get : ∀ v : Nat, (s.marks.setIfInBounds node (.held s.count))[v]? =
      if v = node then some (.held s.count) else s.marks[v]? := by
    intro v
    rw [Array.getElem?_setIfInBounds, if_pos bound]
    simp only [eq_comm]
  have kept : ∀ v ∈ s.stack, (s.marks.setIfInBounds node (.held s.count))[v]? = s.marks[v]? :=
    fun v hv => by rw [get, if_neg (sound.not_stacked fresh v hv)]
  have row : adjacency[node]? = some (adjacency.successors node) := by
    rw [Adjacency.successors, Array.getD_eq_getD_getElem?]
    simp [sound.size ▸ bound]
  refine ⟨_, by simp only [Search.enter, row, mark?_eq_some _ bound]; rfl, ?_, ?_, ?_⟩
  · exact {
      size := by simpa using sound.size
      stacked := by
        intro v
        rw [get, List.mem_cons]
        by_cases same : v = node <;> simp [same, sound.stacked]
      counted := by
        intro v number
        rw [get]
        split
        · rintro ⟨⟩
          exact Nat.lt_succ_self _
        · exact fun stacked => Nat.lt_succ_of_lt (sound.counted v number stacked)
      ordered := by
        refine .cons ?_ (sound.ordered.mono kept)
        intro v hv i j hi hj
        rw [get, if_pos rfl] at hi
        rw [kept v hv] at hj
        cases hi
        exact sound.counted v j hj
      layers := .cons (layer_new row (by rw [get, if_pos rfl])) inner layers
      settled := by
        intro v
        rw [get, ← sound.settled]
        by_cases same : v = node <;> simp [same, fresh]
      emitted := sound.emitted }
  · exact .set s.marks node Mark.noConfusion
  · rw [get, if_pos rfl]
    simp

end

theorem ascending_mergeSort {members : List Nat} (nodup : members.Nodup) :
    members.mergeSort.Pairwise (· < ·) := by
  have trans : ∀ a b c : Nat, decide (a ≤ b) = true → decide (b ≤ c) = true →
      decide (a ≤ c) = true := by
    simpa using fun _ _ _ => Nat.le_trans
  have total : ∀ a b : Nat, (decide (a ≤ b) || decide (b ≤ a)) = true := by
    simp [Nat.le_total]
  have sorted := List.pairwise_mergeSort trans total members
  have distinct : members.mergeSort.Nodup := (List.mergeSort_perm members _).nodup_iff.mpr nodup
  refine (sorted.and distinct).imp fun h => ?_
  exact Nat.lt_of_le_of_ne (of_decide_eq_true h.1) h.2

theorem report_eq_self {low : Nat} {outer : List Visit}
    (h : ∀ parent ∈ outer.head?, parent.low ≤ low) : report low outer = outer := by
  cases outer with
  | nil => rfl
  | cons parent outer => rw [report, Nat.min_eq_left (h parent rfl)]

theorem close_eq {s : Search} {node : Nat} {above below : List Nat}
    (stack : s.stack = above ++ node :: below) (absent : node ∉ above) :
    s.close node = (markAll? .settled s.marks (above ++ [node])).map fun marks =>
      { s with marks, stack := below, found := (above ++ [node]).mergeSort :: s.found } := by
  have up : s.stack.takeWhile (· ≠ node) = above := by
    rw [stack, List.takeWhile_append_of_pos, List.takeWhile_cons_of_neg (by simp), List.append_nil]
    intro v hv
    simpa using ne_of_mem_of_not_mem hv absent
  have split : s.stack = (above ++ [node]) ++ below := by rw [stack, List.append_cons]
  have size : (s.stack.takeWhile (· ≠ node)).length + 1 = (above ++ [node]).length := by
    rw [up, List.length_append, List.length_singleton]
  have taken : s.stack.take (above ++ [node]).length = above ++ [node] := by
    rw [split, List.take_left]
  have left : s.stack.drop (above ++ [node]).length = below := by
    rw [split, List.drop_left]
  simp only [Search.close, size, taken, left]

theorem Sound.nodup {s : Search} (sound : Sound adjacency s) : s.stack.Nodup :=
  sound.ordered.nodup fun v hv => (sound.stacked v).mp hv

section
variable {s : Search} {visit : Visit} {above below : List Nat}

theorem Sound.stack_fresh (sound : Sound adjacency s) {u : Nat} (hu : u ∈ s.stack) :
    ∀ other ∈ s.found, u ∉ other := by
  intro other hother hmem
  obtain ⟨number, stacked⟩ := (sound.stacked u).mp hu
  have settled := (sound.settled u).mpr ⟨other, hother, hmem⟩
  simp [stacked] at settled

theorem Sound.layer_leads (sound : Sound adjacency s)
    (layer : Layer adjacency s.marks visit above below)
    (stack : s.stack = above ++ visit.node :: below) (done : visit.pending = [])
    (own : visit.low = visit.number) :
    ∀ u ∈ above ++ [visit.node], ∀ v, adjacency.Edge u v →
      v ∈ above ++ [visit.node] ∨ ∃ other ∈ s.found, v ∈ other := by
  intro u hu v edge
  rcases layer.all_behind done u hu v edge with settled | ⟨number, stacked, le⟩
  · exact .inr ((sound.settled v).mp settled)
  · have hv : v ∈ s.stack := (sound.stacked v).mpr ⟨number, stacked⟩
    rw [stack, List.append_cons] at hv
    rcases List.mem_append.mp hv with hv | hv
    · exact .inl hv
    · have := (stack ▸ sound.ordered).below_lt layer.numbered hv stacked
      omega

/-- The layer of a visit that leads back no further than to its own node is a component. -/
theorem Sound.completes (sound : Sound adjacency s)
    (layer : Layer adjacency s.marks visit above below)
    (stack : s.stack = above ++ visit.node :: below) (done : visit.pending = [])
    (own : visit.low = visit.number) :
    Completes adjacency (above ++ [visit.node]).mergeSort s.found := by
  have split : s.stack = (above ++ [visit.node]) ++ below := by rw [stack, List.append_cons]
  have fresh : ∀ u ∈ above ++ [visit.node], ∀ other ∈ s.found, u ∉ other :=
    fun u hu => sound.stack_fresh (split ▸ List.mem_append_left _ hu)
  have leads := sound.layer_leads layer stack done own
  have connected : ∀ u ∈ above ++ [visit.node], ∀ v,
      v ∈ above ++ [visit.node] ↔ adjacency.Mutual u v := by
    intro u hu v
    constructor
    · exact fun hv => (layer.connected u hu).symm.trans (layer.connected v hv)
    · rintro ⟨forth, back⟩
      -- no edge leaves the layer and the components found, and none of those leads back
      have stays : ∀ a b, (a ∈ above ++ [visit.node] ∨ ∃ other ∈ s.found, a ∈ other) →
          adjacency.Edge a b → b ∈ above ++ [visit.node] ∨ ∃ other ∈ s.found, b ∈ other := by
        rintro a b (ha | ha) edge
        · exact leads a ha b edge
        · exact .inr (sound.emitted.edge_stays ha edge)
      rcases forth.stays (Or.inl hu) stays with hv | hv
      · exact hv
      · obtain ⟨other, hother, hmem⟩ := sound.emitted.reach_stays hv back
        exact absurd hmem (fresh u hu other hother)
  have nodup : (above ++ [visit.node]).Nodup := (List.nodup_append.mp (split ▸ sound.nodup)).1
  exact {
    nonempty := by simp [← List.length_eq_zero_iff]
    ascending := ascending_mergeSort nodup
    connected := by simpa only [List.mem_mergeSort] using connected
    fresh := by simpa only [List.mem_mergeSort] using fresh
    leads := by simpa only [List.mem_mergeSort] using leads }

theorem Sound.apart (sound : Sound adjacency s) (stack : s.stack = above ++ visit.node :: below) :
    ∀ v ∈ below, v ∉ above ++ [visit.node] := by
  have nodup := sound.nodup
  rw [stack, List.append_cons, List.nodup_append] at nodup
  exact fun v hv hmem => nodup.2.2 v hmem v hv rfl

/-- Taking a complete layer off the stack. -/
theorem Sound.settle (sound : Sound adjacency s) {outer : List Visit}
    (stack : s.stack = above ++ visit.node :: below)
    (layer : Layer adjacency s.marks visit above below)
    (rest : Layers adjacency s.marks outer below) (done : visit.pending = [])
    (own : visit.low = visit.number) (size : marks'.size = s.marks.size)
    (get : ∀ v : Nat,
      marks'[v]? = if v ∈ above ++ [visit.node] then some .settled else s.marks[v]?) :
    Sound adjacency { s with
      marks := marks'
      stack := below
      visits := outer
      found := (above ++ [visit.node]).mergeSort :: s.found } := by
  have kept : ∀ v ∈ below, marks'[v]? = s.marks[v]? :=
    fun v hv => by rw [get, if_neg (sound.apart stack v hv)]
  exact {
    size := size.trans sound.size
    stacked := by
      intro v
      have onto := sound.stacked v
      rw [stack, List.append_cons, List.mem_append] at onto
      rw [get]
      by_cases hv : v ∈ above ++ [visit.node]
      · simpa [hv] using mt (sound.apart stack v) (not_not_intro hv)
      · simpa [hv] using onto
    counted := by
      intro v number stacked
      rw [get] at stacked
      split at stacked
      · cases stacked
      · exact sound.counted v number stacked
    ordered := (stack ▸ sound.ordered).lower.mono kept
    layers := by
      refine rest.mono kept fun low w behind => ?_
      unfold Behind
      rw [get]
      split
      · exact .inl rfl
      · exact behind
    settled := by
      intro v
      rw [get]
      simp only [List.mem_cons, exists_eq_or_imp, List.mem_mergeSort, ← sound.settled]
      by_cases hv : v ∈ above ++ [visit.node] <;> simp [hv]
    emitted := .cons (sound.completes layer stack done own) sound.emitted }

end

section
variable {s : Search} {visit : Visit} {outer : List Visit}

theorem Sound.close (sound : Sound adjacency s) (visits : s.visits = visit :: outer)
    (done : visit.pending = []) (own : visit.low = visit.number) :
    ∃ s', Search.close { s with visits := report visit.low outer } visit.node = some s' ∧
      Sound adjacency s' ∧ Onward s.marks s'.marks := by
  obtain ⟨above, below, stack, layer, inner, rest⟩ := (visits ▸ sound.layers).split
  have order : Ordered s.marks (above ++ visit.node :: below) := stack ▸ sound.ordered
  have absent : visit.node ∉ above := by
    intro hmem
    exact Nat.lt_irrefl _ (order.above_gt layer.numbered hmem layer.numbered)
  have bound : ∀ v ∈ above ++ [visit.node], v < s.marks.size := by
    intro v hv
    have hv : v ∈ s.stack := by
      rw [stack, List.append_cons]
      exact List.mem_append_left _ hv
    obtain ⟨number, stacked⟩ := (sound.stacked v).mp hv
    exact (Array.getElem?_eq_some_iff.mp stacked).1
  obtain ⟨marks', marked, size, get⟩ := markAll?_spec .settled _ bound
  -- the visit around this one leads back further already
  have unchanged : report visit.low outer = outer :=
    report_eq_self (own ▸ rest.outer_low_le order layer.numbered)
  have closed := close_eq (s := { s with visits := report visit.low outer }) stack absent
  rw [marked, unchanged] at closed
  rw [unchanged]
  refine ⟨_, closed, sound.settle stack layer rest done own size get, ?_⟩
  intro v unseen
  rw [get] at unseen
  split at unseen
  · cases unseen
  · exact unseen

theorem Sound.leave (sound : Sound adjacency s) (visits : s.visits = visit :: outer)
    (done : visit.pending = []) :
    ∃ s', s.leave visit outer = some s' ∧ Sound adjacency s' ∧ Onward s.marks s'.marks := by
  by_cases own : visit.low = visit.number
  · obtain ⟨s', closed, sound', onward⟩ := sound.close visits done own
    exact ⟨s', by rw [Search.leave, if_pos own, closed], sound', onward⟩
  · refine ⟨{ s with visits := report visit.low outer }, by rw [Search.leave, if_neg own], ?_, ?_⟩
    · exact { sound with layers := (visits ▸ sound.layers).merge sound.ordered done own }
    · exact .refl s.marks

/-- **One step.** A search goes on until no visit is under way. -/
theorem Sound.step (sound : Sound adjacency s) (closed : adjacency.Closed)
    (visits : s.visits = visit :: outer) :
    ∃ s', s.step adjacency = some s' ∧ Sound adjacency s' ∧ Onward s.marks s'.marks := by
  have layers : Layers adjacency s.marks (visit :: outer) s.stack := visits ▸ sound.layers
  simp only [Search.step, visits]
  cases successors : visit.pending with
  | nil => exact sound.leave visits successors
  | cons next pending =>
    obtain ⟨above, below, stack, layer, -⟩ := layers.split
    have edge : adjacency.Edge visit.node next :=
      layer.pending next (successors ▸ List.mem_cons_self)
    have bound : next < s.marks.size := sound.size ▸ closed.edge_lt edge
    obtain ⟨mark, marked⟩ : ∃ mark, s.marks[next]? = some mark :=
      ⟨_, Array.getElem?_eq_getElem bound⟩
    simp only [marked]
    cases mark with
    | unseen =>
      have discovered := visits ▸ sound.discover marked
      have low_lt : visit.low < s.count := by
        obtain ⟨w, _, stacked, _⟩ := layer.low_reached
        exact sound.counted w _ stacked
      -- its number is the highest so far, so it lies behind the visit that found it
      have behind : Behind (s.marks.setIfInBounds next (.held s.count)) visit.low next := by
        refine .inr ⟨s.count, ?_, Nat.le_of_lt low_lt⟩
        exact Array.getElem?_setIfInBounds_self_of_lt bound
      have entered := sound.enter marked (discovered.look successors behind)
        (by rintro _ ⟨⟩; exact edge.reach)
      exact entered.imp fun s' h => ⟨h.1, h.2.1, h.2.2.1⟩
    | held number =>
      have hnext : next ∈ s.stack := (sound.stacked next).mpr ⟨number, marked⟩
      have back := layers.look_back sound.ordered successors hnext marked
      exact ⟨_, rfl, { sound with layers := back }, .refl s.marks⟩
    | settled =>
      have looked := layers.look successors (.inl marked)
      exact ⟨_, rfl, { sound with layers := looked }, .refl s.marks⟩

end

theorem sound_start (adjacency : Adjacency) : Sound adjacency (.start adjacency.size) where
  size := Array.size_replicate
  stacked v := by simp [Search.start, Array.getElem?_replicate]
  counted v number := by simp [Search.start, Array.getElem?_replicate]
  ordered := .nil
  layers := .nil
  settled v := by simp [Search.start, Array.getElem?_replicate]
  emitted := .nil

/-- **A run.** The visits under way all come to their end. -/
theorem Sound.run (closed : adjacency.Closed) {s : Search} (sound : Sound adjacency s) :
    ∃ s', s.run adjacency = some s' ∧ Sound adjacency s' ∧ s'.visits = [] ∧
      Onward s.marks s'.marks := by
  fun_induction Search.run adjacency s with
  | case1 s idle => exact ⟨s, rfl, sound, idle, .refl s.marks⟩
  | case2 s busy stuck =>
    obtain ⟨visit, outer, visits⟩ := List.exists_cons_of_ne_nil busy
    obtain ⟨s', stepped, -⟩ := sound.step closed visits
    rw [stuck] at stepped
    cases stepped
  | case3 s busy next stepped ih =>
    obtain ⟨visit, outer, visits⟩ := List.exists_cons_of_ne_nil busy
    obtain ⟨s₁, stepped', sound₁, onward₁⟩ := sound.step closed visits
    obtain rfl := Option.some.inj (stepped.symm.trans stepped')
    obtain ⟨s₂, ran, sound₂, idle, onward₂⟩ := ih sound₁
    exact ⟨s₂, ran, sound₂, idle, onward₁.trans onward₂⟩

theorem Sound.visit (closed : adjacency.Closed) {s : Search} (sound : Sound adjacency s)
    (idle : s.visits = []) {root : Nat} (bound : root < adjacency.size) :
    ∃ s', s.visit adjacency root = some s' ∧ Sound adjacency s' ∧ s'.visits = [] ∧
      Onward s.marks s'.marks ∧ s'.marks[root]? ≠ some .unseen := by
  obtain ⟨mark, marked⟩ : ∃ mark, s.marks[root]? = some mark :=
    ⟨_, Array.getElem?_eq_getElem (sound.size ▸ bound)⟩
  by_cases fresh : mark = .unseen
  · subst fresh
    obtain ⟨s₁, entered, sound₁, onward₁, seen⟩ :=
      sound.enter marked (sound.discover marked) (by simp [idle])
    obtain ⟨s₂, ran, sound₂, idle₂, onward₂⟩ := sound₁.run closed
    refine ⟨s₂, ?_, sound₂, idle₂, onward₁.trans onward₂, ?_⟩
    · have entered : s.enter adjacency root = some s₁ := entered
      simp only [Search.visit, marked, entered, Option.bind_some, ran]
    · exact fun unseen => seen (onward₂ root unseen)
  · refine ⟨s, ?_, sound, idle, .refl s.marks, by simp [marked, fresh]⟩
    cases mark with
    | unseen => contradiction
    | held number => simp only [Search.visit, marked]
    | settled => simp only [Search.visit, marked]

theorem Sound.visitAll (closed : adjacency.Closed) {s : Search} (sound : Sound adjacency s)
    (idle : s.visits = []) {roots : List Nat} (bound : ∀ root ∈ roots, root < adjacency.size) :
    ∃ s', roots.foldlM (Search.visit adjacency) s = some s' ∧ Sound adjacency s' ∧
      s'.visits = [] ∧ Onward s.marks s'.marks ∧ ∀ root ∈ roots, s'.marks[root]? ≠ some .unseen := by
  induction roots generalizing s with
  | nil => exact ⟨s, rfl, sound, idle, .refl s.marks, by simp⟩
  | cons root roots ih =>
    rw [List.forall_mem_cons] at bound
    obtain ⟨s₁, visited, sound₁, idle₁, onward₁, seen⟩ := sound.visit closed idle bound.1
    obtain ⟨s₂, all, sound₂, idle₂, onward₂, rest⟩ := ih sound₁ idle₁ bound.2
    refine ⟨s₂, ?_, sound₂, idle₂, onward₁.trans onward₂, ?_⟩
    · rw [List.foldlM_cons, visited]
      exact all
    · rw [List.forall_mem_cons]
      exact ⟨fun unseen => seen (onward₂ root unseen), rest⟩

/-- When every node has been seen and no visit is under way, every node is in a component. -/
theorem Sound.covered {s : Search} (sound : Sound adjacency s) (idle : s.visits = [])
    (seen : ∀ v < adjacency.size, s.marks[v]? ≠ some .unseen) :
    ∀ v, v < adjacency.size ↔ ∃ members ∈ s.found, v ∈ members := by
  have empty : s.stack = [] := (idle ▸ sound.layers).stack_eq_nil
  intro v
  rw [← sound.settled]
  constructor
  · intro bound
    obtain ⟨mark, marked⟩ : ∃ mark, s.marks[v]? = some mark :=
      ⟨_, Array.getElem?_eq_getElem (sound.size ▸ bound)⟩
    cases mark with
    | unseen => exact absurd marked (seen v bound)
    | held number =>
      have hv : v ∈ s.stack := (sound.stacked v).mpr ⟨number, marked⟩
      simp [empty] at hv
    | settled => exact marked
  · exact fun settled => sound.size ▸ (Array.getElem?_eq_some_iff.mp settled).1

/-- The search comes to its end, and what it has found then is the condensation. -/
theorem exists_search (closed : adjacency.Closed) :
    ∃ s, search adjacency = some s ∧ Condensation adjacency s.found.reverse := by
  obtain ⟨s, searched, sound, idle, -, seen⟩ :=
    (sound_start adjacency).visitAll closed rfl fun _ => List.mem_range.mp
  exact ⟨s, searched, sound.emitted.condensation (sound.covered idle (by simpa using seen))⟩

theorem components?_eq_some (closed : adjacency.Closed) :
    adjacency.components? = some adjacency.components := by
  obtain ⟨s, searched, -⟩ := exists_search closed
  rw [Adjacency.components, Adjacency.components?, searched]
  rfl

theorem condensation_components (closed : adjacency.Closed) :
    Condensation adjacency adjacency.components := by
  obtain ⟨s, searched, condensed⟩ := exists_search closed
  rw [Adjacency.components, Adjacency.components?, searched]
  exact condensed

/-- **Components.** Where every edge leads to a node that is there, the search comes to its end,
finds every node it asks for, and gives the components with sinks first. -/
theorem components_condense (adjacency : Adjacency) (closed : adjacency.Closed) :
    adjacency.components? = some adjacency.components ∧
      Condensation adjacency adjacency.components :=
  ⟨components?_eq_some closed, condensation_components closed⟩

/-- A cycle of two nodes with a repeated edge, and two nodes with an edge to themselves. -/
theorem components_condense_cycle :
    let adjacency : Adjacency := #[[1], [2, 2], [1, 3], [3], [0, 4, 2]]
    adjacency.Closed ∧ adjacency.components? = some adjacency.components ∧
      Condensation adjacency adjacency.components :=
  ⟨by decide, components_condense _ (by decide)⟩

end ModuleAtlas.Components
