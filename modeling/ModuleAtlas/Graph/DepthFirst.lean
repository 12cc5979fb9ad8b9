/-! What depth-first searches have in common: the marks of the nodes, the visits under way, and how
much is left to do. A step discovers a node, or it comes closer to the end of the visits under way.
No step makes a node that was seen an unseen one. -/

namespace ModuleAtlas.DepthFirst

/-- What is known of a node. A search that has begun with a node and may come back to it holds it
under a number, and a settled node is done with. -/
inductive Mark where
  | unseen
  | held (number : Nat)
  | settled
  deriving DecidableEq, Inhabited, Repr

section
variable {Visit : Type} {pending : Visit → List Nat} {visit visit' : Visit}

def unseen (marks : Array Mark) : Nat :=
  marks.countP (· = .unseen)

/-- How many steps the visits under way will take, those inside them apart. -/
def load (pending : Visit → List Nat) (visits : List Visit) : Nat :=
  visits.foldr (fun visit load => (pending visit).length + 1 + load) 0

/-- What a search has left to do. -/
def remaining (pending : Visit → List Nat) (marks : Array Mark) (visits : List Visit) : Nat × Nat :=
  (unseen marks, load pending visits)

theorem load_cons (visit : Visit) (outer : List Visit) :
    load pending (visit :: outer) = (pending visit).length + 1 + load pending outer :=
  rfl

theorem load_ended_lt (visit : Visit) (outer : List Visit) :
    load pending outer < load pending (visit :: outer) := by
  rw [load_cons]
  omega

theorem load_advanced_lt {next : Nat} (waits : pending visit = next :: pending visit')
    (outer : List Visit) : load pending (visit' :: outer) < load pending (visit :: outer) := by
  rw [load_cons, load_cons, waits, List.length_cons]
  omega

end

variable {marks marks' marks'' : Array Mark} {node : Nat} {mark : Mark}

theorem unseen_set_le (marks : Array Mark) (node : Nat) (seen : mark ≠ .unseen) :
    unseen (marks.setIfInBounds node mark) ≤ unseen marks := by
  rw [unseen, Array.setIfInBounds_def]
  split
  · rw [Array.countP_set]
    simp only [seen, decide_false, Bool.false_eq_true, ↓reduceIte, Nat.add_zero]
    exact Nat.sub_le _ _
  · exact Nat.le_refl _

theorem unseen_set_lt (fresh : marks[node]? = some .unseen) (seen : mark ≠ .unseen) :
    unseen (marks.setIfInBounds node mark) < unseen marks := by
  obtain ⟨bound, new⟩ := Array.getElem?_eq_some_iff.mp fresh
  have positive : 0 < unseen marks :=
    Array.countP_pos_iff.mpr ⟨.unseen, new ▸ Array.getElem_mem bound, by simp⟩
  rw [unseen, Array.setIfInBounds_def, dif_pos bound, Array.countP_set]
  simp only [new, seen, decide_true, decide_false, ↓reduceIte, Bool.false_eq_true, Nat.add_zero]
  exact Nat.sub_lt positive Nat.one_pos

/-- Nothing that is seen by the first marks is unseen by the others. -/
def Onward (marks marks' : Array Mark) : Prop :=
  ∀ v : Nat, marks'[v]? = some .unseen → marks[v]? = some .unseen

namespace Onward

theorem refl (marks : Array Mark) : Onward marks marks :=
  fun _ unseen => unseen

theorem trans (first : Onward marks marks') (second : Onward marks' marks'') :
    Onward marks marks'' :=
  fun v unseen => first v (second v unseen)

theorem set (marks : Array Mark) (node : Nat) (seen : mark ≠ .unseen) :
    Onward marks (marks.setIfInBounds node mark) := by
  intro v unseen
  rw [Array.getElem?_setIfInBounds] at unseen
  split at unseen
  · split at unseen
    · exact absurd (Option.some.inj unseen) seen
    · cases unseen
  · exact unseen

end Onward

end ModuleAtlas.DepthFirst
