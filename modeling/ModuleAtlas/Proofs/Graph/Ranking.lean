import Mathlib.Order.Bounds.Defs
import ModuleAtlas.Graph.Metrics
import ModuleAtlas.Proofs.Graph.Preference
import ModuleAtlas.Proofs.Sorting

/-!
# The most complex functions and methods

The ranking reads what the modules retain, and a module retains one definition of each name,
whatever its kind. A function is therefore ranked unless its name is taken in its module by a
definition of another kind, as by a class with a higher score. Of the functions and methods whose
names are not taken, in whichever files they are, none has a higher score than the first of the
ranking.
-/

namespace ModuleAtlas

namespace ComplexityEntry

/-- `a` has the higher score, or the same and a name that comes before that of `b`. -/
def Ahead (a b : ComplexityEntry) : Prop :=
  b.score < a.score ∨ a.score = b.score ∧
    (a.moduleName < b.moduleName ∨ a.moduleName = b.moduleName ∧ a.name < b.name)

theorem Ahead.score_le {a b : ComplexityEntry} (ahead : a.Ahead b) : b.score ≤ a.score := by
  rcases ahead with less | ⟨same, -⟩
  · exact UInt32.le_of_lt less
  · exact UInt32.le_of_eq same.symm

/-- The order behind `before`. -/
def order : ComplexityEntry → ComplexityEntry → Ordering :=
  compareLex
    (compareLex (compareLex (fun a b => compareOn score b a) (compareOn moduleName))
      (compareOn name))
    (compareOn file)

instance : Std.TransCmp order := by
  unfold order
  infer_instance

/-- Between entries with different names the file is not asked for. -/
theorem ahead_of_before {a b : ComplexityEntry} (first : before a b = true)
    (apart : a.moduleName = b.moduleName → a.name ≠ b.name) : a.Ahead b := by
  simp only [before, Ordering.isLE_then_iff_or, Ordering.then_eq_lt, Ordering.then_eq_eq,
    Std.compare_eq_lt, compare_lt_iff_lt, Std.compare_eq_iff_eq] at first
  rcases first with ((less | ⟨same, less⟩) | ⟨⟨same, same'⟩, less⟩) | ⟨⟨⟨-, same⟩, same'⟩, -⟩
  · exact .inl less
  · exact .inr ⟨same.symm, .inl less⟩
  · exact .inr ⟨same.symm, .inr ⟨same', less⟩⟩
  · exact absurd same' (apart same)

end ComplexityEntry

/-- The definition that the module retains under the name is a function or method. -/
def HeldByCallable (files : Table FileFacts) (name n : String) : Prop :=
  ∃ e, Chosen (fun d => d.name = n) files name e ∧ e.definition.kind.isCallable = true

/-- `score` is that of a function or method in one of the files, and its name is not taken in its
module by a definition of another kind. -/
def Ranked (files : Table FileFacts) (score : UInt32) : Prop :=
  ∃ name path facts, Belongs files name path facts ∧
    ∃ d ∈ facts.definitions, d.kind.isCallable = true ∧ HeldByCallable files name d.name ∧
      d.score = score

section
variable {files : Table FileFacts}

theorem Chosen.ranked {name n : String} {e : Entry}
    (chosen : Chosen (fun d => d.name = n) files name e)
    (callable : e.definition.kind.isCallable = true) : Ranked files e.score := by
  obtain ⟨facts, belongs, -, foremost⟩ := chosen.foremost
  obtain ⟨member, named⟩ := foremost.mem
  obtain rfl : e.definition.name = n := of_decide_eq_true named
  exact ⟨name, e.file, facts, belongs, e.definition, member, callable, ⟨e, chosen, callable⟩, rfl⟩

/-- A retained definition stands for all that it is preferred to. -/
theorem Ranked.exists_chosen {score : UInt32} (ranked : Ranked files score) :
    ∃ name n e, Chosen (fun d => d.name = n) files name e ∧
      e.definition.kind.isCallable = true ∧ score ≤ e.score := by
  obtain ⟨name, path, facts, belongs, d, member, -, ⟨e, chosen, callable⟩, rfl⟩ := ranked
  have rank : d.rank ≤ e.definition.rank := chosen.rank_le belongs member (decide_eq_true rfl)
  exact ⟨name, d.name, e, chosen, callable, Definition.score_le_of_rank_le rank⟩

end

namespace Graph

section
variable {g : Graph} {entry : ComplexityEntry}

/-- All callables, in the order of the ranking. -/
def ranking (g : Graph) : List ComplexityEntry :=
  g.callables.mergeSort ComplexityEntry.before

theorem callables_eq (g : Graph) :
    g.callables = (g.retained.filter fun e => e.definition.kind.isCallable).map .ofEntry :=
  rfl

theorem mem_ranking_iff :
    entry ∈ g.ranking ↔
      ∃ e ∈ g.retained, e.definition.kind.isCallable = true ∧ entry = .ofEntry e := by
  rw [ranking, List.mem_mergeSort, callables_eq, List.mem_map]
  constructor
  · rintro ⟨e, listed, rfl⟩
    obtain ⟨kept, callable⟩ := List.mem_filter.mp listed
    exact ⟨e, kept, callable, rfl⟩
  · rintro ⟨e, kept, callable, rfl⟩
    exact ⟨e, List.mem_filter.mpr ⟨kept, callable⟩, rfl⟩

/-- No two callables have the same module and name. -/
theorem Derived.callables_apart (h : Derived g) :
    g.callables.Pairwise fun a b => a.moduleName = b.moduleName → a.name ≠ b.name := by
  rw [callables_eq, List.pairwise_map]
  apply (h.retained_ascend.filter _).imp
  intro a b before same
  rcases before with less | ⟨-, less⟩
  · exact absurd same less.ne
  · exact less.ne

theorem Derived.ranking_descends (h : Derived g) :
    g.ranking.Pairwise ComplexityEntry.Ahead := by
  have sorted : g.ranking.Pairwise fun a b => ComplexityEntry.before a b = true :=
    Sorting.pairwise_mergeSort ComplexityEntry.order g.callables
  have apart : g.ranking.Pairwise fun a b => a.moduleName = b.moduleName → a.name ≠ b.name := by
    apply (List.mergeSort_perm g.callables _).symm.pairwise h.callables_apart
    intro a b apart same
    exact (apart same.symm).symm
  exact (sorted.and apart).imp fun both => ComplexityEntry.ahead_of_before both.1 both.2

/-- What is not among the first is behind all of them, and there are as many as may be. -/
theorem Derived.mem_topComplexity_or (h : Derived g) (listed : entry ∈ g.ranking) (n : Nat) :
    entry ∈ g.topComplexity n ∨
      (g.topComplexity n).length = n ∧ ∀ first ∈ g.topComplexity n, first.Ahead entry := by
  have parted : g.topComplexity n ++ g.ranking.drop n = g.ranking := List.take_append_drop ..
  have descends := h.ranking_descends
  rw [← parted] at descends listed
  rcases List.mem_append.mp listed with among | behind
  · exact .inl among
  · right
    constructor
    · have less : n < g.ranking.length := by
        by_contra all
        rw [List.drop_of_length_le (by omega)] at behind
        exact absurd behind List.not_mem_nil
      exact List.length_take_of_le less.le
    · intro first among
      exact (List.pairwise_append.mp descends).2.2 first among entry behind

end

section
variable {g : Graph} {files : Table FileFacts}

theorem Derived.mem_ranking_of_chosen (h : Derived g)
    (tracked : g.files = files.map fun _ f => f.contribution) {name n : String} {e : Entry}
    (chosen : Chosen (fun d => d.name = n) files name e)
    (callable : e.definition.kind.isCallable = true) : .ofEntry e ∈ g.ranking := by
  obtain ⟨_, -, -, foremost⟩ := chosen.foremost
  obtain rfl : e.definition.name = n := of_decide_eq_true foremost.mem.2
  obtain rfl := chosen.named
  exact mem_ranking_iff.mpr ⟨e, (h.mem_retained_iff_chosen tracked).mpr chosen, callable, rfl⟩

theorem Derived.exists_chosen_of_mem_ranking (h : Derived g)
    (tracked : g.files = files.map fun _ f => f.contribution) {entry : ComplexityEntry}
    (listed : entry ∈ g.ranking) :
    ∃ e, entry = .ofEntry e ∧ e.definition.kind.isCallable = true ∧
      Chosen (fun d => d.name = entry.name) files entry.moduleName e := by
  obtain ⟨e, kept, callable, rfl⟩ := mem_ranking_iff.mp listed
  exact ⟨e, rfl, callable, (h.mem_retained_iff_chosen tracked).mp kept⟩

/-- Nothing that is ranked has a higher score than the first. -/
theorem Derived.isGreatest_head (h : Derived g)
    (tracked : g.files = files.map fun _ f => f.contribution) {n : Nat} {first : ComplexityEntry}
    {rest : List ComplexityEntry} (top : g.topComplexity n = first :: rest) :
    IsGreatest {score | Ranked files score} first.score := by
  have leads : first ∈ g.topComplexity n := top ▸ List.mem_cons_self
  constructor
  · obtain ⟨e, rfl, callable, chosen⟩ :=
      h.exists_chosen_of_mem_ranking tracked (List.mem_of_mem_take leads)
    exact chosen.ranked callable
  · intro score ranked
    obtain ⟨name, m, e, chosen, callable, least⟩ := ranked.exists_chosen
    have most : e.score ≤ first.score := by
      have listed := h.mem_ranking_of_chosen tracked chosen callable
      rcases h.mem_topComplexity_or listed n with among | ⟨-, behind⟩
      · rw [top] at among
        rcases List.mem_cons.mp among with same | later
        · exact UInt32.le_of_eq (congrArg ComplexityEntry.score same)
        · have descends : (g.topComplexity n).Pairwise ComplexityEntry.Ahead :=
            h.ranking_descends.take
          rw [top] at descends
          exact ((List.pairwise_cons.mp descends).1 _ later).score_le
      · exact (behind first leads).score_le
    exact UInt32.le_trans least most

end

/-- **The ranking.** After any history, the first `n` are in order, each of them is the definition
that a module retains, and a function or method that a module retains and that is not among them
comes behind all of the `n`. More are a continuation of fewer. If there is a function or method in
any file whose name is not taken by a definition of another kind, then the first of the ranking has
the greatest score that these have. -/
theorem ranking_has_the_worst_first (capacity : Nat) (history : List Edit) (n : Nat) :
    let g := replay capacity history
    let files := survivors history
    (g.topComplexity n).Pairwise ComplexityEntry.Ahead ∧
    g.topComplexity n <+: g.topComplexity (n + 1) ∧
    (∀ entry ∈ g.topComplexity n, ∃ e, entry = .ofEntry e ∧
      e.definition.kind.isCallable = true ∧
      Chosen (fun d => d.name = entry.name) files entry.moduleName e) ∧
    (∀ name m e, Chosen (fun d => d.name = m) files name e →
      e.definition.kind.isCallable = true →
      .ofEntry e ∈ g.topComplexity n ∨ (g.topComplexity n).length = n ∧
        ∀ entry ∈ g.topComplexity n, entry.Ahead (.ofEntry e)) ∧
    (0 < n → (∃ score, Ranked files score) →
      ∃ first rest, g.topComplexity n = first :: rest ∧
        IsGreatest {score | Ranked files score} first.score) := by
  intro g files
  obtain ⟨derived, tracked⟩ : Derived g ∧ g.files = files.map fun _ f => f.contribution :=
    replay_derived capacity history
  refine ⟨derived.ranking_descends.take, List.take_prefix_take_left (Nat.le_succ n), ?_, ?_, ?_⟩
  · intro entry among
    exact derived.exists_chosen_of_mem_ranking tracked (List.mem_of_mem_take among)
  · intro name m e chosen callable
    exact derived.mem_topComplexity_or (derived.mem_ranking_of_chosen tracked chosen callable) n
  · rintro positive ⟨score, ranked⟩
    obtain ⟨name, m, e, chosen, callable, -⟩ := ranked.exists_chosen
    cases top : g.topComplexity n with
    | nil =>
      have listed := derived.mem_ranking_of_chosen tracked chosen callable
      rcases derived.mem_topComplexity_or listed n with among | ⟨full, -⟩
      · exact absurd among (top ▸ List.not_mem_nil)
      · rw [top, List.length_nil] at full
        omega
    | cons first rest => exact ⟨first, rest, rfl, derived.isGreatest_head tracked top⟩

/-- A class takes the name of the function with the highest score. The first of the ranking is then
the greatest of the others, one of two with the same name. -/
theorem ranking_has_the_worst_first_taken :
    let make (name : String) (kind : DefinitionKind) (score : UInt32) : Definition :=
      { name, kind, complexity := { score := some score } }
    let a : FileFacts :=
      { path := "a", moduleField := "m"
        definitions := [make "job" .classType 9, make "run" .function 2] }
    let b : FileFacts :=
      { path := "b", moduleField := "m"
        definitions := [make "job" .function 5, make "run" .method 3] }
    let history := [Edit.add a, .add b]
    (∃ score, Ranked (survivors history) score) ∧
      (∃ rest, (replay 1 history).topComplexity 1 = ⟨"m", "run", "b", .method, 3⟩ :: rest) ∧
      IsGreatest {score | Ranked (survivors history) score} 3 := by
  intro make a b history
  have callables : (replay 1 history).callables = [⟨"m", "run", "b", .method, 3⟩] := by
    decide +kernel
  have alone {entry : ComplexityEntry} :
      entry ∈ (replay 1 history).ranking ↔ entry = ⟨"m", "run", "b", .method, 3⟩ := by
    rw [ranking, List.mem_mergeSort, callables, List.mem_singleton]
  have ranked : ∃ score, Ranked (survivors history) score := by
    obtain ⟨derived, tracked⟩ := replay_derived 1 history
    obtain ⟨e, -, callable, chosen⟩ := derived.exists_chosen_of_mem_ranking tracked (alone.mpr rfl)
    exact ⟨e.score, chosen.ranked callable⟩
  obtain ⟨-, -, -, -, worst⟩ := ranking_has_the_worst_first 1 history 1
  obtain ⟨first, rest, top, greatest⟩ := worst Nat.one_pos ranked
  have leads : first ∈ (replay 1 history).topComplexity 1 := top ▸ List.mem_cons_self
  obtain rfl := alone.mp (List.mem_of_mem_take leads)
  exact ⟨ranked, ⟨rest, top⟩, greatest⟩

/-- With no other function in any file, the ranking is empty. -/
theorem function_with_taken_name_is_not_ranked :
    let make (kind : DefinitionKind) (score : UInt32) : Definition :=
      { name := "job", kind, complexity := { score := some score } }
    let a : FileFacts := { path := "a", moduleField := "m", definitions := [make .classType 9] }
    let b : FileFacts := { path := "b", moduleField := "m", definitions := [make .function 5] }
    let history := [Edit.add a, .add b]
    (survivors history)["b"]? = some b ∧ make .function 5 ∈ b.definitions ∧
      DefinitionKind.function.isCallable = true ∧ ∀ n, (replay 1 history).topComplexity n = [] := by
  intro make a b history
  have callables : (replay 1 history).callables = [] := by decide +kernel
  refine ⟨by decide, List.mem_singleton_self _, rfl, fun n => ?_⟩
  rw [topComplexity, callables, List.mergeSort_nil, List.take_nil]

end Graph

end ModuleAtlas
