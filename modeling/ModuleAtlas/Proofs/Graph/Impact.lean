import ModuleAtlas.Proofs.Graph.Chain
import Mathlib.Order.WellFounded

/-!
# Who is affected by a change

A report on a module divides those that lead to it by the length of their shortest chains: a direct
importer has one of a single import, and a transitive one has none that short. The module itself is
on neither side, also where a chain leads from it back to it.
-/

namespace ModuleAtlas

open Relation (ReflTransGen)
open Std (ExtTreeMap ExtTreeSet)

/-! ## Shortest routes -/

section
variable {α : Type} {edge : α → α → Prop} {source target : α} {route : List α}

theorem Route.reach (h : Route edge source target route) : ReflTransGen edge source target := by
  obtain ⟨rest, rfl⟩ := List.head?_eq_some_iff.mp h.first
  refine List.relationReflTransGen_of_exists_isChain_cons rest h.steps ?_
  exact Option.some.inj ((List.getLast?_eq_getLast_of_ne_nil _).symm.trans h.last)

theorem Route.exists_of_reach (path : ReflTransGen edge source target) :
    ∃ route, Route edge source target route := by
  induction path with
  | refl => exact ⟨[source], .single source⟩
  | tail _ step ih =>
    obtain ⟨route, way⟩ := ih
    exact ⟨_, way.concat step⟩

theorem Shortest.exists_of_reach (path : ReflTransGen edge source target) :
    ∃ route, Shortest edge source target route := by
  obtain ⟨route, way, least⟩ := (measure List.length).wf.has_min
    {route | Route edge source target route} (Route.exists_of_reach path)
  exact ⟨route, way, fun other way' => Nat.le_of_not_lt (least other way')⟩

/-- The shortest route to another node is longer than one step unless there is an edge. -/
theorem Shortest.two_lt_length_iff (h : Shortest edge source target route)
    (differ : source ≠ target) : 2 < route.length ↔ ¬ edge source target := by
  constructor
  · intro long step
    have direct : Route edge source target [source, target] := (Route.single source).concat step
    have := h.least _ direct
    simp only [List.length_cons, List.length_nil] at this
    omega
  · intro apart
    by_contra short
    obtain ⟨first, last, steps⟩ := h.way
    match route, short with
    | [], _ => simp at first
    | [a], _ =>
      obtain rfl : a = source := Option.some.inj first
      exact differ (Option.some.inj last)
    | [a, b], _ =>
      obtain rfl : a = source := Option.some.inj first
      obtain rfl : b = target := Option.some.inj last
      exact apart (List.isChain_cons_cons.mp steps).1
    | a :: b :: c :: rest, short => simp at short

end

namespace Graph

variable {g : Graph}

/-! ## The module that a name stands for -/

/-- A tracked path stands for its module, any other name for itself. -/
def moduleFor (g : Graph) (target : String) : String :=
  (g.moduleOf? target).getD target

theorem Derived.resolveTarget?_eq_none (h : Derived g) {target : String}
    (missing : g.moduleFor target ∉ g.modules) : g.resolveTarget? target = none := by
  unfold moduleFor at missing
  unfold resolveTarget?
  cases tracked : g.moduleOf? target with
  | some name =>
    rw [tracked] at missing
    exact absurd (h.moduleOf?_live tracked) missing
  | none =>
    rw [tracked, Option.getD_none, ExtTreeMap.mem_iff_isSome_getElem?, Option.not_isSome_iff_eq_none]
      at missing
    simp [missing]

theorem Derived.exists_resolveTarget? (h : Derived g) {target : String}
    (live : g.moduleFor target ∈ g.modules) :
    ∃ file, g.resolveTarget? target = some (g.moduleFor target, file) := by
  unfold moduleFor at live ⊢
  unfold resolveTarget?
  cases tracked : g.moduleOf? target with
  | some name => exact ⟨target, rfl⟩
  | none =>
    rw [tracked] at live
    obtain ⟨node, held⟩ := Table.mem_iff_exists.mp live
    rw [Option.getD_none] at held
    -- A module has files, so it has a first one.
    have filled : node.files.min? ≠ none := by
      rw [Ne, ExtTreeSet.min?_eq_none_iff, ← ExtTreeSet.isEmpty_eq_false_iff]
      exact h.has_files held
    obtain ⟨file, first⟩ := Option.ne_none_iff_exists'.mp filled
    exact ⟨file, by simp [held, first]⟩

theorem Derived.moduleFor_live_iff (h : Derived g) (target : String) :
    g.moduleFor target ∈ g.modules ↔ g.moduleOf? target ≠ none ∨ target ∈ g.modules := by
  unfold moduleFor
  cases tracked : g.moduleOf? target with
  | some name => simpa using h.moduleOf?_live tracked
  | none => simp

/-! ## Those that lead to a module -/

theorem Derived.not_link_self (h : Derived g) (name : String) : ¬ g.Link name name := by
  rintro ⟨-, node, held, imported⟩
  exact h.not_mem_own_imports held imported

theorem importersOf_ascend (g : Graph) (name : String) :
    (g.importersOf name).Pairwise (· < ·) := by
  unfold importersOf
  split
  · exact ExtTreeSet.ordered_toList.imp fun less => compare_lt_iff_lt.mp less
  · exact .nil

/-- The modules other than a module that lead to it. -/
def reached (g : Graph) (name : String) : Names :=
  (g.dependents name).erase name

theorem Derived.mem_reached_iff (h : Derived g) {name importer : String} :
    importer ∈ g.reached name ↔ importer ≠ name ∧ ReflTransGen g.Link importer name := by
  rw [reached, ExtTreeSet.mem_erase, h.mem_dependents_iff, Ne, compare_eq_iff_eq]
  exact and_congr_left' ne_comm

/-- Those of them that do not import it themselves. -/
def farther (g : Graph) (name : String) : List String :=
  (g.reached name).toList.filter fun importer => importer ∉ g.importersOf name

theorem farther_ascend (g : Graph) (name : String) : (g.farther name).Pairwise (· < ·) :=
  (ExtTreeSet.ordered_toList.imp fun less => compare_lt_iff_lt.mp less).filter _

theorem Derived.mem_farther_iff (h : Derived g) {name importer : String} :
    importer ∈ g.farther name ↔
      importer ≠ name ∧ ReflTransGen g.Link importer name ∧ ¬ g.Link importer name := by
  rw [farther, List.mem_filter, ExtTreeSet.mem_toList, h.mem_reached_iff, decide_eq_true_iff,
    h.mem_importersOf, and_assoc]

/-- No chain of one import leads from there to the module. -/
theorem Derived.mem_farther_iff_shortest (h : Derived g) {name importer : String} :
    importer ∈ g.farther name ↔
      importer ≠ name ∧ ∃ chain, Shortest g.Link importer name chain ∧ 2 < chain.length := by
  rw [h.mem_farther_iff]
  refine and_congr_right fun other => ⟨?_, ?_⟩
  · rintro ⟨path, apart⟩
    obtain ⟨chain, short⟩ := Shortest.exists_of_reach path
    exact ⟨chain, short, (short.two_lt_length_iff other).mpr apart⟩
  · rintro ⟨chain, short, long⟩
    exact ⟨short.way.reach, (short.two_lt_length_iff other).mp long⟩

theorem Derived.mem_importersOf_or_farther_iff (h : Derived g) {name importer : String} :
    importer ∈ g.importersOf name ∨ importer ∈ g.farther name ↔ importer ∈ g.reached name := by
  rw [h.mem_importersOf, h.mem_farther_iff, h.mem_reached_iff]
  constructor
  · rintro (link | ⟨other, path, -⟩)
    · refine ⟨?_, .single link⟩
      rintro rfl
      exact h.not_link_self importer link
    · exact ⟨other, path⟩
  · rintro ⟨other, path⟩
    by_cases link : g.Link importer name
    · exact .inl link
    · exact .inr ⟨other, path, link⟩

theorem Derived.reached_isEmpty_iff (h : Derived g) {name : String} :
    (g.reached name).isEmpty = true ↔ g.importersOf name = [] ∧ g.farther name = [] := by
  simp only [ExtTreeSet.isEmpty_iff, ExtTreeSet.eq_empty_iff_forall_not_mem,
    List.eq_nil_iff_forall_not_mem, ← forall_and, ← not_or, h.mem_importersOf_or_farther_iff]

/-! ## Reports -/

/-- What a report says of its module: who imports it, who else leads to it and by which chains, and
what it exports. -/
structure Separates (g : Graph) (report : ImpactReport) : Prop where
  direct_ascend : report.direct.Pairwise (· < ·)
  direct_iff : ∀ name, name ∈ report.direct ↔ g.Link name report.moduleName
  transitive_ascend : report.transitive.Pairwise (· < ·)
  transitive_iff : ∀ name, name ∈ report.transitive ↔ name ≠ report.moduleName ∧
    ∃ chain, Shortest g.Link name report.moduleName chain ∧ 2 < chain.length
  disjoint : report.direct.Disjoint report.transitive
  own : report.moduleName ∉ report.direct ∧ report.moduleName ∉ report.transitive
  together : ∀ name, name ∈ report.direct ∨ name ∈ report.transitive ↔
    name ≠ report.moduleName ∧ ReflTransGen g.Link name report.moduleName
  exported_ascend : report.exported.Pairwise (· < ·)
  exported_iff : ∃ node, g.modules[report.moduleName]? = some node ∧
    ∀ name, name ∈ report.exported ↔ name ∈ node.exports
  used : report.used = if report.direct = [] ∧ report.transitive = [] then [] else report.exported

/-- The report on a module and the name that stands for it. -/
def reportOn (g : Graph) (target name file : String) (node : ModuleNode) : ImpactReport where
  target := target
  moduleName := name
  file := file
  direct := g.importersOf name
  transitive := g.farther name
  exported := node.exports.keys
  used := if (g.reached name).isEmpty then [] else node.exports.keys

theorem impact?_eq {target name file : String} {node : ModuleNode}
    (resolved : g.resolveTarget? target = some (name, file))
    (held : g.modules[name]? = some node) :
    g.impact? target = some (g.reportOn target name file node) := by
  simp only [impact?, resolved, Option.bind_eq_bind, Option.bind_some, held]
  rfl

theorem Derived.separates (h : Derived g) (target file : String) {name : String}
    {node : ModuleNode} (held : g.modules[name]? = some node) :
    g.Separates (g.reportOn target name file node) where
  direct_ascend := g.importersOf_ascend name
  direct_iff _ := h.mem_importersOf
  transitive_ascend := g.farther_ascend name
  transitive_iff _ := h.mem_farther_iff_shortest
  disjoint _ near far := (h.mem_farther_iff.mp far).2.2 (h.mem_importersOf.mp near)
  own := ⟨fun near => h.not_link_self name (h.mem_importersOf.mp near),
    fun far => (h.mem_farther_iff.mp far).1 rfl⟩
  together _ := h.mem_importersOf_or_farther_iff.trans h.mem_reached_iff
  exported_ascend := ExtTreeMap.ordered_keys.imp fun less => compare_lt_iff_lt.mp less
  exported_iff := ⟨node, held, fun _ => ExtTreeMap.mem_keys⟩
  used := if_congr h.reached_isEmpty_iff rfl rfl

/-- **Impact.** There is no report if and only if the name is neither a tracked path nor a module. A
tracked path stands for its module, also where it is the name of another one. Direct importers and
transitive ones are listed in ascending order, apart from each other and without the module, together
they are all other modules that lead to it, and the transitive ones are those whose shortest chain has
two imports or more. What it exports counts as used if there are any. -/
theorem impact_divides_importers (h : Reachable g) (target : String) :
    (g.impact? target = none ↔ g.moduleOf? target = none ∧ target ∉ g.modules) ∧
    ∀ report, g.impact? target = some report →
      report.moduleName = (g.moduleOf? target).getD target ∧ g.Separates report := by
  have derived := h.derived
  by_cases live : g.moduleFor target ∈ g.modules
  · obtain ⟨file, resolved⟩ := derived.exists_resolveTarget? live
    obtain ⟨node, held⟩ := Table.mem_iff_exists.mp live
    rw [impact?_eq resolved held]
    refine ⟨⟨by simp, fun ⟨untracked, dead⟩ => ?_⟩, fun report same => ?_⟩
    · rcases (derived.moduleFor_live_iff target).mp live with tracked | known
      · exact absurd untracked tracked
      · exact absurd known dead
    · obtain rfl := Option.some.inj same
      exact ⟨rfl, derived.separates target file held⟩
  · have none : g.impact? target = none := by
      simp [impact?, derived.resolveTarget?_eq_none live]
    rw [derived.moduleFor_live_iff, not_or, not_not] at live
    rw [none]
    exact ⟨⟨fun _ => live, fun _ => rfl⟩, by simp⟩

/-- The module `m` is on a cycle with `n`, which imports it; `o` imports it both directly and through
`n`, and `p` only through `o`. The path of its file is the name of another module. -/
theorem impact_divides_importers_cycle :
    let run : Definition := { name := "run", kind := .function, exported := true }
    let a : FileFacts :=
      { path := "q", moduleField := "m", imports := [.plain "n"], definitions := [run] }
    let b : FileFacts := { path := "b", moduleField := "n", imports := [.plain "m"] }
    let c : FileFacts := { path := "c", moduleField := "o", imports := [.plain "n", .plain "m"] }
    let d : FileFacts := { path := "d", moduleField := "p", imports := [.plain "o"] }
    let e : FileFacts := { path := "e", moduleField := "q" }
    let g := (Graph.empty 1).addAll [d, a, e, c, b]
    "q" ∈ g.modules ∧ g.impact? "x" = none ∧
      ∃ report, g.impact? "q" = some report ∧ report.moduleName = "m" ∧
        report.direct = ["n", "o"] ∧ report.transitive = ["p"] ∧ report.used = ["run"] ∧
        ∃ chain, Shortest g.Link "p" "m" chain ∧ 2 < chain.length := by
  intro run a b c d e g
  have reached : Reachable g := .add b (.add c (.add e (.add a (.add d (.start 1)))))
  have made : g.impact? "q" = some ⟨"q", "m", "q", ["n", "o"], ["p"], ["run"], ["run"]⟩ := by
    decide +kernel
  obtain ⟨named, separates⟩ := (impact_divides_importers reached "q").2 _ made
  have missing := (impact_divides_importers reached "x").1.mpr (by decide +kernel)
  exact ⟨by decide +kernel, missing, _, made, rfl, rfl, rfl, rfl,
    ((separates.transitive_iff "p").mp (List.mem_singleton_self "p")).2⟩

end Graph

end ModuleAtlas
