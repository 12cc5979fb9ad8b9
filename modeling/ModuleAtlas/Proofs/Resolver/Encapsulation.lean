import ModuleAtlas.Proofs.Graph.Preference
import ModuleAtlas.Proofs.Resolver.Stages

/-!
# Private definitions stay private

Two graphs may hold different definitions in the files of one module. As long as these files export
the same names, no name in a file of another module is qualified in one graph and not in the other.
-/

namespace ModuleAtlas

open ModuleAtlas.Graph (Edit replay survivors)
open Std (ExtTreeMap)

def FileFacts.exportedNames (facts : FileFacts) : List String :=
  (facts.definitions.filter (·.exported)).map (·.name)

/-- What two graphs hold under one path: nothing, or the same facts, or facts of a file of the module
`name` that differ in their definitions and export the same names. -/
inductive SameFacade (name : String) : Option FileFacts → Option FileFacts → Prop where
  | absent : SameFacade name none none
  | same (facts : FileFacts) : SameFacade name (some facts) (some facts)
  | redefined (facts : FileFacts) (definitions : List Definition) (own : facts.moduleName = name)
      (exported : ∀ n, n ∈ facts.exportedNames ↔
        n ∈ { facts with definitions : FileFacts }.exportedNames) :
      SameFacade name (some facts) (some { facts with definitions })

namespace SameFacade

variable {name home path n : String} {held held' : Option FileFacts} {facts : FileFacts}

theorem symm (h : SameFacade name held held') : SameFacade name held' held := by
  cases h with
  | absent => exact .absent
  | same facts => exact .same facts
  | redefined facts definitions own exported =>
    exact .redefined { facts with definitions } facts.definitions own fun n => (exported n).symm

/-- A file stays in its module, and exports what it exported. -/
theorem exists_facts (h : SameFacade name (some facts) held') :
    ∃ facts', held' = some facts' ∧ facts'.moduleName = facts.moduleName ∧
      ∀ n, n ∈ facts.exportedNames → n ∈ facts'.exportedNames := by
  cases h with
  | same => exact ⟨facts, rfl, rfl, fun _ => id⟩
  | redefined _ definitions own exported =>
    exact ⟨{ facts with definitions }, rfl, rfl, fun n => (exported n).mp⟩

/-- A file of another module is the same file. -/
theorem eq_of_outside (h : SameFacade name (some facts) held') (outside : facts.moduleName ≠ name) :
    held' = some facts := by
  cases h with
  | same => rfl
  | redefined _ definitions own exported => exact absurd own outside

end SameFacade

theorem FileFacts.mem_exportedNames {facts : FileFacts} {n : String} :
    n ∈ facts.exportedNames ↔ ∃ d ∈ facts.definitions, d.exported = true ∧ d.name = n := by
  simp [exportedNames, and_assoc]

/-! ## Graphs behind one facade -/

section
variable {g g' : Graph} {files files' : Table FileFacts} {name home n : String}
  {node node' : ModuleNode} (h : g.Derived)
  (tracked : g.files = files.map fun _ f => f.contribution) (h' : g'.Derived)
  (tracked' : g'.files = files'.map fun _ f => f.contribution)
  (facade : ∀ path : String, SameFacade name files[path]? files'[path]?)
include h tracked h' tracked' facade

theorem live_of_facade (live : home ∈ g.modules) : home ∈ g'.modules := by
  obtain ⟨path, facts, held, own⟩ := (h.live_iff_belongs tracked).mp live
  obtain ⟨facts', held', stays, -⟩ := (held ▸ facade path).exists_facts
  exact (h'.live_iff_belongs tracked').mpr ⟨path, facts', held', stays.trans own⟩

theorem export_of_facade (held : g.modules[home]? = some node)
    (held' : g'.modules[home]? = some node') (exported : n ∈ node.exports) : n ∈ node'.exports := by
  obtain ⟨path, facts, ⟨tracked_at, own⟩, given⟩ := (h.mem_exports_iff tracked held).mp exported
  obtain ⟨facts', tracked_at', stays, keeps⟩ := (tracked_at ▸ facade path).exists_facts
  refine (h'.mem_exports_iff tracked' held').mpr ⟨path, facts', ⟨tracked_at', stays.trans own⟩, ?_⟩
  exact FileFacts.mem_exportedNames.mp (keeps n (FileFacts.mem_exportedNames.mpr given))

theorem definition_of_facade (outside : home ≠ name) (held : g.modules[home]? = some node)
    (held' : g'.modules[home]? = some node') (defined : n ∈ node.definitions) :
    n ∈ node'.definitions := by
  obtain ⟨path, facts, ⟨tracked_at, own⟩, given⟩ := (h.mem_definitions_iff tracked held).mp defined
  have tracked_at' := (tracked_at ▸ facade path).eq_of_outside (own ▸ outside)
  exact (h'.mem_definitions_iff tracked' held').mpr ⟨path, facts, ⟨tracked_at', own⟩, given⟩

/-- Behind one facade, graphs look alike from outside the module. -/
theorem lookAlike_of_facade (outside : home ≠ name) :
    Resolver.LookAlike home g.modules g'.modules := by
  have facade' (path : String) := (facade path).symm
  refine ⟨fun other => ?_, fun other node node' held held' n => ?_, fun node node' held held' n => ?_⟩
  · exact ⟨live_of_facade h tracked h' tracked' facade, live_of_facade h' tracked' h tracked facade'⟩
  · exact ⟨export_of_facade h tracked h' tracked' facade held held',
      export_of_facade h' tracked' h tracked facade' held' held⟩
  · exact ⟨definition_of_facade h tracked h' tracked' facade outside held held',
      definition_of_facade h' tracked' h tracked facade' outside held' held⟩

end

/-- **Encapsulation.** Of two graphs that differ only in what the files of one module define and do
not export, the resolvers agree on whether a name in a file of another module is qualified, or both
refuse the settings. -/
theorem private_definitions_stay_private {s s' : Session} {capacity capacity' : Nat}
    {history history' : List Edit} (made : s.graph = replay capacity history)
    (made' : s'.graph = replay capacity' history') {name : String}
    (facade : ∀ path : String, SameFacade name (survivors history)[path]? (survivors history')[path]?)
    (settings : Option Settings) {file : FileFacts} (outside : file.moduleName ≠ name)
    (reference : Reference) :
    (s.resolver settings).map (fun resolver =>
      decide (resolver.resolve file reference = .qualified)) =
    (s'.resolver settings).map fun resolver =>
      decide (resolver.resolve file reference = .qualified) := by
  obtain ⟨derived, tracked⟩ := Graph.replay_derived capacity history
  obtain ⟨derived', tracked'⟩ := Graph.replay_derived capacity' history'
  have alike : Resolver.LookAlike file.moduleName s.graph.modules s'.graph.modules := by
    rw [made, made']
    exact lookAlike_of_facade derived tracked derived' tracked' facade outside
  apply Session.resolver_map_eq
  intro bridges excluded settings
  let resolver (s : Session) : Resolver :=
    { Resolver.ofSnapshot (Session.ask.snapshot s).1 with bridges, excluded, settings }
  have agree : (resolver s).resolve file reference = .qualified ↔
      (resolver s').resolve file reference = .qualified := by
    apply Resolver.LookAlike.resolve_eq_qualified_iff
    · exact alike
    · rfl
    · rfl
  exact decide_eq_decide.mpr agree

/-- A module trades one private definition for another. A file that imports it sees what it exports
and neither of the two. -/
theorem private_definitions_stay_private_traded :
    let run : Definition := { name := "run", kind := .function, exported := true }
    let core (hidden : String) : FileFacts :=
      { path := "core", moduleField := "core"
        definitions := [run, { name := hidden, kind := .function }] }
    let app : FileFacts := { path := "app", moduleField := "app", imports := [.plain "core"] }
    let session (hidden : String) : Session :=
      { graph := replay 2 [.add app, .add (core hidden)] }
    let seen (s : Session) (name : String) :=
      (s.resolver none).map fun resolver => decide (resolver.resolve app { name } = .qualified)
    (∀ name, seen (session "helper") name = seen (session "other") name) ∧
      seen (session "helper") "core.run" = .ok true ∧
      seen (session "helper") "core.helper" = .ok false := by
  intro run core app session seen
  have facade (path : String) : SameFacade "core"
      (survivors [.add app, .add (core "helper")])[path]?
      (survivors [.add app, .add (core "other")])[path]? := by
    simp only [survivors, List.foldl_cons, List.foldl_nil, Edit.track, ExtTreeMap.getElem?_insert,
      Std.LawfulEqCmp.compare_eq_iff_eq]
    split
    · exact .redefined (core "helper") _ (by decide) fun _ => Iff.rfl
    · split
      · exact .same app
      · simpa using SameFacade.absent
  refine ⟨fun name => ?_, ?_, ?_⟩
  · exact private_definitions_stay_private rfl rfl facade none (by decide) { name }
  · have found : (Resolver.ofSnapshot (Session.ask.snapshot (session "helper")).1).resolve app
        { name := "core.run" } = .qualified := by decide +kernel
    exact congrArg Except.ok (decide_eq_true found)
  · have missed : (Resolver.ofSnapshot (Session.ask.snapshot (session "helper")).1).resolve app
        { name := "core.helper" } ≠ .qualified := by
      rw [Ne, Resolver.resolve, Resolver.resolveIn_eq_qualified_iff]
      decide +kernel
    exact congrArg Except.ok (decide_eq_false missed)

end ModuleAtlas
