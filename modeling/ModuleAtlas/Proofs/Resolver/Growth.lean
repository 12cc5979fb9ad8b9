import ModuleAtlas.Proofs.Graph.History
import ModuleAtlas.Proofs.Resolver.Stages

/-!
# A module that grows takes nothing away

A new file of a live module leaves all names in the module's tables, though it may replace what
stands behind them. No module comes up that was not known before, so no name has to be checked that
was trusted. What the stages before the scores answered is then answered again, but for names that
were built-in and are now qualified.
-/

namespace ModuleAtlas

open Std (ExtTreeMap)

/-! ## Tables that grow -/

theorem Entry.mem_foldl_prefer (entries : List Entry) {table : Table Entry} {name : String}
    (held : name ∈ table) : name ∈ entries.foldl prefer table := by
  induction entries generalizing table with
  | nil => exact held
  | cons entry entries ih =>
    apply ih
    rw [ExtTreeMap.mem_iff_isSome_getElem?] at held ⊢
    rw [getElem?_prefer]
    split
    · rfl
    · exact held

theorem ModuleNode.contribute_grows (node : ModuleNode) (path : String) (c : Contribution) :
    (∀ name, name ∈ node.exports → name ∈ (node.contribute path c).exports) ∧
      ∀ name, name ∈ node.definitions → name ∈ (node.contribute path c).definitions :=
  ⟨fun _ => Entry.mem_foldl_prefer _, fun _ => Entry.mem_foldl_prefer _⟩

/-- One module is put in place of another that had no more names. -/
theorem Resolver.grown_insert {modules : Table ModuleNode} {name : String} {node grown : ModuleNode}
    (held : modules[name]? = some node)
    (exports : ∀ member, member ∈ node.exports → member ∈ grown.exports)
    (definitions : ∀ member, member ∈ node.definitions → member ∈ grown.definitions)
    (home : String) : Grown home modules (modules.insert name grown) := by
  have cases_at {other : String} {old new : ModuleNode} (before : modules[other]? = some old)
      (after : (modules.insert name grown)[other]? = some new) :
      old = node ∧ new = grown ∨ new = old := by
    simp only [ExtTreeMap.getElem?_insert, Std.LawfulEqCmp.compare_eq_iff_eq] at after
    split at after
    · next same =>
      subst same
      cases held.symm.trans before
      cases after
      exact .inl ⟨rfl, rfl⟩
    · cases before.symm.trans after
      exact .inr rfl
  refine ⟨fun other => (Table.mem_insert_of_held held grown other).symm, ?_, ?_⟩
  · intro other old new before after
    obtain ⟨rfl, rfl⟩ | rfl := cases_at before after
    · exact exports
    · exact fun _ => id
  · intro old new before after
    obtain ⟨rfl, rfl⟩ | rfl := cases_at before after
    · exact definitions
    · exact fun _ => id

/-- A file at a new path changes no module but its own, and that one grows. -/
theorem Graph.add_grown {g : Graph} {facts : FileFacts} (fresh : facts.path ∉ g.files)
    (live : facts.moduleName ∈ g.modules) (home : String) :
    Resolver.Grown home g.modules (g.add facts).modules := by
  obtain ⟨node, held⟩ := Table.mem_iff_exists.mp live
  have found : g.home facts.moduleName = node := by rw [Graph.home, held, Option.getD_some]
  change Resolver.Grown home g.modules
    ((g.retract facts.path).apply facts.path facts.contribution).modules
  rw [retract_of_untracked fresh, apply_modules, facts.contribution_moduleName, found]
  obtain ⟨exports, definitions⟩ :=
    (node.withFiles (node.files.insert facts.path)).contribute_grows facts.path facts.contribution
  exact Resolver.grown_insert held exports definitions home

/-! ## Answers -/

/-- Whether an answer stands as long as modules only grow. -/
def Resolution.lasts : Resolution → Bool
  | .localName | .declaredBridge _ | .library | .qualified => true
  | .bridge _ | .builtin | .matched _ | .unresolved => false

/-- Whether the scores decided. -/
def Resolution.isScored : Resolution → Bool
  | .matched _ | .unresolved => true
  | .localName | .declaredBridge _ | .bridge _ | .library | .qualified | .builtin => false

namespace Resolver

variable {resolver resolver' : Resolver}

theorem SameGround.leftOver_cases {ctx ctx' : FileContext}
    (h : SameGround resolver resolver' ctx ctx') (reference : Reference) :
    resolver.leftOver ctx reference = .builtin ∧ resolver'.leftOver ctx' reference = .builtin ∨
      (resolver.leftOver ctx reference).isScored = true ∧
        (resolver'.leftOver ctx' reference).isScored = true := by
  unfold leftOver
  rw [h.language]
  dsimp only
  split
  · exact .inl ⟨rfl, rfl⟩
  · right
    constructor
    · split <;> rfl
    · split <;> rfl

/-- What becomes of an answer as modules grow: it stays, or a bridge gets another target, or a name
that was left over is now qualified, or the scores decide again. -/
theorem Grown.resolve_cases {file : FileFacts}
    (grown : Grown file.moduleName resolver.modules resolver'.modules)
    (bridges : resolver.bridges = resolver'.bridges)
    (excluded : resolver.excluded = resolver'.excluded) (reference : Reference) :
    let before := resolver.resolve file reference
    let after := resolver'.resolve file reference
    after = before ∨ (∃ target target', before = .bridge target ∧ after = .bridge target') ∨
      (before = .builtin ∨ before.isScored = true) ∧ after = .qualified ∨
      before.isScored = true ∧ after.isScored = true := by
  have ground := SameGround.contexts bridges excluded file
  simp only [resolve, resolveIn_eq]
  rcases ground.taken?_cases reference with same | ⟨target, target', old, new⟩
  · rw [same]
    cases resolver'.taken? (resolver'.context file) reference with
    | some answer => exact .inl rfl
    | none =>
      simp only [Option.getD_none]
      have rest := ground.leftOver_cases reference
      by_cases leads : resolver.qualifies (resolver.context file) reference = true
      · rw [if_pos leads, if_pos (grown.qualifies leads)]
        exact .inl rfl
      · rw [if_neg leads]
        split
        · exact .inr (.inr (.inl ⟨rest.imp And.left And.left, rfl⟩))
        · obtain ⟨old, new⟩ | scored := rest
          · exact .inl (new.trans old.symm)
          · exact .inr (.inr (.inr scored))
  · rw [old, new]
    exact .inr (.inl ⟨target, target', rfl, rfl⟩)

end Resolver

/-- **Growth takes nothing away.** Add a file at a new path to a live module. Then settings that were
taken still are. For every reference in every file, what was local, crossed a declared bridge, was in
a library or was qualified has the same answer; what was built-in still is or is now qualified; what
crossed a bridge still does; and what ends up unresolved was left to the scores before. -/
theorem growth_takes_nothing_away {s s' : Session} {facts : FileFacts}
    (fresh : facts.path ∉ s.graph.files) (live : facts.moduleName ∈ s.graph.modules)
    (added : s'.graph = s.graph.add facts) {settings : Option Settings} {resolver : Resolver}
    (made : s.resolver settings = .ok resolver) :
    ∃ resolver', s'.resolver settings = .ok resolver' ∧
      ∀ (file : FileFacts) (reference : Reference),
        ((resolver.resolve file reference).lasts = true →
          resolver'.resolve file reference = resolver.resolve file reference) ∧
        (resolver.resolve file reference = .builtin →
          resolver'.resolve file reference = .builtin ∨
          resolver'.resolve file reference = .qualified) ∧
        (∀ target, resolver.resolve file reference = .bridge target →
          ∃ target', resolver'.resolve file reference = .bridge target') ∧
        (resolver'.resolve file reference = .unresolved →
          (resolver.resolve file reference).isScored = true) := by
  obtain ⟨resolver', made', bridges, excluded⟩ := Session.exists_resolver made s'
  refine ⟨resolver', made', fun file reference => ?_⟩
  have grown : Resolver.Grown file.moduleName resolver.modules resolver'.modules := by
    rw [(Session.resolver_reads made).1, (Session.resolver_reads made').1, added]
    exact Graph.add_grown fresh live file.moduleName
  have outcome := grown.resolve_cases bridges excluded reference
  dsimp only at outcome
  generalize resolver.resolve file reference = before at outcome ⊢
  generalize resolver'.resolve file reference = after at outcome ⊢
  rcases outcome with rfl | ⟨target, target', rfl, rfl⟩ | ⟨rfl | scored, rfl⟩ | ⟨scored, scored'⟩
  · exact ⟨fun _ => rfl, .inl, fun target crosses => ⟨target, crosses⟩, fun missed => missed ▸ rfl⟩
  · simp [Resolution.lasts]
  · simp [Resolution.lasts]
  · cases before <;> simp_all [Resolution.lasts, Resolution.isScored]
  · cases before <;> simp_all [Resolution.lasts, Resolution.isScored]

/-- The new file has a better definition of one name, and one of a built-in name. In the module the
built-in name is now qualified, and outside it is not. -/
theorem growth_takes_nothing_away_builtin :
    let definition (name : String) (line : UInt32) : Definition :=
      { name, kind := .function, exported := true, location := { line }
        complexity := { score := some line } }
    let core : FileFacts :=
      { path := "core/a.py", moduleField := "core", language := "python"
        definitions := [definition "run" 1] }
    let more : FileFacts :=
      { path := "core/b.py", moduleField := "core", language := "python"
        definitions := [definition "run" 2, definition "print" 3] }
    let app : FileFacts :=
      { path := "app.py", moduleField := "app", language := "python", imports := [.plain "core"] }
    let s : Session := { graph := (Graph.empty 2).addAll [core, app] }
    let s' : Session := { graph := s.graph.add more }
    ∃ resolver resolver', s.resolver none = .ok resolver ∧ s'.resolver none = .ok resolver' ∧
      resolver.resolve app { name := "core.run" } = .qualified ∧
      resolver'.resolve app { name := "core.run" } = .qualified ∧
      resolver.resolve core { name := "print" } = .builtin ∧
      resolver'.resolve core { name := "print" } = .qualified ∧
      resolver'.resolve app { name := "print" } = .builtin := by
  intro definition core more app s s'
  have fresh : more.path ∉ s.graph.files := by decide +kernel
  have live : more.moduleName ∈ s.graph.modules := by decide +kernel
  have added : s'.graph = s.graph.add more := rfl
  have made : s.resolver none = .ok (.ofSnapshot (Session.ask.snapshot s).1) := rfl
  have made' : s'.resolver none = .ok (.ofSnapshot (Session.ask.snapshot s').1) := rfl
  obtain ⟨resolver', again, answers⟩ := growth_takes_nothing_away fresh live added made
  have same : resolver' = .ofSnapshot (Session.ask.snapshot s').1 :=
    Except.ok.inj (again.symm.trans made')
  subst same
  have led : (Resolver.ofSnapshot (Session.ask.snapshot s).1).resolve app { name := "core.run" } =
      .qualified := by decide +kernel
  have stays := (answers app { name := "core.run" }).1 (congrArg Resolution.lasts led)
  have outside := (answers app { name := "print" }).2.1 (by decide +kernel)
  refine ⟨_, _, made, made', led, stays.trans led, ?_, ?_, outside.resolve_right ?_⟩
  · decide +kernel
  · decide +kernel
  · decide +kernel

end ModuleAtlas
