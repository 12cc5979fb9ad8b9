import ModuleAtlas.Proofs.Table
import ModuleAtlas.Resolver.Assessment
import ModuleAtlas.Session

/-!
# What the stages of resolution read

A reference is taken by a stage before the qualified names, or else by these, or else by what is
left over: `resolveIn_eq`. Each part is then compared between two resolvers and two views of a file,
as far as these agree on what the part reads:

* `SameGround`: on the settings and on what a file says apart from its imports;
* `LookAlike`: on the names of the modules, as far as they can be seen from one of them; `Grown` is
  one half of this, where the second resolver may know more names.
-/

namespace ModuleAtlas

open Std (ExtTreeMap)

namespace Resolver

section
variable (resolver : Resolver) (ctx : FileContext) (reference : Reference)

/-- The answer of the stages before the qualified names, if one of them takes the reference. -/
def taken? : Option Resolution :=
  let name := RefName.stripSigils reference.name
  let head := RefName.leadingIdentifier name
  if name = "" ∨ resolver.isLocal ctx head name then some .localName
  else
    match resolver.declaredBridge? ctx reference with
    | some bridge => some (.declaredBridge bridge.reason)
    | none =>
      match bridgeUsage? ctx reference with
      | some usage => some (.bridge (resolver.bestMatch? ctx name usage))
      | none => if ctx.language.inLibrary head name then some .library else none

def qualifies : Bool :=
  let name := RefName.stripSigils reference.name
  resolver.isQualified ctx (RefName.leadingIdentifier name) name

/-- The answer of the stages behind the qualified names. -/
def leftOver : Resolution :=
  let name := RefName.stripSigils reference.name
  if ctx.language.isBuiltin (RefName.leadingIdentifier name) name then .builtin
  else
    match resolver.bestMatch? ctx name reference.usage with
    | some found => .matched found
    | none => .unresolved

theorem resolveIn_eq :
    resolver.resolveIn ctx reference = (resolver.taken? ctx reference).getD
      (if resolver.qualifies ctx reference then .qualified
      else resolver.leftOver ctx reference) := by
  unfold resolveIn taken?
  dsimp only
  split
  · rfl
  · cases resolver.declaredBridge? ctx reference with
    | some bridge => rfl
    | none =>
      cases bridgeUsage? ctx reference with
      | some usage => rfl
      | none =>
        simp only [resolveInside]
        split
        · rfl
        · rfl

theorem taken?_is_early {answer : Resolution} (taken : resolver.taken? ctx reference = some answer) :
    answer ≠ .qualified ∧ answer ≠ .unresolved := by
  unfold taken? at taken
  dsimp only at taken
  split at taken
  · cases taken
    simp
  · split at taken
    · cases taken
      simp
    · split at taken
      · cases taken
        simp
      · split at taken
        · cases taken
          simp
        · cases taken

theorem leftOver_ne_qualified : resolver.leftOver ctx reference ≠ .qualified := by
  unfold leftOver
  dsimp only
  split
  · simp
  · split <;> simp

/-- A reference is qualified if no stage before takes it and its name leads somewhere. -/
theorem resolveIn_eq_qualified_iff :
    resolver.resolveIn ctx reference = .qualified ↔
      resolver.taken? ctx reference = none ∧ resolver.qualifies ctx reference = true := by
  have late := resolver.leftOver_ne_qualified ctx reference
  rw [resolveIn_eq]
  cases taken : resolver.taken? ctx reference with
  | some answer => simpa using (resolver.taken?_is_early ctx reference taken).1
  | none =>
    cases resolver.qualifies ctx reference
    · simpa using late
    · simp

end

/-- A name that leads somewhere is not unresolved. -/
theorem resolveIn_ne_unresolved {resolver : Resolver} {ctx : FileContext} {reference : Reference}
    (leads : resolver.qualifies ctx reference = true) :
    resolver.resolveIn ctx reference ≠ .unresolved := by
  rw [resolveIn_eq, leads]
  cases taken : resolver.taken? ctx reference with
  | some answer => exact (resolver.taken?_is_early ctx reference taken).2
  | none => simp

/-- A lone candidate is only measured against the threshold. -/
theorem bestMatch?_of_single {resolver : Resolver} {ctx : FileContext} {name : String} {usage : Usage}
    {candidate : Option SymbolRecord}
    (single : resolver.symbols.recordsAt (resolver.candidates name usage) = candidate.toList) :
    resolver.bestMatch? ctx name usage =
      (candidate.filter fun record => Scoring.threshold usage ≤ score ctx name usage record).map
        fun record => .ofRecord record (score ctx name usage record) := by
  rw [bestMatch?, ranked, single]
  cases candidate with
  | none => simp
  | some record =>
    simp only [Option.toList_some, List.map_cons, List.map_nil, List.mergeSort_singleton]
    by_cases low : score ctx name usage record < Scoring.threshold usage
    · simp [Option.filter, low]
    · simp [Option.filter, low]

/-- The answer to a name that is not taken and not qualified, and has at most one candidate. -/
theorem resolve_of_single {resolver : Resolver} (file : FileFacts) {reference : Reference}
    {candidate : Option SymbolRecord}
    (free : resolver.taken? (resolver.context file) reference = none)
    (unqualified : resolver.qualifies (resolver.context file) reference = false)
    (single : resolver.symbols.recordsAt (resolver.candidates
      (RefName.stripSigils reference.name) reference.usage) = candidate.toList) :
    resolver.resolve file reference =
      let name := RefName.stripSigils reference.name
      let fit := score (resolver.context file) name reference.usage
      if (resolver.context file).language.isBuiltin (RefName.leadingIdentifier name) name then
        .builtin
      else
        ((candidate.filter fun record => Scoring.threshold reference.usage ≤ fit record).map
          fun record => .matched (.ofRecord record (fit record))).getD .unresolved := by
  rw [resolve, resolveIn_eq, free, unqualified, Option.getD_none, if_neg Bool.false_ne_true,
    leftOver, bestMatch?_of_single single]
  dsimp only
  split
  · rfl
  · cases candidate.filter _ <;> rfl

/-! ## Settings and files -/

/-- Two resolvers have the same bridges and exclusions, and two views are of files that differ at
most in their imports and in what is known of their module. -/
structure SameGround (resolver resolver' : Resolver) (ctx ctx' : FileContext) : Prop where
  bridges : resolver.bridges = resolver'.bridges
  excluded : resolver.excluded = resolver'.excluded
  moduleName : ctx.moduleName = ctx'.moduleName
  language : ctx.language = ctx'.language
  spoken : ctx.file.language = ctx'.file.language
  locals : ctx.locals = ctx'.locals

namespace SameGround

variable {resolver resolver' : Resolver} {ctx ctx' : FileContext}

theorem contexts (bridges : resolver.bridges = resolver'.bridges)
    (excluded : resolver.excluded = resolver'.excluded) (file : FileFacts) :
    SameGround resolver resolver' (resolver.context file) (resolver'.context file) :=
  ⟨bridges, excluded, rfl, rfl, rfl, rfl⟩

theorem isLocal (h : SameGround resolver resolver' ctx ctx') (head name : String) :
    resolver.isLocal ctx head name = resolver'.isLocal ctx' head name := by
  simp only [Resolver.isLocal, FileContext.isLocal, excludes, h.excluded, h.locals]

theorem declaredBridge? (h : SameGround resolver resolver' ctx ctx') (reference : Reference) :
    resolver.declaredBridge? ctx reference = resolver'.declaredBridge? ctx' reference := by
  simp only [Resolver.declaredBridge?, h.bridges, h.moduleName, h.spoken]

theorem bridgeUsage? (h : SameGround resolver resolver' ctx ctx') (reference : Reference) :
    Resolver.bridgeUsage? ctx reference = Resolver.bridgeUsage? ctx' reference := by
  simp only [Resolver.bridgeUsage?, h.language]

theorem sameLanguage (h : SameGround resolver resolver' ctx ctx') (other : String) :
    ctx.sameLanguage other = ctx'.sameLanguage other := by
  simp only [FileContext.sameLanguage, h.language, h.spoken]

/-- The earlier stages read the settings and the file, and the target of a hinted bridge is all that
may differ. -/
theorem taken?_cases (h : SameGround resolver resolver' ctx ctx') (reference : Reference) :
    resolver.taken? ctx reference = resolver'.taken? ctx' reference ∨
      ∃ target target', resolver.taken? ctx reference = some (.bridge target) ∧
        resolver'.taken? ctx' reference = some (.bridge target') := by
  simp only [taken?, h.isLocal, h.declaredBridge?, h.bridgeUsage?, h.language]
  split
  · exact .inl rfl
  · split
    · exact .inl rfl
    · split
      · exact .inr ⟨_, _, rfl, rfl⟩
      · exact .inl rfl

theorem taken?_eq_none_iff (h : SameGround resolver resolver' ctx ctx') (reference : Reference) :
    resolver.taken? ctx reference = none ↔ resolver'.taken? ctx' reference = none := by
  rcases h.taken?_cases reference with same | ⟨target, target', old, new⟩
  · rw [same]
  · simp [old, new]

/-- Scores are alike where the bindings of the name's head lead to the same modules. -/
theorem score_eq (h : SameGround resolver resolver' ctx ctx') {name : String}
    (evidence : ∀ target,
      ((ctx.bindingsNamed (RefName.leadingIdentifier (RefName.stripSigils name))).any
        fun b => b.source.moduleName = target) =
      (ctx'.bindingsNamed (RefName.leadingIdentifier (RefName.stripSigils name))).any
        fun b => b.source.moduleName = target) (usage : Usage) :
    score ctx name usage = score ctx' name usage := by
  funext record
  simp only [score, h.sameLanguage, h.moduleName, evidence]

theorem bestMatch?_eq (symbols : resolver.symbols = resolver'.symbols) {name : String}
    {usage : Usage} (scores : score ctx name usage = score ctx' name usage) :
    resolver.bestMatch? ctx name usage = resolver'.bestMatch? ctx' name usage := by
  simp only [bestMatch?, ranked, candidates, symbols, scores]

section
variable {reference : Reference}

theorem taken?_eq (h : SameGround resolver resolver' ctx ctx')
    (matched : ∀ usage, resolver.bestMatch? ctx (RefName.stripSigils reference.name) usage =
      resolver'.bestMatch? ctx' (RefName.stripSigils reference.name) usage) :
    resolver.taken? ctx reference = resolver'.taken? ctx' reference := by
  simp only [taken?, h.isLocal, h.declaredBridge?, h.bridgeUsage?, h.language, matched]

theorem leftOver_eq (h : SameGround resolver resolver' ctx ctx')
    (matched : ∀ usage, resolver.bestMatch? ctx (RefName.stripSigils reference.name) usage =
      resolver'.bestMatch? ctx' (RefName.stripSigils reference.name) usage) :
    resolver.leftOver ctx reference = resolver'.leftOver ctx' reference := by
  simp only [leftOver, h.language, matched]

end

end SameGround

/-! ## Modules -/

/-- From inside the module `home`, a table of modules shows all names that another one does: the same
modules are there, they export no fewer names, and `home` defines no fewer. -/
structure Grown (home : String) (modules modules' : Table ModuleNode) : Prop where
  live : ∀ name, name ∈ modules ↔ name ∈ modules'
  exports : ∀ (name : String) (node node' : ModuleNode), modules[name]? = some node →
    modules'[name]? = some node' → ∀ member, member ∈ node.exports → member ∈ node'.exports
  definitions : ∀ node node', modules[home]? = some node → modules'[home]? = some node' →
    ∀ member, member ∈ node.definitions → member ∈ node'.definitions

/-- Two tables of modules cannot be told apart from inside the module `home` by names: the same
modules are there, they export the same names, and `home` defines the same names. -/
structure LookAlike (home : String) (modules modules' : Table ModuleNode) : Prop where
  live : ∀ name, name ∈ modules ↔ name ∈ modules'
  exports : ∀ (name : String) (node node' : ModuleNode), modules[name]? = some node →
    modules'[name]? = some node' → ∀ member, member ∈ node.exports ↔ member ∈ node'.exports
  definitions : ∀ node node', modules[home]? = some node → modules'[home]? = some node' →
    ∀ member, member ∈ node.definitions ↔ member ∈ node'.definitions

namespace Grown

variable {resolver resolver' : Resolver} {file : FileFacts}

/-- A name stands for a module in both tables or in neither. -/
theorem cases_at {home : String} {modules modules' : Table ModuleNode}
    (grown : Grown home modules modules') (name : String) :
    modules[name]? = none ∧ modules'[name]? = none ∨
      ∃ node node', modules[name]? = some node ∧ modules'[name]? = some node' := by
  have live := grown.live name
  rw [Table.mem_iff_exists, Table.mem_iff_exists] at live
  cases held : modules[name]? with
  | none =>
    left
    cases held' : modules'[name]? with
    | none => exact ⟨rfl, rfl⟩
    | some node' =>
      obtain ⟨node, found⟩ := live.mpr ⟨node', held'⟩
      cases held.symm.trans found
  | some node =>
    obtain ⟨node', held'⟩ := live.mp ⟨node, held⟩
    exact .inr ⟨node, node', rfl, held'⟩

theorem moduleDefines (grown : Grown file.moduleName resolver.modules resolver'.modules)
    {name : String} (defined : (resolver.context file).moduleDefines name = true) :
    (resolver'.context file).moduleDefines name = true := by
  simp only [context, FileContext.moduleDefines] at defined ⊢
  rcases grown.cases_at file.moduleName with ⟨held, -⟩ | ⟨node, node', held, held'⟩
  · rw [held] at defined
    cases defined
  · rw [held, Option.any_some, decide_eq_true_eq] at defined
    rw [held', Option.any_some, decide_eq_true_eq]
    exact grown.definitions node node' held held' name defined

theorem hasSubmodule_eq {home : String}
    (grown : Grown home resolver.modules resolver'.modules) (moduleName member : String) :
    resolver.hasSubmodule moduleName member = resolver'.hasSubmodule moduleName member := by
  simp only [hasSubmodule, grown.live]

theorem hasMember (grown : Grown file.moduleName resolver.modules resolver'.modules)
    {moduleName path : String}
    (found : resolver.hasMember (resolver.context file) moduleName path = true) :
    resolver'.hasMember (resolver'.context file) moduleName path = true := by
  rcases grown.cases_at moduleName with ⟨-, held'⟩ | ⟨node, node', held, held'⟩
  · simp only [Resolver.hasMember, held', Bool.or_true]
  · simp only [Resolver.hasMember, context, held, held', grown.hasSubmodule_eq,
      Bool.or_eq_true] at found ⊢
    refine found.imp_right (Or.imp_left fun visible => ?_)
    by_cases own : moduleName = file.moduleName
    · subst own
      simp only [if_true, decide_eq_true_eq] at visible ⊢
      exact grown.definitions node node' held held' _ visible
    · simp only [own, if_false, decide_eq_true_eq] at visible ⊢
      exact grown.exports moduleName node node' held held' _ visible

/-- **Qualified names.** They lead somewhere also when modules have grown. -/
theorem qualifies (grown : Grown file.moduleName resolver.modules resolver'.modules)
    {reference : Reference} (leads : resolver.qualifies (resolver.context file) reference = true) :
    resolver'.qualifies (resolver'.context file) reference = true := by
  have into (name moduleName : String)
      (leads : resolver.leadsInto (resolver.context file) name moduleName = true) :
      resolver'.leadsInto (resolver'.context file) name moduleName = true := by
    rw [leadsInto, Option.any_eq_true] at leads ⊢
    exact leads.imp fun rest found => ⟨found.1, grown.hasMember found.2⟩
  have through (name : String) (b : Binding)
      (leads : resolver.leadsThrough (resolver.context file) name b = true) :
      resolver'.leadsThrough (resolver'.context file) name b = true := by
    rw [leadsThrough, Option.any_eq_true] at leads ⊢
    refine leads.imp fun rest found => ⟨found.1, ?_⟩
    split at found <;> exact grown.hasMember found.2
  simp only [Resolver.qualifies, isQualified, Bool.or_eq_true, List.any_eq_true] at leads ⊢
  rcases leads with (((defined | defined) | leads) | ⟨b, bound, leads⟩) | ⟨i, listed, leads⟩
  · exact .inl (.inl (.inl (.inl (grown.moduleDefines defined))))
  · exact .inl (.inl (.inl (.inr (grown.moduleDefines defined))))
  · exact .inl (.inl (.inr (into _ _ leads)))
  · exact .inl (.inr ⟨b, bound, through _ b leads⟩)
  · exact .inr ⟨i, listed, into _ _ leads⟩

end Grown

namespace LookAlike

variable {home : String} {modules modules' : Table ModuleNode} {resolver resolver' : Resolver}
  {file : FileFacts}

theorem symm (alike : LookAlike home modules modules') : LookAlike home modules' modules where
  live name := (alike.live name).symm
  exports name node node' held held' member :=
    (alike.exports name node' node held' held member).symm
  definitions node node' held held' member := (alike.definitions node' node held' held member).symm

theorem grown (alike : LookAlike home modules modules') : Grown home modules modules' where
  live := alike.live
  exports name node node' held held' member := (alike.exports name node node' held held' member).mp
  definitions node node' held held' member := (alike.definitions node node' held held' member).mp

theorem moduleDefines_eq (alike : LookAlike file.moduleName resolver.modules resolver'.modules)
    (name : String) :
    (resolver.context file).moduleDefines name = (resolver'.context file).moduleDefines name :=
  Bool.eq_iff_iff.mpr ⟨alike.grown.moduleDefines, alike.symm.grown.moduleDefines⟩

/-- Qualified names lead to the same places if modules look alike. -/
theorem qualifies_eq (alike : LookAlike file.moduleName resolver.modules resolver'.modules)
    (reference : Reference) :
    resolver.qualifies (resolver.context file) reference =
      resolver'.qualifies (resolver'.context file) reference :=
  Bool.eq_iff_iff.mpr ⟨alike.grown.qualifies, alike.symm.grown.qualifies⟩

theorem resolve_eq_qualified_iff
    (alike : LookAlike file.moduleName resolver.modules resolver'.modules)
    (bridges : resolver.bridges = resolver'.bridges)
    (excluded : resolver.excluded = resolver'.excluded) (reference : Reference) :
    resolver.resolve file reference = .qualified ↔
      resolver'.resolve file reference = .qualified := by
  have ground := SameGround.contexts bridges excluded file
  rw [resolve, resolve, resolveIn_eq_qualified_iff, resolveIn_eq_qualified_iff,
    ground.taken?_eq_none_iff reference, alike.qualifies_eq reference]

end LookAlike

/-- Settings are taken if their bridges and exclusions can be read, and replace what was there. -/
theorem configure_eq_ok_iff {resolver configured : Resolver} {settings : Settings} :
    resolver.configure settings = .ok configured ↔
      ∃ bridges excluded, Bridge.ofRules settings.bridges = .ok bridges ∧
        Exclusion.compile settings.resolver.excludedPatterns = .ok excluded ∧
        configured = { resolver with bridges, excluded, settings := settings.resolver } := by
  unfold configure
  cases Bridge.ofRules settings.bridges with
  | error flaw => simp [bind, Except.bind]
  | ok bridges =>
    cases Exclusion.compile settings.resolver.excludedPatterns with
    | error flaw => simp [bind, Except.bind]
    | ok excluded => simp [bind, Except.bind, pure, Except.pure, eq_comm]

/-- Settings are refused for what they say, so what is asked of two resolvers has the same answer if
it has after every choice of bridges and exclusions. -/
theorem configure_map_eq {α : Type} {resolver resolver' : Resolver} {settings : Settings}
    {query : Resolver → α}
    (same : ∀ bridges excluded,
      query { resolver with bridges, excluded, settings := settings.resolver } =
        query { resolver' with bridges, excluded, settings := settings.resolver }) :
    (resolver.configure settings).map query = (resolver'.configure settings).map query := by
  unfold configure
  cases Bridge.ofRules settings.bridges with
  | error flaw => rfl
  | ok bridges =>
    cases Exclusion.compile settings.resolver.excludedPatterns with
    | error flaw => rfl
    | ok excluded => exact congrArg Except.ok (same bridges excluded)

end Resolver

/-- The resolver of a graph in use, with settings or without. -/
def Session.resolver (s : Session) : Option Settings → Except SettingsFlaw Resolver
  | none => .ok (.ofSnapshot (Session.ask.snapshot s).1)
  | some settings => (Resolver.ofSnapshot (Session.ask.snapshot s).1).configure settings

/-- A resolver knows the modules of its graph and their definitions, whatever the settings. -/
theorem Session.resolver_reads {s : Session} {settings : Option Settings} {resolver : Resolver}
    (made : s.resolver settings = .ok resolver) :
    resolver.modules = s.graph.modules ∧ resolver.symbols = .ofModules s.graph.modules := by
  cases settings with
  | none =>
    cases made
    exact ⟨rfl, rfl⟩
  | some settings =>
    obtain ⟨bridges, excluded, -, -, rfl⟩ := Resolver.configure_eq_ok_iff.mp made
    exact ⟨rfl, rfl⟩

/-- Settings that one graph's resolver takes are taken by that of any other. -/
theorem Session.exists_resolver {s : Session} {settings : Option Settings} {resolver : Resolver}
    (made : s.resolver settings = .ok resolver) (s' : Session) :
    ∃ resolver', s'.resolver settings = .ok resolver' ∧
      resolver.bridges = resolver'.bridges ∧ resolver.excluded = resolver'.excluded := by
  cases settings with
  | none =>
    cases made
    exact ⟨_, rfl, rfl, rfl⟩
  | some settings =>
    obtain ⟨bridges, excluded, rules, patterns, rfl⟩ := Resolver.configure_eq_ok_iff.mp made
    exact ⟨_, Resolver.configure_eq_ok_iff.mpr ⟨bridges, excluded, rules, patterns, rfl⟩, rfl, rfl⟩

theorem Session.resolver_map_eq {α : Type} {s s' : Session} {query : Resolver → α}
    (same : ∀ bridges excluded settings,
      query { Resolver.ofSnapshot (Session.ask.snapshot s).1 with bridges, excluded, settings } =
        query { Resolver.ofSnapshot (Session.ask.snapshot s').1 with bridges, excluded, settings })
    (settings : Option Settings) :
    (s.resolver settings).map query = (s'.resolver settings).map query := by
  cases settings with
  | none => exact congrArg Except.ok (same [] [] {})
  | some settings =>
    apply Resolver.configure_map_eq
    intro bridges excluded
    exact same bridges excluded settings.resolver

end ModuleAtlas
