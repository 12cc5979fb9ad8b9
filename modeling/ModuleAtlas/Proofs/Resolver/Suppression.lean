import ModuleAtlas.Proofs.Resolver.Stages
import ModuleAtlas.Proofs.Sorting
import Mathlib.Data.List.Flatten

/-!
# Settings only suppress

Exclusions and declared bridges are asked before the stages that read no settings. With more of them
a reference may be taken earlier, and is otherwise answered as before: `resolveIn_extend`. So of the
references that no stage takes, some are taken and the others are listed in the same order.
-/

namespace ModuleAtlas

namespace Resolver

/-! ## More bridges and exclusions -/

section
variable (resolver : Resolver) (ctx : FileContext) (reference : Reference)

/-- The answer of the stages that read no settings. -/
def undeclared : Resolution :=
  let name := RefName.stripSigils reference.name
  match bridgeUsage? ctx reference with
  | some usage => .bridge (resolver.bestMatch? ctx name usage)
  | none => resolver.resolveInside ctx (RefName.leadingIdentifier name) name reference.usage

theorem resolveIn_eq_undeclared :
    resolver.resolveIn ctx reference =
      let name := RefName.stripSigils reference.name
      if name = "" ∨ resolver.isLocal ctx (RefName.leadingIdentifier name) name then .localName
      else ((resolver.declaredBridge? ctx reference).map fun bridge =>
        .declaredBridge bridge.reason).getD (resolver.undeclared ctx reference) := by
  unfold resolveIn
  dsimp only
  split
  · rfl
  · cases resolver.declaredBridge? ctx reference with
    | some bridge => rfl
    | none => rfl

theorem undeclared_is_late :
    resolver.undeclared ctx reference ≠ .localName ∧
      ∀ reason, resolver.undeclared ctx reference ≠ .declaredBridge reason := by
  unfold undeclared resolveInside
  dsimp only
  split
  · simp
  · split
    · simp
    · split
      · simp
      · split
        · simp
        · split <;> simp

end

/-- The second resolver is the first with more bridges and exclusions behind those it has. -/
structure Extends (resolver extended : Resolver) : Prop where
  files : extended.files = resolver.files
  modules : extended.modules = resolver.modules
  symbols : extended.symbols = resolver.symbols
  bridges : resolver.bridges <+: extended.bridges
  excluded : resolver.excluded <+: extended.excluded

namespace Extends

variable {resolver extended : Resolver} (h : Extends resolver extended)
include h

theorem context_eq (file : FileFacts) : extended.context file = resolver.context file := by
  rw [context, context, h.modules]

theorem undeclared_eq (ctx : FileContext) (reference : Reference) :
    extended.undeclared ctx reference = resolver.undeclared ctx reference := by
  obtain ⟨-, modules, symbols, -, -⟩ := h
  cases resolver
  cases extended
  cases modules
  cases symbols
  rfl

theorem isLocal {ctx : FileContext} {head name : String}
    (inside : resolver.isLocal ctx head name = true) : extended.isLocal ctx head name = true := by
  have more (name : String) (excludes : resolver.excludes name = true) :
      extended.excludes name = true := by
    obtain ⟨glob, listed, accepts⟩ := List.any_eq_true.mp excludes
    exact List.any_eq_true.mpr ⟨glob, h.excluded.subset listed, accepts⟩
  simp only [Resolver.isLocal, Bool.or_eq_true, Bool.and_eq_true] at inside ⊢
  exact inside.imp (Or.imp_right (more name)) (And.imp_right (more head))

/-- The first bridge that takes a reference stays the first. -/
theorem declaredBridge? {ctx : FileContext} {reference : Reference} {bridge : Bridge}
    (declared : resolver.declaredBridge? ctx reference = some bridge) :
    extended.declaredBridge? ctx reference = some bridge := by
  obtain ⟨bridges, more⟩ := h.bridges
  unfold Resolver.declaredBridge? Bridge.find? at declared ⊢
  rw [← more, List.find?_append, declared, Option.some_or]

/-- With more settings a reference becomes local, or has the answer it had, or crosses a declared
bridge where no setting took it before. -/
theorem resolveIn_cases (ctx : FileContext) (reference : Reference) :
    extended.resolveIn ctx reference = .localName ∨
      extended.resolveIn ctx reference = resolver.resolveIn ctx reference ∨
      resolver.resolveIn ctx reference = resolver.undeclared ctx reference ∧
        ∃ reason, extended.resolveIn ctx reference = .declaredBridge reason := by
  rw [resolveIn_eq_undeclared, resolveIn_eq_undeclared, h.undeclared_eq]
  dsimp only
  split
  · exact .inl rfl
  · next outside' =>
    right
    rw [if_neg fun inside => outside' (inside.imp_right h.isLocal)]
    cases declared : resolver.declaredBridge? ctx reference with
    | some bridge =>
      rw [h.declaredBridge? declared]
      exact .inl rfl
    | none =>
      cases extended.declaredBridge? ctx reference with
      | some bridge => exact .inr ⟨rfl, bridge.reason, rfl⟩
      | none => exact .inl rfl

theorem resolve_cases (file : FileFacts) (reference : Reference) :
    extended.resolve file reference = .localName ∨
      extended.resolve file reference = resolver.resolve file reference ∨
      resolver.resolve file reference = resolver.undeclared (resolver.context file) reference ∧
        ∃ reason, extended.resolve file reference = .declaredBridge reason := by
  rw [resolve, h.context_eq]
  exact h.resolveIn_cases _ reference

theorem localName {file : FileFacts} {reference : Reference}
    (before : resolver.resolve file reference = .localName) :
    extended.resolve file reference = .localName := by
  rcases h.resolve_cases file reference with inside | same | ⟨unsettled, -⟩
  · exact inside
  · exact same.trans before
  · exact absurd (unsettled.symm.trans before) (resolver.undeclared_is_late _ reference).1

theorem declaredBridge {file : FileFacts} {reference : Reference} {reason : String}
    (before : resolver.resolve file reference = .declaredBridge reason) :
    extended.resolve file reference = .localName ∨
      extended.resolve file reference = .declaredBridge reason := by
  rcases h.resolve_cases file reference with inside | same | ⟨unsettled, -⟩
  · exact .inl inside
  · exact .inr (same.trans before)
  · exact absurd (unsettled.symm.trans before) ((resolver.undeclared_is_late _ reference).2 reason)

theorem reportsUnresolved {ctx : FileContext} {reference : Reference}
    (reported : extended.reportsUnresolved ctx reference = true) :
    resolver.reportsUnresolved ctx reference = true := by
  simp only [Resolver.reportsUnresolved, Bool.and_eq_true] at reported ⊢
  refine reported.imp_left fun unsettled => ?_
  rcases h.resolveIn_cases ctx reference with inside | same | ⟨-, reason, crosses⟩
  · rw [inside] at unsettled
    cases unsettled
  · rw [same] at unsettled
    exact unsettled
  · rw [crosses] at unsettled
    cases unsettled

theorem unresolvedIn_sublist (file : FileFacts) :
    (extended.unresolvedIn file).Sublist (resolver.unresolvedIn file) := by
  rw [unresolvedIn, unresolvedIn, h.context_eq]
  exact (List.monotone_filter_right _ fun _ => h.reportsUnresolved).map _

end Extends

end Resolver

/-! ## The list of unresolved references -/

/-- The order of the list. -/
def UnresolvedReference.order : UnresolvedReference → UnresolvedReference → Ordering :=
  compareLex
    (compareLex (compareOn (·.file))
      (compareLex (compareOn (·.reference.location.line)) (compareOn (·.reference.location.column))))
    (compareOn (·.reference.name))

instance : Std.TransCmp UnresolvedReference.order := by
  unfold UnresolvedReference.order
  infer_instance

theorem Resolver.findUnresolved_eq (resolver : Resolver) :
    resolver.findUnresolved = (resolver.files.flatMap resolver.unresolvedIn).mergeSort
      fun a b => (UnresolvedReference.order a b).isLE :=
  rfl

theorem Resolver.Extends.findUnresolved_sublist {resolver extended : Resolver}
    (h : Extends resolver extended) :
    extended.findUnresolved.Sublist resolver.findUnresolved := by
  rw [findUnresolved_eq, findUnresolved_eq, h.files]
  apply Sorting.mergeSort_sublist
  exact List.Sublist.flatMap_right _ fun file _ => h.unresolvedIn_sublist file

/-! ## Settings that are appended -/

/-- What is read from the first part of a list stands first. -/
theorem isPrefix_of_mapM {ε α β : Type} {read : α → Except ε β} {texts texts' : List α}
    {values values' : List β} (more : texts <+: texts') (made : texts.mapM read = .ok values)
    (made' : texts'.mapM read = .ok values') : values <+: values' := by
  obtain ⟨rest, rfl⟩ := more
  rw [List.mapM_append, made] at made'
  cases others : rest.mapM read with
  | error flaw =>
    rw [others] at made'
    cases made'
  | ok others' =>
    rw [others] at made'
    cases made'
    exact List.prefix_append values others'

theorem Exclusion.mapM_of_compile {patterns : List String} {globs : List Glob}
    (compiled : compile patterns = .ok globs) :
    (patterns.mapM fun pattern =>
      (Glob.parse false pattern).mapError (SettingsFlaw.invalidExclusion pattern)) = .ok globs := by
  unfold compile at compiled
  cases read : patterns.mapM fun pattern =>
      (Glob.parse false pattern).mapError (SettingsFlaw.invalidExclusion pattern) with
  | error flaw =>
    rw [read] at compiled
    cases compiled
  | ok globs' =>
    rw [read] at compiled
    dsimp only [bind, Except.bind] at compiled
    split at compiled
    · cases compiled
    · split at compiled
      · cases compiled
      · exact compiled

theorem Resolver.extends_of_configure {resolver configured configured' : Resolver}
    {settings settings' : Settings} (bridges : settings.bridges <+: settings'.bridges)
    (patterns : settings.resolver.excludedPatterns <+: settings'.resolver.excludedPatterns)
    (made : resolver.configure settings = .ok configured)
    (made' : resolver.configure settings' = .ok configured') : Extends configured configured' := by
  obtain ⟨known, excluded, rules, globs, rfl⟩ := configure_eq_ok_iff.mp made
  obtain ⟨known', excluded', rules', globs', rfl⟩ := configure_eq_ok_iff.mp made'
  exact {
    files := rfl
    modules := rfl
    symbols := rfl
    bridges := isPrefix_of_mapM bridges rules rules'
    excluded := isPrefix_of_mapM patterns (Exclusion.mapM_of_compile globs)
      (Exclusion.mapM_of_compile globs') }

/-- **Settings only suppress.** Of two settings for one graph that are both taken, let the second be
the first with more bridges and more exclusions behind those it has. Then the references it leaves
unresolved are some of those that the first does, in the same order. What is local stays local, what
crosses a declared bridge crosses it for the same reason or becomes local, and an answer that differs
is one of these two. -/
theorem settings_only_suppress {s : Session} {settings settings' : Settings}
    (bridges : settings.bridges <+: settings'.bridges)
    (patterns : settings.resolver.excludedPatterns <+: settings'.resolver.excludedPatterns)
    {resolver resolver' : Resolver} (made : s.resolver (some settings) = .ok resolver)
    (made' : s.resolver (some settings') = .ok resolver') :
    resolver'.findUnresolved.Sublist resolver.findUnresolved ∧
    ∀ (file : FileFacts) (reference : Reference),
      (resolver.resolve file reference = .localName →
        resolver'.resolve file reference = .localName) ∧
      (∀ reason, resolver.resolve file reference = .declaredBridge reason →
        resolver'.resolve file reference = .localName ∨
        resolver'.resolve file reference = .declaredBridge reason) ∧
      (resolver'.resolve file reference ≠ resolver.resolve file reference →
        resolver'.resolve file reference = .localName ∨
        ∃ reason, resolver'.resolve file reference = .declaredBridge reason) := by
  have more : Resolver.Extends resolver resolver' :=
    Resolver.extends_of_configure bridges patterns made made'
  refine ⟨more.findUnresolved_sublist, fun file reference => ⟨more.localName, ?_, ?_⟩⟩
  · intro reason crosses
    exact more.declaredBridge crosses
  · intro differs
    rcases more.resolve_cases file reference with inside | same | ⟨-, crosses⟩
    · exact .inl inside
    · exact absurd same differs
    · exact .inr crosses

/-- A bridge and an exclusion are added. One name that was unresolved crosses the bridge, another that
crossed a bridge is excluded, and a third crosses the bridge it did though both would take it. -/
theorem settings_only_suppress_appended :
    let run : Definition := { name := "run", kind := .function, exported := true }
    let core : FileFacts := { path := "core.py", moduleField := "core", definitions := [run] }
    let app : FileFacts :=
      { path := "app.py", moduleField := "app", language := "python", imports := [.plain "core"] }
    let s : Session := { graph := (Graph.empty 2).addAll [core, app] }
    let lost : Reference := { name := "core.lost" }
    let rule (reason : String) (references : List String) : BridgeRule :=
      { source := "python:app", target := "rust:ffi", reason, references }
    let settings (rules : List BridgeRule) (excludedPatterns : List String) : Settings :=
      { bridges := rules, resolver := { excludedPatterns } }
    let fewer := settings [rule "first" ["native.*"]] ["tmp*"]
    let more := settings [rule "first" ["native.*"], rule "second" ["native.*", "core.lost"]]
      ["tmp*", "native.skip"]
    ∃ resolver resolver', s.resolver (some fewer) = .ok resolver ∧
      s.resolver (some more) = .ok resolver' ∧
      resolver'.findUnresolved.Sublist resolver.findUnresolved ∧
      resolver'.resolve app { name := "tmp.x" } = .localName ∧
      resolver'.resolve app { name := "native.call" } = .declaredBridge "first" ∧
      resolver.resolve app { name := "native.skip" } = .declaredBridge "first" ∧
      resolver'.resolve app { name := "native.skip" } = .localName ∧
      resolver.resolve app lost = .unresolved ∧
      resolver'.resolve app lost = .declaredBridge "second" := by
  intro run core app s lost rule settings fewer more
  have given {α : Type} {x : Except SettingsFlaw (List α)} (ok : x.isOk = true) :
      x = .ok (x.toOption.getD []) := by
    cases x with
    | error flaw => cases ok
    | ok values => rfl
  let resolver (settings : Settings) : Resolver :=
    { Resolver.ofSnapshot (Session.ask.snapshot s).1 with
      bridges := (Bridge.ofRules settings.bridges).toOption.getD []
      excluded := (Exclusion.compile settings.resolver.excludedPatterns).toOption.getD []
      settings := settings.resolver }
  have made : s.resolver (some fewer) = .ok (resolver fewer) :=
    Resolver.configure_eq_ok_iff.mpr
      ⟨_, _, given (by decide +kernel), given (by decide +kernel), rfl⟩
  have made' : s.resolver (some more) = .ok (resolver more) :=
    Resolver.configure_eq_ok_iff.mpr
      ⟨_, _, given (by decide +kernel), given (by decide +kernel), rfl⟩
  obtain ⟨sublist, answers⟩ :=
    settings_only_suppress (List.prefix_append _ _) (List.prefix_append _ _) made made'
  have none_fits : (resolver fewer).symbols.recordsAt ((resolver fewer).candidates
      (RefName.stripSigils lost.name) lost.usage) = Option.toList none := by decide +kernel
  have missed := Resolver.resolve_of_single app (by decide +kernel) (by decide +kernel) none_fits
  refine ⟨_, _, made, made', sublist, ?_, ?_, ?_, ?_, ?_, ?_⟩
  · exact (answers app { name := "tmp.x" }).1 (by decide +kernel)
  · have outside : (resolver more).resolve app { name := "native.call" } ≠ .localName := by
      decide +kernel
    exact ((answers app { name := "native.call" }).2.1 "first" (by decide +kernel)).resolve_left
      outside
  · decide +kernel
  · decide +kernel
  · exact missed.trans (by decide +kernel)
  · decide +kernel

end ModuleAtlas
