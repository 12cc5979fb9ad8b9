import ModuleAtlas.Proofs.Graph.Padding
import ModuleAtlas.Proofs.Resolver.Ingestion
import ModuleAtlas.Proofs.Resolver.UnusedImports

/-!
# Blanks around the names of imported modules, in resolution

An import without alias and items binds the whole name of its module, without blanks around it, and
its last segment, with them. So padding is seen only where a plain import has a last segment that is
padded too, by names that go by this segment, and by the report on an import that is not used.
-/

namespace ModuleAtlas

namespace Binding

variable {i : Import}

/-- The import binds the name of its module, for it has no items and no alias. -/
def isPlain (i : Import) : Bool :=
  !bindsNothing i && (explicits 0 i).isEmpty

/-- The last segment is not the one of the trimmed name, and the import is bound by it. -/
def misnames (i : Import) : Bool :=
  isPlain i && i.baseName ≠ i.trimmed.baseName

/-- The names that the import binds only as it is, or only when it is trimmed. -/
def strayNames (i : Import) : List String :=
  if misnames i then [i.baseName, i.trimmed.baseName].filter (· ≠ i.moduleName) else []

def trimmed (b : Binding) : Binding :=
  { b with source := b.source.trimmed }

-- The definition is opened first: whether an import is the same trimmed takes long to refute.
theorem isItem_trimmed (b : Binding) : b.trimmed.isItem = b.isItem := by
  unfold isItem trimmed
  rfl

theorem isExplicit_trimmed (b : Binding) : b.trimmed.isExplicit = b.isExplicit := by
  rw [isExplicit, isExplicit, isItem_trimmed]
  unfold trimmed
  rfl

theorem any_name_trimmed (p : String → Bool) (group : List Binding) :
    ((group.map trimmed).any fun b => p b.name) = group.any fun b => p b.name := by
  rw [List.any_map]
  unfold trimmed
  rfl

theorem bindsNothing_trimmed (i : Import) : bindsNothing i.trimmed = bindsNothing i := by
  simp only [bindsNothing, Import.moduleName_trimmed]
  unfold Import.trimmed
  rfl

theorem explicits_trimmed (slot : Nat) (i : Import) :
    explicits slot i.trimmed = (explicits slot i).map trimmed := by
  simp only [explicits, List.map_append, List.map_map]
  rfl

theorem isEmpty_explicits (slot : Nat) (i : Import) :
    (explicits slot i).isEmpty = (explicits 0 i).isEmpty := by
  rw [explicits_eq_map slot 0, List.isEmpty_map]

theorem isPlain_trimmed (i : Import) : isPlain i.trimmed = isPlain i := by
  rw [isPlain, isPlain, bindsNothing_trimmed, explicits_trimmed, List.isEmpty_map]

theorem isPlain_of_misnames (misnamed : misnames i = true) : isPlain i = true := by
  rw [misnames, Bool.and_eq_true] at misnamed
  exact misnamed.1

theorem ofImport_of_plain (plain : isPlain i = true) (slot : Nat) :
    ofImport slot i = { name := i.baseName, slot, kind := .base, source := i } ::
      if i.moduleName = i.baseName then []
      else [{ name := i.moduleName, slot, kind := .full, source := i }] := by
  rw [isPlain, Bool.and_eq_true, Bool.not_eq_true', ← isEmpty_explicits slot] at plain
  rw [ofImport, if_neg (by simp [plain.1])]
  exact if_pos plain.2

theorem ofImport_of_not_plain (other : isPlain i = false) (slot : Nat) :
    ofImport slot i = if bindsNothing i then [] else explicits slot i := by
  rw [isPlain, ← isEmpty_explicits slot] at other
  unfold ofImport
  cases nothing : bindsNothing i with
  | true => rfl
  | false =>
    rw [nothing, Bool.not_false, Bool.true_and] at other
    rw [if_neg Bool.false_ne_true, if_neg Bool.false_ne_true]
    exact if_neg (other ▸ Bool.false_ne_true)

/-- Where the last segment is the same, trimming changes no more than what is said of the source. -/
theorem ofImport_trimmed (fits : misnames i = false) (slot : Nat) :
    ofImport slot i.trimmed = (ofImport slot i).map trimmed := by
  have plain' := isPlain_trimmed i
  cases plain : isPlain i with
  | false =>
    rw [plain] at plain'
    rw [ofImport_of_not_plain plain, ofImport_of_not_plain plain', bindsNothing_trimmed,
      explicits_trimmed, apply_ite (List.map trimmed)]
    rfl
  | true =>
    rw [plain] at plain'
    rw [misnames, plain, Bool.true_and, decide_eq_false_iff_not, not_not] at fits
    rw [ofImport_of_plain plain, ofImport_of_plain plain', ← fits, Import.moduleName_trimmed,
      List.map_cons, apply_ite (List.map trimmed)]
    rfl

/-- What resolution reads of a binding: its name, the item it stands for, and the module. -/
def sense (b : Binding) : String × Option String × String :=
  (b.name, (match b.kind with | .item member => some member | _ => none), b.source.moduleName)

theorem sense_trimmed (b : Binding) : b.trimmed.sense = b.sense := by
  simp only [sense, trimmed, Import.moduleName_trimmed]

section
variable {q : String × Option String × String → Bool}

theorem any_sense_of_plain (plain : isPlain i = true) (slot : Nat) :
    (ofImport slot i).any (q ∘ sense) =
      (q (i.baseName, none, i.moduleName) || q (i.moduleName, none, i.moduleName)) := by
  rw [ofImport_of_plain plain]
  by_cases same : i.moduleName = i.baseName
  · simp [same, sense]
  · simp [same, sense]

/-- An import can be trimmed without notice where none of its stray names is asked for. -/
theorem any_sense_trimmed (clear : ∀ name ∈ strayNames i, ∀ rest, q (name, rest) = false)
    (slot : Nat) :
    (ofImport slot i.trimmed).any (q ∘ sense) = (ofImport slot i).any (q ∘ sense) := by
  cases misnamed : misnames i with
  | false =>
    rw [ofImport_trimmed misnamed, List.any_map]
    exact congrArg _ (funext fun b => congrArg q b.sense_trimmed)
  | true =>
    have plain := isPlain_of_misnames misnamed
    -- A last segment that is not the whole name is a stray name.
    have absorbed (name : String) (bound : name = i.baseName ∨ name = i.trimmed.baseName) :
        (q (name, none, i.moduleName) || q (i.moduleName, none, i.moduleName)) =
          q (i.moduleName, none, i.moduleName) := by
      by_cases whole : name = i.moduleName
      · rw [whole, Bool.or_self]
      · rw [clear name (by simpa [strayNames, misnamed, whole] using bound), Bool.false_or]
    rw [any_sense_of_plain plain, any_sense_of_plain ((isPlain_trimmed i).trans plain),
      Import.moduleName_trimmed, absorbed _ (.inl rfl), absorbed _ (.inr rfl)]

theorem any_ofImports_trimmed {imports : List Import}
    (clear : ∀ i ∈ imports, ∀ name ∈ strayNames i, ∀ rest, q (name, rest) = false) :
    (ofImports (imports.map Import.trimmed)).any (q ∘ sense) =
      (ofImports imports).any (q ∘ sense) := by
  rw [any_ofImports (fun _ _ => rfl), any_ofImports (fun _ _ => rfl)]
  induction imports with
  | nil => rfl
  | cons i imports ih =>
    have rest := ih fun j listed => clear j (.tail _ listed)
    rw [List.map_cons, List.any_cons, List.any_cons, any_sense_trimmed (clear i (.head _)), rest]

end

theorem any_named_trimmed {imports : List Import} {name : String}
    (clear : ∀ i ∈ imports, name ∉ strayNames i) (target : String) :
    ((ofImports (imports.map Import.trimmed)).any fun b =>
        b.name = name && b.source.moduleName = target) =
      (ofImports imports).any fun b => b.name = name && b.source.moduleName = target := by
  apply any_ofImports_trimmed (q := fun s => decide (s.1 = name) && decide (s.2.2 = target))
  intro i listed bound stray rest
  have other : bound ≠ name := fun same => clear i listed (same ▸ stray)
  simp [other]

end Binding

namespace Resolver

/-! ## References -/

/-- The reference starts with a bound name or is qualified by it. A match may be looked for with
sigils stripped once more. -/
def goesBy (reference : Reference) (bound : String) : Bool :=
  let name := RefName.stripSigils reference.name
  uses [name, RefName.stripSigils name] bound

/-- The reference goes by no last segment that blanks have changed. -/
def AvoidsStrays (file : FileFacts) (reference : Reference) : Prop :=
  ∀ i ∈ file.imports, ∀ name ∈ Binding.strayNames i, goesBy reference name = false

instance (file : FileFacts) (reference : Reference) : Decidable (AvoidsStrays file reference) :=
  inferInstanceAs (Decidable (∀ i ∈ file.imports, _))

variable {resolver : Resolver} {file : FileFacts} {reference : Reference}

theorem goesBy_eq_false_iff {bound : String} :
    goesBy reference bound = false ↔
      let name := RefName.stripSigils reference.name
      (RefName.leadingIdentifier name ≠ bound ∧ RefName.stripQualifier? name bound = none) ∧
        RefName.leadingIdentifier (RefName.stripSigils name) ≠ bound ∧
        RefName.stripQualifier? (RefName.stripSigils name) bound = none := by
  simp [goesBy, uses]

/-- A binding leads a name into its module by its sense. -/
theorem leadsThrough_eq (resolver : Resolver) (ctx : FileContext) (name : String) :
    resolver.leadsThrough ctx name =
      (fun (bound, item, moduleName) => (RefName.stripQualifier? name bound).any fun rest =>
        resolver.hasMember ctx moduleName (item.getD rest)) ∘ Binding.sense := by
  funext b
  obtain ⟨bound, slot, kind, source⟩ := b
  cases kind <;> rfl

theorem sameGround_trimImports (resolver : Resolver) (file : FileFacts) :
    SameGround resolver resolver (resolver.context file.trimImports) (resolver.context file) := by
  refine ⟨rfl, rfl, ?_, rfl, rfl, rfl⟩
  simp only [context, file.moduleName_trimImports]

/-- Names are qualified as before. -/
theorem qualifies_trimImports (clear : AvoidsStrays file reference) :
    resolver.qualifies (resolver.context file.trimImports) reference =
      resolver.qualifies (resolver.context file) reference := by
  have shape (imports : List Import) := resolver.qualifies_withImports file imports reference
  rw [FileFacts.trimImports, shape, shape, leadsThrough_eq, Binding.any_ofImports_trimmed,
    List.any_map]
  · simp only [Function.comp_def, Import.moduleName_trimmed]
  · intro i listed name stray rest
    obtain ⟨⟨-, unqualified⟩, -⟩ := goesBy_eq_false_iff.mp (clear i listed name stray)
    simp [unqualified]

/-- The imports are evidence for the same modules. -/
theorem bestMatch?_trimImports (resolver : Resolver) (clear : AvoidsStrays file reference)
    (usage : Usage) :
    resolver.bestMatch? (resolver.context file.trimImports)
        (RefName.stripSigils reference.name) usage =
      resolver.bestMatch? (resolver.context file) (RefName.stripSigils reference.name) usage := by
  apply SameGround.bestMatch?_eq rfl
  apply (sameGround_trimImports resolver file).score_eq
  intro target
  rw [FileContext.bindingsNamed, FileContext.bindingsNamed, List.any_filter, List.any_filter]
  apply Binding.any_named_trimmed
  intro i listed stray
  obtain ⟨-, other, -⟩ := goesBy_eq_false_iff.mp (clear i listed _ stray)
  exact other rfl

theorem resolve_trimImports (clear : AvoidsStrays file reference) :
    resolver.resolve file.trimImports reference = resolver.resolve file reference := by
  have ground := sameGround_trimImports resolver file
  have matched (usage : Usage) := resolver.bestMatch?_trimImports clear usage
  rw [resolve, resolve, resolveIn_eq, resolveIn_eq, ground.taken?_eq matched,
    ground.leftOver_eq matched, qualifies_trimImports clear]

/-! ## The report -/

theorem groups_trimmed (bindings : List Binding) :
    groups (bindings.map Binding.trimmed) = (groups bindings).map (List.map Binding.trimmed) := by
  have items : (bindings.map Binding.trimmed).any (·.isItem) = bindings.any (·.isItem) := by
    simp only [List.any_map, Function.comp_def, Binding.isItem_trimmed]
  unfold groups
  rw [List.isEmpty_map, items]
  split
  · rfl
  · split
    · rw [List.map_map, List.map_map]
      rfl
    · rfl

theorem unusedGroup?_trimmed (file : FileFacts) (names : List String) (bridged : Bool)
    (group : List Binding) :
    unusedGroup? file.trimImports names bridged (group.map Binding.trimmed) =
      unusedGroup? file names bridged group := by
  cases group with
  | nil => rfl
  | cons first rest =>
    rw [List.map_cons, unusedGroup?, unusedGroup?, ← List.map_cons,
      Binding.any_name_trimmed (uses names),
      Binding.any_name_trimmed fun own => names.any (Text.includes · own),
      Binding.isExplicit_trimmed]
    simp only [Binding.trimmed, Import.moduleName_trimmed]
    unfold Import.trimmed
    rfl

/-- Some reference goes by the whole name of the module that is imported. -/
def SpellsOut (file : FileFacts) (i : Import) : Prop :=
  uses (file.references.map fun reference => RefName.stripSigils reference.name) i.moduleName = true

instance (file : FileFacts) (i : Import) : Decidable (SpellsOut file i) :=
  inferInstanceAs (Decidable (_ = true))

/-- What is reported of the import in a slot of a file. -/
def reportsOn (file : FileFacts) (slot : Nat) (i : Import) : List UnusedImport :=
  (groups (Binding.ofImport slot i)).filterMap (reportOn? file)

/-- Nothing is reported of a plain import that is used by the name of its module. -/
theorem reportsOn_of_used {i : Import} (plain : Binding.isPlain i = true)
    (used : SpellsOut file i) (slot : Nat) : reportsOn file slot i = [] := by
  unfold SpellsOut at used
  rw [reportsOn, Binding.ofImport_of_plain plain]
  by_cases same : i.moduleName = i.baseName
  · simp [groups, Binding.isItem, reportOn?, unusedGroup?, ← same, used]
  · simp [groups, Binding.isItem, reportOn?, unusedGroup?, same, used]

theorem reportsOn_trimmed {i : Import}
    (used : Binding.misnames i = true → SpellsOut file i) (slot : Nat) :
    reportsOn file.trimImports slot i.trimmed = reportsOn file slot i := by
  cases misnamed : Binding.misnames i with
  | false =>
    rw [reportsOn, Binding.ofImport_trimmed misnamed, groups_trimmed, List.filterMap_map]
    exact congrArg (List.filterMap · _) (funext fun group => unusedGroup?_trimmed ..)
  | true =>
    have plain := Binding.isPlain_of_misnames misnamed
    have plain' : Binding.isPlain i.trimmed = true := (Binding.isPlain_trimmed i).trans plain
    have used' : SpellsOut file.trimImports i.trimmed := by
      rw [SpellsOut, i.moduleName_trimmed]
      exact used misnamed
    rw [reportsOn_of_used plain (used misnamed), reportsOn_of_used plain' used']

theorem unusedIn_trimImports
    (used : ∀ i ∈ file.imports, Binding.misnames i = true → SpellsOut file i) :
    unusedIn file.trimImports = unusedIn file := by
  have shape (file : FileFacts) :
      unusedIn file = file.imports.zipIdx.flatMap fun entry => reportsOn file entry.2 entry.1 :=
    rfl
  rw [shape, shape, FileFacts.trimImports, List.zipIdx_map, List.flatMap_map]
  apply List.flatMap_congr
  rintro ⟨i, slot⟩ listed
  exact reportsOn_trimmed (used i (List.fst_mem_of_mem_zipIdx listed)) slot

/-- The resolver with trimmed imports in the file at `path`. -/
def trimAt (path : String) (resolver : Resolver) : Resolver :=
  { resolver with files := resolver.files.map (FileFacts.trimAt path) }

theorem findUnused_trimAt {path : String}
    (used : ∀ file ∈ resolver.files, file.path = path → ∀ i ∈ file.imports,
      Binding.misnames i = true → SpellsOut file i) :
    (resolver.trimAt path).findUnused = resolver.findUnused := by
  have reported : (resolver.files.map (FileFacts.trimAt path)).flatMap unusedIn =
      resolver.files.flatMap unusedIn := by
    rw [List.flatMap_map]
    apply List.flatMap_congr
    intro file held
    unfold FileFacts.trimAt
    split
    · next here => exact unusedIn_trimImports (used file held here)
    · rfl
  rw [findUnused, findUnused, trimAt, reported]

theorem configure_trimAt (resolver : Resolver) (path : String) (settings : Settings) :
    (resolver.trimAt path).configure settings =
      (resolver.configure settings).map (trimAt path) := by
  unfold configure
  cases Bridge.ofRules settings.bridges with
  | error flaw => rfl
  | ok bridges =>
    cases Exclusion.compile settings.resolver.excludedPatterns with
    | error flaw => rfl
    | ok excluded => rfl

end Resolver

open ModuleAtlas.Graph (Edit Roomy replay survivors)

section
variable {s s' : Session} {history : List Edit} {path : String}

theorem files_ofSnapshot (snapshot : Snapshot) :
    (Resolver.ofSnapshot snapshot).files = snapshot.files := rfl

theorem snapshot_files (roomy : Roomy history s.graph) :
    (Session.ask.snapshot s).1.files = (survivors history).values := by
  rw [roomy.snapshot_eq Session.ask]

/-- Graphs that have always had room for their files differ in them by the blanks alone. -/
theorem snapshot_files_trimAt (roomy : Roomy history s.graph)
    (roomy' : Roomy (history.map (Edit.trimAt path)) s'.graph) :
    (Session.ask.snapshot s').1.files =
      (Session.ask.snapshot s).1.files.map (FileFacts.trimAt path) := by
  rw [snapshot_files roomy, snapshot_files roomy', Graph.survivors_trimAt]

end

/-- **Padding.** Two graphs and their files differ by the blanks around the names of the modules
that one file imports. Then they have the same modules, edges and all, and the resolver of one is
that of the other with the file trimmed. A reference in the file is resolved alike, unless it goes
by a last segment that the blanks have changed. The unused imports are the same where each whose
last segment is so changed is used by the whole name of its module. -/
theorem padding_shows_in_last_segments {s s' : Session} {history : List Edit} {path : String}
    (past : s.graph.bare = (replay 0 history).bare)
    (past' : s'.graph.bare = (replay 0 (history.map (Edit.trimAt path))).bare)
    (files : (Session.ask.snapshot s').1.files =
      (Session.ask.snapshot s).1.files.map (FileFacts.trimAt path))
    (settings : Option Settings) :
    s'.graph.modules = s.graph.modules ∧
    s'.resolver settings = (s.resolver settings).map (Resolver.trimAt path) ∧
    ∀ resolver : Resolver,
      (∀ file reference, file.path = path → Resolver.AvoidsStrays file reference →
        (resolver.trimAt path).resolve (file.trimAt path) reference =
          resolver.resolve file reference) ∧
      ((∀ file ∈ resolver.files, file.path = path → ∀ i ∈ file.imports,
        Binding.misnames i = true → Resolver.SpellsOut file i) →
        (resolver.trimAt path).findUnused = resolver.findUnused) := by
  have modules : s'.graph.modules = s.graph.modules := by
    have same := congrArg Graph.modules past
    have same' := congrArg Graph.modules past'
    exact same'.trans ((Graph.replay_trimAt 0 history path).trans same.symm)
  have held : (Session.ask.snapshot s').1.modules = (Session.ask.snapshot s).1.modules := modules
  have snapshot : Resolver.ofSnapshot (Session.ask.snapshot s').1 =
      (Resolver.ofSnapshot (Session.ask.snapshot s).1).trimAt path := by
    simp only [Resolver.ofSnapshot, Resolver.trimAt, files, held]
  refine ⟨modules, ?_, ?_⟩
  · cases settings with
    | none => exact congrArg Except.ok snapshot
    | some settings =>
      rw [Session.resolver, Session.resolver, snapshot]
      exact Resolver.configure_trimAt _ path settings
  · intro resolver
    refine ⟨?_, Resolver.findUnused_trimAt⟩
    rintro file reference rfl clear
    rw [FileFacts.trimAt, if_pos rfl]
    exact Resolver.resolve_trimImports clear

/-- Of three padded imports one is bound by an alias, one has a single segment, and one is used by
the whole name of its module. -/
theorem padding_shows_in_last_segments_whole :
    let core : Import := { target := " core" }
    let util : Import := { target := "pkg.util " }
    let json : Import := { target := " lib.json ", boundAs := some "j" }
    let run : Reference := { name := "core.run" }
    let go : Reference := { name := "pkg.util.go" }
    let main : FileFacts :=
      { path := "main", moduleField := "app", imports := [core, util, json]
        references := [run, go] }
    let other : FileFacts := { path := "other", moduleField := "core", imports := [.plain "app"] }
    let history : List Edit := [.add main, .add other]
    let s : Session := { graph := replay 2 history }
    let s' : Session := { graph := replay 2 (history.map (Edit.trimAt "main")) }
    let resolver : Resolver := .ofSnapshot (Session.ask.snapshot s).1
    main.imports.flatMap Binding.strayNames = [" core", "util ", "util"] ∧
      s'.graph.modules = s.graph.modules ∧
      s'.resolver none = .ok (resolver.trimAt "main") ∧
      (resolver.trimAt "main").resolve (main.trimAt "main") run = resolver.resolve main run ∧
      (resolver.trimAt "main").resolve (main.trimAt "main") go = resolver.resolve main go ∧
      (resolver.trimAt "main").findUnused = resolver.findUnused := by
  intro core util json run go main other history s s' resolver
  have roomy : Roomy history s.graph :=
    .edit (.add other) (.edit (.add main) (.start 2) (by decide +kernel)) (by decide +kernel)
  have roomy' : Roomy (history.map (Edit.trimAt "main")) s'.graph :=
    .edit (.add other) (.edit (.add (main.trimAt "main")) (.start 2) (by decide +kernel))
      (by decide +kernel)
  obtain ⟨modules, made, answers⟩ := padding_shows_in_last_segments roomy.follows.bare
    roomy'.follows.bare (snapshot_files_trimAt roomy roomy') none
  obtain ⟨resolved, unused⟩ := answers resolver
  have used : ∀ file ∈ (Resolver.ofSnapshot (Session.ask.snapshot s).1).files,
      file.path = "main" → ∀ i ∈ file.imports, Binding.misnames i = true →
        Resolver.SpellsOut file i := by
    rw [files_ofSnapshot, snapshot_files roomy]
    decide +kernel
  exact ⟨by decide +kernel, modules, made, resolved main run rfl (by decide +kernel),
    resolved main go rfl (by decide +kernel), unused used⟩

/-- A blank behind the name is part of the last segment: a name that goes by the segment is not
resolved, and the import is reported under a name with the blank. -/
theorem padded_last_segment_is_missed :
    let util : Import := { target := "pkg.util " }
    let run : Reference := { name := "util.run" }
    let main : FileFacts :=
      { path := "app/main.py", moduleField := "app", language := "python", imports := [util]
        references := [run] }
    let resolver : Resolver :=
      .ofSnapshot { modules := (replay 1 [.add main]).modules, files := [main] }
    resolver.resolve main run = .unresolved ∧
      resolver.resolve main.trimImports run = .qualified ∧
      resolver.findUnused =
        [⟨"app/main.py", "python", "pkg.util", "util ", {}, .medium⟩] ∧
      (resolver.trimAt "app/main.py").findUnused = [] := by
  intro util run main resolver
  have none_fits : resolver.symbols.recordsAt (resolver.candidates
      (RefName.stripSigils run.name) run.usage) = Option.toList none := by decide +kernel
  have missed := Resolver.resolve_of_single main (by decide +kernel) (by decide +kernel) none_fits
  have reported : resolver.files.flatMap Resolver.unusedIn =
      [⟨"app/main.py", "python", "pkg.util", "util ", {}, .medium⟩] := by decide +kernel
  have silent : (resolver.trimAt "app/main.py").files.flatMap Resolver.unusedIn = [] := by
    decide +kernel
  refine ⟨missed.trans (by decide +kernel), by decide +kernel, ?_, ?_⟩
  · simp only [Resolver.findUnused, reported, List.mergeSort_singleton]
  · simp only [Resolver.findUnused, silent, List.mergeSort_nil]

end ModuleAtlas
