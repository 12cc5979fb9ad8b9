import ModuleAtlas.Proofs.Resolver.Stages
import Mathlib.Data.List.Perm.Basic

/-!
# Imports that are reported as unused

The report goes by the names that an import binds. Resolution reads these names, for qualified names
and as evidence for a match, but last of all it also reads the module's own name, which an import
with an alias or with items does not bind. So a reported import can be deleted, except that names
qualified by the module's own name may have needed it: `unused_import_can_go`.
-/

namespace ModuleAtlas

def FileFacts.withoutImport (file : FileFacts) (slot : Nat) : FileFacts :=
  { file with imports := file.imports.eraseIdx slot }

namespace Binding

variable {imports : List Import} {slot : Nat} {i : Import} {p : Binding → Bool}

theorem explicits_eq_map (slot slot' : Nat) (i : Import) :
    explicits slot i = (explicits slot' i).map fun b => { b with slot } := by
  simp only [explicits, List.map_append, List.map_map]
  rfl

/-- Where an import stands says nothing about what it binds. -/
theorem ofImport_eq_map (slot slot' : Nat) (i : Import) :
    ofImport slot i = (ofImport slot' i).map fun b => { b with slot } := by
  unfold ofImport
  rw [explicits_eq_map slot slot', List.isEmpty_map]
  split
  · rfl
  · split
    · split <;> rfl
    · rfl

theorem any_ofImports (free : ∀ b slot, p { b with slot } = p b) :
    (ofImports imports).any p = imports.any fun i => (ofImport 0 i).any p := by
  have each (slot : Nat) (i : Import) : (ofImport slot i).any p = (ofImport 0 i).any p := by
    rw [ofImport_eq_map slot 0 i, List.any_map]
    exact congrArg _ (funext fun b => free b slot)
  calc (ofImports imports).any p
      = imports.zipIdx.any ((fun i => (ofImport 0 i).any p) ∘ Prod.fst) := by
        simp only [ofImports, List.any_flatMap, each, Function.comp_def]
    _ = imports.any fun i => (ofImport 0 i).any p := by
        rw [← List.any_map, List.zipIdx_map_fst]

theorem any_eraseIdx (place : imports[slot]? = some i) (p : Import → Bool) :
    imports.any p = (p i || (imports.eraseIdx slot).any p) := by
  obtain ⟨bound, rfl⟩ := List.getElem?_eq_some_iff.mp place
  have moved := List.getElem_cons_eraseIdx_perm bound
  rw [← moved.any_eq, List.any_cons]

/-- An import can go without notice where none of its bindings is asked for. -/
theorem any_ofImports_eraseIdx (place : imports[slot]? = some i)
    (free : ∀ b slot, p { b with slot } = p b) (unasked : ∀ b ∈ ofImport slot i, p b = false) :
    (ofImports (imports.eraseIdx slot)).any p = (ofImports imports).any p := by
  have none : (ofImport 0 i).any p = false := by
    rw [List.any_eq_false]
    intro b held
    rw [ofImport_eq_map 0 slot i] at held
    obtain ⟨b', held', rfl⟩ := List.mem_map.mp held
    simp [free, unasked b' held']
  rw [any_ofImports free, any_ofImports free, any_eraseIdx place, none, Bool.false_or]

/-- An import that binds a name, and none by alias or as an item, binds the name of its module. -/
theorem exists_moduleName (binds : ofImport slot i ≠ [])
    (plain : (ofImport slot i).any (·.isExplicit) = false) :
    ∃ b ∈ ofImport slot i, b.name = i.moduleName := by
  revert binds plain
  unfold ofImport
  split
  · exact fun binds => absurd rfl binds
  · split
    · intro _ _
      split
      · next same => exact ⟨_, List.mem_cons_self, same.symm⟩
      · exact ⟨_, List.mem_cons_of_mem _ List.mem_cons_self, rfl⟩
    · -- items and aliases are explicit
      intro binds plain
      rw [List.any_eq_false] at plain
      obtain ⟨b, found⟩ := List.exists_mem_of_ne_nil _ binds
      refine absurd ?_ (plain b found)
      rcases List.mem_append.mp found with found | found
      · obtain ⟨item, -, rfl⟩ := List.mem_map.mp found
        rfl
      · obtain ⟨name, -, rfl⟩ := List.mem_map.mp found
        rfl

end Binding

namespace Resolver

/-! ## The report -/

/-- What is reported of bindings that belong together. -/
def reportOn? (file : FileFacts) (group : List Binding) : Option UnusedImport :=
  unusedGroup? file (file.references.map fun reference => RefName.stripSigils reference.name)
    (file.references.any fun reference => reference.usage.isBridge) group

/-- The import in a slot of a file binds names, and all of them are reported. -/
def ReportsUnused (resolver : Resolver) (file : FileFacts) (slot : Nat) (i : Import) : Prop :=
  Binding.ofImport slot i ≠ [] ∧ ∀ group ∈ groups (Binding.ofImport slot i),
    ∃ entry ∈ resolver.findUnused, reportOn? file group = some entry

section
variable {resolver : Resolver} {file : FileFacts} {slot : Nat} {i : Import} {b : Binding}
  {bindings group : List Binding} {reference : Reference}

/-- The files of a resolver are searched, so what there is to report of them is reported. -/
theorem reportsUnused_of_held (held : file ∈ resolver.files)
    (place : file.imports[slot]? = some i) (binds : Binding.ofImport slot i ≠ [])
    (unused : ∀ group ∈ groups (Binding.ofImport slot i), (reportOn? file group).isSome) :
    resolver.ReportsUnused file slot i := by
  refine ⟨binds, fun group grouped => ?_⟩
  obtain ⟨entry, reported⟩ := Option.isSome_iff_exists.mp (unused group grouped)
  refine ⟨entry, ?_, reported⟩
  rw [findUnused, List.mem_mergeSort, List.mem_flatMap]
  refine ⟨file, held, List.mem_flatMap.mpr ⟨(i, slot), ?_, ?_⟩⟩
  · exact List.mem_zipIdx_iff_getElem?.mpr place
  · exact List.mem_filterMap.mpr ⟨group, grouped, reported⟩

theorem exists_group (held : b ∈ bindings) : ∃ group ∈ groups bindings, b ∈ group := by
  have filled : bindings.isEmpty = false := by
    rw [List.isEmpty_eq_false_iff]
    exact List.ne_nil_of_mem held
  unfold groups
  rw [filled, if_neg Bool.false_ne_true]
  split
  · exact ⟨[b], List.mem_map.mpr ⟨b, held, rfl⟩, List.mem_singleton_self b⟩
  · exact ⟨bindings, List.mem_singleton_self bindings, held⟩

/-- A name that is bound and reported neither starts a reference nor qualifies one. -/
theorem ReportsUnused.unused (h : resolver.ReportsUnused file slot i)
    (held : b ∈ Binding.ofImport slot i) (made : reference ∈ file.references) :
    RefName.leadingIdentifier (RefName.stripSigils reference.name) ≠ b.name ∧
      RefName.stripQualifier? (RefName.stripSigils reference.name) b.name = none := by
  obtain ⟨group, grouped, member⟩ := exists_group held
  obtain ⟨entry, -, reported⟩ := h.2 group grouped
  unfold reportOn? unusedGroup? at reported
  split at reported
  · cases member
  · split at reported
    · cases reported
    · next unused =>
      rw [List.any_eq_true, not_exists] at unused
      have idle := mt (And.intro member) (unused b)
      rw [uses, List.any_eq_true, not_exists] at idle
      simpa using mt (And.intro (List.mem_map_of_mem made)) (idle _)

end

/-! ## A file without an import -/

variable {resolver : Resolver} {file : FileFacts} {slot : Nat} {i : Import} {reference : Reference}

theorem sameGround_withoutImport (resolver : Resolver) (file : FileFacts) (slot : Nat) :
    SameGround resolver resolver (resolver.context (file.withoutImport slot))
      (resolver.context file) :=
  ⟨rfl, rfl, rfl, rfl, rfl, rfl⟩

/-- An import counts as evidence for a match only if it binds the head of the name. -/
theorem bestMatch?_withoutImport (resolver : Resolver) (place : file.imports[slot]? = some i)
    {name : String} (unbound : ¬ ∃ b ∈ Binding.ofImport slot i,
      b.name = RefName.leadingIdentifier (RefName.stripSigils name)) (usage : Usage) :
    resolver.bestMatch? (resolver.context (file.withoutImport slot)) name usage =
      resolver.bestMatch? (resolver.context file) name usage := by
  apply SameGround.bestMatch?_eq rfl
  apply (sameGround_withoutImport resolver file slot).score_eq
  intro target
  rw [FileContext.bindingsNamed, FileContext.bindingsNamed, List.any_filter, List.any_filter]
  apply Binding.any_ofImports_eraseIdx place
  · exact fun _ _ => rfl
  · intro b held
    simp [show ¬ b.name = _ from fun named => unbound ⟨b, held, named⟩]

/-- What the module of the file defines has nothing to do with the imports. These count by what they
bind and by the names of their modules. -/
theorem qualifies_withImports (resolver : Resolver) (file : FileFacts) (imports : List Import)
    (reference : Reference) :
    let ctx := resolver.context file
    let name := RefName.stripSigils reference.name
    resolver.qualifies (resolver.context { file with imports }) reference =
      (ctx.moduleDefines (RefName.leadingIdentifier name) || ctx.moduleDefines name ||
        resolver.leadsInto ctx name ctx.moduleName ||
        (Binding.ofImports imports).any (resolver.leadsThrough ctx name) ||
        imports.any fun i => resolver.leadsInto ctx name i.moduleName) := rfl

/-- Names are qualified as before, or by the name of the module that is imported. -/
theorem ReportsUnused.qualifies_eq (h : resolver.ReportsUnused file slot i)
    (place : file.imports[slot]? = some i) (made : reference ∈ file.references) :
    resolver.qualifies (resolver.context file) reference =
      (resolver.qualifies (resolver.context (file.withoutImport slot)) reference ||
        resolver.leadsInto (resolver.context file) (RefName.stripSigils reference.name)
          i.moduleName) := by
  let ctx := resolver.context file
  let name := RefName.stripSigils reference.name
  have shape (imports : List Import) := resolver.qualifies_withImports file imports reference
  have bound := Binding.any_ofImports_eraseIdx place (p := resolver.leadsThrough ctx name)
    (fun _ _ => rfl) fun b held => by simp [leadsThrough, name, (h.unused held made).2]
  have named := Binding.any_eraseIdx place fun i => resolver.leadsInto ctx name i.moduleName
  rw [FileFacts.withoutImport, shape, shape, bound, named,
    Bool.or_comm (resolver.leadsInto ctx name i.moduleName), ← Bool.or_assoc]

/-- An import without alias and items binds the name of its module, so no reference goes by it. -/
theorem ReportsUnused.leadsInto_eq_false (h : resolver.ReportsUnused file slot i)
    (made : reference ∈ file.references)
    (plain : (Binding.ofImport slot i).any (·.isExplicit) = false) :
    resolver.leadsInto (resolver.context file) (RefName.stripSigils reference.name)
      i.moduleName = false := by
  obtain ⟨b, held, named⟩ := Binding.exists_moduleName h.1 plain
  rw [leadsInto, ← named, (h.unused held made).2]
  rfl

/-- **Deletion.** Without an import that is reported as unused, a reference is resolved as before,
with two exceptions. The import has an alias or items, and the reference was qualified by the name of
its module and is no more; or the import binds what a second stripping of sigils uncovers. -/
theorem unused_import_can_go (place : file.imports[slot]? = some i)
    (reported : resolver.ReportsUnused file slot i) (made : reference ∈ file.references) :
    resolver.resolve (file.withoutImport slot) reference = resolver.resolve file reference ∨
      ((Binding.ofImport slot i).any (·.isExplicit) = true ∧
        resolver.leadsInto (resolver.context file) (RefName.stripSigils reference.name)
          i.moduleName = true ∧
        resolver.resolve file reference = .qualified ∧
        resolver.resolve (file.withoutImport slot) reference ≠ .qualified) ∨
      ∃ b ∈ Binding.ofImport slot i, b.name = RefName.leadingIdentifier
        (RefName.stripSigils (RefName.stripSigils reference.name)) := by
  rw [← or_assoc, or_iff_not_imp_right]
  intro unbound
  have ground := sameGround_withoutImport resolver file slot
  have matched (usage : Usage) := resolver.bestMatch?_withoutImport place unbound usage
  have taken := ground.taken?_eq matched
  have late := ground.leftOver_eq matched
  have qualified := reported.qualifies_eq place made
  cases into : resolver.leadsInto (resolver.context file) (RefName.stripSigils reference.name)
      i.moduleName with
  | false =>
    left
    rw [into, Bool.or_false] at qualified
    rw [resolve, resolve, resolveIn_eq, resolveIn_eq, taken, late, qualified]
  | true =>
    rw [into, Bool.or_true] at qualified
    by_cases same :
        resolver.resolve (file.withoutImport slot) reference = resolver.resolve file reference
    · exact .inl same
    · have explicit : (Binding.ofImport slot i).any (·.isExplicit) = true := by
        rw [← Bool.not_eq_false]
        intro plain
        cases into.symm.trans (reported.leadsInto_eq_false made plain)
      have free : resolver.taken? (resolver.context file) reference = none := by
        rw [← Option.not_isSome_iff_eq_none, Option.isSome_iff_exists]
        rintro ⟨answer, early⟩
        apply same
        rw [resolve, resolve, resolveIn_eq, resolveIn_eq, taken, early, Option.getD_some,
          Option.getD_some]
      have before : resolver.resolve file reference = .qualified :=
        (resolver.resolveIn_eq_qualified_iff _ reference).mpr ⟨free, qualified⟩
      exact .inr ⟨explicit, rfl, before, before ▸ same⟩

/-- An import of one module is not used and goes, and names of another stay as they are. -/
theorem unused_import_can_go_alias :
    let numpy : Import := { target := "numpy", boundAs := some "np" }
    let reference : Reference := { name := "core.run" }
    let file : FileFacts :=
      { path := "app", moduleField := "app", imports := [numpy, .plain "core"]
        references := [reference] }
    let resolver : Resolver := .ofSnapshot { modules := ∅, files := [file] }
    resolver.ReportsUnused file 0 numpy ∧
      resolver.resolve (file.withoutImport 0) reference = resolver.resolve file reference := by
  intro numpy reference file resolver
  have reported : resolver.ReportsUnused file 0 numpy :=
    reportsUnused_of_held (List.mem_singleton_self file) rfl (by decide +kernel) (by decide +kernel)
  refine ⟨reported, ?_⟩
  rcases unused_import_can_go rfl reported (List.mem_singleton_self reference)
    with same | ⟨-, into, -⟩ | bound
  · exact same
  · revert into
    decide +kernel
  · revert bound
    decide +kernel

/-- An alias is not used, but a name goes by the full name of the module and is not resolved without
the import. An item is not used, but it counts for a name from which sigils are stripped twice. -/
theorem unused_import_can_matter :
    let numpy : Import := { target := "numpy", boundAs := some "np" }
    let array : Reference := { name := "numpy.array" }
    let main : FileFacts :=
      { path := "app/main.py", moduleField := "app", language := "python", imports := [numpy]
        references := [array] }
    let core : Import := { target := "core", items := ["run"] }
    let marked : Reference := { name := "* *run" }
    let other : FileFacts :=
      { path := "app/other.py", moduleField := "app", language := "python", imports := [core]
        references := [marked] }
    let run : Definition := { name := "run", kind := .function, exported := true }
    let library : FileFacts :=
      { path := "core/a.py", moduleField := "core", language := "python", definitions := [run] }
    let files := [main, other, library]
    let resolver : Resolver :=
      .ofSnapshot { modules := ((Graph.empty 3).addAll files).modules, files }
    (resolver.ReportsUnused main 0 numpy ∧ array ∈ main.references ∧
      resolver.resolve main array = .qualified ∧
      resolver.resolve (main.withoutImport 0) array = .unresolved) ∧
    (resolver.ReportsUnused other 0 core ∧ marked ∈ other.references ∧
      resolver.resolve (other.withoutImport 0) marked ≠ resolver.resolve other marked) := by
  intro numpy array main core marked other run library files resolver
  have none_fits : resolver.symbols.recordsAt (resolver.candidates
      (RefName.stripSigils array.name) array.usage) = Option.toList none := by decide +kernel
  have run_fits : resolver.symbols.recordsAt (resolver.candidates
      (RefName.stripSigils marked.name) marked.usage) = resolver.symbols.records[0]?.toList := by
    decide +kernel
  have missed := resolve_of_single (main.withoutImport 0) (by decide +kernel)
    (by decide +kernel) none_fits
  have before := resolve_of_single other (by decide +kernel) (by decide +kernel) run_fits
  have after := resolve_of_single (other.withoutImport 0) (by decide +kernel)
    (by decide +kernel) run_fits
  refine ⟨⟨?_, List.mem_singleton_self array, by decide +kernel, ?_⟩,
    ?_, List.mem_singleton_self marked, fun same => ?_⟩
  · exact reportsUnused_of_held List.mem_cons_self rfl (by decide +kernel) (by decide +kernel)
  · exact missed.trans (by decide +kernel)
  · exact reportsUnused_of_held (List.mem_cons_of_mem _ List.mem_cons_self) rfl (by decide +kernel)
      (by decide +kernel)
  · have equal := after.symm.trans (same.trans before)
    revert equal
    decide +kernel

end Resolver

end ModuleAtlas
