import ModuleAtlas.Graph
import ModuleAtlas.Proofs.Table
import Mathlib.Tactic.ByContra
import Mathlib.Tactic.Tauto

/-! The index of importers, kept step by step, against the import edges it has to mirror. -/

namespace ModuleAtlas.Graph

open Std (ExtTreeMap ExtTreeSet)

/-- `source` is entered as an importer of `target`. -/
def Entered (index : Table Names) (target source : String) : Prop :=
  ∃ names, index[target]? = some names ∧ source ∈ names

/-- A target that nobody imports has no entry. -/
def Tidy (index : Table Names) : Prop :=
  ∀ (target : String) (names : Names), index[target]? = some names → names ≠ ∅

/-- The module `source` has an edge to `target`, which need not be a module. -/
def Imports (modules : Table ModuleNode) (source target : String) : Prop :=
  ∃ node, modules[source]? = some node ∧ target ∈ node.imports

/-- The index holds the edges between modules turned round, and nothing else. -/
structure Mirrors (index : Table Names) (modules : Table ModuleNode) : Prop where
  entered_iff : ∀ target source,
    Entered index target source ↔ target ∈ modules ∧ Imports modules source target
  tidy : Tidy index

theorem mem_importersOf_iff (g : Graph) (target source : String) :
    source ∈ g.importersOf target ↔ Entered g.importers target source := by
  unfold importersOf Entered
  cases g.importers[target]? <;> simp

theorem Tidy.exists_entered {index : Table Names} (tidy : Tidy index) {target : String}
    (held : target ∈ index) : ∃ source, Entered index target source := by
  obtain ⟨names, hn⟩ := Table.mem_iff_exists.mp held
  obtain ⟨source, hs⟩ : ∃ source, source ∈ names := by
    by_contra none
    refine tidy target names hn (ExtTreeSet.ext_mem fun source => ?_)
    simpa using fun hs => none ⟨source, hs⟩
  exact ⟨source, names, hn, hs⟩

theorem Tidy.ext {index index' : Table Names} (tidy : Tidy index) (tidy' : Tidy index')
    (same : ∀ target source, Entered index target source ↔ Entered index' target source) :
    index = index' := by
  have carried {a b : Table Names} (ta : Tidy a)
      (sub : ∀ target source, Entered a target source ↔ Entered b target source)
      {target : String} {names : Names} (ha : a[target]? = some names) :
      b[target]? = some names := by
    obtain ⟨source, hs⟩ := ta.exists_entered (Table.mem_iff_exists.mpr ⟨names, ha⟩)
    obtain ⟨names', hb, _⟩ := (sub target source).mp hs
    have eq : names' = names := by
      apply ExtTreeSet.ext_mem
      intro m
      have := sub target m
      simpa [Entered, ha, hb] using this.symm
    rw [hb, eq]
  apply ExtTreeMap.ext_getElem?
  intro target
  cases h : index[target]? with
  | some names => exact (carried tidy same h).symm
  | none =>
    cases h' : index'[target]? with
    | none => rfl
    | some names =>
      have := carried tidy' (fun t m => (same t m).symm) h'
      simp [h] at this

section
variable {index : Table Names} {source target t m : String}

theorem entered_linkOne :
    Entered (linkOne index source target) t m ↔ (m = source ∧ t = target) ∨ Entered index t m := by
  unfold Entered linkOne
  simp only [ExtTreeMap.getElem?_alter, Std.LawfulEqCmp.compare_eq_iff_eq]
  by_cases ht : target = t
  · subst ht
    cases index[target]? <;> simp [eq_comm (a := m)]
  · simp [ht, Ne.symm ht]

theorem tidy_linkOne (tidy : Tidy index) : Tidy (linkOne index source target) := by
  intro t names h
  unfold linkOne at h
  rw [ExtTreeMap.getElem?_alter] at h
  split at h
  · obtain rfl := Option.some.inj h
    exact ExtTreeSet.insert_ne_empty
  · exact tidy t names h

theorem entered_unlinkOne :
    Entered (unlinkOne index source target) t m ↔
      ¬ (m = source ∧ t = target) ∧ Entered index t m := by
  unfold Entered unlinkOne
  simp only [ExtTreeMap.getElem?_alter, Std.LawfulEqCmp.compare_eq_iff_eq]
  by_cases ht : target = t
  · subst ht
    cases index[target]? with
    | none => simp
    | some names =>
      cases last : (names.erase source).isEmpty with
      | true =>
        have gone : m ∈ names → m = source := by
          intro hm
          by_contra other
          have kept : m ∈ names.erase source := by simp [hm, Ne.symm other]
          rw [ExtTreeSet.isEmpty_iff.mp last] at kept
          exact ExtTreeSet.not_mem_empty kept
        simp only [↓reduceIte, Option.bind_some, last, reduceCtorEq, false_and, exists_false,
          Option.some.injEq, exists_eq_left', false_iff, not_and, and_true]
        exact fun other hm => other (gone hm)
      | false =>
        simp only [↓reduceIte, Option.bind_some, last, Bool.false_eq_true, Option.some.injEq,
          exists_eq_left', and_true]
        simp [eq_comm (a := m)]
  · simp [ht, Ne.symm ht]

theorem tidy_unlinkOne (tidy : Tidy index) : Tidy (unlinkOne index source target) := by
  intro t names h
  unfold unlinkOne at h
  rw [ExtTreeMap.getElem?_alter] at h
  split at h
  · obtain ⟨held, _, h⟩ := Option.bind_eq_some_iff.mp h
    dsimp only at h
    split at h
    · cases h
    · next rest =>
      obtain rfl := Option.some.inj h
      simpa using rest
  · exact tidy t names h

theorem entered_foldl_linkOne (targets : List String) :
    Entered (targets.foldl (fun index target => linkOne index source target) index) t m ↔
      (m = source ∧ t ∈ targets) ∨ Entered index t m := by
  induction targets generalizing index with
  | nil => simp
  | cons target targets ih =>
    rw [List.foldl_cons, ih, entered_linkOne, List.mem_cons]
    tauto

theorem tidy_foldl_linkOne (tidy : Tidy index) (targets : List String) :
    Tidy (targets.foldl (fun index target => linkOne index source target) index) := by
  induction targets generalizing index with
  | nil => exact tidy
  | cons target targets ih => exact ih (tidy_linkOne tidy)

theorem entered_foldl_unlinkOne (targets : List String) :
    Entered (targets.foldl (fun index target => unlinkOne index source target) index) t m ↔
      ¬ (m = source ∧ t ∈ targets) ∧ Entered index t m := by
  induction targets generalizing index with
  | nil => simp
  | cons target targets ih =>
    rw [List.foldl_cons, ih, entered_unlinkOne, List.mem_cons]
    tauto

theorem tidy_foldl_unlinkOne (tidy : Tidy index) (targets : List String) :
    Tidy (targets.foldl (fun index target => unlinkOne index source target) index) := by
  induction targets generalizing index with
  | nil => exact tidy
  | cons target targets ih => exact ih (tidy_unlinkOne tidy)

end

theorem link_modules (g : Graph) (name : String) : (g.link name).modules = g.modules := by
  unfold link
  split <;> rfl

theorem link_files (g : Graph) (name : String) : (g.link name).files = g.files := by
  unfold link
  split <;> rfl

theorem entered_link (g : Graph) (name t m : String) :
    Entered (g.link name).importers t m ↔
      (m = name ∧ t ∈ g.modules ∧ Imports g.modules name t) ∨ Entered g.importers t m := by
  unfold link
  cases held : g.modules[name]? with
  | none => simp [Imports, held]
  | some node => simp [entered_foldl_linkOne, Imports, held, and_comm]

theorem tidy_link {g : Graph} (tidy : Tidy g.importers) (name : String) :
    Tidy (g.link name).importers := by
  unfold link
  split
  · exact tidy
  · exact tidy_foldl_linkOne tidy _

/-- Linking a module makes the index right if it was right of the others and held no more of
this one than it should. -/
theorem mirrors_link {g : Graph} {name : String} (tidy : Tidy g.importers)
    (others : ∀ t m, m ≠ name →
      (Entered g.importers t m ↔ t ∈ g.modules ∧ Imports g.modules m t))
    (own : ∀ t, Entered g.importers t name → t ∈ g.modules ∧ Imports g.modules name t) :
    Mirrors (g.link name).importers g.modules := by
  refine ⟨fun t m => ?_, tidy_link tidy name⟩
  rw [entered_link]
  by_cases hm : m = name
  · subst hm
    constructor
    · rintro (⟨_, edge⟩ | entered)
      · exact edge
      · exact own t entered
    · exact fun edge => .inl ⟨rfl, edge⟩
  · simp [hm, others t m hm]

theorem Mirrors.congr {index : Table Names} {modules modules' : Table ModuleNode}
    (h : Mirrors index modules) (live : ∀ t, t ∈ modules' ↔ t ∈ modules)
    (edges : ∀ m t, Imports modules' m t ↔ Imports modules m t) : Mirrors index modules' :=
  ⟨fun t m => by rw [live, edges]; exact h.entered_iff t m, h.tidy⟩

theorem imports_insert {modules : Table ModuleNode} {name : String} {node : ModuleNode}
    {m t : String} :
    Imports (modules.insert name node) m t ↔
      (m = name ∧ t ∈ node.imports) ∨ (m ≠ name ∧ Imports modules m t) := by
  unfold Imports
  by_cases hm : name = m
  · subst hm; simp
  · simp [ExtTreeMap.getElem?_insert, hm, Ne.symm hm]

theorem imports_erase {modules : Table ModuleNode} {name m t : String} :
    Imports (modules.erase name) m t ↔ m ≠ name ∧ Imports modules m t := by
  unfold Imports
  by_cases hm : name = m
  · subst hm; simp
  · simp [ExtTreeMap.getElem?_erase, hm, Ne.symm hm]

/-- Every module stands under its own name. -/
def Named (modules : Table ModuleNode) : Prop :=
  ∀ (name : String) (node : ModuleNode), modules[name]? = some node → node.name = name

theorem mem_sources_iff {modules : Table ModuleNode} (named : Named modules)
    {target source : String} :
    source ∈ (modules.values.filter fun node => target ∈ node.imports).map (·.name) ↔
      Imports modules source target := by
  simp only [List.mem_map, List.mem_filter, Table.mem_values_iff, decide_eq_true_eq, Imports]
  constructor
  · rintro ⟨node, ⟨⟨name, held⟩, edge⟩, rfl⟩
    exact ⟨node, by rw [named name node held]; exact held, edge⟩
  · rintro ⟨node, held, edge⟩
    exact ⟨node, ⟨⟨source, held⟩, edge⟩, named source node held⟩

/-- Entering a module that nothing is known of keeps the index right, as the edges that led to
its name before are found again. -/
theorem mirrors_deriveImporters {g : Graph} {name : String} (named : Named g.modules)
    (mirrors : Mirrors g.importers (g.modules.erase name)) (live : name ∈ g.modules)
    (bare : ∀ t, ¬ Imports g.modules name t) :
    Mirrors (g.deriveImporters name).importers (g.deriveImporters name).modules := by
  have absent : ∀ m, ¬ Entered g.importers name m := fun m h =>
    absurd ((mirrors.entered_iff name m).mp h).1 (by simp)
  have sources (m : String) :
      m ∈ (g.modules.values.filter fun node => name ∈ node.imports).map (·.name) ↔
        Imports g.modules m name := mem_sources_iff named
  have elsewhere : ∀ t m, t ≠ name →
      (Entered g.importers t m ↔ t ∈ g.modules ∧ Imports g.modules m t) := by
    intro t m ht
    rw [mirrors.entered_iff, imports_erase]
    have : m = name → ¬ Imports g.modules m t := fun hm => hm ▸ bare t
    simp only [ExtTreeMap.mem_erase, ne_eq, Std.LawfulEqCmp.compare_eq_iff_eq, Ne.symm ht,
      not_false_eq_true, true_and]
    tauto
  unfold deriveImporters
  dsimp only
  split
  case isTrue none =>
    refine ⟨fun t m => ?_, mirrors.tidy⟩
    by_cases ht : t = name
    · subst ht
      have : ¬ Imports g.modules m t := by
        rw [← sources m, List.isEmpty_iff.mp none]
        exact List.not_mem_nil
      simp [absent, this]
    · exact elsewhere t m ht
  case isFalse some =>
    refine ⟨fun t m => ?_, fun t names held => ?_⟩
    · by_cases ht : name = t
      · subst ht
        simp [Entered, sources, live]
      · rw [← elsewhere t m (Ne.symm ht)]
        simp [Entered, ExtTreeMap.getElem?_insert, ht]
    · rw [ExtTreeMap.getElem?_insert] at held
      split at held
      · obtain rfl := Option.some.inj held
        simpa using some
      · exact mirrors.tidy t names held

theorem deriveImporters_modules (g : Graph) (name : String) :
    (g.deriveImporters name).modules = g.modules := by
  unfold deriveImporters
  dsimp only
  split <;> rfl

theorem deriveImporters_files (g : Graph) (name : String) :
    (g.deriveImporters name).files = g.files := by
  unfold deriveImporters
  dsimp only
  split <;> rfl

theorem ensureModule_files (g : Graph) (name : String) :
    (g.ensureModule name).files = g.files := by
  unfold ensureModule
  split
  · rfl
  · exact deriveImporters_files _ _

theorem ensureModule_modules (g : Graph) (name : String) :
    (g.ensureModule name).modules =
      if name ∈ g.modules then g.modules else g.modules.insert name { name } := by
  unfold ensureModule
  split
  · rfl
  · exact deriveImporters_modules _ _

theorem Named.insert {modules : Table ModuleNode} (named : Named modules) {name : String}
    {node : ModuleNode} (own : node.name = name) : Named (modules.insert name node) := by
  intro other held h
  rw [ExtTreeMap.getElem?_insert] at h
  split at h
  · next eq =>
    obtain rfl := Option.some.inj h
    exact own.trans (Std.LawfulEqCmp.eq_of_compare eq)
  · exact named other held h

theorem mirrors_ensureModule {g : Graph} (named : Named g.modules)
    (mirrors : Mirrors g.importers g.modules) (name : String) :
    Mirrors (g.ensureModule name).importers (g.ensureModule name).modules := by
  unfold ensureModule
  split
  · exact mirrors
  · next fresh =>
    have erased : (g.modules.insert name { name }).erase name = g.modules := by
      apply ExtTreeMap.ext_getElem?
      intro n
      by_cases hn : name = n
      · subst hn
        simp [ExtTreeMap.getElem?_eq_none fresh]
      · simp [ExtTreeMap.getElem?_erase, ExtTreeMap.getElem?_insert, hn]
    apply mirrors_deriveImporters
    · exact named.insert rfl
    · simpa only [erased] using mirrors
    · simp
    · simp [imports_insert]

/-- A module that only gains edges needs to be linked again, and no more. -/
theorem mirrors_link_of_grown {g : Graph} {modules : Table ModuleNode} {name : String}
    {node node' : ModuleNode} (mirrors : Mirrors g.importers modules)
    (held : modules[name]? = some node) (set : g.modules = modules.insert name node')
    (grown : ∀ t ∈ node.imports, t ∈ node'.imports) :
    Mirrors (g.link name).importers g.modules := by
  have live := Table.mem_insert_of_held held node'
  apply mirrors_link
  · exact mirrors.tidy
  · intro t m hm
    rw [set, live, imports_insert, mirrors.entered_iff]
    simp [hm]
  · intro t entered
    obtain ⟨ht, other, held', edge⟩ := (mirrors.entered_iff t name).mp entered
    obtain rfl : node = other := Option.some.inj (held.symm.trans held')
    rw [set]
    exact ⟨(live t).mpr ht, imports_insert.mpr (.inl ⟨rfl, grown t edge⟩)⟩

theorem mirrors_purge {g : Graph} (mirrors : Mirrors g.importers g.modules) (name : String) :
    Mirrors (g.purge name).importers (g.purge name).modules := by
  unfold purge
  split
  · exact mirrors
  · next node held =>
    refine ⟨fun t m => ?_, fun t names ht => ?_⟩
    · change Entered (ExtTreeMap.erase (List.foldl _ _ _) name) t m ↔
        t ∈ g.modules.erase name ∧ Imports (g.modules.erase name) m t
      have entered_erase : ∀ index : Table Names,
          Entered (index.erase name) t m ↔ t ≠ name ∧ Entered index t m := by
        intro index
        unfold Entered
        by_cases ht : name = t
        · subst ht; simp
        · simp [ExtTreeMap.getElem?_erase, ht, Ne.symm ht]
      have own : Imports g.modules name t ↔ t ∈ node.imports := by simp [Imports, held]
      rw [entered_erase, entered_foldl_unlinkOne, mirrors.entered_iff, imports_erase,
        ExtTreeMap.mem_erase, ExtTreeMap.mem_keys, ne_eq, ne_eq,
        Std.LawfulEqCmp.compare_eq_iff_eq, eq_comm (a := name)]
      by_cases hm : m = name
      · subst hm; tauto
      · tauto
    · rw [ExtTreeMap.getElem?_erase] at ht
      split at ht
      · cases ht
      · exact tidy_foldl_unlinkOne mirrors.tidy _ t names ht

theorem mirrors_rebuild {g : Graph} (mirrors : Mirrors g.importers g.modules) (name : String) :
    Mirrors (g.rebuild name).importers (g.rebuild name).modules := by
  unfold rebuild
  split
  · exact mirrors
  · next node held =>
    have live := Table.mem_insert_of_held held (node.rebuild g.files)
    have own (t : String) : Imports g.modules name t ↔ t ∈ node.imports := by
      simp [Imports, held]
    rw [link_modules]
    apply mirrors_link
    · exact tidy_foldl_unlinkOne mirrors.tidy _
    · intro t m hm
      change Entered (List.foldl _ _ _) t m ↔ t ∈ g.modules.insert name _ ∧ _
      rw [entered_foldl_unlinkOne, mirrors.entered_iff, live]
      change _ ↔ _ ∧ Imports (g.modules.insert name _) m t
      rw [imports_insert]
      simp [hm]
    · intro t entered
      change Entered (List.foldl _ _ _) t name at entered
      rw [entered_foldl_unlinkOne, mirrors.entered_iff, own] at entered
      obtain ⟨kept, ht, edge⟩ := entered
      refine ⟨(live t).mpr ht, imports_insert.mpr (.inl ⟨rfl, ?_⟩)⟩
      simpa [edge] using kept

end ModuleAtlas.Graph
