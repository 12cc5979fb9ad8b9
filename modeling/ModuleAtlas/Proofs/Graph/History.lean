import ModuleAtlas.Proofs.Graph.Importers
import ModuleAtlas.Proofs.Graph.Merge

/-!
# Graphs and the files they hold

Whatever has been added and removed, a graph is what the files it holds now make of it: `Derived`
says so, and every step keeps it.
-/

namespace ModuleAtlas.Graph

open Std (ExtTreeMap ExtTreeSet)

/-- The modules are those of the files, each is made by its own files, and the index mirrors
their edges. -/
structure Derived (g : Graph) : Prop where
  live_iff : ∀ name, name ∈ g.modules ↔ ∃ path, g.moduleOf? path = some name
  made : ∀ (name : String) (node : ModuleNode), g.modules[name]? = some node →
    node.unattributed = (ModuleNode.made name (membersOf g.files name)).unattributed
  mirrors : Mirrors g.importers g.modules

theorem moduleOf?_eq_some_iff {g : Graph} {path name : String} :
    g.moduleOf? path = some name ↔ path ∈ (membersOf g.files name).map Prod.fst := by
  rw [mem_paths_membersOf]
  simp [moduleOf?]

namespace Derived

variable {g : Graph} {name : String} {node : ModuleNode}

theorem named (h : Derived g) : Named g.modules := by
  intro name node held
  have := congrArg ModuleNode.name (h.made name node held)
  exact this.trans (ModuleNode.gather_name _ _)

theorem files_eq (h : Derived g) (held : g.modules[name]? = some node) :
    node.files = .ofList ((membersOf g.files name).map Prod.fst) :=
  congrArg ModuleNode.files (h.made name node held)

theorem mem_files_iff (h : Derived g) (held : g.modules[name]? = some node) (path : String) :
    path ∈ node.files ↔ g.moduleOf? path = some name := by
  rw [moduleOf?_eq_some_iff, h.files_eq held, ExtTreeSet.mem_ofList, List.contains_iff_mem]

theorem mem_imports_iff (h : Derived g) (held : g.modules[name]? = some node) (target : String) :
    target ∈ node.imports ↔
      ∃ member ∈ membersOf g.files name, member.2.leadsTo name target = true := by
  have edges := congrArg (target ∈ ·.imports) (h.made name node held)
  simp only [ModuleNode.unattributed, ExtTreeMap.mem_map, ModuleNode.made,
    ModuleNode.withFiles, ModuleNode.mem_gather_imports] at edges
  simpa using edges

theorem not_mem_own_imports (h : Derived g) (held : g.modules[name]? = some node) :
    name ∉ node.imports := by
  rw [h.mem_imports_iff held]
  rintro ⟨member, _, leads⟩
  simp [Contribution.leadsTo] at leads

theorem empty (capacity : Nat) : Derived (.empty capacity) where
  live_iff := by simp [Graph.empty, moduleOf?]
  made := by simp [Graph.empty]
  mirrors := ⟨by simp [Graph.empty, Entered], by simp [Graph.empty, Tidy]⟩

end Derived

/-! ## Entering a file -/

theorem apply_files (g : Graph) (path : String) (c : Contribution) :
    (g.apply path c).files = g.files.insert path c := by
  simp only [apply, link_files, ensureModule_files]

/-- The module that a file finds, or a new one. -/
def home (g : Graph) (name : String) : ModuleNode :=
  g.modules[name]?.getD { name }

theorem ensureModule_home (g : Graph) (name : String) :
    (g.ensureModule name).modules[name]? = some (g.home name) := by
  rw [ensureModule_modules, home]
  split
  · next live =>
    obtain ⟨node, held⟩ := Table.mem_iff_exists.mp live
    rw [held, Option.getD_some]
  · next fresh => simp [ExtTreeMap.getElem?_eq_none fresh]

theorem apply_modules (g : Graph) (path : String) (c : Contribution) :
    (g.apply path c).modules = g.modules.insert c.moduleName
      (((g.home c.moduleName).withFiles ((g.home c.moduleName).files.insert path)).contribute
        path c) := by
  simp only [apply, link_modules]
  rw [Table.modify_eq_insert (ensureModule_home g c.moduleName), ensureModule_modules]
  split
  · rfl
  · apply ExtTreeMap.ext_getElem?
    intro name
    by_cases hn : c.moduleName = name <;>
      simp [ExtTreeMap.getElem?_insert, hn, ModuleNode.withFiles]

theorem mirrors_apply {g : Graph} (h : Derived g) (path : String) (c : Contribution) :
    Mirrors (g.apply path c).importers (g.apply path c).modules := by
  have held := ensureModule_home g c.moduleName
  have ensured := mirrors_ensureModule h.named h.mirrors c.moduleName
  simp only [apply, link_modules]
  refine mirrors_link_of_grown ensured held (Table.modify_eq_insert held _) ?_
  intro t edge
  exact (ModuleNode.mem_contribute_imports _ _ _ _).mpr (.inr edge)

theorem home_made {g : Graph} (h : Derived g) (name : String) :
    (g.home name).unattributed = (ModuleNode.made name (membersOf g.files name)).unattributed := by
  unfold home
  cases held : g.modules[name]? with
  | some node => exact h.made name node held
  | none =>
    have none : membersOf g.files name = [] := by
      apply List.eq_nil_iff_forall_not_mem.mpr
      intro member hm
      obtain ⟨node, found⟩ := Table.mem_iff_exists.mp ((h.live_iff name).mpr
        ⟨member.1, moduleOf?_eq_some_iff.mpr (List.mem_map_of_mem hm)⟩)
      simp [held] at found
    rw [none]
    rfl

theorem apply_derived {g : Graph} (h : Derived g) {path : String} (fresh : path ∉ g.files)
    (c : Contribution) : Derived (g.apply path c) where
  live_iff name := by
    have absent : g.files[path]? = none := ExtTreeMap.getElem?_eq_none fresh
    simp only [apply_modules, ExtTreeMap.mem_insert, Std.LawfulEqCmp.compare_eq_iff_eq,
      h.live_iff, moduleOf?, apply_files]
    constructor
    · rintro (rfl | ⟨p, hp⟩)
      · exact ⟨path, by simp⟩
      · refine ⟨p, ?_⟩
        have : path ≠ p := by
          rintro rfl
          simp [absent] at hp
        simpa [ExtTreeMap.getElem?_insert, this] using hp
    · rintro ⟨p, hp⟩
      by_cases eq : path = p
      · subst eq
        exact .inl (by simpa using hp)
      · exact .inr ⟨p, by simpa [ExtTreeMap.getElem?_insert, eq] using hp⟩
  made name node held := by
    rw [apply_files]
    rw [apply_modules, ExtTreeMap.getElem?_insert] at held
    split at held
    · next eq =>
      obtain rfl := Std.LawfulEqCmp.eq_of_compare eq
      obtain rfl := Option.some.inj held
      have absent : path ∉ (membersOf g.files c.moduleName).map Prod.fst := by
        rw [mem_paths_membersOf]
        rintro ⟨d, hd, _⟩
        exact fresh (Table.mem_iff_exists.mpr ⟨d, hd⟩)
      rw [ModuleNode.enter_made (home_made h _) (membersOf_distinct _ _) absent]
      exact (ModuleNode.made_perm _ (membersOf_insert fresh c) (membersOf_distinct _ _)).symm
    · next ne =>
      have other : c.moduleName ≠ name := by simpa using ne
      rw [h.made name node held]
      exact (ModuleNode.made_perm _ (membersOf_insert_other fresh other)
        (membersOf_distinct _ _)).symm
  mirrors := mirrors_apply h path c

/-! ## Taking a file out -/

theorem purge_files (g : Graph) (name : String) : (g.purge name).files = g.files := by
  unfold purge
  split <;> rfl

theorem purge_modules (g : Graph) (name : String) :
    (g.purge name).modules = g.modules.erase name := by
  unfold purge
  split
  · next absent =>
    apply ExtTreeMap.ext_getElem?
    intro n
    by_cases hn : name = n
    · subst hn; simp [absent]
    · simp [ExtTreeMap.getElem?_erase, hn]
  · rfl

theorem rebuild_files (g : Graph) (name : String) : (g.rebuild name).files = g.files := by
  unfold rebuild
  split
  · rfl
  · exact link_files _ _

theorem rebuild_modules {g : Graph} {name : String} {node : ModuleNode}
    (held : g.modules[name]? = some node) :
    (g.rebuild name).modules = g.modules.insert name (node.rebuild g.files) := by
  simp only [rebuild, held, link_modules]
  rfl

theorem retract_of_untracked {g : Graph} {path : String} (absent : path ∉ g.files) :
    g.retract path = g := by
  simp [retract, ExtTreeMap.getElem?_eq_none absent]

/-- The graph between the two halves of a retraction: the file is gone, its module not yet
mended. -/
def dropFile (g : Graph) (path name : String) (node : ModuleNode) : Graph :=
  { g with
    files := g.files.erase path
    modules := g.modules.insert name (node.withFiles (node.files.erase path)) }

theorem retract_eq {g : Graph} {path : String} {c : Contribution} {node : ModuleNode}
    (tracked : g.files[path]? = some c) (held : g.modules[c.moduleName]? = some node) :
    g.retract path =
      if (node.files.erase path).isEmpty then (g.dropFile path c.moduleName node).purge c.moduleName
      else (g.dropFile path c.moduleName node).rebuild c.moduleName := by
  simp only [retract, tracked, held]
  rfl

theorem retract_files {g : Graph} (h : Derived g) (path : String) :
    (g.retract path).files = g.files.erase path := by
  cases tracked : g.files[path]? with
  | none =>
    have absent : path ∉ g.files := by simp [Table.mem_iff_exists, tracked]
    rw [retract_of_untracked absent]
    apply ExtTreeMap.ext_getElem?
    intro p
    by_cases hp : path = p
    · subst hp; simp [tracked]
    · simp [ExtTreeMap.getElem?_erase, hp]
  | some c =>
    have live := (h.live_iff c.moduleName).mpr ⟨path, by simp [moduleOf?, tracked]⟩
    obtain ⟨node, held⟩ := Table.mem_iff_exists.mp live
    rw [retract_eq tracked held]
    split
    · exact purge_files _ _
    · exact rebuild_files _ _

theorem mirrors_dropFile {g : Graph} (h : Derived g) {name : String} {node : ModuleNode}
    (held : g.modules[name]? = some node) (path : String) :
    Mirrors (g.dropFile path name node).importers (g.dropFile path name node).modules := by
  apply h.mirrors.congr
  · exact Table.mem_insert_of_held held _
  · intro m t
    simp only [dropFile, imports_insert, ModuleNode.withFiles]
    by_cases hm : m = name
    · subst hm; simp [Imports, held]
    · simp [hm]

/-- What other modules consist of does not change when a file goes. -/
theorem membersOf_erase_other {files : Table Contribution} {path : String} {c : Contribution}
    (tracked : files[path]? = some c) {name : String} (other : c.moduleName ≠ name) :
    (membersOf (files.erase path) name).Perm (membersOf files name) := by
  apply (List.perm_ext_iff_of_nodup (membersOf_nodup _ _) (membersOf_nodup _ _)).mpr
  rintro ⟨p, d⟩
  rw [mem_membersOf_erase]
  refine ⟨And.right, fun hd => ⟨?_, hd⟩⟩
  rintro rfl
  obtain ⟨hd, named⟩ := mem_membersOf.mp hd
  rw [tracked] at hd
  exact other (by rw [Option.some.inj hd]; exact named)

section
variable {g : Graph} {path : String} {c : Contribution} {node : ModuleNode}

theorem retract_moduleOf? (h : Derived g) (path p : String) :
    (g.retract path).moduleOf? p = if path = p then none else g.moduleOf? p := by
  simp only [moduleOf?, retract_files h, ExtTreeMap.getElem?_erase,
    Std.LawfulEqCmp.compare_eq_iff_eq]
  split <;> rfl

theorem retract_live_other (h : Derived g) (tracked : g.files[path]? = some c) {name : String}
    (other : c.moduleName ≠ name) :
    name ∈ g.modules ↔ ∃ p, (g.retract path).moduleOf? p = some name := by
  rw [h.live_iff]
  refine exists_congr fun p => ?_
  rw [retract_moduleOf? h]
  split
  · next eq =>
    subst eq
    simp [moduleOf?, tracked, other]
  · exact Iff.rfl

theorem retract_made_other (h : Derived g) (tracked : g.files[path]? = some c) {name : String}
    (other : c.moduleName ≠ name) (held : g.modules[name]? = some node) :
    node.unattributed =
      (ModuleNode.made name (membersOf (g.retract path).files name)).unattributed := by
  rw [h.made name node held, retract_files h]
  exact (ModuleNode.made_perm _ (membersOf_erase_other tracked other)
    (membersOf_distinct _ _)).symm

theorem retract_mem_remaining (h : Derived g) (held : g.modules[c.moduleName]? = some node)
    (p : String) :
    p ∈ node.files.erase path ↔ (g.retract path).moduleOf? p = some c.moduleName := by
  rw [retract_moduleOf? h, ExtTreeSet.mem_erase, h.mem_files_iff held]
  by_cases hp : path = p <;> simp [hp]

theorem retract_modules_last (tracked : g.files[path]? = some c)
    (held : g.modules[c.moduleName]? = some node)
    (last : (node.files.erase path).isEmpty = true) :
    (g.retract path).modules = g.modules.erase c.moduleName := by
  rw [retract_eq tracked held, if_pos last, purge_modules]
  apply ExtTreeMap.ext_getElem?
  intro n
  by_cases hn : c.moduleName = n <;>
    simp [dropFile, ExtTreeMap.getElem?_erase, ExtTreeMap.getElem?_insert, hn]

theorem retract_modules_rebuilt (tracked : g.files[path]? = some c)
    (held : g.modules[c.moduleName]? = some node)
    (more : (node.files.erase path).isEmpty = false) :
    (g.retract path).modules = g.modules.insert c.moduleName
      ((node.withFiles (node.files.erase path)).rebuild (g.files.erase path)) := by
  have dropped : (g.dropFile path c.moduleName node).modules[c.moduleName]? =
      some (node.withFiles (node.files.erase path)) := by
    simp [dropFile]
  rw [retract_eq tracked held, more, if_neg Bool.false_ne_true, rebuild_modules dropped]
  apply ExtTreeMap.ext_getElem?
  intro n
  by_cases hn : c.moduleName = n <;> simp [dropFile, ExtTreeMap.getElem?_insert, hn]

/-- The last file of a module takes the module with it. -/
theorem retract_derived_last (h : Derived g) (tracked : g.files[path]? = some c)
    (held : g.modules[c.moduleName]? = some node)
    (last : (node.files.erase path).isEmpty = true) : Derived (g.retract path) := by
  have purged := retract_eq tracked held
  rw [if_pos last] at purged
  have modules := retract_modules_last tracked held last
  refine ⟨fun name => ?_, fun name other found => ?_, ?_⟩
  · rw [modules, ExtTreeMap.mem_erase]
    by_cases hn : c.moduleName = name
    · subst hn
      have none : ∀ p, p ∉ node.files.erase path := by
        rw [ExtTreeSet.isEmpty_iff.mp last]
        exact fun _ => ExtTreeSet.not_mem_empty
      simpa [retract_mem_remaining h held] using none
    · simp [hn, retract_live_other h tracked hn]
  · rw [modules, ExtTreeMap.getElem?_erase] at found
    split at found
    · cases found
    · next ne => exact retract_made_other h tracked (by simpa using ne) found
  · rw [purged]
    exact mirrors_purge (mirrors_dropFile h held path) c.moduleName

/-- A module that keeps files is made again from them. -/
theorem retract_derived_rebuilt (h : Derived g) (tracked : g.files[path]? = some c)
    (held : g.modules[c.moduleName]? = some node)
    (more : (node.files.erase path).isEmpty = false) : Derived (g.retract path) := by
  have rebuilt := retract_eq tracked held
  rw [more, if_neg Bool.false_ne_true] at rebuilt
  have modules := retract_modules_rebuilt tracked held more
  refine ⟨fun name => ?_, fun name other found => ?_, ?_⟩
  · rw [modules, Table.mem_insert_of_held held]
    by_cases hn : c.moduleName = name
    · subst hn
      obtain ⟨p, hp⟩ : ∃ p, p ∈ node.files.erase path := by
        by_contra none
        rw [ExtTreeSet.isEmpty_eq_false_iff] at more
        exact more (ExtTreeSet.ext_mem fun p => by simpa using fun hp => none ⟨p, hp⟩)
      exact ⟨fun _ => ⟨p, (retract_mem_remaining h held p).mp hp⟩,
        fun _ => Table.mem_iff_exists.mpr ⟨node, held⟩⟩
    · exact retract_live_other h tracked hn
  · rw [modules, ExtTreeMap.getElem?_insert] at found
    split at found
    · next eq =>
      obtain rfl := Std.LawfulEqCmp.eq_of_compare eq
      obtain rfl := Option.some.inj found
      apply ModuleNode.rebuild_made
      · exact h.named _ node held
      · exact membersOf_distinct _ _
      · intro p d
        change _ ↔ p ∈ node.files.erase path ∧ _
        rw [retract_mem_remaining h held, ← retract_files h, moduleOf?_eq_some_iff,
          mem_paths_membersOf, mem_membersOf]
        constructor
        · rintro ⟨hd, hn⟩
          exact ⟨⟨d, hd, hn⟩, hd⟩
        · rintro ⟨⟨d', hd', hn⟩, hd⟩
          obtain rfl : d = d' := Option.some.inj (hd.symm.trans hd')
          exact ⟨hd, hn⟩
      · intro p
        change p ∈ node.files.erase path ↔ _
        rw [retract_mem_remaining h held, moduleOf?_eq_some_iff]
    · next ne => exact retract_made_other h tracked (by simpa using ne) found
  · rw [rebuilt]
    exact mirrors_rebuild (mirrors_dropFile h held path) c.moduleName

theorem retract_derived (h : Derived g) (path : String) : Derived (g.retract path) := by
  by_cases known : path ∈ g.files
  · obtain ⟨c, tracked⟩ := Table.mem_iff_exists.mp known
    obtain ⟨node, held⟩ := Table.mem_iff_exists.mp
      ((h.live_iff c.moduleName).mpr ⟨path, by simp [moduleOf?, tracked]⟩)
    cases last : (node.files.erase path).isEmpty with
    | true => exact retract_derived_last h tracked held last
    | false => exact retract_derived_rebuilt h tracked held last
  · rwa [retract_of_untracked known]

end

/-! ## Whole histories -/

theorem add_derived {g : Graph} (h : Derived g) (facts : FileFacts) : Derived (g.add facts) := by
  have gone : facts.path ∉ (g.retract facts.path).files := by simp [retract_files h]
  have entered := apply_derived (retract_derived h facts.path) gone facts.contribution
  exact ⟨entered.live_iff, entered.made, entered.mirrors⟩

theorem add_files {g : Graph} (h : Derived g) (facts : FileFacts) :
    (g.add facts).files = g.files.insert facts.path facts.contribution := by
  change ((g.retract facts.path).apply facts.path facts.contribution).files = _
  rw [apply_files, retract_files h]
  apply ExtTreeMap.ext_getElem?
  intro p
  by_cases hp : facts.path = p <;>
    simp [ExtTreeMap.getElem?_insert, ExtTreeMap.getElem?_erase, hp]

theorem remove_derived {g : Graph} (h : Derived g) (path : String) : Derived (g.remove path) := by
  unfold remove
  split
  · have kept := retract_derived h path
    exact ⟨kept.live_iff, kept.made, kept.mirrors⟩
  · exact h

theorem remove_files {g : Graph} (h : Derived g) (path : String) :
    (g.remove path).files = g.files.erase path := by
  unfold remove
  split
  · exact retract_files h path
  · next absent =>
    rw [← retract_files h, retract_of_untracked (by simpa [tracks] using absent)]

theorem remove_modules (g : Graph) (path : String) :
    (g.remove path).modules = (g.retract path).modules := by
  unfold remove
  split
  · rfl
  · next absent => rw [retract_of_untracked (by simpa [tracks] using absent)]

/-- A graph that comes from an empty one by adding and removing files. -/
inductive Reachable : Graph → Prop where
  | start (capacity : Nat) : Reachable (.empty capacity)
  | add {g : Graph} (facts : FileFacts) : Reachable g → Reachable (g.add facts)
  | remove {g : Graph} (path : String) : Reachable g → Reachable (g.remove path)

theorem Reachable.derived {g : Graph} (h : Reachable g) : Derived g := by
  induction h with
  | start capacity => exact .empty capacity
  | add facts _ ih => exact add_derived ih facts
  | remove path _ ih => exact remove_derived ih path

/-- **The index of importers.** Kept by links and unlinks alone, it always lists exactly the
modules whose edges lead to a module, lists them under modules only, keeps no empty list, and has
no module under itself. -/
theorem importers_reverse_the_edges {g : Graph} (h : Reachable g) :
    (∀ target source, source ∈ g.importersOf target ↔
      target ∈ g.modules ∧ source ∈ g.modules ∧ Imports g.modules source target) ∧
    (∀ target, target ∈ g.importers → target ∈ g.modules) ∧
    (∀ (target : String) (names : Names), g.importers[target]? = some names → names ≠ ∅) ∧
    ∀ name, ¬ Imports g.modules name name := by
  have derived := h.derived
  obtain ⟨entered_iff, tidy⟩ := derived.mirrors
  refine ⟨fun target source => ?_, fun target held => ?_, tidy, fun name => ?_⟩
  · rw [mem_importersOf_iff, entered_iff]
    have live : Imports g.modules source target → source ∈ g.modules :=
      fun ⟨node, held, _⟩ => Table.mem_iff_exists.mpr ⟨node, held⟩
    exact ⟨fun ⟨ht, edge⟩ => ⟨ht, live edge, edge⟩, fun ⟨ht, _, edge⟩ => ⟨ht, edge⟩⟩
  · obtain ⟨source, entered⟩ := tidy.exists_entered held
    exact ((entered_iff target source).mp entered).1
  · rintro ⟨node, held, edge⟩
    exact derived.not_mem_own_imports held edge

/-- A module that went and came back finds its importer again. -/
theorem returning_module_importers :
    let a : FileFacts := { path := "a", moduleField := "m", imports := [.plain "n"] }
    let b : FileFacts := { path := "b", moduleField := "n" }
    let g := ((((Graph.empty 1).add a).add b).remove "b").add b
    g.importersOf "n" = ["m"] ∧ Imports g.modules "m" "n" := by
  refine ⟨by decide +kernel, ?_⟩
  have reached := Reachable.add { path := "b", moduleField := "n" } (.remove "b"
    (.add { path := "b", moduleField := "n" }
      (.add { path := "a", moduleField := "m", imports := [.plain "n"] } (.start 1))))
  exact (((importers_reverse_the_edges reached).1 "n" "m").mp (by decide +kernel)).2.2

/-- One step of a history. -/
inductive Edit where
  | add (facts : FileFacts)
  | remove (path : String)

def edit (g : Graph) : Edit → Graph
  | .add facts => g.add facts
  | .remove path => g.remove path

def replay (capacity : Nat) (history : List Edit) : Graph :=
  history.foldl edit (.empty capacity)

def Edit.track (files : Table FileFacts) : Edit → Table FileFacts
  | .add facts => files.insert facts.path facts
  | .remove path => files.erase path

/-- The paths that are tracked after a history, each with the facts it was last added with. -/
def survivors (history : List Edit) : Table FileFacts :=
  history.foldl Edit.track ∅

/-- Two graphs hold the same files and the same modules, and differ at most in the file and place
that an import edge names. -/
structure Agree (g g' : Graph) : Prop where
  files : g.files = g'.files
  names : g.modules.keys = g'.modules.keys
  importers : g.importers = g'.importers
  modules : ∀ (name : String) (node node' : ModuleNode), g.modules[name]? = some node →
    g'.modules[name]? = some node' → node.unattributed = node'.unattributed

theorem imports_congr {modules modules' : Table ModuleNode}
    (live : ∀ name, name ∈ modules ↔ name ∈ modules')
    (alike : ∀ (name : String) (node node' : ModuleNode), modules[name]? = some node →
      modules'[name]? = some node' → node.unattributed = node'.unattributed)
    {source target : String} (edge : Imports modules source target) :
    Imports modules' source target := by
  obtain ⟨node, held, ht⟩ := edge
  obtain ⟨node', held'⟩ := Table.mem_iff_exists.mp
    ((live source).mp (Table.mem_iff_exists.mpr ⟨node, held⟩))
  refine ⟨node', held', ?_⟩
  have keys := congrArg (target ∈ ·.imports) (alike source node node' held held')
  simp only [ModuleNode.unattributed, ExtTreeMap.mem_map] at keys
  exact keys ▸ ht

/-- A graph is known from its files. -/
theorem Derived.agree {g g' : Graph} (h : Derived g) (h' : Derived g')
    (files : g.files = g'.files) : Agree g g' := by
  have live : ∀ name, name ∈ g.modules ↔ name ∈ g'.modules := by
    intro name
    rw [h.live_iff, h'.live_iff]
    simp only [moduleOf?, files]
  have alike : ∀ (name : String) (node node' : ModuleNode), g.modules[name]? = some node →
      g'.modules[name]? = some node' → node.unattributed = node'.unattributed := by
    intro name node node' held held'
    rw [h.made name node held, h'.made name node' held', files]
  have alike' : ∀ (name : String) (node node' : ModuleNode), g'.modules[name]? = some node →
      g.modules[name]? = some node' → node.unattributed = node'.unattributed :=
    fun name node node' held held' => (alike name node' node held' held).symm
  refine ⟨files, ?_, ?_, alike⟩
  · have keys : ∀ modules : Table ModuleNode, modules.keys.Pairwise (compare · · = .lt) :=
      fun modules => modules.ordered_keys
    refine List.Perm.eq_of_pairwise ?_ (keys g.modules) (keys g'.modules) ?_
    · intro a b _ _ ab ba
      exact absurd ba (by simp [Std.OrientedCmp.gt_of_lt ab])
    · apply (List.perm_ext_iff_of_nodup g.modules.nodup_keys g'.modules.nodup_keys).mpr
      simpa using live
  · apply h.mirrors.tidy.ext h'.mirrors.tidy
    intro target source
    rw [h.mirrors.entered_iff, h'.mirrors.entered_iff, live target]
    refine and_congr_right fun _ => ⟨imports_congr live alike, ?_⟩
    exact imports_congr (fun name => (live name).symm) alike'

theorem edit_derived {g : Graph} (h : Derived g) (e : Edit) : Derived (g.edit e) := by
  cases e with
  | add facts => exact add_derived h facts
  | remove path => exact remove_derived h path

/-- A step does to the files of a graph what it does to the facts that are tracked. -/
theorem edit_files {g : Graph} (h : Derived g) {facts : Table FileFacts}
    (files : g.files = facts.map fun _ f => f.contribution) (e : Edit) :
    (g.edit e).files = (e.track facts).map fun _ f => f.contribution := by
  apply ExtTreeMap.ext_getElem?
  intro p
  cases e with
  | add f =>
    simp only [edit, add_files h, files, Edit.track]
    by_cases hp : f.path = p <;> simp [ExtTreeMap.getElem?_insert, hp]
  | remove path =>
    simp only [edit, remove_files h, files, Edit.track]
    by_cases hp : path = p <;> simp [ExtTreeMap.getElem?_erase, hp]

theorem foldl_edit_derived {g : Graph} (h : Derived g) {facts : Table FileFacts}
    (files : g.files = facts.map fun _ f => f.contribution) (history : List Edit) :
    Derived (history.foldl edit g) ∧
      (history.foldl edit g).files =
        (history.foldl Edit.track facts).map fun _ f => f.contribution := by
  induction history generalizing g facts with
  | nil => exact ⟨h, files⟩
  | cons e history ih => exact ih (edit_derived h e) (edit_files h files e)

theorem replay_derived (capacity : Nat) (history : List Edit) :
    Derived (replay capacity history) ∧
      (replay capacity history).files = (survivors history).map fun _ f => f.contribution := by
  apply foldl_edit_derived (.empty capacity)
  apply ExtTreeMap.ext_getElem?
  simp [Graph.empty]

/-- Facts stand under their own path. -/
def FiledByPath (files : Table FileFacts) : Prop :=
  ∀ (path : String) (facts : FileFacts), files[path]? = some facts → facts.path = path

/-- What survives was added. -/
theorem forall_survivors {history : List Edit} {p : String → FileFacts → Prop}
    (added : ∀ f, .add f ∈ history → p f.path f) :
    ∀ path f, (survivors history)[path]? = some f → p path f := by
  have runs : ∀ files : Table FileFacts, (∀ path f, files[path]? = some f → p path f) →
      ∀ path f, (history.foldl Edit.track files)[path]? = some f → p path f := by
    induction history with
    | nil => exact fun _ h => h
    | cons e history ih =>
      intro files h
      refine ih (fun f listed => added f (.tail _ listed)) _ fun path f held => ?_
      cases e with
      | add new =>
        simp only [Edit.track, ExtTreeMap.getElem?_insert] at held
        split at held
        · next eq =>
          obtain rfl := Option.some.inj held
          obtain rfl := Std.LawfulEqCmp.eq_of_compare eq
          exact added new List.mem_cons_self
        · exact h path f held
      | remove old =>
        simp only [Edit.track, ExtTreeMap.getElem?_erase] at held
        split at held
        · cases held
        · exact h path f held
  exact runs ∅ (by simp)

theorem survivors_filedByPath (history : List Edit) : FiledByPath (survivors history) :=
  forall_survivors fun _ _ => rfl

/-- Files that are added once each all survive, in whatever order they come. -/
theorem survivors_of_adds {files : Table FileFacts} (filed : FiledByPath files)
    {order : List FileFacts} (perm : order.Perm files.values) :
    survivors (order.map .add) = files := by
  have mem_order (facts : FileFacts) : facts ∈ order ↔ files[facts.path]? = some facts := by
    rw [perm.mem_iff, Table.mem_values_iff]
    constructor
    · rintro ⟨key, held⟩
      rw [filed key facts held]
      exact held
    · exact fun held => ⟨_, held⟩
  have adds : survivors (order.map .add) =
      order.foldl (fun table facts => table.insert facts.path (id facts)) ∅ := by
    rw [survivors, List.foldl_map]
    rfl
  apply ExtTreeMap.ext_getElem?
  intro path
  rw [adds, Table.getElem?_foldl_insert]
  cases last : order.reverse.find? fun facts => facts.path = path with
  | some facts =>
    have held := (mem_order facts).mp (List.mem_reverse.mp (List.mem_of_find?_eq_some last))
    have own : facts.path = path := by simpa using List.find?_some last
    rw [← own, held]
    rfl
  | none =>
    cases held : files[path]? with
    | none => simp
    | some facts =>
      have own := filed path facts held
      have added : facts ∈ order := (mem_order facts).mpr (own ▸ held)
      have missed := List.find?_eq_none.mp last facts (List.mem_reverse.mpr added)
      simp [own] at missed

theorem addAll_eq_replay (capacity : Nat) (order : List FileFacts) :
    (Graph.empty capacity).addAll order = replay capacity (order.map .add) := by
  rw [addAll, replay, List.foldl_map]
  rfl

/-- **Histories do not show.** A graph tracks the files that survive its history. Two histories
with the same survivors end in graphs that agree, and so does adding the survivors once each, in
any order. -/
theorem history_does_not_show (capacity capacity' : Nat) (history : List Edit) :
    (∀ path : String, (replay capacity history).files[path]? =
      (survivors history)[path]?.map FileFacts.contribution) ∧
    (∀ history', survivors history' = survivors history →
      Agree (replay capacity history) (replay capacity' history')) ∧
    ∀ order : List FileFacts, order.Perm (survivors history).values →
      Agree (replay capacity history) ((Graph.empty capacity').addAll order) := by
  obtain ⟨derived, files⟩ := replay_derived capacity history
  have agree : ∀ history', survivors history' = survivors history →
      Agree (replay capacity history) (replay capacity' history') := by
    intro history' same
    obtain ⟨derived', files'⟩ := replay_derived capacity' history'
    exact derived.agree derived' (by rw [files, files', same])
  refine ⟨fun path => ?_, agree, fun order perm => ?_⟩
  · rw [files, ExtTreeMap.getElem?_map]
  · rw [addAll_eq_replay]
    exact agree _ (survivors_of_adds (survivors_filedByPath history) perm)

/-- A file that moved to another module leaves no trace in the one it left. -/
theorem moved_file_does_not_show :
    let a : FileFacts := { path := "a", moduleField := "m", imports := [.plain "n"] }
    let moved : FileFacts := { path := "a", moduleField := "n" }
    let b : FileFacts := { path := "b", moduleField := "m" }
    survivors [.add a, .add b, .remove "c", .add moved] = survivors [.add moved, .add b] ∧
    Agree (replay 1 [.add moved, .add b]) (replay 0 [.add a, .add b, .remove "c", .add moved]) ∧
    Agree (replay 1 [.add moved, .add b]) ((Graph.empty 0).addAll [b, moved]) := by
  intro a moved b
  have same : survivors [.add a, .add b, .remove "c", .add moved] =
      survivors [.add moved, .add b] := by
    apply ExtTreeMap.ext_getElem?
    intro p
    simp only [survivors, List.foldl_cons, List.foldl_nil, Edit.track, a, moved, b,
      ExtTreeMap.getElem?_insert, ExtTreeMap.getElem?_erase, Std.LawfulEqCmp.compare_eq_iff_eq]
    by_cases ha : "a" = p
    · simp [← ha]
    · by_cases hb : "b" = p
      · simp [← hb]
      · simp [ha, hb]
  have values : (survivors [.add moved, .add b]).values = [moved, b] := by
    decide +kernel +zetaReduce
  obtain ⟨_, histories, orders⟩ := history_does_not_show 1 0 [.add moved, .add b]
  exact ⟨same, histories _ same, orders _ (by rw [values]; exact .swap moved b [])⟩

end ModuleAtlas.Graph
