import ModuleAtlas.Symbol.Table
import ModuleAtlas.Proofs.Graph.Preference

/-!
# The indexes of the symbol table

A record is entered under its keys at its place. So the places under a key are those of the records
that have it, in ascending order, and a look-up is a filter of the records.
-/

namespace ModuleAtlas

open Std (ExtTreeMap)

/-! ## Keys -/

namespace SymbolRecord

variable {record : SymbolRecord} {key : String}

theorem mem_keys_iff :
    key ∈ record.keys ↔
      key ≠ "" ∧ (record.canonical = key ∨ canonicalize record.qualifiedName = key) := by
  simp only [keys, List.mem_filter, decide_eq_true_eq, and_comm (b := key ≠ "")]
  refine and_congr_right fun said => ?_
  split
  · simp [eq_comm]
  · next same =>
    rw [List.mem_singleton, eq_comm]
    refine ⟨.inl, ?_⟩
    rintro (found | rfl)
    · exact found
    · -- The qualified name is not empty, so it was left out for saying the same.
      by_contra differ
      exact same ⟨said, Ne.symm differ⟩

/-- A record whose qualified name says no more than its name is not entered twice. -/
theorem keys_nodup (record : SymbolRecord) : record.keys.Nodup := by
  unfold keys
  refine List.Nodup.filter _ ?_
  split
  · next said => simpa using said.2.symm
  · exact List.nodup_singleton _

theorem mem_serviceKeys_iff :
    key ∈ record.serviceKeys ↔
      key ≠ "" ∧ record.isService = true ∧ Service.key record.name = key := by
  unfold serviceKeys
  split
  · next service =>
    rw [List.mem_filter, List.mem_singleton, decide_eq_true_eq, eq_comm]
    exact ⟨fun ⟨same, said⟩ => ⟨said, service, same⟩, fun ⟨said, _, same⟩ => ⟨same, said⟩⟩
  · next other => simp [other]

theorem serviceKeys_nodup (record : SymbolRecord) : record.serviceKeys.Nodup := by
  unfold serviceKeys
  split
  · exact (List.nodup_singleton _).filter _
  · exact List.nodup_nil

/-- By module, and by name within a module. -/
def Before (a b : SymbolRecord) : Prop :=
  a.moduleName < b.moduleName ∨ a.moduleName = b.moduleName ∧ a.name < b.name

theorem Before.ne {a b : SymbolRecord} (h : a.Before b) : a ≠ b := by
  rintro rfl
  rcases h with less | ⟨-, less⟩
  · exact lt_irrefl _ less
  · exact lt_irrefl _ less

theorem ofEntry_canonical (entry : Entry) :
    (ofEntry entry).canonical = canonicalize (ofEntry entry).name :=
  rfl

end SymbolRecord

/-! ## Places -/

theorem KeyIndex.getD_enter (index : KeyIndex) (place : Nat) {keys : List String}
    (distinct : keys.Nodup) (key : String) :
    (index.enter place keys).getD key [] =
      index.getD key [] ++ if key ∈ keys then [place] else [] := by
  induction keys generalizing index with
  | nil => simp [enter]
  | cons k keys ih =>
    obtain ⟨fresh, distinct⟩ := List.nodup_cons.mp distinct
    have rest := ih (index.alter k fun places => some (places.getD [] ++ [place])) distinct
    rw [enter, List.foldl_cons]
    refine rest.trans ?_
    by_cases same : k = key
    · subst same
      simp [fresh, ExtTreeMap.getD_eq_getD_getElem?]
    · simp [ExtTreeMap.getD_alter, same, Ne.symm same]

/-- The places of the records that have a property. -/
def placesOf (property : SymbolRecord → Bool) (records : List SymbolRecord) : List Nat :=
  (List.range records.length).filter fun place => records[place]?.any property

theorem placesOf_concat (property : SymbolRecord → Bool) (records : List SymbolRecord)
    (record : SymbolRecord) :
    placesOf property (records ++ [record]) =
      placesOf property records ++ if property record then [records.length] else [] := by
  rw [placesOf, List.length_append, List.length_singleton, List.range_succ, List.filter_append]
  congr 1
  · refine List.filter_congr fun place bound => ?_
    rw [List.getElem?_append_left (List.mem_range.mp bound)]
  · simp [List.filter_singleton]

/-- The records at the places of those that have a property. -/
theorem filterMap_placesOf (property : SymbolRecord → Bool) (records : List SymbolRecord) :
    (placesOf property records).filterMap (records[·]?) = records.filter property := by
  induction records using List.reverseRecOn with
  | nil => rfl
  | append_singleton records record ih =>
    rw [placesOf_concat, List.filterMap_append, List.filter_append, ← ih]
    congr 1
    · refine List.filterMap_congr fun place member => ?_
      have bound := List.mem_range.mp (List.mem_filter.mp member).1
      exact List.getElem?_append_left bound
    · cases has : property record <;> simp [has]

/-! ## The table -/

namespace SymbolTable

variable {table : SymbolTable}

/-- Both indexes have the places of the records with a key under this key. -/
structure Exact (table : SymbolTable) : Prop where
  canonical : ∀ key, table.canonicalPlaces key = placesOf (key ∈ ·.keys) table.records.toList
  service : ∀ key, table.servicePlaces key = placesOf (key ∈ ·.serviceKeys) table.records.toList

theorem Exact.push (exact : Exact table) (record : SymbolRecord) : Exact (table.push record) where
  canonical key := by
    rw [SymbolTable.push, Array.toList_push, placesOf_concat, ← exact.canonical, canonicalPlaces,
      KeyIndex.getD_enter _ _ record.keys_nodup]
    simp [canonicalPlaces]
  service key := by
    rw [SymbolTable.push, Array.toList_push, placesOf_concat, ← exact.service, servicePlaces,
      KeyIndex.getD_enter _ _ record.serviceKeys_nodup]
    simp [servicePlaces]

theorem foldl_push (entries : List Entry) (exact : Exact table) :
    Exact (entries.foldl (fun table entry => table.push (.ofEntry entry)) table) ∧
      (entries.foldl (fun table entry => table.push (.ofEntry entry)) table).records.toList =
        table.records.toList ++ entries.map .ofEntry := by
  induction entries generalizing table with
  | nil => simpa using exact
  | cons entry entries ih =>
    obtain ⟨exact', records⟩ := ih (exact.push (.ofEntry entry))
    refine ⟨exact', records.trans ?_⟩
    simp [SymbolTable.push]

theorem exact_empty : Exact {} where
  canonical key := by simp [canonicalPlaces, placesOf]
  service key := by simp [servicePlaces, placesOf]

theorem exact_ofModules (modules : Table ModuleNode) : Exact (ofModules modules) :=
  (foldl_push _ exact_empty).1

theorem records_ofModules (modules : Table ModuleNode) :
    (ofModules modules).records.toList =
      (modules.values.flatMap fun node => node.definitions.values).map .ofEntry :=
  (foldl_push _ exact_empty).2

theorem recordsAt_placesOf (table : SymbolTable) (property : SymbolRecord → Bool) :
    table.recordsAt (placesOf property table.records.toList) =
      table.records.toList.filter property := by
  rw [← filterMap_placesOf, recordsAt]
  simp only [Array.getElem?_toList]

theorem lookup_ofModules (modules : Table ModuleNode) (key : String) :
    (ofModules modules).lookup key =
      if key = "" then []
      else (ofModules modules).records.toList.filter fun record =>
        canonicalize record.name = key ∨ canonicalize record.qualifiedName = key := by
  rw [lookup, (exact_ofModules modules).canonical, recordsAt_placesOf]
  split
  · next empty => simp [SymbolRecord.mem_keys_iff, empty]
  · next said =>
    refine List.filter_congr fun record listed => decide_eq_decide.mpr ?_
    rw [records_ofModules] at listed
    obtain ⟨entry, -, rfl⟩ := List.mem_map.mp listed
    rw [SymbolRecord.mem_keys_iff, SymbolRecord.ofEntry_canonical]
    exact and_iff_right said

theorem lookupService_ofModules (modules : Table ModuleNode) (key : String) :
    (ofModules modules).lookupService key =
      if key = "" then []
      else (ofModules modules).records.toList.filter fun record =>
        record.isService ∧ Service.key record.name = key := by
  rw [lookupService, (exact_ofModules modules).service, recordsAt_placesOf]
  split
  · next empty => simp [SymbolRecord.mem_serviceKeys_iff, empty]
  · next said =>
    refine List.filter_congr fun record _ => decide_eq_decide.mpr ?_
    rw [SymbolRecord.mem_serviceKeys_iff]
    exact and_iff_right said

end SymbolTable

/-! ## The records of a graph -/

namespace Graph

variable {g : Graph}

theorem Derived.records_ascend (h : Derived g) :
    (SymbolTable.ofModules g.modules).records.toList.Pairwise SymbolRecord.Before := by
  rw [SymbolTable.records_ofModules, List.pairwise_map]
  exact h.retained_ascend

theorem mem_records_iff {record : SymbolRecord} :
    record ∈ (SymbolTable.ofModules g.modules).records.toList ↔
      ∃ (name : String) (node : ModuleNode) (n : String) (entry : Entry),
        g.modules[name]? = some node ∧ node.definitions[n]? = some entry ∧
          record = .ofEntry entry := by
  rw [SymbolTable.records_ofModules, List.mem_map]
  constructor
  · rintro ⟨entry, listed, rfl⟩
    obtain ⟨name, node, n, held, defined⟩ := mem_retained_iff.mp listed
    exact ⟨name, node, n, entry, held, defined, rfl⟩
  · rintro ⟨name, node, n, entry, held, defined, rfl⟩
    exact ⟨entry, mem_retained_iff.mpr ⟨name, node, n, held, defined⟩, rfl⟩

/-- **The symbol table.** It has a record for each definition that a module keeps, and no other, in
strictly ascending order of module and name. A look-up gives the records with the key as canonical
form of their name or qualified name, and one for services the services with this key; each comes
once, in the order of the records, and nothing comes under the empty key. -/
theorem symbol_table_is_exact (h : Reachable g) :
    let table := SymbolTable.ofModules g.modules
    table.records.toList.Pairwise SymbolRecord.Before ∧
    (∀ (name : String) (node : ModuleNode) (n : String) (entry : Entry),
      g.modules[name]? = some node → node.definitions[n]? = some entry →
        .ofEntry entry ∈ table.records.toList ∧ entry.moduleName = name ∧
          entry.definition.name = n) ∧
    (∀ record ∈ table.records.toList,
      ∃ (name : String) (node : ModuleNode) (n : String) (entry : Entry),
        g.modules[name]? = some node ∧ node.definitions[n]? = some entry ∧
          record = .ofEntry entry) ∧
    ∀ key,
      (table.lookup key = if key = "" then [] else table.records.toList.filter fun record =>
        canonicalize record.name = key ∨ canonicalize record.qualifiedName = key) ∧
      (table.lookup key).Nodup ∧
      (table.lookupService key = if key = "" then [] else table.records.toList.filter fun record =>
        record.isService ∧ Service.key record.name = key) ∧
      (table.lookupService key).Nodup := by
  intro table
  have derived := h.derived
  have ascend := derived.records_ascend
  have distinct : table.records.toList.Nodup := ascend.imp SymbolRecord.Before.ne
  refine ⟨ascend, fun name node n entry held defined => ⟨?_, derived.stamped held defined⟩,
    fun record => mem_records_iff.mp, fun key => ?_⟩
  · exact mem_records_iff.mpr ⟨name, node, n, entry, held, defined, rfl⟩
  · have found := SymbolTable.lookup_ofModules g.modules key
    have services := SymbolTable.lookupService_ofModules g.modules key
    have once (property : SymbolRecord → Bool) :
        (if key = "" then [] else table.records.toList.filter property).Nodup := by
      split
      · exact List.nodup_nil
      · exact distinct.filter _
    refine ⟨found, ?_, services, ?_⟩
    · rw [found]
      exact once _
    · rw [services]
      exact once _

/-- A name that is its own qualified name but for case, a name of punctuation only, which is found
by its qualified name, and a service that is found by what is left without its role. -/
theorem symbol_table_is_exact_odd_names :
    let a : FileFacts := {
      path := "a", moduleField := "m"
      definitions := [{ name := "__", qualifiedName := "m.Run", kind := .constant },
        { name := "Run", qualifiedName := "run", kind := .function }] }
    let b : FileFacts := {
      path := "b", moduleField := "n"
      definitions := [{ name := "run_server", qualifiedName := "--", kind := .function },
        { name := "run", kind := .method }] }
    let table := SymbolTable.ofModules (((Graph.empty 1).add b).add a).modules
    (table.lookup "run").map (·.name) = ["Run", "run"] ∧ (table.lookup "run").Nodup ∧
    (table.lookup "mrun").map (·.name) = ["__"] ∧ table.lookup "" = [] ∧
    (table.lookupService "run").map (·.name) = ["run_server"] := by
  intro a b table
  have reached : Reachable (((Graph.empty 1).add b).add a) := .add a (.add b (.start 1))
  obtain ⟨-, -, -, found⟩ := symbol_table_is_exact reached
  obtain ⟨named, distinct, services, -⟩ := found "run"
  refine ⟨?_, distinct, ?_, (found "").1, ?_⟩
  · rw [named]
    decide +kernel
  · rw [(found "mrun").1]
    decide +kernel
  · rw [services]
    decide +kernel

end Graph

end ModuleAtlas
