import ModuleAtlas.Proofs.Graph.Preference
import ModuleAtlas.Proofs.Text.Cut

/-!
# Where import edges were read

An import edge names a file and a place in it. A file that is added later takes the edge over, and a
module that loses a file is made again from the others, in the order of their paths. After either,
the file named is one of the module, and the place is that of the last import of the target there:
`Attributed`.
-/

namespace ModuleAtlas

open Std (ExtTreeMap)

/-- `i` is the last import of the module `target` among some imports. -/
def LastImport (imports : List Import) (target : String) (i : Import) : Prop :=
  i.moduleName = target ∧
    ∃ before after, imports = before ++ i :: after ∧ ∀ later ∈ after, later.moduleName ≠ target

theorem lastImport_iff_find? {imports : List Import} {target : String} {i : Import} :
    LastImport imports target i ↔
      imports.reverse.find? (fun i => i.moduleName = target) = some i := by
  rw [LastImport, List.find?_eq_some_iff_append, decide_eq_true_eq]
  refine and_congr_right fun _ => ⟨?_, ?_⟩
  · rintro ⟨before, after, rfl, others⟩
    exact ⟨after.reverse, before.reverse, by simp, by simpa using others⟩
  · rintro ⟨after, before, split, others⟩
    refine ⟨before.reverse, after.reverse, ?_, by simpa using others⟩
    rw [← List.reverse_reverse imports, split]
    simp

/-- An edge of the module `name` was read in a file: it leads to another module, and its place is
that of the last import there. -/
structure ReadIn (name : String) (member : String × Contribution) (target : String)
    (edge : ImportEdge) : Prop where
  starts : edge.source = name
  leads : edge.target = target
  nonempty : target ≠ ""
  elsewhere : target ≠ name
  file : edge.file = member.1
  place : ∃ i, LastImport member.2.imports target i ∧ i.location = edge.location

namespace ModuleNode

variable {node : ModuleNode} {target : String} {edge : ImportEdge}

/-- The edge that the last of a file's imports of `target` draws. -/
theorem readIn_edgeOf {path : String} {c : Contribution} {i : Import}
    (found : (c.imports.filter node.leadsOut).reverse.find? (fun i => i.moduleName = target) =
      some i) : ReadIn node.name (path, c) target (node.edgeOf path i) := by
  have named : i.moduleName = target := by simpa using List.find?_some found
  have leads : node.leadsOut i = true :=
    (List.mem_filter.mp (List.mem_reverse.mp (List.mem_of_find?_eq_some found))).2
  -- Whether an import leads out is a matter of its target.
  have same : (fun j => decide (node.leadsOut j = true ∧ decide (j.moduleName = target) = true)) =
      fun j => decide (j.moduleName = target) := by
    funext j
    by_cases own : j.moduleName = target
    · simpa [leadsOut, own, named] using leads
    · simp [own]
  rw [← List.filter_reverse, List.find?_filter, same] at found
  rw [leadsOut, named, Bool.and_eq_true, decide_eq_true_eq, decide_eq_true_eq] at leads
  exact ⟨rfl, named, leads.1, leads.2, rfl, i, lastImport_iff_find?.mpr found, rfl⟩

/-- A file takes over the edges to the modules it leads to and leaves the others. -/
theorem contribute_imports_cases (node : ModuleNode) (path : String) (c : Contribution)
    (target : String) :
    (c.leadsTo node.name target = true ∧
      ∃ edge, (node.contribute path c).imports[target]? = some edge ∧
        ReadIn node.name (path, c) target edge) ∨
    c.leadsTo node.name target = false ∧
      (node.contribute path c).imports[target]? = node.imports[target]? := by
  simp only [contribute, Table.getElem?_foldl_insert]
  cases found : (c.imports.filter node.leadsOut).reverse.find? fun i => i.moduleName = target with
  | none =>
    refine .inr ⟨?_, rfl⟩
    rw [Bool.eq_false_iff, Ne, ← exists_leadsOut_iff]
    rintro ⟨i, listed, named⟩
    simpa [named] using List.find?_eq_none.mp found i (List.mem_reverse.mpr listed)
  | some i =>
    have listed := List.mem_reverse.mp (List.mem_of_find?_eq_some found)
    have named : i.moduleName = target := by simpa using List.find?_some found
    exact .inl ⟨(exists_leadsOut_iff node c target).mp ⟨i, listed, named⟩, _, rfl,
      readIn_edgeOf found⟩

theorem readIn_of_contribute {path : String} {c : Contribution}
    (held : (node.contribute path c).imports[target]? = some edge) :
    ReadIn node.name (path, c) target edge ∨ node.imports[target]? = some edge := by
  rcases contribute_imports_cases node path c target with ⟨-, edge', new, read⟩ | ⟨-, old⟩
  · obtain rfl : edge' = edge := Option.some.inj (new.symm.trans held)
    exact .inl read
  · exact .inr (old.symm.trans held)

theorem readIn_of_gather {members : List (String × Contribution)}
    (held : (node.gather members).imports[target]? = some edge) :
    (∃ member ∈ members, ReadIn node.name member target edge) ∨
      node.imports[target]? = some edge := by
  induction members generalizing node with
  | nil => exact .inr held
  | cons member members ih =>
    change ((node.contribute member.1 member.2).gather members).imports[target]? = some edge at held
    rcases ih held with ⟨other, listed, read⟩ | earlier
    · exact .inl ⟨other, .tail _ listed, read⟩
    · exact (readIn_of_contribute earlier).imp_left fun read => ⟨member, .head _, read⟩

/-- In a module that is made again nothing is left of the edges it had. -/
theorem readIn_of_rebuild {contributions : Table Contribution}
    (held : (node.rebuild contributions).imports[target]? = some edge) :
    ∃ path ∈ node.files, ∃ c, contributions[path]? = some c ∧
      ReadIn node.name (path, c) target edge := by
  rw [rebuild_eq_gather] at held
  rcases readIn_of_gather held with ⟨⟨path, c⟩, listed, read⟩ | earlier
  · rw [List.mem_filterMap] at listed
    obtain ⟨path', member, found⟩ := listed
    obtain ⟨c', tracked, same⟩ := Option.map_eq_some_iff.mp found
    obtain ⟨rfl, rfl⟩ := Prod.mk.inj same
    exact ⟨path', Std.ExtTreeSet.mem_toList.mp member, c', tracked, read⟩
  · simp [bare] at earlier

end ModuleNode

namespace Graph

/-- Every edge of a module was read in a file that is one of the module now. -/
def Attributed (g : Graph) : Prop :=
  ∀ (name : String) (node : ModuleNode), g.modules[name]? = some node →
    ∀ (target : String) (edge : ImportEdge), node.imports[target]? = some edge →
      ∃ member ∈ membersOf g.files name, ReadIn name member target edge

section
variable {g : Graph} {name path target : String} {edge : ImportEdge}

theorem Derived.home_name (h : Derived g) (name : String) : (g.home name).name = name :=
  (congrArg ModuleNode.name (home_made h name)).trans (ModuleNode.gather_name _ _)

theorem Attributed.home (read : Attributed g)
    (drawn : (g.home name).imports[target]? = some edge) :
    ∃ member ∈ membersOf g.files name, ReadIn name member target edge := by
  unfold Graph.home at drawn
  cases held : g.modules[name]? with
  | some node => exact read name node held target edge (by simpa [held] using drawn)
  | none => simp [held] at drawn

/-- A file that is entered takes some edges of its module over, and all others stay. -/
theorem apply_attributed (h : Derived g) (read : Attributed g) (fresh : path ∉ g.files)
    (c : Contribution) : Attributed (g.apply path c) := by
  intro name node held target edge drawn
  rw [apply_files]
  rw [apply_modules, ExtTreeMap.getElem?_insert] at held
  split at held
  · next eq =>
    obtain rfl := Std.LawfulEqCmp.eq_of_compare eq
    obtain rfl := Option.some.inj held
    have members := membersOf_insert fresh c
    rcases ModuleNode.readIn_of_contribute drawn with new | old
    · have named := h.home_name c.moduleName
      exact ⟨(path, c), members.mem_iff.mpr (.head _), named ▸ new⟩
    · obtain ⟨member, listed, old⟩ := read.home old
      exact ⟨member, members.mem_iff.mpr (.tail _ listed), old⟩
  · next ne =>
    have other : c.moduleName ≠ name := by simpa using ne
    obtain ⟨member, listed, old⟩ := read name node held target edge drawn
    exact ⟨member, (membersOf_insert_other fresh other).mem_iff.mpr listed, old⟩

/-- The file that goes was no file of another module. -/
theorem Attributed.retract_other (read : Attributed g) (h : Derived g) {c : Contribution}
    (tracked : g.files[path]? = some c) (other : c.moduleName ≠ name) {node : ModuleNode}
    (held : g.modules[name]? = some node) (drawn : node.imports[target]? = some edge) :
    ∃ member ∈ membersOf (g.retract path).files name, ReadIn name member target edge := by
  obtain ⟨member, listed, old⟩ := read name node held target edge drawn
  rw [retract_files h]
  exact ⟨member, (membersOf_erase_other tracked other).mem_iff.mpr listed, old⟩

/-- The module of a file that goes is gone too, or its edges are drawn again without the file. -/
theorem retract_attributed (h : Derived g) (read : Attributed g) (path : String) :
    Attributed (g.retract path) := by
  by_cases known : path ∈ g.files
  · obtain ⟨c, tracked⟩ := Table.mem_iff_exists.mp known
    obtain ⟨before, found⟩ := Table.mem_iff_exists.mp
      ((h.live_iff c.moduleName).mpr ⟨path, by simp [moduleOf?, tracked]⟩)
    intro name node held target edge drawn
    cases last : (before.files.erase path).isEmpty with
    | true =>
      rw [retract_modules_last tracked found last, ExtTreeMap.getElem?_erase] at held
      split at held
      · cases held
      · next ne => exact read.retract_other h tracked (by simpa using ne) held drawn
    | false =>
      rw [retract_modules_rebuilt tracked found last, ExtTreeMap.getElem?_insert] at held
      split at held
      · next eq =>
        obtain rfl := Std.LawfulEqCmp.eq_of_compare eq
        obtain rfl := Option.some.inj held
        obtain ⟨p, stays, d, tracked', new⟩ := ModuleNode.readIn_of_rebuild drawn
        have named : before.name = c.moduleName := h.named _ before found
        have belongs := (retract_mem_remaining h found p).mp stays
        rw [← retract_files h] at tracked'
        rw [moduleOf?, tracked', Option.map_some, Option.some.injEq] at belongs
        exact ⟨(p, d), mem_membersOf.mpr ⟨tracked', belongs⟩, named ▸ new⟩
      · next ne => exact read.retract_other h tracked (by simpa using ne) held drawn
  · rwa [retract_of_untracked known]

theorem edit_attributed (h : Derived g) (read : Attributed g) (e : Edit) :
    Attributed (g.edit e) := by
  cases e with
  | add facts =>
    have gone : facts.path ∉ (g.retract facts.path).files := by simp [retract_files h]
    exact apply_attributed (retract_derived h facts.path) (retract_attributed h read facts.path)
      gone facts.contribution
  | remove path =>
    change Attributed (g.remove path)
    unfold remove
    split
    · exact retract_attributed h read path
    · exact read

theorem foldl_edit_attributed (h : Derived g) (read : Attributed g) (history : List Edit) :
    Attributed (history.foldl edit g) := by
  induction history generalizing g with
  | nil => exact read
  | cons e history ih => exact ih (edit_derived h e) (edit_attributed h read e)

end

theorem replay_attributed (capacity : Nat) (history : List Edit) :
    Attributed (replay capacity history) := by
  apply foldl_edit_attributed (.empty capacity)
  simp [Attributed, Graph.empty]

/-- **No edge is out of date.** After any history, an edge of a module leads from it to another
module, under whose name it stands. The file it names is tracked and belongs to the module, and the
place is that of the last import of the target in the facts the file was last added with. There is
such an edge for every import in a file of the module that leads to another module. -/
theorem edges_are_up_to_date (capacity : Nat) (history : List Edit) {name : String}
    {node : ModuleNode} (held : (replay capacity history).modules[name]? = some node) :
    (∀ (target : String) (edge : ImportEdge), node.imports[target]? = some edge →
      edge.source = name ∧ edge.target = target ∧
      target ≠ "" ∧ Text.trim target = target ∧ target ≠ name ∧ edge.file ∈ node.files ∧
      ∃ facts i, Belongs (survivors history) name edge.file facts ∧
        LastImport facts.imports target i ∧ i.location = edge.location) ∧
    ∀ path facts, Belongs (survivors history) name path facts → ∀ i ∈ facts.imports,
      i.moduleName ≠ "" → i.moduleName ≠ name → i.moduleName ∈ node.imports := by
  obtain ⟨derived, files⟩ := replay_derived capacity history
  constructor
  · intro target edge drawn
    obtain ⟨⟨path, c⟩, listed, read⟩ :=
      replay_attributed capacity history name node held target edge drawn
    obtain ⟨i, last, place⟩ := read.place
    have member : edge.file ∈ node.files := by
      rw [derived.mem_files_iff held, moduleOf?_eq_some_iff, read.file]
      exact List.mem_map_of_mem listed
    rw [files, mem_members_iff] at listed
    obtain ⟨facts, belongs, rfl⟩ := listed
    have trimmed : Text.trim target = target := by
      rw [← last.1]
      exact Text.trim_trim i.target
    refine ⟨read.starts, read.leads, read.nonempty, trimmed, read.elsewhere, member, facts, i, ?_,
      last, place⟩
    rwa [read.file]
  · intro path facts belongs i listed nonempty elsewhere
    rw [derived.mem_imports_iff held, files]
    refine ⟨(path, facts.contribution), mem_members_iff.mpr ⟨facts, belongs, rfl⟩, ?_⟩
    rw [← ModuleNode.exists_leadsOut_iff { name }]
    exact ⟨i, List.mem_filter.mpr ⟨listed, by simp [ModuleNode.leadsOut, nonempty, elsewhere]⟩, rfl⟩

/-- The file that wrote an edge last moves to another module, and then a file is replaced by one that
imports the target twice and one of its other targets no more. -/
theorem edges_are_up_to_date_replaced :
    let wanted (target : String) (line : UInt32) : Import := { target, location := { line } }
    let a : FileFacts := { path := "a", moduleField := "m", imports := [wanted "n" 1, wanted "k" 2] }
    let b : FileFacts := { path := "b", moduleField := "m", imports := [wanted "n" 3] }
    let c : FileFacts := { path := "c", moduleField := "m", imports := [wanted "n" 4] }
    let moved : FileFacts := { path := "c", moduleField := "n", imports := [wanted "n" 4] }
    let again : FileFacts :=
      { path := "a", moduleField := "m", imports := [wanted "n" 5, wanted " n " 6, wanted "m" 7] }
    let history : List Edit := [.add a, .add b, .add c, .add moved, .add again]
    ∃ node, (replay 1 history).modules["m"]? = some node ∧ node.imports.keys = ["n"] ∧
      node.imports["n"]? = some ⟨"m", "n", "a", { line := 6 }⟩ ∧ "a" ∈ node.files ∧
      ∃ facts i, Belongs (survivors history) "m" "a" facts ∧
        LastImport facts.imports "n" i ∧ i.location = { line := 6 } := by
  intro wanted a b c moved again history
  obtain ⟨node, held⟩ : ∃ node, (replay 1 history).modules["m"]? = some node :=
    Table.mem_iff_exists.mp (by decide +kernel)
  have view {β : Type} (f : ModuleNode → β) :
      (replay 1 history).modules["m"]?.map f = some (f node) := by rw [held]; rfl
  have targets : node.imports.keys = ["n"] :=
    Option.some.inj ((view (·.imports.keys)).symm.trans (by decide +kernel))
  have drawn : node.imports["n"]? = some ⟨"m", "n", "a", { line := 6 }⟩ :=
    Option.some.inj ((view (·.imports["n"]?)).symm.trans (by decide +kernel))
  obtain ⟨-, -, -, -, -, member, facts⟩ := (edges_are_up_to_date 1 history held).1 "n" _ drawn
  exact ⟨node, held, targets, drawn, member, facts⟩

end Graph

end ModuleAtlas
