import ModuleAtlas.Proofs.Graph.Loading
import ModuleAtlas.Proofs.Text.Cut

/-!
# Blanks around the names of imported modules

A module reads its edges off the trimmed names of what its files import. So a history in which the
imports of one file are trimmed makes the same modules, to the last place an edge names:
`replay_trimAt`.
-/

namespace ModuleAtlas

open Std (ExtTreeMap)

/-- The import with no blanks around the name of its module. -/
def Import.trimmed (i : Import) : Import :=
  { i with target := Text.trim i.target }

@[simp] theorem Import.moduleName_trimmed (i : Import) : i.trimmed.moduleName = i.moduleName :=
  Text.trim_trim i.target

def FileFacts.trimImports (file : FileFacts) : FileFacts :=
  { file with imports := file.imports.map Import.trimmed }

theorem FileFacts.moduleName_trimImports (file : FileFacts) :
    file.trimImports.moduleName = file.moduleName := by
  unfold moduleName
  rfl

/-- The facts with trimmed imports, if they are those of the file at `path`. -/
def FileFacts.trimAt (path : String) (file : FileFacts) : FileFacts :=
  if file.path = path then file.trimImports else file

def Contribution.trimAt (path place : String) (c : Contribution) : Contribution :=
  if place = path then { c with imports := c.imports.map Import.trimmed } else c

theorem FileFacts.path_trimAt (path : String) (file : FileFacts) :
    (file.trimAt path).path = file.path := by
  unfold trimAt
  split <;> rfl

theorem FileFacts.contribution_trimAt (path : String) (file : FileFacts) :
    (file.trimAt path).contribution = file.contribution.trimAt path file.path := by
  unfold trimAt Contribution.trimAt
  split
  · simp only [contribution, moduleName_trimImports]
    rfl
  · rfl

theorem Contribution.moduleName_trimAt (path place : String) (c : Contribution) :
    (c.trimAt path place).moduleName = c.moduleName := by
  unfold trimAt
  split <;> rfl

namespace ModuleNode

/-- What a file gives to its module has no blanks from its imports. -/
theorem contribute_trimAt (node : ModuleNode) (path place : String) (c : Contribution) :
    node.contribute place (c.trimAt path place) = node.contribute place c := by
  unfold Contribution.trimAt
  split
  · have leads : node.leadsOut ∘ Import.trimmed = node.leadsOut := by
      funext i
      simp only [Function.comp_apply, leadsOut, Import.moduleName_trimmed]
    have edge (i : Import) : node.edgeOf place i.trimmed = node.edgeOf place i := by
      simp only [edgeOf, Import.moduleName_trimmed]
      rfl
    simp only [contribute, List.filter_map, leads, List.foldl_map, Import.moduleName_trimmed, edge]
    rfl
  · rfl

theorem rebuild_trimAt (node : ModuleNode) (path : String) (contributions : Table Contribution) :
    node.rebuild (contributions.map fun place c => c.trimAt path place) =
      node.rebuild contributions := by
  unfold rebuild
  congr
  funext node place
  rw [ExtTreeMap.getElem?_map]
  cases contributions[place]? with
  | none => rfl
  | some c => exact node.contribute_trimAt path place c

end ModuleNode

namespace Graph

/-- The step with trimmed imports, if it adds the file at `path`. -/
def Edit.trimAt (path : String) : Edit → Edit
  | .add facts => .add (facts.trimAt path)
  | .remove place => .remove place

/-- Two graphs that differ by the blanks around what the file at `path` imports. -/
structure Padded (path : String) (g g' : Graph) : Prop where
  derived : Derived g
  derived' : Derived g'
  modules : g'.modules = g.modules
  files : g'.files = g.files.map fun place c => c.trimAt path place

namespace Padded

variable {path : String} {g g' : Graph}

theorem files_erase (h : Padded path g g') (place : String) :
    g'.files.erase place = (g.files.erase place).map fun place c => c.trimAt path place := by
  rw [h.files]
  apply ExtTreeMap.ext_getElem?
  intro p
  by_cases same : place = p <;> simp [ExtTreeMap.getElem?_erase, same]

theorem retract_modules (h : Padded path g g') (place : String) :
    (g'.retract place).modules = (g.retract place).modules := by
  cases tracked : g.files[place]? with
  | none =>
    have absent : place ∉ g.files := by simp [Table.mem_iff_exists, tracked]
    have absent' : place ∉ g'.files := by simpa [h.files] using absent
    rw [retract_of_untracked absent, retract_of_untracked absent', h.modules]
  | some c =>
    have tracked' : g'.files[place]? = some (c.trimAt path place) := by simp [h.files, tracked]
    obtain ⟨node, held⟩ := Table.mem_iff_exists.mp
      ((h.derived.live_iff c.moduleName).mpr ⟨place, by simp [moduleOf?, tracked]⟩)
    have held' : g'.modules[(c.trimAt path place).moduleName]? = some node := by
      rw [h.modules, c.moduleName_trimAt, held]
    cases last : (node.files.erase place).isEmpty with
    | true =>
      rw [retract_modules_last tracked held last, retract_modules_last tracked' held' last,
        h.modules, c.moduleName_trimAt]
    | false =>
      rw [retract_modules_rebuilt tracked held last, retract_modules_rebuilt tracked' held' last,
        h.modules, c.moduleName_trimAt, h.files_erase, ModuleNode.rebuild_trimAt]

theorem retract (h : Padded path g g') (place : String) :
    Padded path (g.retract place) (g'.retract place) where
  derived := retract_derived h.derived place
  derived' := retract_derived h.derived' place
  modules := h.retract_modules place
  files := by rw [retract_files h.derived', retract_files h.derived, h.files_erase]

theorem apply (h : Padded path g g') {place : String} (fresh : place ∉ g.files)
    (c : Contribution) :
    Padded path (g.apply place c) (g'.apply place (c.trimAt path place)) := by
  have fresh' : place ∉ g'.files := by simpa [h.files] using fresh
  refine ⟨apply_derived h.derived fresh c, apply_derived h.derived' fresh' _, ?_, ?_⟩
  · rw [apply_modules, apply_modules, c.moduleName_trimAt, ModuleNode.contribute_trimAt, home, home,
      h.modules]
  · rw [apply_files, apply_files, h.files]
    apply ExtTreeMap.ext_getElem?
    intro p
    by_cases same : place = p
    · subst same
      simp
    · simp [ExtTreeMap.getElem?_insert, same]

theorem edit (h : Padded path g g') (e : Edit) :
    Padded path (g.edit e) (g'.edit (e.trimAt path)) := by
  have derived := edit_derived h.derived e
  have derived' := edit_derived h.derived' (e.trimAt path)
  cases e with
  | add facts =>
    have gone : facts.path ∉ (g.retract facts.path).files := by simp [retract_files h.derived]
    have entered := (h.retract facts.path).apply gone facts.contribution
    -- The cache is all that is left to do, and it has no part in modules and files.
    refine ⟨derived, derived', ?_, ?_⟩
    · change ((g'.retract (facts.trimAt path).path).apply (facts.trimAt path).path
        (facts.trimAt path).contribution).modules = _
      rw [facts.path_trimAt, facts.contribution_trimAt]
      exact entered.modules
    · change ((g'.retract (facts.trimAt path).path).apply (facts.trimAt path).path
        (facts.trimAt path).contribution).files = _
      rw [facts.path_trimAt, facts.contribution_trimAt]
      exact entered.files
  | remove place =>
    have taken := h.retract place
    refine ⟨derived, derived', ?_, ?_⟩
    · change (g'.remove place).modules = (g.remove place).modules
      rw [remove_modules, remove_modules, taken.modules]
    · change (g'.remove place).files = (g.remove place).files.map _
      rw [remove_files h.derived', remove_files h.derived, h.files_erase]

theorem foldl_edit (h : Padded path g g') (history : List Edit) :
    Padded path (history.foldl Graph.edit g)
      ((history.map (Edit.trimAt path)).foldl Graph.edit g') := by
  induction history generalizing g g' with
  | nil => exact h
  | cons e history ih => exact ih (h.edit e)

end Padded

theorem track_trimAt (path : String) (files : Table FileFacts) (e : Edit) :
    (e.trimAt path).track (files.map fun _ facts => facts.trimAt path) =
      (e.track files).map fun _ facts => facts.trimAt path := by
  apply ExtTreeMap.ext_getElem?
  intro p
  cases e with
  | add facts =>
    simp only [Edit.trimAt, Edit.track, facts.path_trimAt]
    by_cases same : facts.path = p <;> simp [ExtTreeMap.getElem?_insert, same]
  | remove place =>
    simp only [Edit.trimAt, Edit.track]
    by_cases same : place = p <;> simp [ExtTreeMap.getElem?_erase, same]

theorem foldl_track_trimAt (path : String) (files : Table FileFacts) (history : List Edit) :
    (history.map (Edit.trimAt path)).foldl Edit.track
        (files.map fun _ facts => facts.trimAt path) =
      (history.foldl Edit.track files).map fun _ facts => facts.trimAt path := by
  induction history generalizing files with
  | nil => rfl
  | cons e history ih =>
    rw [List.map_cons, List.foldl_cons, List.foldl_cons, track_trimAt, ih]

/-- The files that are left are those of the history, and the one at `path` is trimmed. -/
theorem survivors_trimAt (path : String) (history : List Edit) :
    (survivors (history.map (Edit.trimAt path))).values =
      (survivors history).values.map (FileFacts.trimAt path) := by
  have start : (∅ : Table FileFacts).map (fun _ facts => facts.trimAt path) = ∅ := by
    apply ExtTreeMap.ext_getElem?
    simp
  have left := foldl_track_trimAt path ∅ history
  rw [start] at left
  rw [survivors, left, Table.values_eq_map_toList, Table.values_eq_map_toList,
    ExtTreeMap.toList_map, List.map_map, List.map_map]
  rfl

/-- **Padding.** Blanks around what a file imports leave no trace in the modules. -/
theorem replay_trimAt (capacity : Nat) (history : List Edit) (path : String) :
    (replay capacity (history.map (Edit.trimAt path))).modules =
      (replay capacity history).modules := by
  have start : Padded path (.empty capacity) (.empty capacity) := by
    refine ⟨.empty capacity, .empty capacity, rfl, ?_⟩
    apply ExtTreeMap.ext_getElem?
    simp [Graph.empty]
  exact (start.foldl_edit history).modules

end Graph

end ModuleAtlas
