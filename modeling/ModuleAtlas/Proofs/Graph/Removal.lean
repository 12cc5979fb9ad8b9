import ModuleAtlas.Proofs.Graph.Attribution
import Mathlib.Order.Bounds.Basic

/-!
# Who an edge names when a file goes

A file that is added takes over the edges to what it imports, so an edge names the file that came
last. A module that loses a file is made again from those it keeps, in the order of their paths, and
nothing is held of the order in which these came. So the removal of a file that has nothing to do
with an edge leaves its two ends, but not always its attribution: afterwards the edge names the
greatest path of those that import the target.
-/

namespace ModuleAtlas

open Std (ExtTreeMap ExtTreeSet)

theorem LastImport.unique {imports : List Import} {target : String} {i j : Import}
    (hi : LastImport imports target i) (hj : LastImport imports target j) : i = j := by
  rw [lastImport_iff_find?] at hi hj
  exact Option.some.inj (hi.symm.trans hj)

/-- A file leaves one edge to each target. -/
theorem ReadIn.unique {name target : String} {member : String × Contribution}
    {edge edge' : ImportEdge} (read : ReadIn name member target edge)
    (read' : ReadIn name member target edge') : edge = edge' := by
  obtain ⟨i, last, place⟩ := read.place
  obtain ⟨j, last', place'⟩ := read'.place
  obtain rfl := last.unique last'
  have source : edge.source = edge'.source := read.starts.trans read'.starts.symm
  have ends : edge.target = edge'.target := read.leads.trans read'.leads.symm
  have file : edge.file = edge'.file := read.file.trans read'.file.symm
  have location : edge.location = edge'.location := place.symm.trans place'
  cases edge
  cases edge'
  simp_all

/-- Of the members that lead to `target`, `member` has the greatest path. -/
structure LeadsLast (members : List (String × Contribution)) (name target : String)
    (member : String × Contribution) : Prop where
  listed : member ∈ members
  leads : member.2.leadsTo name target = true
  later : ∀ other ∈ members, other.2.leadsTo name target = true → other.1 ≤ member.1

/-- `held` is the edge to `target` that the last of the members to lead there leaves, or where none
of them does the one found before. -/
def Drawn (members : List (String × Contribution)) (name target : String)
    (old held : Option ImportEdge) : Prop :=
  (∃ member edge, LeadsLast members name target member ∧ ReadIn name member target edge ∧
    held = some edge) ∨
  (∀ member ∈ members, member.2.leadsTo name target = false) ∧ held = old

namespace ModuleNode

/-- Taken in by ascending paths, the last file that leads to a target has the edge to it. -/
theorem gather_drawn (node : ModuleNode) {members : List (String × Contribution)}
    (ascending : members.Pairwise fun a b => a.1 < b.1) (target : String) :
    Drawn members node.name target node.imports[target]?
      (node.gather members).imports[target]? := by
  induction members generalizing node with
  | nil => exact .inr ⟨by simp, rfl⟩
  | cons first members ih =>
    obtain ⟨before, ascending⟩ := List.pairwise_cons.mp ascending
    change Drawn (first :: members) node.name target node.imports[target]?
      ((node.contribute first.1 first.2).gather members).imports[target]?
    rcases ih (node.contribute first.1 first.2) ascending with
      ⟨member, edge, ⟨listed, leads, later⟩, read, held⟩ | ⟨silent, kept⟩
    · refine .inl ⟨member, edge, ⟨.tail _ listed, leads, ?_⟩, read, held⟩
      intro other choice leads'
      cases choice with
      | head => exact (before member listed).le
      | tail _ listed' => exact later other listed' leads'
    · -- None of the others leads to the target: what the first file leaves stays.
      rw [contribute_name] at silent
      rw [kept]
      rcases contribute_imports_cases node first.1 first.2 target with
        ⟨leads, edge, held, read⟩ | ⟨silent', old⟩
      · refine .inl ⟨first, edge, ⟨.head _, leads, ?_⟩, read, held⟩
        intro other choice leads'
        cases choice with
        | head => exact le_rfl
        | tail _ listed => rw [silent other listed] at leads'; cases leads'
      · refine .inr ⟨?_, old⟩
        intro member choice
        cases choice with
        | head => exact silent'
        | tail _ listed => exact silent member listed

/-- A module that is made again takes its files in by ascending paths and starts without edges. -/
theorem rebuild_drawn (node : ModuleNode) (contributions : Table Contribution)
    {members : List (String × Contribution)}
    (mem_members : ∀ p c, (p, c) ∈ members ↔ p ∈ node.files ∧ contributions[p]? = some c)
    (target : String) :
    Drawn members node.name target none (node.rebuild contributions).imports[target]? := by
  let found := node.files.toList.filterMap fun path => contributions[path]?.map (path, ·)
  have ascending : found.Pairwise fun a b => a.1 < b.1 := by
    rw [List.pairwise_filterMap]
    refine ExtTreeSet.ordered_toList.imp fun {p q} less a fa b fb => ?_
    obtain ⟨c, -, rfl⟩ := Option.map_eq_some_iff.mp fa
    obtain ⟨d, -, rfl⟩ := Option.map_eq_some_iff.mp fb
    exact compare_lt_iff_lt.mp less
  have same (member : String × Contribution) : member ∈ found ↔ member ∈ members := by
    obtain ⟨p, c⟩ := member
    simp [found, mem_members]
  rw [rebuild_eq_gather]
  rcases gather_drawn node.bare ascending target with
    ⟨member, edge, ⟨listed, leads, later⟩, read, held⟩ | ⟨silent, kept⟩
  · refine .inl ⟨member, edge, ⟨(same member).mp listed, leads, ?_⟩, read, held⟩
    intro other listed'
    exact later other ((same other).mpr listed')
  · refine .inr ⟨?_, kept.trans (by simp [bare])⟩
    intro member listed
    exact silent member ((same member).mpr listed)

end ModuleNode

/-- The file at `path` is one of the module `name` and imports `target`. -/
def Draws (files : Table FileFacts) (name target path : String) : Prop :=
  ∃ facts, Belongs files name path facts ∧ ∃ i ∈ facts.imports, i.moduleName = target

section
variable {facts : Table FileFacts} {name path target : String}

theorem leadsTo_contribution_iff {f : FileFacts} :
    f.contribution.leadsTo name target = true ↔
      target ≠ "" ∧ target ≠ name ∧ ∃ i ∈ f.imports, i.moduleName = target := by
  simp [Contribution.leadsTo, FileFacts.contribution, and_assoc]

/-- A file that does not import the target is not missed among those that do. -/
theorem draws_erase_iff {f : FileFacts} (own : facts[path]? = some f)
    (unrelated : ∀ i ∈ f.imports, i.moduleName ≠ target) (p : String) :
    Draws (facts.erase path) name target p ↔ Draws facts name target p := by
  unfold Draws Belongs
  rw [ExtTreeMap.getElem?_erase]
  by_cases same : path = p
  · subst same
    refine iff_of_false ?_ ?_
    · rintro ⟨f', ⟨held, -⟩, -⟩
      simp at held
    · rintro ⟨f', ⟨held, -⟩, i, listed, named⟩
      obtain rfl := Option.some.inj (own.symm.trans held)
      exact unrelated i listed named
  · simp [same]

theorem LeadsLast.isGreatest {member : String × Contribution}
    (last : LeadsLast (membersOf (facts.map fun _ f => f.contribution) name) name target member) :
    IsGreatest {p | Draws facts name target p} member.1 := by
  obtain ⟨p, c⟩ := member
  obtain ⟨listed, leads, later⟩ := last
  obtain ⟨f, belongs, rfl⟩ := mem_members_iff.mp listed
  obtain ⟨nonempty, elsewhere, imports⟩ := leadsTo_contribution_iff.mp leads
  constructor
  · exact ⟨f, belongs, imports⟩
  · rintro q ⟨f', belongs', imports'⟩
    apply later (q, f'.contribution) (mem_members_iff.mpr ⟨f', belongs', rfl⟩)
    exact leadsTo_contribution_iff.mpr ⟨nonempty, elsewhere, imports'⟩

end

namespace Graph

section
variable {g : Graph} {facts : Table FileFacts} {name path target : String}

/-- The module of a file that goes, if it keeps another one, has each edge from the last of the
files it keeps. -/
theorem Derived.retract_drawn (h : Derived g) {c : Contribution}
    (tracked : g.files[path]? = some c) {node : ModuleNode}
    (held : (g.retract path).modules[c.moduleName]? = some node) (target : String) :
    Drawn (membersOf (g.retract path).files c.moduleName) c.moduleName target none
      node.imports[target]? := by
  obtain ⟨before, found⟩ := Table.mem_iff_exists.mp
    ((h.live_iff c.moduleName).mpr ⟨path, by simp [moduleOf?, tracked]⟩)
  cases last : (before.files.erase path).isEmpty with
  | true => simp [retract_modules_last tracked found last] at held
  | false =>
    rw [retract_modules_rebuilt tracked found last, ExtTreeMap.getElem?_insert_self] at held
    obtain rfl := Option.some.inj held
    have named : before.name = c.moduleName := h.named _ before found
    rw [← named]
    apply (before.withFiles (before.files.erase path)).rebuild_drawn
    intro p d
    rw [named, mem_membersOf, ← retract_files h]
    change _ ↔ p ∈ before.files.erase path ∧ _
    rw [retract_mem_remaining h found, moduleOf?]
    constructor
    · rintro ⟨tracked', belongs⟩
      exact ⟨by simp [tracked', belongs], tracked'⟩
    · rintro ⟨belongs, tracked'⟩
      exact ⟨tracked', by simpa [tracked'] using belongs⟩

/-- An edge that the file at `path` has no part in is read, once the file is gone, in the greatest
of the files that draw it. -/
theorem Derived.readIn_remove (h : Derived g)
    (files : g.files = facts.map fun _ f => f.contribution) {f : FileFacts}
    (own : Belongs facts name path f) (unrelated : ∀ i ∈ f.imports, i.moduleName ≠ target)
    {node node' : ModuleNode} (held : g.modules[name]? = some node)
    (held' : (g.remove path).modules[name]? = some node') (drawn : target ∈ node.imports) :
    ∃ q f', Belongs facts name q f' ∧ IsGreatest {p | Draws facts name target p} q ∧
      ∃ edge', node'.imports[target]? = some edge' ∧
        ReadIn name (q, f'.contribution) target edge' := by
  obtain ⟨tracked, rfl⟩ := own
  have tracked' : g.files[path]? = some f.contribution := by simp [files, tracked]
  have erased : (g.retract path).files = (facts.erase path).map fun _ f => f.contribution := by
    rw [retract_files h, ← remove_files h]
    exact edit_files h files (.remove path)
  have same (p : String) :
      Draws (facts.erase path) f.moduleName target p ↔ Draws facts f.moduleName target p :=
    draws_erase_iff tracked unrelated p
  rw [remove_modules, ← f.contribution_moduleName] at held'
  have redrawn := h.retract_drawn tracked' held' target
  rw [f.contribution_moduleName, erased] at redrawn
  rcases redrawn with ⟨⟨q, c⟩, edge', last, read, drawn'⟩ | ⟨silent, -⟩
  · obtain ⟨f', ⟨held'', belongs⟩, rfl⟩ := mem_members_iff.mp last.listed
    have greatest := last.isGreatest
    simp only [same] at greatest
    rw [ExtTreeMap.getElem?_erase] at held''
    split at held''
    · cases held''
    · exact ⟨q, f', ⟨held'', belongs⟩, greatest, edge', drawn', read⟩
  · -- One of the files drew the edge, and it is still there.
    obtain ⟨⟨p, c⟩, listed, leads⟩ := (h.mem_imports_iff held target).mp drawn
    rw [files] at listed
    obtain ⟨f', belongs, rfl⟩ := mem_members_iff.mp listed
    obtain ⟨nonempty, elsewhere, imports⟩ := leadsTo_contribution_iff.mp leads
    obtain ⟨f'', belongs'', imports''⟩ := (same p).mpr ⟨f', belongs, imports⟩
    have leads'' := leadsTo_contribution_iff.mpr ⟨nonempty, elsewhere, imports''⟩
    rw [silent (p, f''.contribution) (mem_members_iff.mpr ⟨f'', belongs'', rfl⟩)] at leads''
    cases leads''

end

/-- **A removal attributes by path.** A file that does not import `target` leaves a module that
keeps another one. Then the module has an edge to `target` if and only if it had one, with the same
ends. It now names the greatest path of the module's files that import `target`, and the place of
the last such import there. So it is the edge that it was if and only if it named that file
before. -/
theorem removal_attributes_by_path (capacity : Nat) (history : List Edit)
    {name path other target : String} {facts rest : FileFacts}
    (own : Belongs (survivors history) name path facts)
    (stays : Belongs (survivors history) name other rest) (differ : other ≠ path)
    (unrelated : ∀ i ∈ facts.imports, i.moduleName ≠ target) :
    ∃ node node', (replay capacity history).modules[name]? = some node ∧
      ((replay capacity history).remove path).modules[name]? = some node' ∧
      (target ∈ node'.imports ↔ target ∈ node.imports) ∧
      ∀ edge, node.imports[target]? = some edge →
        ∃ edge', node'.imports[target]? = some edge' ∧
          edge'.source = edge.source ∧ edge'.target = edge.target ∧
          IsGreatest {p | Draws (survivors history) name target p} edge'.file ∧
          (∃ f i, Belongs (survivors history) name edge'.file f ∧
            LastImport f.imports target i ∧ i.location = edge'.location) ∧
          (edge' = edge ↔
            IsGreatest {p | Draws (survivors history) name target p} edge.file) := by
  obtain ⟨derived, files⟩ := replay_derived capacity history
  have attributed := replay_attributed capacity history
  generalize replay capacity history = g at derived files attributed ⊢
  have derived' : Derived (g.remove path) := remove_derived derived path
  have files' := edit_files derived files (.remove path)
  have stays' : Belongs ((survivors history).erase path) name other rest := by
    refine ⟨?_, stays.2⟩
    rw [ExtTreeMap.getElem?_erase, if_neg (by simpa using differ.symm), stays.1]
  obtain ⟨node, held⟩ := Table.mem_iff_exists.mp
    ((derived.live_iff_belongs files).mpr ⟨path, facts, own⟩)
  obtain ⟨node', held'⟩ := Table.mem_iff_exists.mp
    ((derived'.live_iff_belongs files').mpr ⟨other, rest, stays'⟩)
  refine ⟨node, node', held, held', ?_, ?_⟩
  · constructor
    · intro drawn'
      obtain ⟨member, listed, leads⟩ := (derived'.mem_imports_iff held' target).mp drawn'
      rw [remove_files derived] at listed
      exact (derived.mem_imports_iff held target).mpr
        ⟨member, (mem_membersOf_erase.mp listed).2, leads⟩
    · intro drawn
      obtain ⟨-, -, -, -, edge', drawn', -⟩ :=
        derived.readIn_remove files own unrelated held held' drawn
      exact Table.mem_iff_exists.mpr ⟨edge', drawn'⟩
  · intro edge drawn
    obtain ⟨q, f, belongs, greatest, edge', drawn', read'⟩ := derived.readIn_remove files own
      unrelated held held' (Table.mem_iff_exists.mpr ⟨edge, drawn⟩)
    obtain ⟨⟨p, c⟩, listed, read⟩ := attributed name node held target edge drawn
    obtain ⟨i, last, place⟩ := read'.place
    have file : edge'.file = q := read'.file
    refine ⟨edge', drawn', read'.starts.trans read.starts.symm, read'.leads.trans read.leads.symm,
      file ▸ greatest, ⟨f, i, file ▸ belongs, last, place⟩, ?_⟩
    constructor
    · rintro rfl
      exact file ▸ greatest
    · intro before
      -- The greatest path is one, and a file draws one edge.
      obtain rfl : p = q := read.file.symm.trans (before.unique greatest)
      rw [files] at listed
      obtain ⟨f', belongs', rfl⟩ := mem_members_iff.mp listed
      obtain rfl : f' = f := Option.some.inj (belongs'.1.symm.trans belongs.1)
      exact read'.unique read

/-- The file that came last has the greatest path of those that import the target too. -/
theorem removal_attributes_by_path_kept :
    let wanted (target : String) (line : UInt32) : Import := { target, location := { line } }
    let a : FileFacts := { path := "a", moduleField := "m", imports := [wanted "t" 1] }
    let b : FileFacts :=
      { path := "b", moduleField := "m", imports := [wanted "t" 2, wanted " t " 3] }
    let c : FileFacts := { path := "c", moduleField := "m", imports := [wanted "k" 4] }
    let history : List Edit := [.add a, .add c, .add b]
    ∃ node node', (replay 1 history).modules["m"]? = some node ∧
      ((replay 1 history).remove "c").modules["m"]? = some node' ∧
      node.imports["t"]? = some ⟨"m", "t", "b", { line := 3 }⟩ ∧
      node'.imports["t"]? = node.imports["t"]? ∧ node'.imports.keys = ["t"] := by
  intro wanted a b c history
  have at_b : (survivors history)["b"]? = some b := by decide +kernel
  have at_c : (survivors history)["c"]? = some c := by decide +kernel
  have unrelated : ∀ i ∈ c.imports, i.moduleName ≠ "t" := by decide +kernel
  have own : Belongs (survivors history) "m" "c" c := ⟨at_c, by decide +kernel⟩
  have stays : Belongs (survivors history) "m" "b" b := ⟨at_b, by decide +kernel⟩
  obtain ⟨node, node', held, held', -, attributed⟩ :=
    removal_attributes_by_path 1 history own stays (by decide) unrelated
  have view {β : Type} (f : ModuleNode → β) :
      (replay 1 history).modules["m"]?.map f = some (f node) := by rw [held]; rfl
  have view' {β : Type} (f : ModuleNode → β) :
      ((replay 1 history).remove "c").modules["m"]?.map f = some (f node') := by rw [held']; rfl
  have drawn : node.imports["t"]? = some ⟨"m", "t", "b", { line := 3 }⟩ :=
    Option.some.inj ((view (·.imports["t"]?)).symm.trans (by decide +kernel))
  have greatest : IsGreatest {p | Draws (survivors history) "m" "t" p} "b" := by
    constructor
    · exact ⟨b, stays, wanted "t" 2, .head _, by decide +kernel⟩
    · rintro p ⟨f, ⟨tracked, -⟩, i, listed, named⟩
      have known : p ∈ (survivors history).keys := by
        rw [ExtTreeMap.mem_keys]
        exact Table.mem_iff_exists.mpr ⟨f, tracked⟩
      have keys : (survivors history).keys = ["a", "b", "c"] := by decide +kernel
      rw [keys] at known
      simp only [List.mem_cons, List.not_mem_nil, or_false] at known
      rcases known with rfl | rfl | rfl
      · decide
      · exact le_rfl
      · obtain rfl := Option.some.inj (tracked.symm.trans at_c)
        exact absurd named (unrelated i listed)
  obtain ⟨edge', drawn', -, -, -, -, same_iff⟩ := attributed _ drawn
  refine ⟨node, node', held, held', drawn, ?_, ?_⟩
  · rw [drawn', drawn, same_iff.mpr greatest]
  · exact Option.some.inj ((view' (·.imports.keys)).symm.trans (by decide +kernel))

/-- The file that came last has not the greatest path: the removal of a file without imports takes
the edge from it. -/
theorem unrelated_removal_can_reattribute :
    let wanted (line : UInt32) : Import := { target := "t", location := { line } }
    let a : FileFacts := { path := "a", moduleField := "m", imports := [wanted 2] }
    let b : FileFacts := { path := "b", moduleField := "m", imports := [wanted 1] }
    let c : FileFacts := { path := "c", moduleField := "m" }
    let g := replay 1 [.add b, .add a, .add c]
    let edgeIn (g : Graph) := g.modules["m"]?.bind (·.imports["t"]?)
    g.moduleOf? "c" = some "m" ∧ (g.remove "c").moduleOf? "a" = some "m" ∧ c.imports = [] ∧
      edgeIn g = some ⟨"m", "t", "a", { line := 2 }⟩ ∧
      edgeIn (g.remove "c") = some ⟨"m", "t", "b", { line := 1 }⟩ := by
  decide +kernel

end Graph

end ModuleAtlas
