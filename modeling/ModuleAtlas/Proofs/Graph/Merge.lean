import ModuleAtlas.Proofs.Table
import Mathlib.Data.List.Nodup
import Mathlib.Data.String.Basic
import Mathlib.Order.Lex

/-!
# Merging files into a module

A module takes in the files that belong to it one after the other. The order shows only in the
file and the place that an import edge names: `ModuleNode.unattributed` leaves these out, and

* `prefer_right_comm`: two entries of different files compete for a name with the same outcome
  in either order;
* `contribute_right_comm`: so two files can be taken in in either order;
* `gather_perm`: and any number of files in any order.
-/

namespace ModuleAtlas

open Std (ExtTreeMap)

/-- Items that can trade places with `item` may be folded in before it or after it. -/
theorem foldl_trade {α β : Type} {f : β → α → β} {item : α} {items : List α}
    (trade : ∀ other ∈ items, ∀ b, f (f b item) other = f (f b other) item) (b : β) :
    items.foldl f (f b item) = f (items.foldl f b) item := by
  induction items generalizing b with
  | nil => rfl
  | cons other items ih =>
    rw [List.foldl_cons, trade other List.mem_cons_self,
      ih (fun x hx => trade x (List.mem_cons_of_mem _ hx)), List.foldl_cons]

theorem foldl_foldl_comm {α β : Type} {f : β → α → β} {items others : List α}
    (trade : ∀ item ∈ items, ∀ other ∈ others, ∀ b, f (f b item) other = f (f b other) item)
    (b : β) : others.foldl f (items.foldl f b) = items.foldl f (others.foldl f b) := by
  induction items generalizing b with
  | nil => rfl
  | cons item items ih =>
    rw [List.foldl_cons, List.foldl_cons,
      ih (fun x hx => trade x (List.mem_cons_of_mem _ hx)),
      foldl_trade (trade item List.mem_cons_self)]

namespace Entry

theorem outranks_iff {a b : Entry} :
    a.outranks b = true ↔
      b.definition.rank < a.definition.rank ∨
        b.definition.rank = a.definition.rank ∧ a.file < b.file := by
  simp [outranks]

theorem outranks_trans {a b c : Entry} (hab : a.outranks b = true) (hbc : b.outranks c = true) :
    a.outranks c = true := by
  rw [outranks_iff] at *
  rcases hab with hab | ⟨hab, fab⟩ <;> rcases hbc with hbc | ⟨hbc, fbc⟩
  · exact .inl (hbc.trans hab)
  · exact .inl (hbc ▸ hab)
  · exact .inl (hab ▸ hbc)
  · exact .inr ⟨hbc.trans hab, fab.trans fbc⟩

theorem outranks_asymm {a b : Entry} (h : a.outranks b = true) : b.outranks a = false := by
  rw [outranks_iff] at h
  rw [Bool.eq_false_iff, Ne, outranks_iff]
  rintro (h' | ⟨h', f'⟩) <;> rcases h with h | ⟨h, f⟩
  · exact h.asymm h'
  · exact absurd h' (h ▸ lt_irrefl _)
  · exact absurd h (h' ▸ lt_irrefl _)
  · exact f.asymm f'

/-- Entries of different files are never tied. -/
theorem outranks_of_file_ne {a b : Entry} (differ : a.file ≠ b.file)
    (h : a.outranks b = false) : b.outranks a = true := by
  rw [Bool.eq_false_iff, Ne, outranks_iff, not_or, not_and] at h
  rw [outranks_iff]
  rcases lt_trichotomy a.definition.rank b.definition.rank with lt | eq | gt
  · exact .inl lt
  · refine .inr ⟨eq, ?_⟩
    exact lt_of_le_of_ne (not_lt.mp (h.2 eq.symm)) differ.symm
  · exact absurd gt h.1

/-- Who holds a name after `entry` has competed with the holder it found. -/
def winner (entry : Entry) : Option Entry → Entry
  | some current => if entry.outranks current then entry else current
  | none => entry

theorem getElem?_prefer (table : Table Entry) (entry : Entry) (name : String) :
    (prefer table entry)[name]? =
      if entry.definition.name = name then some (entry.winner table[name]?) else table[name]? := by
  unfold prefer
  by_cases hn : entry.definition.name = name
  · subst hn
    cases held : table[entry.definition.name]? with
    | none => simp [winner]
    | some current => by_cases better : entry.outranks current <;> simp [winner, held, better]
  · cases held : table[entry.definition.name]? with
    | none => simp [ExtTreeMap.getElem?_insert, hn]
    | some current =>
      by_cases better : entry.outranks current <;> simp [better, ExtTreeMap.getElem?_insert, hn]

theorem winner_right_comm {a b : Entry} (differ : a.file ≠ b.file) (held : Option Entry) :
    b.winner (some (a.winner held)) = a.winner (some (b.winner held)) := by
  cases hab : a.outranks b with
  | true =>
    have hba := outranks_asymm hab
    cases held with
    | none => simp [winner, hab, hba]
    | some c =>
      cases hbc : b.outranks c with
      | true => simp [winner, outranks_trans hab hbc, hab, hba, hbc]
      | false =>
        cases hac : a.outranks c <;> simp [winner, hba, hbc, hac]
  | false =>
    have hba := outranks_of_file_ne differ hab
    cases held with
    | none => simp [winner, hab, hba]
    | some c =>
      cases hac : a.outranks c with
      | true => simp [winner, outranks_trans hba hac, hab, hba, hac]
      | false =>
        cases hbc : b.outranks c <;> simp [winner, hab, hbc, hac]

theorem prefer_right_comm (table : Table Entry) {a b : Entry} (differ : a.file ≠ b.file) :
    prefer (prefer table a) b = prefer (prefer table b) a := by
  apply ExtTreeMap.ext_getElem?
  intro name
  simp only [getElem?_prefer]
  by_cases ha : a.definition.name = name <;> by_cases hb : b.definition.name = name <;>
    simp [ha, hb, winner_right_comm differ]

theorem foldl_prefer_comm (table : Table Entry) {as bs : List Entry}
    (differ : ∀ a ∈ as, ∀ b ∈ bs, a.file ≠ b.file) :
    bs.foldl prefer (as.foldl prefer table) = as.foldl prefer (bs.foldl prefer table) :=
  foldl_foldl_comm (fun a ha b hb table => prefer_right_comm table (differ a ha b hb)) table

end Entry

/-- The edge without the file and the place it was read from. -/
def ImportEdge.unattributed (edge : ImportEdge) : ImportEdge :=
  { edge with file := "", location := {} }

/-- Whether a file of the module `name` leads to another module, `target`. -/
def Contribution.leadsTo (c : Contribution) (name target : String) : Bool :=
  target ≠ "" && target ≠ name && c.imports.any (·.moduleName = target)

attribute [ext] ModuleNode

namespace ModuleNode

/-- The module without what its import edges say of files and places. -/
def unattributed (node : ModuleNode) : ModuleNode :=
  { node with imports := node.imports.map fun _ edge => edge.unattributed }

theorem contribute_name (node : ModuleNode) (path : String) (c : Contribution) :
    (node.contribute path c).name = node.name := rfl

theorem exists_leadsOut_iff (node : ModuleNode) (c : Contribution) (target : String) :
    (∃ i ∈ c.imports.filter node.leadsOut, i.moduleName = target) ↔
      c.leadsTo node.name target = true := by
  simp only [List.mem_filter, leadsOut, Contribution.leadsTo, Bool.and_eq_true,
    decide_eq_true_eq, List.any_eq_true]
  constructor
  · rintro ⟨i, ⟨hi, hout⟩, rfl⟩
    exact ⟨hout, i, hi, rfl⟩
  · rintro ⟨hout, i, hi, rfl⟩
    exact ⟨i, ⟨hi, hout⟩, rfl⟩

theorem mem_contribute_imports (node : ModuleNode) (path : String) (c : Contribution)
    (target : String) :
    target ∈ (node.contribute path c).imports ↔
      c.leadsTo node.name target = true ∨ target ∈ node.imports := by
  rw [← exists_leadsOut_iff]
  exact Table.mem_foldl_insert _ _ _ _ _

/-- Without its attribution an edge is known from its two ends. -/
theorem getElem?_contribute_unattributed (node : ModuleNode) (path : String) (c : Contribution)
    (target : String) :
    (node.contribute path c).unattributed.imports[target]? =
      if c.leadsTo node.name target then some ⟨node.name, target, "", {}⟩
      else node.unattributed.imports[target]? := by
  simp only [unattributed, contribute, ExtTreeMap.getElem?_map, Table.getElem?_foldl_insert]
  cases found : (c.imports.filter node.leadsOut).reverse.find? fun i => i.moduleName = target with
  | some i =>
    have hi := List.mem_of_find?_eq_some found
    have ht : i.moduleName = target := by simpa using List.find?_some found
    have leads := (exists_leadsOut_iff node c target).mp ⟨i, List.mem_reverse.mp hi, ht⟩
    simp [leads, edgeOf, ImportEdge.unattributed, ht]
  | none =>
    have stays : ¬ c.leadsTo node.name target = true := by
      rw [← exists_leadsOut_iff]
      rintro ⟨i, hi, ht⟩
      simpa [ht] using List.find?_eq_none.mp found i (List.mem_reverse.mpr hi)
    simp [stays]

theorem contribute_unattributed (node : ModuleNode) (path : String) (c : Contribution) :
    (node.unattributed.contribute path c).unattributed = (node.contribute path c).unattributed := by
  ext1
  case imports =>
    apply ExtTreeMap.ext_getElem?
    intro target
    simp only [getElem?_contribute_unattributed]
    congr 1
    simp [unattributed, ImportEdge.unattributed]
  all_goals rfl

theorem toNat_max (a b : UInt32) : (max a b).toNat = max a.toNat b.toNat := by
  rw [UInt32.max_def, Nat.max_def]
  simp only [UInt32.le_iff_toNat_le]
  split <;> rfl

theorem max_right_comm (a b c : UInt32) : max (max a b) c = max (max a c) b := by
  apply UInt32.toNat_inj.mp
  simp only [toNat_max]
  omega

/-- Files take part in a module in any order. -/
theorem contribute_right_comm (node : ModuleNode) {p q : String} (differ : p ≠ q)
    (c d : Contribution) :
    ((node.contribute p c).contribute q d).unattributed =
      ((node.contribute q d).contribute p c).unattributed := by
  have files : ∀ a ∈ c.definitions.map (node.entryOf p c),
      ∀ b ∈ d.definitions.map (node.entryOf q d), a.file ≠ b.file := by
    simp only [List.mem_map]
    rintro _ ⟨_, _, rfl⟩ _ ⟨_, _, rfl⟩
    exact differ
  ext1
  case name | files => rfl
  case languages =>
    apply Std.ExtTreeSet.ext_mem
    intro language
    simp only [unattributed, contribute]
    split <;> split <;> simp only [Std.ExtTreeSet.mem_insert, or_left_comm]
  case exports =>
    apply Entry.foldl_prefer_comm
    intro a ha b hb
    exact files a (List.mem_of_mem_filter ha) b (List.mem_of_mem_filter hb)
  case definitions => exact Entry.foldl_prefer_comm _ files
  case imports =>
    apply ExtTreeMap.ext_getElem?
    intro target
    simp only [getElem?_contribute_unattributed, contribute_name]
    split <;> split <;> rfl
  case maxComplexity =>
    exact foldl_foldl_comm (fun a _ b _ most => max_right_comm most a.score b.score) _

/-- Take in several files, one after the other. -/
def gather (node : ModuleNode) (members : List (String × Contribution)) : ModuleNode :=
  members.foldl (fun node member => node.contribute member.1 member.2) node

theorem gather_name (node : ModuleNode) (members : List (String × Contribution)) :
    (node.gather members).name = node.name := by
  induction members generalizing node with
  | nil => rfl
  | cons member members ih => exact ih (node.contribute member.1 member.2)

theorem mem_gather_imports (node : ModuleNode) (members : List (String × Contribution))
    (target : String) :
    target ∈ (node.gather members).imports ↔
      (∃ member ∈ members, member.2.leadsTo node.name target = true) ∨
        target ∈ node.imports := by
  induction members generalizing node with
  | nil => simp [gather]
  | cons member members ih =>
    change target ∈ ((node.contribute member.1 member.2).gather members).imports ↔ _
    rw [ih, mem_contribute_imports, contribute_name, List.exists_mem_cons_iff, or_assoc]
    exact or_left_comm

theorem unattributed_gather (node : ModuleNode) (members : List (String × Contribution)) :
    (node.gather members).unattributed =
      members.foldl (fun node member => (node.contribute member.1 member.2).unattributed)
        node.unattributed := by
  induction members generalizing node with
  | nil => rfl
  | cons member members ih =>
    change ((node.contribute member.1 member.2).gather members).unattributed = _
    rw [ih, List.foldl_cons, contribute_unattributed]

theorem gather_perm (node : ModuleNode) {members members' : List (String × Contribution)}
    (perm : members.Perm members') (distinct : (members.map Prod.fst).Nodup) :
    (node.gather members).unattributed = (node.gather members').unattributed := by
  rw [unattributed_gather, unattributed_gather]
  apply perm.foldl_eq'
  intro a ha b hb node
  by_cases same : a.1 = b.1
  · have eq : a = b := List.inj_on_of_nodup_map distinct ha hb same
    rw [eq]
  · rw [contribute_unattributed, contribute_unattributed, contribute_right_comm _ same]

def withFiles (node : ModuleNode) (files : Names) : ModuleNode :=
  { node with files }

theorem gather_withFiles (node : ModuleNode) (files : Names)
    (members : List (String × Contribution)) :
    (node.withFiles files).gather members = (node.gather members).withFiles files := by
  induction members generalizing node with
  | nil => rfl
  | cons member members ih => exact ih (node.contribute member.1 member.2)

/-- The module `name` as a list of files makes it. -/
def made (name : String) (members : List (String × Contribution)) : ModuleNode :=
  ({ name } : ModuleNode).gather members |>.withFiles (.ofList (members.map Prod.fst))

theorem made_perm (name : String) {members members' : List (String × Contribution)}
    (perm : members.Perm members') (distinct : (members.map Prod.fst).Nodup) :
    (made name members).unattributed = (made name members').unattributed := by
  have files : Std.ExtTreeSet.ofList (members.map Prod.fst) =
      Std.ExtTreeSet.ofList (members'.map Prod.fst) := by
    apply Std.ExtTreeSet.ext_mem
    intro path
    simp only [Std.ExtTreeSet.mem_ofList, List.contains_iff_mem, (perm.map Prod.fst).mem_iff]
  rw [made, made, files]
  exact congrArg (withFiles · _) (gather_perm { name } perm distinct)

/-- A module that takes in one more file is the one made with that file. -/
theorem enter_made {node : ModuleNode} {name : String} {members : List (String × Contribution)}
    (same : node.unattributed = (made name members).unattributed)
    (distinct : (members.map Prod.fst).Nodup) {path : String}
    (fresh : path ∉ members.map Prod.fst) (c : Contribution) :
    ((node.withFiles (node.files.insert path)).contribute path c).unattributed =
      (made name ((path, c) :: members)).unattributed := by
  have files : node.files.insert path = .ofList (path :: members.map Prod.fst) := by
    have held : node.files = .ofList (members.map Prod.fst) := congrArg ModuleNode.files same
    apply Std.ExtTreeSet.ext_mem
    intro p
    rw [held]
    simp only [Std.ExtTreeSet.mem_insert, Std.ExtTreeSet.mem_ofList, List.contains_iff_mem,
      List.mem_cons, Std.LawfulEqCmp.compare_eq_iff_eq, eq_comm (a := path)]
  have perm : (members ++ [(path, c)]).Perm ((path, c) :: members) :=
    List.perm_append_singleton _ _
  have distinct' : ((members ++ [(path, c)]).map Prod.fst).Nodup := by
    rw [(perm.map Prod.fst).nodup_iff, List.map_cons, List.nodup_cons]
    exact ⟨fresh, distinct⟩
  let bare : ModuleNode := { name }
  -- Setting the files does not interfere with taking one in.
  calc ((node.withFiles (node.files.insert path)).contribute path c).unattributed
      = (node.unattributed.contribute path c).unattributed.withFiles
          (.ofList (path :: members.map Prod.fst)) := by
        rw [contribute_unattributed, files]; rfl
    _ = ((bare.gather members).unattributed.contribute path c).unattributed.withFiles
          (.ofList (path :: members.map Prod.fst)) := by rw [same]; rfl
    _ = (bare.gather (members ++ [(path, c)])).unattributed.withFiles
          (.ofList (path :: members.map Prod.fst)) := by
        rw [contribute_unattributed, gather, gather, List.foldl_append]; rfl
    _ = (made name ((path, c) :: members)).unattributed := by
        rw [gather_perm _ perm distinct']; rfl

theorem rebuild_eq_gather (node : ModuleNode) (contributions : Table Contribution) :
    node.rebuild contributions =
      node.bare.gather
        (node.files.toList.filterMap fun path => contributions[path]?.map (path, ·)) := by
  rw [rebuild, gather, List.foldl_filterMap]
  congr
  funext node path
  cases contributions[path]? <;> rfl

/-- Made again from its files, a module is the one its files make. -/
theorem rebuild_made {node : ModuleNode} {name : String} (named : node.name = name)
    {contributions : Table Contribution} {members : List (String × Contribution)}
    (distinct : (members.map Prod.fst).Nodup)
    (mem_members : ∀ p c, (p, c) ∈ members ↔ p ∈ node.files ∧ contributions[p]? = some c)
    (mem_files : ∀ p, p ∈ node.files ↔ p ∈ members.map Prod.fst) :
    (node.rebuild contributions).unattributed = (made name members).unattributed := by
  let found := node.files.toList.filterMap fun path => contributions[path]?.map (path, ·)
  have files : node.files = .ofList (members.map Prod.fst) := by
    apply Std.ExtTreeSet.ext_mem
    intro p
    rw [mem_files, Std.ExtTreeSet.mem_ofList, List.contains_iff_mem]
  have perm : members.Perm found := by
    apply (List.perm_ext_iff_of_nodup distinct.of_map ?_).mpr
    · rintro ⟨p, c⟩
      simp [found, mem_members]
    · apply List.Nodup.filterMap
      · intro p q m hp hq
        simp only [Option.mem_def, Option.map_eq_some_iff] at hp hq
        obtain ⟨_, _, rfl⟩ := hp
        obtain ⟨_, _, eq⟩ := hq
        exact (Prod.mk.inj eq).1.symm
      · exact node.files.distinct_toList.imp fun h eq => h (by simp [eq])
  calc (node.rebuild contributions).unattributed
      = ((({ name } : ModuleNode).withFiles node.files).gather found).unattributed := by
        rw [rebuild_eq_gather, ← named]; rfl
    _ = (({ name } : ModuleNode).gather found).unattributed.withFiles node.files := by
        rw [gather_withFiles]; rfl
    _ = (made name members).unattributed := by
        rw [← gather_perm _ perm distinct, files]; rfl

end ModuleNode

-- Given as `rfl`, this makes the name be computed on both sides.
theorem FileFacts.contribution_moduleName (facts : FileFacts) :
    facts.contribution.moduleName = facts.moduleName := by
  simp only [FileFacts.contribution]

/-- The files of the module `name`, with what they give it, in the order of their paths. -/
def membersOf (files : Table Contribution) (name : String) : List (String × Contribution) :=
  files.toList.filter fun member => member.2.moduleName = name

theorem mem_membersOf {files : Table Contribution} {name path : String} {c : Contribution} :
    (path, c) ∈ membersOf files name ↔ files[path]? = some c ∧ c.moduleName = name := by
  simp [membersOf]

theorem mem_paths_membersOf {files : Table Contribution} {name path : String} :
    path ∈ (membersOf files name).map Prod.fst ↔
      ∃ c, files[path]? = some c ∧ c.moduleName = name := by
  simp [mem_membersOf]

theorem membersOf_distinct (files : Table Contribution) (name : String) :
    ((membersOf files name).map Prod.fst).Nodup := by
  have keys : (files.toList.map Prod.fst).Nodup := by
    rw [ExtTreeMap.map_fst_toList_eq_keys]
    exact files.nodup_keys
  exact keys.sublist (List.filter_sublist.map Prod.fst)

theorem membersOf_nodup (files : Table Contribution) (name : String) :
    (membersOf files name).Nodup :=
  (membersOf_distinct files name).of_map

theorem membersOf_insert {files : Table Contribution} {path : String} (fresh : path ∉ files)
    (c : Contribution) :
    (membersOf (files.insert path c) c.moduleName).Perm
      ((path, c) :: membersOf files c.moduleName) := by
  have absent : files[path]? = none := ExtTreeMap.getElem?_eq_none fresh
  apply (List.perm_ext_iff_of_nodup (membersOf_nodup _ _) ?_).mpr
  · rintro ⟨p, d⟩
    rw [mem_membersOf, List.mem_cons, mem_membersOf, ExtTreeMap.getElem?_insert]
    by_cases hp : path = p
    · subst hp
      by_cases hd : c = d <;> simp [absent, hd, eq_comm]
    · simp [hp, Ne.symm hp]
  · refine List.nodup_cons.mpr ⟨?_, membersOf_nodup _ _⟩
    simp [mem_membersOf, absent]

theorem membersOf_insert_other {files : Table Contribution} {path : String}
    (fresh : path ∉ files) {c : Contribution} {name : String} (other : c.moduleName ≠ name) :
    (membersOf (files.insert path c) name).Perm (membersOf files name) := by
  have absent : files[path]? = none := ExtTreeMap.getElem?_eq_none fresh
  apply (List.perm_ext_iff_of_nodup (membersOf_nodup _ _) (membersOf_nodup _ _)).mpr
  rintro ⟨p, d⟩
  rw [mem_membersOf, mem_membersOf, ExtTreeMap.getElem?_insert]
  by_cases hp : path = p
  · subst hp
    simp only [Std.compare_self, ↓reduceIte, Option.some.injEq, absent, reduceCtorEq, false_and,
      iff_false, not_and]
    rintro rfl
    exact other
  · simp [hp]

theorem mem_membersOf_erase {files : Table Contribution} {path name p : String}
    {c : Contribution} :
    (p, c) ∈ membersOf (files.erase path) name ↔ p ≠ path ∧ (p, c) ∈ membersOf files name := by
  rw [mem_membersOf, mem_membersOf, ExtTreeMap.getElem?_erase]
  by_cases hp : path = p
  · simp [hp]
  · simp [hp, Ne.symm hp]

end ModuleAtlas
