import ModuleAtlas.Proofs.Graph.Occupancy
import ModuleAtlas.Proofs.Graph.Preference
import ModuleAtlas.Proofs.Resolver.Stages
import ModuleAtlas.Proofs.Text.Cut

/-!
# Exports can be reached through imports

A name is cut in several ways: sigils and blanks are taken off, then a qualifier with the separators
behind it, and the member is the identifier that comes next. If a name is spelled as an import
allows, each cut falls between two of the parts it was put together from, and the member is found.
-/

namespace ModuleAtlas

open ModuleAtlas.Text (Stops)

namespace RefName

variable {c : Char} {p sep u w x y : String}

/-! ## Identifiers -/

def Identifier (s : String) : Prop :=
  s ≠ "" ∧ ∀ c ∈ s.toList, isIdentifierChar c = true

instance : DecidablePred Identifier := fun s =>
  decidable_of_iff (s ≠ "" ∧ s.toList.all isIdentifierChar) (by simp [Identifier])

theorem isIdentifierChar_of_isBlank (h : Text.isBlank c = true) : isIdentifierChar c = false := by
  have outside := Text.isAlphanumeric_of_isBlank h
  have other : c ≠ '_' ∧ c ≠ '$' := by
    constructor
    · rintro rfl
      exact absurd h (by decide)
    · rintro rfl
      exact absurd h (by decide)
  simp [isIdentifierChar, outside, other]

theorem isIdentifierChar_of_isSigil (h : isSigil c = true) : isIdentifierChar c = false :=
  Text.outside_of_contains h (by decide +kernel)

theorem isIdentifierChar_of_isSeparator (h : isSeparator c = true) : isIdentifierChar c = false :=
  Text.outside_of_contains h (by decide +kernel)

/-- Texts that start with an identifier character. -/
def Opens (cs : List Char) : Prop :=
  ∃ c, cs.head? = some c ∧ isIdentifierChar c = true

theorem Opens.append {cs : List Char} (h : Opens cs) (more : List Char) : Opens (cs ++ more) := by
  obtain ⟨c, head, letter⟩ := h
  exact ⟨c, by rw [List.head?_append, head]; rfl, letter⟩

theorem Opens.ne_nil {cs : List Char} (h : Opens cs) : cs ≠ [] := by
  rintro rfl
  obtain ⟨c, head, -⟩ := h
  cases head

/-- An identifier character at the start stops every class that has none. -/
theorem Opens.stops {p : Char → Bool} {cs : List Char} (h : Opens cs)
    (apart : ∀ c, p c = true → isIdentifierChar c = false) : Stops p cs := by
  obtain ⟨c, head, letter⟩ := h
  intro d head'
  obtain rfl := Option.some.inj (head.symm.trans head')
  exact Text.apart_symm (apart c) letter

/-- Texts that start and end with an identifier character. -/
structure Firm (s : String) : Prop where
  first : Opens s.toList
  last : Opens s.toList.reverse

namespace Firm

theorem stops_blank (h : Firm u) :
    Stops Text.isBlank u.toList ∧ Stops Text.isBlank u.toList.reverse :=
  ⟨h.first.stops fun _ => isIdentifierChar_of_isBlank,
    h.last.stops fun _ => isIdentifierChar_of_isBlank⟩

theorem trim_eq (h : Firm u) : Text.trim u = u := by
  obtain ⟨first, last⟩ := h.stops_blank
  have kept := Text.trimChars_append h.first.ne_nil first last []
  rw [List.append_nil] at kept
  rw [Text.trim, kept]
  simp [Text.dropEndWhile]

/-- Sigils are not looked for inside, and only what follows loses blanks. -/
theorem stripSigils_append (h : Firm u) (w : String) :
    stripSigils (u ++ w) = u ++ String.ofList (Text.dropEndWhile Text.isBlank w.toList) := by
  obtain ⟨first, last⟩ := h.stops_blank
  have sigils : Stops isSigil u.toList := h.first.stops fun _ => isIdentifierChar_of_isSigil
  have nonempty := h.first.ne_nil
  rw [stripSigils, String.toList_append, Text.trimChars_append nonempty first last,
    (sigils.append nonempty).dropWhile, (first.append nonempty).dropWhile, String.ofList_append,
    String.ofList_toList]

theorem around (first : Opens u.toList) (middle : String) (last : Firm w) :
    Firm (u ++ middle ++ w) := by
  constructor
  · rw [String.toList_append, String.toList_append]
    exact (first.append _).append _
  · rw [String.toList_append, List.reverse_append]
    exact last.last.append _

end Firm

namespace Identifier

theorem toList_ne_nil (h : Identifier x) : x.toList ≠ [] :=
  fun empty => h.1 (String.toList_eq_nil_iff.mp empty)

theorem firm (h : Identifier x) : Firm x := by
  have nonempty := h.toList_ne_nil
  constructor
  · exact ⟨_, List.head?_eq_some_head nonempty, h.2 _ (List.head_mem nonempty)⟩
  · rw [Opens, List.head?_reverse]
    exact ⟨_, List.getLast?_eq_some_getLast nonempty, h.2 _ (List.getLast_mem nonempty)⟩

theorem not_mem_of_apart (h : Identifier x) (apart : isIdentifierChar c = false) : c ∉ x.toList := by
  intro inside
  rw [h.2 c inside] at apart
  cases apart

theorem leadingIdentifier_append (h : Identifier x) (stops : Stops isIdentifierChar w.toList) :
    leadingIdentifier (x ++ w) = x := by
  rw [leadingIdentifier, String.toList_append, stops.takeWhile_append h.2, String.ofList_toList]

end Identifier

/-! ## Qualifiers -/

/-- Separators, one or more. -/
def Separators (sep : String) : Prop :=
  sep ≠ "" ∧ ∀ c ∈ sep.toList, isSeparator c = true

instance : DecidablePred Separators := fun sep =>
  decidable_of_iff (sep ≠ "" ∧ sep.toList.all isSeparator) (by simp [Separators])

theorem stripQualifier?_append (nonempty : p ≠ "") (separators : Separators sep)
    (stops : Stops isSeparator w.toList) : stripQualifier? (p ++ sep ++ w) p = some w := by
  rw [stripQualifier?, if_neg nonempty, String.append_assoc, String.toList_append,
    Text.after?_append, String.toList_append]
  cases chars : sep.toList with
  | nil => exact absurd (String.toList_eq_nil_iff.mp chars) separators.1
  | cons c rest =>
    have inside := separators.2
    rw [chars, List.forall_mem_cons] at inside
    have call : (c = '(' || c = '[') = false := by
      by_contra called
      rw [Bool.not_eq_false, Bool.or_eq_true, decide_eq_true_eq, decide_eq_true_eq] at called
      rcases called with rfl | rfl
      · exact absurd inside.1 (by decide)
      · exact absurd inside.1 (by decide)
    simp only [List.cons_append, call, inside.1, if_true, Bool.false_eq_true, if_false,
      stops.dropWhile_append inside.2, String.ofList_toList]

/-- Behind a bound name there is nothing, or a separator, a call or an index. -/
def Continues (t : String) : Prop :=
  ∀ c ∈ t.toList.head?, isSeparator c = true ∨ c = '(' ∨ c = '['

instance : DecidablePred Continues := fun t =>
  decidable_of_iff (t.toList.head?.all fun c => isSeparator c || c = '(' || c = '[')
    (by simp [Continues, Option.all_eq_true, or_assoc])

theorem stripQualifier?_isSome (nonempty : y ≠ "") (continues : Continues w) :
    (stripQualifier? (y ++ w) y).isSome = true := by
  rw [stripQualifier?, if_neg nonempty, String.toList_append, Text.after?_append]
  cases chars : w.toList with
  | nil => rfl
  | cons c rest =>
    have first := continues c (by rw [chars]; rfl)
    dsimp only
    split
    · rfl
    · next other =>
      have separator : isSeparator c = true := first.resolve_right (by simpa using other)
      rw [if_pos separator]
      rfl

/-! ## Sigils and blanks -/

/-- The end of a name may lose blanks, and starts as before. -/
theorem stripSigils_qualified (opens : Opens p.toList) (sep : String) (named : Identifier x)
    (ends : Stops isIdentifierChar w.toList) :
    ∃ rest, stripSigils (p ++ sep ++ x ++ w) = p ++ sep ++ (x ++ rest) ∧
      Stops isIdentifierChar rest.toList := by
  have firm : Firm (p ++ sep ++ x) := .around opens sep named.firm
  refine ⟨_, (firm.stripSigils_append w).trans String.append_assoc, ?_⟩
  rw [String.toList_ofList]
  exact Text.forall_mem_head?_of_prefix (Text.dropEndWhile_prefix _ _) ends

theorem stripSigils_bound (bound : Identifier y) (continues : Continues w) :
    ∃ rest, stripSigils (y ++ w) = y ++ rest ∧ Continues rest := by
  refine ⟨_, bound.firm.stripSigils_append w, ?_⟩
  rw [Continues, String.toList_ofList]
  exact Text.forall_mem_head?_of_prefix (Text.dropEndWhile_prefix _ _) continues

end RefName

open ModuleAtlas.RefName (Identifier Separators Continues Firm)

/-! ## What imports bind -/

namespace Import

variable {x y : String}

/-- An item that starts and ends in identifier characters is split at its first mark. -/
theorem itemBinding?_eq (firm : Firm x) :
    itemBinding? x = some (match Text.splitOnce? " as ".toList x.toList with
      | some (member, bound) =>
        (Text.trim (String.ofList member), Text.trim (String.ofList bound))
      | none => (x, x)) := by
  have said : ¬ (x = "" ∨ x = "*") := by
    rintro (rfl | rfl)
    · exact firm.first.ne_nil rfl
    · obtain ⟨c, head, letter⟩ := firm.first
      obtain rfl : '*' = c := Option.some.inj head
      exact absurd letter (by decide +kernel)
  simp only [itemBinding?, firm.trim_eq, said, if_false]
  generalize Text.splitOnce? " as ".toList x.toList = found
  cases found <;> rfl

theorem itemBinding?_self (named : Identifier x) : itemBinding? x = some (x, x) := by
  have blank : ' ' ∉ x.toList := named.not_mem_of_apart (by decide +kernel)
  have whole : Text.splitOnce? " as ".toList x.toList = none := Text.splitOnce?_eq_none blank
  rw [itemBinding?_eq named.firm, whole]

theorem itemBinding?_as (named : Identifier x) (bound : Identifier y) :
    itemBinding? (x ++ " as " ++ y) = some (x, y) := by
  have blank : ' ' ∉ x.toList := named.not_mem_of_apart (by decide +kernel)
  have split : Text.splitOnce? " as ".toList (x ++ " as " ++ y).toList =
      some (x.toList, y.toList) := by
    rw [String.toList_append, String.toList_append]
    exact Text.splitOnce?_append blank y.toList
  have firm : Firm (x ++ " as " ++ y) := .around named.firm.first " as " bound.firm
  rw [itemBinding?_eq firm, split]
  simp only [String.ofList_toList, named.firm.trim_eq, bound.firm.trim_eq]

/-- What may stand for the module of an import before a member of it: the name it is given, or its
last segment if nothing is given, or its own name. -/
inductive Qualifier (i : Import) : String → Prop where
  | given {p : String} (given : Binding.givenName? i = some p) (named : Identifier p) :
      Qualifier i p
  | base (bare : Binding.givenName? i = none) (whole : i.items = [])
      (named : Identifier i.baseName) : Qualifier i i.baseName
  | full : Qualifier i i.moduleName

/-- How a file that has an import may spell a member of its module. -/
inductive Spells (i : Import) (x : String) : String → Prop where
  | qualified {p sep tail : String} (qualifier : Qualifier i p) (separators : Separators sep)
      (ends : Stops RefName.isIdentifierChar tail.toList) : Spells i x (p ++ sep ++ x ++ tail)
  | item {tail : String} (listed : x ∈ i.items) (continues : Continues tail) : Spells i x (x ++ tail)
  | renamed {y tail : String} (listed : x ++ " as " ++ y ∈ i.items) (bound : Identifier y)
      (continues : Continues tail) : Spells i x (y ++ tail)

end Import

namespace Binding

variable {imports : List Import} {i : Import} {slot : Nat} {b : Binding} {p x y : String}

theorem mem_ofImports (place : imports[slot]? = some i) (bound : b ∈ ofImport slot i) :
    b ∈ ofImports imports :=
  List.mem_flatMap.mpr ⟨(i, slot), List.mem_zipIdx_iff_getElem?.mpr place, bound⟩

section
variable (binds : bindsNothing i = false)
include binds

theorem explicit_mem_ofImport (held : b ∈ explicits slot i) : b ∈ ofImport slot i := by
  have some : (explicits slot i).isEmpty = false :=
    List.isEmpty_eq_false_iff.mpr (List.ne_nil_of_mem held)
  rwa [ofImport, if_neg (by simp [binds]), if_neg (by simp [some])]

theorem item_mem_ofImport (listed : (x, y) ∈ i.itemBindings) :
    { name := y, slot, kind := .item x, source := i } ∈ ofImport slot i :=
  explicit_mem_ofImport binds (List.mem_append_left _ (List.mem_map.mpr ⟨(x, y), listed, rfl⟩))

theorem given_mem_ofImport (given : givenName? i = some p) :
    { name := p, slot, kind := .renamed, source := i } ∈ ofImport slot i :=
  explicit_mem_ofImport binds (by simp [explicits, given])

theorem base_mem_ofImport (bare : givenName? i = none) (whole : i.items = []) :
    { name := i.baseName, slot, kind := .base, source := i } ∈ ofImport slot i := by
  have plain : (explicits slot i).isEmpty = true := by
    simp [explicits, bare, whole, Import.itemBindings]
  rw [ofImport, if_neg (by simp [binds]), if_pos plain]
  exact List.mem_cons_self

end

end Binding

/-! ## Members -/

namespace Resolver

variable {resolver : Resolver} {ctx : FileContext} {file : FileFacts} {i : Import}
  {p sep x w moduleName : String} {reference : Reference}

/-- A live module exports an identifier, and defines it. -/
structure Shows (resolver : Resolver) (moduleName x : String) : Prop where
  named : Identifier x
  held : ∃ node, resolver.modules[moduleName]? = some node ∧ x ∈ node.exports ∧
    x ∈ node.definitions

/-- What is shown is a member, inside the module and outside. -/
theorem Shows.hasMember (shown : resolver.Shows moduleName x) (ctx : FileContext)
    (ends : Stops RefName.isIdentifierChar w.toList) :
    resolver.hasMember ctx moduleName (x ++ w) = true := by
  obtain ⟨named, node, live, exported, defined⟩ := shown
  simp only [Resolver.hasMember, named.leadingIdentifier_append ends, live]
  split
  · simp [defined]
  · simp [exported]

theorem Shows.leads (shown : resolver.Shows moduleName x) (ctx : FileContext) (nonempty : p ≠ "")
    (separators : Separators sep) (ends : Stops RefName.isIdentifierChar w.toList) :
    (RefName.stripQualifier? (p ++ sep ++ (x ++ w)) p).any (resolver.hasMember ctx moduleName) =
      true := by
  have member : Stops RefName.isSeparator (x ++ w).toList := by
    rw [String.toList_append]
    apply RefName.Opens.stops (shown.named.firm.first.append _)
    exact fun _ => RefName.isIdentifierChar_of_isSeparator
  rw [RefName.stripQualifier?_append nonempty separators member]
  exact shown.hasMember ctx ends

theorem qualifies_of_binding {b : Binding} (bound : b ∈ ctx.bindings)
    (leads : resolver.leadsThrough ctx (RefName.stripSigils reference.name) b = true) :
    resolver.qualifies ctx reference = true := by
  have found := List.any_eq_true.mpr ⟨b, bound, leads⟩
  simp [qualifies, isQualified, found]

theorem qualifies_of_import (imported : i ∈ ctx.file.imports)
    (leads : resolver.leadsInto ctx (RefName.stripSigils reference.name) i.moduleName = true) :
    resolver.qualifies ctx reference = true := by
  have found : (ctx.file.imports.any fun i =>
      resolver.leadsInto ctx (RefName.stripSigils reference.name) i.moduleName) = true :=
    List.any_eq_true.mpr ⟨i, imported, leads⟩
  simp [qualifies, isQualified, found]

section
variable (imported : i ∈ file.imports) (binds : Binding.bindsNothing i = false)
  (shown : resolver.Shows i.moduleName x)
include imported binds shown

/-- The name that an item is bound to leads to the member, whatever follows. -/
theorem qualifies_of_item {y tail : String} (listed : (x, y) ∈ i.itemBindings)
    (bound : Identifier y) (continues : Continues tail) (spelling : reference.name = y ++ tail) :
    resolver.qualifies (resolver.context file) reference = true := by
  obtain ⟨slot, place⟩ := List.mem_iff_getElem?.mp imported
  obtain ⟨rest, stripped, continues⟩ := RefName.stripSigils_bound bound continues
  obtain ⟨left, cut⟩ :=
    Option.isSome_iff_exists.mp (RefName.stripQualifier?_isSome bound.1 continues)
  have ends : Stops RefName.isIdentifierChar "".toList := by decide
  have member := shown.hasMember (resolver.context file) ends
  rw [String.append_empty] at member
  apply qualifies_of_binding
  · exact Binding.mem_ofImports place (Binding.item_mem_ofImport binds listed)
  · rw [leadsThrough, spelling, stripped, cut]
    exact member

/-- A qualifier of the import leads to the member. -/
theorem qualifies_of_qualifier {tail : String} (opens : RefName.Opens i.moduleName.toList)
    (qualifier : i.Qualifier p) (separators : Separators sep)
    (ends : Stops RefName.isIdentifierChar tail.toList)
    (spelling : reference.name = p ++ sep ++ x ++ tail) :
    resolver.qualifies (resolver.context file) reference = true := by
  obtain ⟨slot, place⟩ := List.mem_iff_getElem?.mp imported
  have starts : RefName.Opens p.toList := by
    cases qualifier with
    | given _ named => exact named.firm.first
    | base _ _ named => exact named.firm.first
    | full => exact opens
  have nonempty : p ≠ "" := fun empty => starts.ne_nil (String.toList_eq_nil_iff.mpr empty)
  obtain ⟨rest, stripped, ends⟩ := RefName.stripSigils_qualified starts sep shown.named ends
  have leads := shown.leads (resolver.context file) nonempty separators ends
  rw [← stripped, ← spelling] at leads
  cases qualifier with
  | given given =>
    have bound := Binding.mem_ofImports place (Binding.given_mem_ofImport binds given)
    exact qualifies_of_binding bound leads
  | base bare whole =>
    have bound := Binding.mem_ofImports place (Binding.base_mem_ofImport binds bare whole)
    exact qualifies_of_binding bound leads
  | full => exact qualifies_of_import imported leads

theorem qualifies_of_spelled (opens : RefName.Opens i.moduleName.toList)
    (spelled : i.Spells x reference.name) :
    resolver.qualifies (resolver.context file) reference = true := by
  have named := shown.named
  generalize spelling : reference.name = name at spelled
  cases spelled with
  | qualified qualifier separators ends =>
    exact qualifies_of_qualifier imported binds shown opens qualifier separators ends spelling
  | item listed continues =>
    have bound := List.mem_filterMap.mpr ⟨x, listed, Import.itemBinding?_self named⟩
    exact qualifies_of_item imported binds shown bound named continues spelling
  | renamed listed other continues =>
    have bound := List.mem_filterMap.mpr ⟨_, listed, Import.itemBinding?_as named other⟩
    exact qualifies_of_item imported binds shown bound other continues spelling

end

end Resolver

/-- **Exports.** A name that is spelled as an import of a module allows, for a name that the module
exports, does not stay unresolved. Items and the name that is given to the module count without the
blanks around them. -/
theorem exports_are_reached {s : Session} {capacity : Nat}
    (reached : Graph.Becomes (.empty capacity) s.graph) {settings : Option Settings}
    {resolver : Resolver} (made : s.resolver settings = .ok resolver) {file : FileFacts}
    {i : Import} (imported : i ∈ file.imports) {node : ModuleNode}
    (live : resolver.modules[i.moduleName]? = some node)
    (opens : RefName.Opens i.moduleName.toList) (explicit : ∀ item ∈ i.items, Text.trim item ≠ "*")
    (given : Binding.givenName? i ≠ some "_" ∧ Binding.givenName? i ≠ some ".") {x : String}
    (exported : x ∈ node.exports) (named : Identifier x) {reference : Reference}
    (spelled : i.Spells x reference.name) :
    resolver.resolve file reference ≠ .unresolved := by
  have derived := ((Graph.Kept.start capacity).becomes reached).derived
  obtain ⟨modules, -⟩ := Session.resolver_reads made
  have defined : x ∈ node.definitions := derived.defined_of_exported (modules ▸ live) exported
  have binds : Binding.bindsNothing i = false := by
    have target : i.moduleName ≠ "" := fun empty =>
      opens.ne_nil (String.toList_eq_nil_iff.mpr empty)
    simpa [Binding.bindsNothing, given, target] using explicit
  have shown : resolver.Shows i.moduleName x := ⟨named, node, live, exported, defined⟩
  apply Resolver.resolveIn_ne_unresolved
  exact Resolver.qualifies_of_spelled imported binds shown opens spelled

/-- Two modules export `run`, so a file that imports one of them could not be sure of a match. It
spells the name with an alias, with the last segment, with the module's name and as an item, before
calls, indexes and blanks. -/
theorem exports_are_reached_all_ways :
    let run : Definition := { name := "run", kind := .function, exported := true }
    let core : FileFacts := { path := "c", moduleField := "pkg.core", definitions := [run] }
    let util : FileFacts := { path := "u", moduleField := "util", definitions := [run] }
    let app : FileFacts :=
      { path := "a", moduleField := "app"
        imports := [{ target := "pkg.core ", boundAs := some " c " }, .plain "pkg.core",
          { target := "pkg.core", items := ["x", "run as go"] }] }
    let s : Session := { graph := (Graph.empty 1).addAll [core, app, util] }
    let resolver := Resolver.ofSnapshot (Session.ask.snapshot s).1
    ∀ name ∈ ["c" ++ "->" ++ "run" ++ "(1).x", "core" ++ "::" ++ "run" ++ " ",
        "pkg.core" ++ "." ++ "run" ++ "", "go" ++ "[0] "],
      resolver.resolve app { name } ≠ .unresolved := by
  intro run core util app s resolver
  have reached : Graph.Becomes (.empty 1) s.graph :=
    ⟨[.edit (.add core), .edit (.add app), .edit (.add util)], rfl⟩
  have made : s.resolver none = .ok resolver := rfl
  have held : (resolver.modules["pkg.core"]?).any (fun node => "run" ∈ node.exports) = true := by
    decide +kernel
  obtain ⟨node, live, exported⟩ := (Option.any_eq_true _ _).mp held
  rw [decide_eq_true_eq] at exported
  have opens : RefName.Opens "pkg.core".toList := ⟨'p', rfl, by decide +kernel⟩
  have named : Identifier "run" := by decide +kernel
  have resolves (i : Import) (imported : i ∈ app.imports) (target : i.moduleName = "pkg.core")
      (explicit : ∀ item ∈ i.items, Text.trim item ≠ "*")
      (given : Binding.givenName? i ≠ some "_" ∧ Binding.givenName? i ≠ some ".") (name : String)
      (spelled : i.Spells "run" name) : resolver.resolve app { name } ≠ .unresolved :=
    exports_are_reached reached made imported (target ▸ live) (target ▸ opens) explicit given
      exported named spelled
  simp only [List.forall_mem_cons, List.not_mem_nil, false_imp_iff, implies_true, and_true]
  refine ⟨?_, ?_, ?_, ?_⟩
  · refine resolves { target := "pkg.core ", boundAs := some " c " } (by decide) (by decide +kernel)
      (by decide) (by decide +kernel) _ ?_
    have given : Import.Qualifier { target := "pkg.core ", boundAs := some " c " } "c" :=
      .given (by decide +kernel) (by decide +kernel)
    exact .qualified given (by decide) (by decide +kernel)
  · refine resolves (.plain "pkg.core") (by decide) (by decide +kernel) (by decide)
      (by decide +kernel) _ ?_
    exact .qualified (.base rfl rfl (by decide +kernel)) (by decide) (by decide +kernel)
  · refine resolves (.plain "pkg.core") (by decide) (by decide +kernel) (by decide)
      (by decide +kernel) _ ?_
    exact .qualified .full (by decide) (by decide +kernel)
  · refine resolves { target := "pkg.core", items := ["x", "run as go"] } (by decide)
      (by decide +kernel) (by decide +kernel) (by decide +kernel) _ ?_
    exact .renamed (by decide) (by decide +kernel) (by decide)

end ModuleAtlas
