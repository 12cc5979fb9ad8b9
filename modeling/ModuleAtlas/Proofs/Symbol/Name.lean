import ModuleAtlas.Proofs.Symbol.Table
import ModuleAtlas.Proofs.Text.Case
import Mathlib.Data.String.Basic
import Mathlib.Logic.Relation

/-!
# Canonical names and service keys

The canonical form of a text is made character by character, so that of two texts in a row is the
one after the other. A service key is what is left of it when roles are dropped from its end. No
role ends in another one, so there is never a choice which role to drop: `Drops` leads to one stem
only, which is the key in whatever order the roles are tried.

The dotted capital I is the one letter with a small form that is not canonical, and it leaves a mark
in every name it is in.
-/

namespace ModuleAtlas

open Relation (ReflTransGen)

theorem Text.byteLength_eq (cs : List Char) : byteLength cs = (String.ofList cs).utf8ByteSize := by
  rw [String.utf8ByteSize_ofList]
  induction cs with
  | nil => rfl
  | cons c cs ih => rw [String.utf8Len_cons, ← ih, Nat.add_comm]; rfl

theorem canonicalChars_append (cs ds : List Char) :
    canonicalChars (cs ++ ds) = canonicalChars cs ++ canonicalChars ds := by
  simp only [canonicalChars, List.filter_append, List.flatMap_append]

theorem canonicalize_append (x t : String) :
    canonicalize (x ++ t) = canonicalize x ++ canonicalize t := by
  rw [canonicalize, String.toList_append, canonicalChars_append, String.ofList_append]
  rfl

/-- What is neither letter nor digit leaves no trace. -/
theorem canonicalChars_of_silent {cs : List Char}
    (silent : ∀ c ∈ cs, Text.isAlphanumeric c = false) : canonicalChars cs = [] := by
  rw [canonicalChars, List.filter_eq_nil_iff.mpr fun c inside => by simp [silent c inside]]
  rfl

theorem canonicalChars_trimChars (cs : List Char) :
    canonicalChars (Text.trimChars cs) = canonicalChars cs := by
  obtain ⟨before, behind, leads, ends, whole⟩ := Text.exists_trimmed cs
  have first : canonicalChars before = [] :=
    canonicalChars_of_silent fun c inside => Text.isAlphanumeric_of_isBlank (leads c inside)
  have last : canonicalChars behind = [] :=
    canonicalChars_of_silent fun c inside => Text.isAlphanumeric_of_isBlank (ends c inside)
  conv_rhs => rw [whole]
  rw [canonicalChars_append, canonicalChars_append, first, last, List.nil_append, List.append_nil]

/-- A text that is cut at silent characters loses nothing. -/
theorem canonicalChars_pieces {p : Char → Bool}
    (silent : ∀ c, p c = true → Text.isAlphanumeric c = false) (cs : List Char) :
    (Text.pieces p cs).flatMap canonicalChars = canonicalChars cs := by
  induction cs with
  | nil => rfl
  | cons c cs ih =>
    have first := canonicalChars_append [c] cs
    rw [List.singleton_append] at first
    rw [first, ← ih, Text.pieces]
    cases mark : p c with
    | true =>
      rw [canonicalChars_of_silent (List.forall_mem_singleton.mpr (silent c mark))]
      rfl
    | false =>
      obtain ⟨piece, rest, cut⟩ := Text.exists_pieces p cs
      have joined := canonicalChars_append [c] piece
      rw [List.singleton_append] at joined
      simp only [cut, Bool.false_eq_true, if_false, List.flatMap_cons, joined, List.append_assoc]

/-! ## Roles -/

namespace Service

/-- A role goes from the end of a key, and at least three bytes stay. -/
def Drops (key stem : List Char) : Prop :=
  ∃ role ∈ roles, key = stem ++ role.toList ∧ 3 ≤ Text.byteLength stem

/-- A key from whose end no role can go. -/
def IsStem (key : List Char) : Prop :=
  ∀ stem, ¬ Drops key stem

/-- The key of a name, with the roles tried in the order of a table. -/
def keyBy (table : List String) (name : String) : String :=
  let canonical := canonicalChars name.toList
  String.ofList (dropRoles table canonical.length canonical)

theorem byteLength_append (cs ds : List Char) :
    Text.byteLength (cs ++ ds) = Text.byteLength cs + Text.byteLength ds := by
  simp only [Text.byteLength_eq, String.ofList_append, String.utf8ByteSize_append]

theorem dropRole?_eq_some_iff {role key stem : List Char} :
    dropRole? role key = some stem ↔ key = stem ++ role ∧ 3 ≤ Text.byteLength stem := by
  unfold dropRole?
  constructor
  · intro dropped
    split at dropped
    · next ends =>
      obtain ⟨ends, room⟩ := ends
      obtain ⟨start, rfl⟩ := List.isSuffixOf_iff_suffix.mp ends
      rw [List.length_append, Nat.add_sub_cancel, List.take_left, Option.some.injEq] at dropped
      subst dropped
      rw [byteLength_append] at room
      exact ⟨rfl, by omega⟩
    · cases dropped
  · rintro ⟨rfl, room⟩
    have ends := List.isSuffixOf_iff_suffix.mpr (List.suffix_append stem role)
    rw [if_pos ⟨ends, by rw [byteLength_append]; omega⟩, List.length_append, Nat.add_sub_cancel,
      List.take_left]

/-- No role ends in another one. -/
theorem roles_apart : ∀ a ∈ roles, ∀ b ∈ roles, a.toList <:+ b.toList → a = b := by
  decide

theorem drops_rightUnique : Relator.RightUnique Drops := by
  rintro key stem stem' ⟨a, ha, rfl, -⟩ ⟨b, hb, same, -⟩
  have ends : b.toList <:+ stem ++ a.toList := ⟨stem', same.symm⟩
  obtain rfl : a = b := by
    rcases List.suffix_or_suffix_of_suffix (List.suffix_append stem a.toList) ends with sub | sub
    · exact roles_apart a ha b hb sub
    · exact (roles_apart b hb a ha sub).symm
  exact List.append_cancel_right same

theorem stem_unique {key a b : List Char} (toA : ReflTransGen Drops key a)
    (toB : ReflTransGen Drops key b) (stemA : IsStem a) (stemB : IsStem b) : a = b := by
  rcases toA.total_of_right_unique drops_rightUnique toB with further | further
  · exact ((Relation.reflTransGen_iff_eq stemA).mp further).symm
  · exact (Relation.reflTransGen_iff_eq stemB).mp further

theorem length_lt_of_drops {key stem : List Char} (drops : Drops key stem) :
    stem.length < key.length := by
  obtain ⟨role, listed, rfl, -⟩ := drops
  have long : ∀ role ∈ roles, 0 < role.toList.length := by decide
  have := long role listed
  rw [List.length_append]
  omega

/-- Whatever is dropped first, roles are dropped until none is left. -/
theorem dropRoles_stem {table : List String} (same : table.Perm roles) {fuel : Nat} {key : List Char}
    (enough : key.length ≤ fuel) :
    ReflTransGen Drops key (dropRoles table fuel key) ∧ IsStem (dropRoles table fuel key) := by
  induction fuel generalizing key with
  | zero =>
    refine ⟨.refl, fun stem drops => ?_⟩
    have shorter : stem.length < key.length := length_lt_of_drops drops
    omega
  | succ fuel ih =>
    rw [dropRoles]
    split
    · next shorter found =>
      obtain ⟨role, listed, dropped⟩ := List.exists_of_findSome?_eq_some found
      have drops : Drops key shorter :=
        ⟨role, same.mem_iff.mp listed, dropRole?_eq_some_iff.mp dropped⟩
      have less := length_lt_of_drops drops
      have enough' : shorter.length ≤ fuel := by omega
      obtain ⟨onward, stem⟩ := ih enough'
      exact ⟨.head drops onward, stem⟩
    · next none =>
      refine ⟨.refl, ?_⟩
      rintro stem ⟨role, listed, ends⟩
      have kept := List.findSome?_eq_none_iff.mp none role (same.mem_iff.mpr listed)
      rw [dropRole?_eq_some_iff.mpr ends] at kept
      cases kept

theorem keyChars_stem (cs : List Char) :
    ReflTransGen Drops (canonicalChars cs) (keyChars cs) ∧ IsStem (keyChars cs) :=
  dropRoles_stem (.refl roles) (Nat.le_refl _)

theorem key_eq_of_canonicalize {x y : String} (same : canonicalize x = canonicalize y) :
    key x = key y := by
  rw [canonicalize, canonicalize, String.ofList_inj] at same
  rw [key, key, keyChars, keyChars, same]

/-- The key is the stem of the canonical form, and the only one. -/
theorem key_eq_of_stem {name : String} {stem : List Char}
    (drops : ReflTransGen Drops (canonicalChars name.toList) stem) (ended : IsStem stem) :
    key name = String.ofList stem := by
  obtain ⟨own, ownEnded⟩ := keyChars_stem name.toList
  rw [key, stem_unique own drops ownEnded ended]

theorem keyBy_eq_key {table : List String} (same : table.Perm roles) (name : String) :
    keyBy table name = key name := by
  obtain ⟨drops, ended⟩ := dropRoles_stem same (Nat.le_refl (canonicalChars name.toList).length)
  exact (key_eq_of_stem drops ended).symm

/-- What went from the end were roles. -/
theorem exists_chain {key stem : List Char} (drops : ReflTransGen Drops key stem) :
    ∃ chain : List String, (∀ role ∈ chain, role ∈ roles) ∧
      key = stem ++ chain.flatMap String.toList := by
  induction drops using ReflTransGen.head_induction_on with
  | refl => exact ⟨[], by simp, by simp⟩
  | head step _ ih =>
    obtain ⟨role, listed, rfl, -⟩ := step
    obtain ⟨chain, all, rfl⟩ := ih
    refine ⟨chain ++ [role], ?_, by simp⟩
    intro r member
    rcases List.mem_append.mp member with earlier | last
    · exact all r earlier
    · rwa [List.mem_singleton.mp last]

/-- Roles behind a stem that is long enough all go. -/
theorem drops_chain {stem : List Char} (room : 3 ≤ Text.byteLength stem) {chain : List String}
    (all : ∀ role ∈ chain, role ∈ roles) :
    ReflTransGen Drops (stem ++ chain.flatMap String.toList) stem := by
  induction chain generalizing stem with
  | nil => simpa using ReflTransGen.refl
  | cons role chain ih =>
    have room' : 3 ≤ Text.byteLength (stem ++ role.toList) := by
      rw [byteLength_append]
      omega
    have onward := ih room' fun other listed => all other (.tail _ listed)
    rw [List.flatMap_cons, ← List.append_assoc]
    exact onward.tail ⟨role, all role List.mem_cons_self, rfl, room⟩

theorem key_eq_of_chain {x y : String} {chain : List String} (all : ∀ role ∈ chain, role ∈ roles)
    (longer : canonicalize y = canonicalize x ++ String.join chain)
    (room : 3 ≤ (canonicalize x).utf8ByteSize) : key y = key x := by
  obtain ⟨drops, ended⟩ := keyChars_stem x.toList
  have chars : canonicalChars y.toList =
      canonicalChars x.toList ++ chain.flatMap String.toList := by
    simpa [canonicalize, String.toList_join] using congrArg String.toList longer
  have first := drops_chain (room.trans_eq (Text.byteLength_eq _).symm) all
  rw [← chars] at first
  exact key_eq_of_stem (first.trans drops) ended

end Service

/-- **Service keys.** A canonical form is its key with roles behind it, and no role can go from the
end of a key any more. Roles behind a form of three bytes or more do not change the key, be it one
or a chain of them, and neither does the order in which roles are tried. -/
theorem service_keys_are_stems (x : String) :
    (∃ chain : List String, (∀ role ∈ chain, role ∈ Service.roles) ∧
      canonicalize x = Service.key x ++ String.join chain) ∧
    (∀ role ∈ Service.roles, ∀ stem : String, Service.key x = stem ++ role →
      stem.utf8ByteSize < 3) ∧
    (∀ t, canonicalize t ∈ Service.roles → 3 ≤ (canonicalize x).utf8ByteSize →
      Service.key (x ++ t) = Service.key x) ∧
    (∀ table : List String, table.Perm Service.roles → Service.keyBy table x = Service.key x) ∧
    ∀ (y : String) (chain : List String), (∀ role ∈ chain, role ∈ Service.roles) →
      canonicalize y = canonicalize x ++ String.join chain → 3 ≤ (canonicalize x).utf8ByteSize →
      Service.key y = Service.key x := by
  obtain ⟨drops, ended⟩ := Service.keyChars_stem x.toList
  refine ⟨?_, ?_, ?_, fun table same => Service.keyBy_eq_key same x, ?_⟩
  · obtain ⟨chain, all, split⟩ := Service.exists_chain drops
    refine ⟨chain, all, String.toList_inj.mp ?_⟩
    simpa [canonicalize, Service.key, String.toList_join] using split
  · intro role listed stem split
    by_contra room
    refine ended stem.toList ⟨role, listed, ?_, ?_⟩
    · simpa [Service.key] using congrArg String.toList split
    · rw [Text.byteLength_eq, String.ofList_toList]
      omega
  · intro t role room
    have all : ∀ other ∈ [canonicalize t], other ∈ Service.roles := by simpa using role
    apply Service.key_eq_of_chain all _ room
    simp [canonicalize_append, String.join]
  · intro y chain all longer room
    exact Service.key_eq_of_chain all longer room

theorem service_keys_are_stems_client :
    let stem := "Größe"
    canonicalize "_Service" ∈ Service.roles ∧ 3 ≤ (canonicalize stem).utf8ByteSize ∧
    canonicalize "größe.Client-Stub" = canonicalize stem ++ String.join ["client", "stub"] ∧
    Service.key stem = "größe" ∧ Service.key (stem ++ "_Service") = "größe" ∧
    Service.key "größe.Client-Stub" = "größe" ∧
    Service.keyBy Service.roles.reverse stem = "größe" := by
  intro stem
  have role : canonicalize "_Service" ∈ Service.roles := by decide
  have room : 3 ≤ (canonicalize stem).utf8ByteSize := by
    rw [canonicalize, ← Text.byteLength_eq]
    decide
  have longer : canonicalize "größe.Client-Stub" =
      canonicalize stem ++ String.join ["client", "stub"] := by decide
  have key : Service.key stem = "größe" := by decide
  obtain ⟨-, -, one, tables, chains⟩ := service_keys_are_stems stem
  refine ⟨role, room, longer, key, (one _ role room).trans key, ?_, ?_⟩
  · exact (chains _ ["client", "stub"] (by decide) longer room).trans key
  · exact (tables _ (List.reverse_perm Service.roles)).trans key

/-! ## The dotted capital I -/

section
variable {cs : List Char} {d : Char}

theorem mem_canonicalChars :
    d ∈ canonicalChars cs ↔ ∃ c ∈ cs, Text.isAlphanumeric c = true ∧ d ∈ Text.lowerChar c := by
  simp [canonicalChars, and_assoc]

/-- A canonical form consists of small letters, and of the dots that are left of dotted capitals. -/
theorem isSmall_or_dot (member : d ∈ canonicalChars cs) : Text.IsSmall d ∨ d = '\u0307' := by
  obtain ⟨c, -, letter, lowered⟩ := mem_canonicalChars.mp member
  by_cases dotted : c = 'İ'
  · subst dotted
    have parts : Text.lowerChar 'İ' = ['i', '\u0307'] := rfl
    rw [parts, List.mem_pair] at lowered
    rcases lowered with rfl | rfl
    · exact .inl ⟨by decide, by decide⟩
    · exact .inr rfl
  · obtain ⟨small, same, settled⟩ := Text.exists_small letter dotted
    rw [same, List.mem_singleton] at lowered
    exact .inl (lowered ▸ settled)

theorem isAlphanumeric_dot : Text.isAlphanumeric '\u0307' = false := rfl

theorem not_isSmall_dot : ¬ Text.IsSmall '\u0307' := by
  rintro ⟨letter, -⟩
  rw [isAlphanumeric_dot] at letter
  cases letter

theorem dotted_not_mem : 'İ' ∉ canonicalChars cs := by
  intro member
  rcases isSmall_or_dot member with ⟨-, fixed⟩ | same
  · revert fixed
    decide
  · revert same
    decide

theorem dot_mem_canonicalChars : '\u0307' ∈ canonicalChars cs ↔ 'İ' ∈ cs := by
  constructor
  · intro member
    obtain ⟨c, listed, letter, lowered⟩ := mem_canonicalChars.mp member
    by_contra without
    obtain ⟨small, same, settled⟩ := Text.exists_small letter (ne_of_mem_of_not_mem listed without)
    rw [same, List.mem_singleton] at lowered
    exact not_isSmall_dot (lowered ▸ settled)
  · intro listed
    exact mem_canonicalChars.mpr ⟨'İ', listed, by decide, by decide⟩

theorem canonicalChars_eq_self (small : ∀ c ∈ cs, Text.IsSmall c) : canonicalChars cs = cs := by
  induction cs with
  | nil => rfl
  | cons c cs ih =>
    obtain ⟨letter, fixed⟩ := small c List.mem_cons_self
    have rest := ih fun d member => small d (.tail _ member)
    rw [canonicalChars, List.filter_cons_of_pos letter, List.flatMap_cons, fixed]
    exact congrArg (c :: ·) rest

/-- A part of a canonical form is in canonical form unless a dot is in it. -/
theorem canonicalChars_part {part : List Char} (sub : part ⊆ canonicalChars cs) :
    canonicalChars part = part ↔ '\u0307' ∉ part := by
  constructor
  · intro same dot
    rw [← same] at dot
    exact dotted_not_mem (sub (dot_mem_canonicalChars.mp dot))
  · intro undotted
    apply canonicalChars_eq_self
    intro c member
    refine (isSmall_or_dot (sub member)).resolve_right ?_
    rintro rfl
    exact undotted member

theorem forall_isAlphanumeric_iff :
    (∀ c ∈ canonicalChars cs, Text.isAlphanumeric c = true) ↔ 'İ' ∉ cs := by
  rw [← dot_mem_canonicalChars]
  constructor
  · intro letters dot
    have letter := letters _ dot
    rw [isAlphanumeric_dot] at letter
    cases letter
  · intro undotted c member
    refine ((isSmall_or_dot member).resolve_right ?_).1
    rintro rfl
    exact undotted member

/-- No role has a dot, so the dots of a canonical form stay in the key. -/
theorem dot_mem_keyChars : '\u0307' ∈ Service.keyChars cs ↔ 'İ' ∈ cs := by
  obtain ⟨chain, all, split⟩ := Service.exists_chain (Service.keyChars_stem cs).1
  have plain : ∀ role ∈ Service.roles, '\u0307' ∉ role.toList := by decide
  rw [← dot_mem_canonicalChars, split, List.mem_append, List.mem_flatMap]
  constructor
  · exact .inl
  · rintro (member | ⟨role, listed, member⟩)
    · exact member
    · exact absurd member (plain role (all role listed))

theorem keyChars_subset (cs : List Char) : Service.keyChars cs ⊆ canonicalChars cs := by
  obtain ⟨chain, -, split⟩ := Service.exists_chain (Service.keyChars_stem cs).1
  rw [split]
  exact List.subset_append_left _ _

theorem keyChars_keyChars_iff :
    Service.keyChars (Service.keyChars cs) = Service.keyChars cs ↔ 'İ' ∉ cs := by
  constructor
  · intro same dotted
    have dot := dot_mem_keyChars.mpr dotted
    rw [← same, dot_mem_keyChars] at dot
    exact dotted_not_mem (keyChars_subset cs dot)
  · intro plain
    have settled : canonicalChars (Service.keyChars cs) = Service.keyChars cs :=
      (canonicalChars_part (keyChars_subset cs)).mpr (mt dot_mem_keyChars.mp plain)
    obtain ⟨drops, ended⟩ := Service.keyChars_stem (Service.keyChars cs)
    rw [settled] at drops
    exact Service.stem_unique drops .refl ended (Service.keyChars_stem cs).2

end

theorem canonicalize_canonicalize_iff (s : String) :
    canonicalize (canonicalize s) = canonicalize s ↔ 'İ' ∉ s.toList := by
  rw [canonicalize, canonicalize, String.toList_ofList, String.ofList_inj,
    canonicalChars_part (List.Subset.refl _), dot_mem_canonicalChars]

/-- **Canonical names.** The canonical form of a text consists of letters and digits, and is its own
canonical form, and the service key of a text is its own service key, each unless there is a dotted
capital I in the text. A record whose name has none is found by the canonical form of its canonical
name, if that says anything. -/
theorem canonical_names_are_canonical (s : String) (modules : Table ModuleNode) :
    ((∀ c ∈ (canonicalize s).toList, Text.isAlphanumeric c = true) ↔ 'İ' ∉ s.toList) ∧
    (canonicalize (canonicalize s) = canonicalize s ↔ 'İ' ∉ s.toList) ∧
    (Service.key (Service.key s) = Service.key s ↔ 'İ' ∉ s.toList) ∧
    ∀ record ∈ (SymbolTable.ofModules modules).records.toList, 'İ' ∉ record.name.toList →
      record.canonical ≠ "" →
      record ∈ (SymbolTable.ofModules modules).lookup (canonicalize record.canonical) := by
  refine ⟨?_, canonicalize_canonicalize_iff s, ?_, ?_⟩
  · rw [canonicalize, String.toList_ofList]
    exact forall_isAlphanumeric_iff
  · rw [Service.key, Service.key, String.toList_ofList, String.ofList_inj]
    exact keyChars_keyChars_iff
  · intro record listed plain said
    have canonical : record.canonical = canonicalize record.name := by
      rw [SymbolTable.records_ofModules] at listed
      obtain ⟨entry, -, rfl⟩ := List.mem_map.mp listed
      exact SymbolRecord.ofEntry_canonical entry
    have again : canonicalize record.canonical = record.canonical := by
      rw [canonical, (canonicalize_canonicalize_iff record.name).mpr plain]
    rw [again, SymbolTable.lookup_ofModules, if_neg said, List.mem_filter, decide_eq_true_eq]
    exact ⟨listed, .inl canonical.symm⟩

theorem canonical_names_are_canonical_umlaut :
    let file : FileFacts := {
      path := "a", moduleField := "m"
      definitions := [{ name := "Größe_Server", kind := .function }] }
    let modules := ((Graph.empty 1).add file).modules
    canonicalize (canonicalize "Größe_Server") = "größeserver" ∧
    Service.key (Service.key "Größe_Server") = "größe" ∧
    (SymbolTable.ofModules modules).records.toList.map (·.name) = ["Größe_Server"] ∧
    ∀ record ∈ (SymbolTable.ofModules modules).records.toList,
      record ∈ (SymbolTable.ofModules modules).lookup (canonicalize record.canonical) := by
  intro file modules
  have plain : 'İ' ∉ "Größe_Server".toList := by decide
  have spelled : ∀ record ∈ (SymbolTable.ofModules modules).records.toList,
      'İ' ∉ record.name.toList ∧ record.canonical ≠ "" := by decide
  obtain ⟨-, twice, key, found⟩ := canonical_names_are_canonical "Größe_Server" modules
  refine ⟨?_, ?_, by decide, fun record listed => ?_⟩
  · rw [twice.mpr plain]
    decide
  · rw [key.mpr plain]
    decide
  · obtain ⟨undotted, said⟩ := spelled record listed
    exact found record listed undotted said

/-- The dot of a dotted capital I is no letter, and the next canonical form is without it. So the
record of such a name is not found by it. -/
theorem dotted_capital_leaves_a_dot :
    let file : FileFacts := {
      path := "a", moduleField := "m", definitions := [{ name := "İd", kind := .function }] }
    let table := SymbolTable.ofModules ((Graph.empty 1).add file).modules
    '\u0307' ∈ (canonicalize "İd").toList ∧ Text.isAlphanumeric '\u0307' = false ∧
    canonicalize (canonicalize "İd") ≠ canonicalize "İd" ∧
    Service.key (Service.key "İd") ≠ Service.key "İd" ∧
    table.records.toList.map (·.name) = ["İd"] ∧
    ∀ record ∈ table.records.toList, table.lookup (canonicalize record.canonical) = [] := by
  intro file table
  refine ⟨by decide, isAlphanumeric_dot, by decide, by decide, by decide, ?_⟩
  intro record listed
  rw [SymbolTable.lookup_ofModules]
  revert record
  decide

end ModuleAtlas
