import Mathlib.Data.List.Pairwise
import Mathlib.Data.List.Perm.Basic
import ModuleAtlas.Facts.Json
import ModuleAtlas.Proofs.Blob.Facts
import ModuleAtlas.Settings

/-!
# The JSON form loses nothing

Facts and settings are read back from their JSON form as they were. Records may come with further
fields, at any depth and with any values, as they do when a later version wrote them, and with their
fields in any order.

A record is read field by field, and each field puts its value into the record. The puts of
different fields do not disturb each other, so the order does not matter, and all of them together
make up the record that was written.
-/

namespace ModuleAtlas

namespace Json

mutual

/-- The second value is the first with further fields in some of its records, under names that the
record does not have, and with the fields of each record in any order. -/
inductive Enriched : Json → Json → Prop where
  | null : Enriched .null .null
  | bool (value : Bool) : Enriched (.bool value) (.bool value)
  | integer (value : Int) : Enriched (.integer value) (.integer value)
  | decimal (negative : Bool) (digits : Nat) (exponent : Int) :
    Enriched (.decimal negative digits exponent) (.decimal negative digits exponent)
  | text (value : String) : Enriched (.text value) (.text value)
  | list {items items' : List Json} (each : List.Forall₂ Enriched items items') :
    Enriched (.list items) (.list items')
  | record {fields kept fields' : List (String × Json)}
    (each : List.Forall₂ EnrichedField fields kept)
    (others : kept.Perm (fields'.filter fun field => field.1 ∈ fields.map Prod.fst)) :
    Enriched (.record fields) (.record fields')

inductive EnrichedField : String × Json → String × Json → Prop where
  | mk (name : String) {value value' : Json} (enriched : Enriched value value') :
    EnrichedField (name, value) (name, value')

end

mutual

theorem Enriched.refl : (j : Json) → j.Enriched j
  | .null => .null
  | .bool value => .bool value
  | .integer value => .integer value
  | .decimal negative digits exponent => .decimal negative digits exponent
  | .text value => .text value
  | .list items => .list (enriched_items items)
  | .record fields => by
    refine .record (enriched_fields fields) (.of_eq ?_)
    rw [eq_comm, List.filter_eq_self]
    intro field member
    exact decide_eq_true (List.mem_map_of_mem member)

theorem enriched_items : (items : List Json) → List.Forall₂ Enriched items items
  | [] => .nil
  | item :: rest => .cons (Enriched.refl item) (enriched_items rest)

theorem enriched_fields : (fields : List (String × Json)) →
    List.Forall₂ EnrichedField fields fields
  | [] => .nil
  | (name, value) :: rest => .cons (.mk name (Enriched.refl value)) (enriched_fields rest)

end

end Json

namespace Draft

mutual

/-- There is nothing to be met in a value. -/
theorem skipFault_ofJson : (j : Json) → (ofJson j).skipFault = none
  | .null | .bool _ | .integer _ | .decimal .. | .text _ => rfl
  | .list items => by rw [ofJson, skipFault, skipItems_ofItems items, Option.none_or]
  | .record fields => by rw [ofJson, skipFault, skipFields_ofFields fields, Option.none_or]

theorem skipItems_ofItems : (items : List Json) → skipItems (ofItems items) = none
  | [] => rfl
  | item :: rest => by
    rw [ofItems, skipItems, skipFault_ofJson item, skipItems_ofItems rest, Option.none_or]

theorem skipFields_ofFields : (fields : List (String × Json)) → skipFields (ofFields fields) = none
  | [] => rfl
  | (name, value) :: rest => by
    rw [ofFields, skipFields, skipFault_ofJson value, skipFields_ofFields rest, Option.none_or]

end

theorem ofItems_eq_map (items : List Json) : ofItems items = items.map ofJson := by
  induction items with
  | nil => rfl
  | cons item rest ih => rw [ofItems, ih, List.map_cons]

end Draft

/-! ## Readers and what they read -/

/-- `read` makes `a` of `j`, with any further fields. -/
def Reads {α : Type} (read : Draft → Except Fault α) (j : Json) (a : α) : Prop :=
  ∀ j', j.Enriched j' → read (.ofJson j') = .ok a

namespace Reads

section
variable {α β : Type} {read : Draft → Except Fault α} {write : α → Json} {j : Json}

theorem text (s : String) : Reads Source.text (.text s) s := by
  rintro _ ⟨⟩
  rfl

theorem bool (b : Bool) : Reads Source.bool (.bool b) b := by
  rintro _ ⟨⟩
  rfl

theorem integer {low high n : Int} (least : low ≤ n) (most : n ≤ high) :
    Reads (Source.integer low high) (.integer n) n := by
  rintro _ ⟨⟩
  exact if_pos ⟨least, most⟩

theorem map {a : α} (h : Reads read j a) (f : α → β) :
    Reads (fun document => f <$> read document) j (f a) := by
  intro j' enriched
  change f <$> read (.ofJson j') = _
  rw [h j' enriched]
  rfl

theorem uint32 (n : UInt32) : Reads readUInt32 (.nat n.toNat) n := by
  have most : (n.toNat : Int) ≤ 0xFFFFFFFF := by
    have := n.toNat_lt
    omega
  have reads := (integer (Int.natCast_nonneg _) most).map fun n => UInt32.ofNat n.toNat
  rwa [Int.toNat_natCast, UInt32.ofNat_toNat] at reads

theorem uint64 (n : UInt64) : Reads readUInt64 (.nat n.toNat) n := by
  have most : (n.toNat : Int) ≤ 0xFFFFFFFFFFFFFFFF := by
    have := n.toNat_lt
    omega
  have reads := (integer (Int.natCast_nonneg _) most).map fun n => UInt64.ofNat n.toNat
  rwa [Int.toNat_natCast, UInt64.ofNat_toNat] at reads

theorem int32 (n : Int32) : Reads readInt32 (.integer n.toInt) n := by
  have reads := (integer n.le_toInt n.toInt_le).map Int32.ofInt
  rwa [Int32.ofInt_toInt] at reads

theorem kind (kind : DefinitionKind) : Reads DefinitionKind.read (.text kind.tag) kind := by
  rintro _ ⟨⟩
  cases kind <;> rfl

theorem usage (usage : Usage) : Reads Usage.read (.text usage.tag) usage := by
  have reads := (text usage.tag).map Usage.ofTag
  rwa [Usage.ofTag_tag] at reads

/-- Null stands for an absent value only if no value is written as null. -/
theorem option (reads : ∀ a, Reads read (write a) a) (present : ∀ a, write a ≠ .null)
    (o : Option α) : Reads (readOption read) (.optional write o) o := by
  intro j' enriched
  cases o with
  | none =>
    cases enriched
    rfl
  | some a =>
    have held : Source.isNull (Draft.ofJson j') = false := by
      cases j' with
      | null =>
        generalize written : Json.optional write (some a) = j at enriched
        cases enriched
        exact absurd written (present a)
      | _ => rfl
    rw [readOption, held, reads a j' enriched]
    rfl

theorem items (reads : ∀ a, Reads read (write a) a) (items : List α) {items' : List Json}
    (each : List.Forall₂ Json.Enriched (items.map write) items') :
    readItems read (items'.map Draft.ofJson) = .ok items := by
  induction items generalizing items' with
  | nil =>
    cases each
    rfl
  | cons a rest ih =>
    cases each with
    | cons first others =>
      rw [List.map_cons, readItems, reads a _ first, ih others]
      rfl

theorem list (reads : ∀ a, Reads read (write a) a) (items : List α) :
    Reads (readList read) (.list (items.map write)) items := by
  intro j' enriched
  cases enriched with
  | @list _ items' each =>
    have source : Source.items (Draft.ofJson (.list items')) =
        .ok (items'.map Draft.ofJson, none) := by
      rw [← Draft.ofItems_eq_map, Draft.ofJson]
      rfl
    rw [readList, source]
    change (readItems read (items'.map Draft.ofJson) >>= fun items => pure items) = _
    rw [Reads.items reads items each]
    rfl

end

end Reads

/-! ## Records -/

/-- What is written for a field of a record, and what reading it does to a record. -/
structure Part (σ : Type) where
  name : String
  value : Json
  put : σ → σ

namespace Part

section
variable {σ α : Type}

def entry (part : Part σ) : String × Json :=
  (part.name, part.value)

/-- The field reads what the part says. -/
structure Fits (field : Field (Except Fault) Draft σ) (part : Part σ) : Prop where
  name : field.name = part.name
  set (record : σ) : Reads (field.set record) part.value (part.put record)

theorem Fits.need {read : Draft → Except Fault α} {j : Json} {a : α} (reads : Reads read j a)
    {name : String} {put : σ → α → σ} :
    Fits (.need name read put) ⟨name, j, fun record => put record a⟩ where
  name := rfl
  set record := reads.map (put record)

theorem Fits.may {read : Draft → Except Fault α} {j : Json} {a : α} (reads : Reads read j a)
    {name : String} {put : σ → α → σ} :
    Fits (.may name read put) ⟨name, j, fun record => put record a⟩ where
  name := rfl
  set record := reads.map (put record)

/-- It does not matter which of the two is read first. -/
def Apart (a b : Part σ) : Prop :=
  ∀ record, a.put (b.put record) = b.put (a.put record)

instance : Std.Symm (@Apart σ) where
  symm _ _ apart record := (apart record).symm

end

end Part

namespace Shape

section
variable {σ : Type} (shape : Shape (Except Fault) Draft σ)

/-- The fields of a record without flaws. -/
def entries (fields : List (String × Json)) : List (Except Fault String × Draft) :=
  fields.map fun field => (.ok field.1, .ofJson field.2)

theorem layout_record (fields : List (String × Json)) :
    Source.layout (Draft.ofJson (.record fields)) = .ok (.fields (entries fields) none) := by
  have keys : (Draft.ofFields fields).map (fun field => (Draft.readKey field.1, field.2)) =
      entries fields := by
    induction fields with
    | nil => rfl
    | cons field rest ih => rw [Draft.ofFields, List.map_cons, ih]; rfl
  rw [← keys, Draft.ofJson]
  rfl

theorem entries_cons (field : String × Json) (rest : List (String × Json)) :
    entries (field :: rest) = (.ok field.1, .ofJson field.2) :: entries rest :=
  rfl

theorem readFields_unknown {name : String} (value : Json)
    (unknown : (shape.fields.find? fun field => field.name = name) = none)
    (rest : List (Except Fault String × Draft)) (seen : List String) (record : σ) :
    shape.readFields ((.ok name, .ofJson value) :: rest) seen record =
      shape.readFields rest seen record := by
  have skipped : Source.skip (Draft.ofJson value) = none := Draft.skipFault_ofJson value
  simp only [readFields, bind, Except.bind, unknown, skipped]
  rfl

theorem readFields_known {name : String} {draft : Draft} {field : Field (Except Fault) Draft σ}
    (known : (shape.fields.find? fun field => field.name = name) = some field) {seen : List String}
    (new : name ∉ seen) {record record' : σ} (set : field.set record draft = .ok record')
    (rest : List (Except Fault String × Draft)) :
    shape.readFields ((.ok name, draft) :: rest) seen record =
      shape.readFields rest (name :: seen) record' := by
  simp only [readFields, bind, Except.bind, known, if_neg new, set]

/-- Fields that the shape does not have make no difference. -/
theorem readFields_filter (fields : List (String × Json)) (seen : List String) (record : σ) :
    shape.readFields (entries fields) seen record =
      shape.readFields (entries (fields.filter fun field => field.1 ∈ shape.fields.map (·.name)))
        seen record := by
  induction fields generalizing seen record with
  | nil => rfl
  | cons field rest ih =>
    by_cases known : field.1 ∈ shape.fields.map (·.name)
    · rw [List.filter_cons_of_pos (by simpa using known), entries_cons, entries_cons, readFields,
        readFields]
      simp only [ih]
    · have missing : (shape.fields.find? fun f => f.name = field.1) = none := by
        rw [List.find?_eq_none]
        intro f member named
        exact known (List.mem_map.mpr ⟨f, member, of_decide_eq_true named⟩)
      rw [List.filter_cons_of_neg (by simpa using known), ← ih, entries_cons,
        shape.readFields_unknown field.2 missing]

variable {shape} {parts : List (Part σ)}

theorem names_eq (fits : List.Forall₂ Part.Fits shape.fields parts) :
    shape.fields.map (·.name) = parts.map (·.name) := by
  generalize shape.fields = fields at fits
  induction fits with
  | nil => rfl
  | cons first _ ih => rw [List.map_cons, List.map_cons, first.name, ih]

/-- The field of a part is found by its name. -/
theorem exists_field (fits : List.Forall₂ Part.Fits shape.fields parts)
    (once : (parts.map (·.name)).Nodup) {part : Part σ} (member : part ∈ parts) :
    ∃ field, (shape.fields.find? fun field => field.name = part.name) = some field ∧
      part.Fits field := by
  generalize shape.fields = fields at fits
  induction fits with
  | nil => cases member
  | @cons field first _ _ fit _ ih =>
    rw [List.map_cons, List.nodup_cons] at once
    rcases List.mem_cons.mp member with rfl | later
    · exact ⟨field, List.find?_cons_of_pos (decide_eq_true fit.name), fit⟩
    · have other : field.name ≠ part.name := by
        intro same
        exact once.1 (List.mem_map.mpr ⟨part, later, (fit.name ▸ same).symm⟩)
      obtain ⟨field', found, fit'⟩ := ih once.2 later
      exact ⟨field', (List.find?_cons_of_neg (by simpa using other)).trans found, fit'⟩

/-- Fields that are known are put into the record one after the other. -/
theorem readFields_parts (fits : ∀ part ∈ parts, ∃ field,
      (shape.fields.find? fun field => field.name = part.name) = some field ∧ Part.Fits field part)
    (once : (parts.map (·.name)).Nodup) {fields : List (String × Json)}
    (each : List.Forall₂ (fun part field => Json.EnrichedField part.entry field) parts fields)
    {seen : List String} (new : ∀ part ∈ parts, part.name ∉ seen) (record : σ) :
    shape.readFields (entries fields) seen record =
      .ok ((parts.map (·.name)).reverse ++ seen,
        parts.foldl (fun record part => part.put record) record) := by
  induction each generalizing seen record with
  | nil => rfl
  | @cons part field parts fields first _ ih =>
    obtain ⟨found, known, fit⟩ := fits part List.mem_cons_self
    rw [List.map_cons, List.nodup_cons] at once
    have named : field.1 = part.name := by
      cases first
      rfl
    have set : found.set record (.ofJson field.2) = .ok (part.put record) := by
      obtain ⟨-, enriched⟩ := first
      exact fit.set record _ enriched
    have new' : ∀ other ∈ parts, other.name ∉ part.name :: seen := by
      intro other later same
      rcases List.mem_cons.mp same with same | old
      · exact once.1 (List.mem_map.mpr ⟨other, later, same⟩)
      · exact new other (List.mem_cons_of_mem part later) old
    have fits' := fun other later => fits other (List.mem_cons_of_mem part later)
    rw [entries_cons, named, shape.readFields_known known (new part List.mem_cons_self) set,
      ih fits' once.2 new', List.map_cons, List.reverse_cons, List.append_assoc,
      List.singleton_append, List.foldl_cons]

end

end Shape

theorem Shape.read_of_readFields {σ : Type} {shape : Shape (Except Fault) Draft σ}
    {fields : List (String × Json)} {seen : List String} {record : σ}
    (read : shape.readFields (entries fields) [] shape.start = .ok (seen, record))
    (all : ∀ field ∈ shape.fields, field.name ∈ seen) :
    shape.read (.ofJson (.record fields)) = .ok record := by
  have complete : (shape.fields.all fun field => !field.required || field.name ∈ seen) = true := by
    rw [List.all_eq_true]
    intro field member
    rw [decide_eq_true (all field member), Bool.or_true]
  simp only [Shape.read, layout_record, bind, Except.bind, read, throwIf, pure, Except.pure]
  rw [if_pos complete]

/-- A record is read from its parts if each of its fields has one, they do not disturb each other,
and together they make it up. -/
theorem Reads.record {σ : Type} {shape : Shape (Except Fault) Draft σ} {parts : List (Part σ)}
    {j : Json} {record : σ} (fits : List.Forall₂ Part.Fits shape.fields parts)
    (form : j = .record (parts.map Part.entry))
    (whole : parts.foldl (fun record part => part.put record) shape.start = record)
    (once : (shape.fields.map (·.name)).Nodup) (apart : parts.Pairwise Part.Apart) :
    Reads shape.read j record := by
  subst form
  intro j' enriched
  cases enriched with
  | @record _ kept fields' each others =>
    have names := Shape.names_eq fits
    have written : (parts.map Part.entry).map Prod.fst = shape.fields.map (·.name) := by
      rw [names, List.map_map]
      rfl
    rw [written] at others
    rw [names] at once
    -- The known fields come in an order of their own, and the parts are read in that order.
    obtain ⟨arranged, perm, each⟩ : Relation.Comp List.Perm
        (List.Forall₂ fun part field => Json.EnrichedField part.entry field) parts
        (fields'.filter fun field => field.1 ∈ shape.fields.map (·.name)) := by
      rw [← List.forall₂_comp_perm_eq_perm_comp_forall₂]
      exact ⟨kept, List.forall₂_map_left_iff.mp each, others⟩
    have order : arranged.foldl (fun record part => part.put record) shape.start = record := by
      rw [← whole]
      apply (perm.foldl_eq' _ _).symm
      intro a ha b hb
      exact apart.forall_of_forall (fun _ _ _ => rfl) hb ha
    apply Shape.read_of_readFields
    · rw [Shape.readFields_filter, Shape.readFields_parts _ ((perm.map _).nodup_iff.mp once) each
        (fun _ _ => List.not_mem_nil), order]
      intro part member
      exact Shape.exists_field fits once (perm.mem_iff.mpr member)
    · intro field member
      rw [List.append_nil, List.mem_reverse, ← (perm.map _).mem_iff, ← names]
      exact List.mem_map_of_mem member

/-! ## Facts and settings -/

theorem Reads.texts (items : List String) : Reads (readList Source.text) (.texts items) items :=
  .list .text items

theorem Reads.optionalText (o : Option String) :
    Reads (readOption Source.text) (.optional .text o) o :=
  .option .text (fun _ => nofun) o

theorem Location.reads (l : Location) : Reads Location.shape.read l.toJson l :=
  .record (.cons (.need (.uint32 l.line)) <| .cons (.need (.uint32 l.column)) .nil)
    rfl rfl (by decide) (by simp [Part.Apart])

theorem Complexity.reads (c : Complexity) : Reads Complexity.shape.read c.toJson c :=
  .record (.cons (.may (.uint32 c.branches)) <| .cons (.may (.uint32 c.nesting)) <|
      .cons (.may (.uint32 c.params)) <| .cons (.may (.uint32 c.loc)) <|
      .cons (.may (.option .uint32 (fun _ => nofun) c.score)) .nil)
    rfl rfl (by decide) (by simp [Part.Apart])

theorem Definition.reads (d : Definition) : Reads Definition.shape.read d.toJson d :=
  .record (.cons (.need (.text d.name)) <| .cons (.may (.text d.qualifiedName)) <|
      .cons (.need (.kind d.kind)) <| .cons (.may d.location.reads) <|
      .cons (.may (.bool d.exported)) <| .cons (.may (.optionalText d.visibility)) <|
      .cons (.may (.optionalText d.scope)) <| .cons (.may (.optionalText d.signature)) <|
      .cons (.may (.optionalText d.typeHint)) <| .cons (.may (.texts d.decorators)) <|
      .cons (.may d.complexity.reads) .nil)
    rfl rfl (by decide) (by simp [Part.Apart])

theorem Import.reads (i : Import) : Reads Import.shape.read i.toJson i :=
  .record (.cons (.need (.text i.target)) <| .cons (.may (.text i.raw)) <|
      .cons (.may (.optionalText i.boundAs)) <| .cons (.may (.texts i.items)) <|
      .cons (.may (.bool i.relative)) <| .cons (.may i.location.reads) .nil)
    rfl rfl (by decide) (by simp [Part.Apart])

theorem Reference.reads (r : Reference) : Reads Reference.shape.read r.toJson r :=
  .record (.cons (.need (.text r.name)) <| .cons (.may r.location.reads) <|
      .cons (.may (.usage r.usage)) .nil)
    rfl rfl (by decide) (by simp [Part.Apart])

theorem FileFacts.reads (f : FileFacts) : Reads FileFacts.shape.read f.toJson f :=
  .record (.cons (.need (.text f.path)) <| .cons (.may (.text f.moduleField)) <|
      .cons (.may (.text f.language)) <| .cons (.may (.optionalText f.package)) <|
      .cons (.may (.list Import.reads f.imports)) <|
      .cons (.may (.list Definition.reads f.definitions)) <|
      .cons (.may (.list Reference.reads f.references)) <|
      .cons (.may (.texts f.localNames)) .nil)
    rfl rfl (by decide) (by simp [Part.Apart])

theorem BridgeRule.reads (b : BridgeRule) : Reads BridgeRule.shape.read b.toJson b :=
  .record (.cons (.need (.text b.source)) <| .cons (.need (.text b.target)) <|
      .cons (.may (.text b.reason)) <| .cons (.may (.texts b.references)) .nil)
    rfl rfl (by decide) (by simp [Part.Apart])

theorem ResolverSettings.reads (r : ResolverSettings) :
    Reads ResolverSettings.shape.read r.toJson r :=
  .record (.cons (.may (.texts r.excludedPatterns)) <| .cons (.may (.int32 r.highConfidence)) <|
      .cons (.may (.int32 r.mediumConfidence)) .nil)
    rfl rfl (by decide) (by simp [Part.Apart])

theorem CacheSettings.reads (c : CacheSettings) : Reads CacheSettings.shape.read c.toJson c :=
  .record (.cons (.may (.uint64 c.capacity)) .nil) rfl rfl (by decide) (by simp [Part.Apart])

theorem Settings.reads (s : Settings) : Reads Settings.shape.read s.toJson s :=
  .record (.cons (.may (.list BridgeRule.reads s.bridges)) <| .cons (.may s.resolver.reads) <|
      .cons (.may s.cache.reads) .nil)
    rfl rfl (by decide) (by simp [Part.Apart])

/-- **The JSON form.** Facts and settings are read back from it as they were, and they still are
when further fields are added to any of its records, with any values. -/
theorem json_form_is_lossless (f : FileFacts) (s : Settings) :
    FileFacts.shape.readJson f.toJson = .ok f ∧
    (∀ j, f.toJson.Enriched j → FileFacts.shape.readJson j = .ok f) ∧
    Settings.shape.readJson s.toJson = .ok s ∧
    ∀ j, s.toJson.Enriched j → Settings.shape.readJson j = .ok s :=
  ⟨f.reads _ (.refl _), f.reads, s.reads _ (.refl _), s.reads⟩

/-- A location inside a reference inside facts has a further field, and so have the two around it.
One of these has a record for a value, with the name of a known field in it. All fields of the facts
come in reverse order. In settings there is a further field among those of the cache. -/
theorem json_form_is_lossless_newer :
    let f : FileFacts := { path := "a", references := [⟨"run", ⟨3, 7⟩, .call⟩] }
    let location : Json :=
      .record [("column", .integer 7), ("end_line", .integer 4), ("line", .integer 3)]
    let reference : Json :=
      .record [("location", location), ("name", .text "run"), ("weight", .decimal true 5 (-1)),
        ("context", .text "call")]
    let j : Json :=
      .record [("local_names", .list []), ("references", .list [reference]),
        ("definitions", .list []), ("imports", .list []), ("package", .null),
        ("language", .text ""), ("module", .text ""), ("path", .text "a"),
        ("origin", .record [("path", .null)])]
    let s : Settings := { cache := ⟨64⟩ }
    let j' : Json :=
      .record [("bridges", .list []), ("resolver", s.resolver.toJson),
        ("cache", .record [("policy", .text "lru"), ("capacity", .integer 64)])]
    (f.toJson.Enriched j ∧ FileFacts.shape.readJson j = .ok f) ∧
      s.toJson.Enriched j' ∧ Settings.shape.readJson j' = .ok s := by
  intro f location reference j s j'
  have inLocation : (Location.toJson ⟨3, 7⟩).Enriched location :=
    .record (.cons (.mk _ (.refl _)) <| .cons (.mk _ (.refl _)) .nil) (.swap _ _ _)
  have inReference : (Reference.toJson ⟨"run", ⟨3, 7⟩, .call⟩).Enriched reference :=
    .record (.cons (.mk _ (.refl _)) <| .cons (.mk _ inLocation) <| .cons (.mk _ (.refl _)) .nil)
      (.swap _ _ _)
  have inFacts : f.toJson.Enriched j :=
    .record (.cons (.mk _ (.refl _)) <| .cons (.mk _ (.refl _)) <| .cons (.mk _ (.refl _)) <|
        .cons (.mk _ (.refl _)) <| .cons (.mk _ (.refl _)) <| .cons (.mk _ (.refl _)) <|
        .cons (.mk _ (.list (.cons inReference .nil))) <| .cons (.mk _ (.refl _)) .nil)
      (List.reverse_perm _).symm
  have inCache : s.cache.toJson.Enriched
      (.record [("policy", .text "lru"), ("capacity", .integer 64)]) :=
    .record (.cons (.mk _ (.refl _)) .nil) (.refl _)
  have inSettings : s.toJson.Enriched j' :=
    .record (.cons (.mk _ (.refl _)) <| .cons (.mk _ (.refl _)) <| .cons (.mk _ inCache) .nil)
      (.refl _)
  obtain ⟨-, facts, -, settings⟩ := json_form_is_lossless f s
  exact ⟨⟨inFacts, facts j inFacts⟩, inSettings, settings j' inSettings⟩

end ModuleAtlas
