import ModuleAtlas.Proofs.Blob.Codec
import ModuleAtlas.Store
import Mathlib.Tactic.MkIffOfInductiveProp

/-! The binary form of facts delimits itself, field by field. -/

namespace ModuleAtlas

open Blob.Codec (uint32_delimits bool_delimits oneOf_delimits text_delimits)

/-! ## Sizes

The length of a text or a list is written in eight bytes, which has to be enough. -/

def Blob.ShortText (s : String) : Prop :=
  s.utf8ByteSize < UInt64.size

def Blob.ShortList {α : Type} (each : α → Prop) (items : List α) : Prop :=
  items.length < UInt64.size ∧ ∀ a ∈ items, each a

open Blob (ShortText ShortList)

instance (s : String) : Decidable (ShortText s) :=
  inferInstanceAs (Decidable (_ < _))

instance {α : Type} (each : α → Prop) [DecidablePred each] (items : List α) :
    Decidable (ShortList each items) :=
  inferInstanceAs (Decidable (_ ∧ _))

@[mk_iff]
structure Definition.Sized (d : Definition) : Prop where
  name : ShortText d.name
  qualifiedName : ShortText d.qualifiedName
  visibility : ∀ s ∈ d.visibility, ShortText s
  scope : ∀ s ∈ d.scope, ShortText s
  signature : ∀ s ∈ d.signature, ShortText s
  typeHint : ∀ s ∈ d.typeHint, ShortText s
  decorators : ShortList ShortText d.decorators

@[mk_iff]
structure Import.Sized (i : Import) : Prop where
  target : ShortText i.target
  raw : ShortText i.raw
  boundAs : ∀ s ∈ i.boundAs, ShortText s
  items : ShortList ShortText i.items

def Reference.Sized (r : Reference) : Prop :=
  ShortText r.name

/-- All texts and lists of the facts are shorter than the largest length there is. -/
@[mk_iff]
structure FileFacts.Sized (f : FileFacts) : Prop where
  path : ShortText f.path
  moduleField : ShortText f.moduleField
  language : ShortText f.language
  package : ∀ s ∈ f.package, ShortText s
  imports : ShortList Import.Sized f.imports
  definitions : ShortList Definition.Sized f.definitions
  references : ShortList Reference.Sized f.references
  localNames : ShortList ShortText f.localNames

instance (d : Definition) : Decidable d.Sized :=
  decidable_of_iff _ (Definition.sized_iff d).symm

instance (i : Import) : Decidable i.Sized :=
  decidable_of_iff _ (Import.sized_iff i).symm

instance (r : Reference) : Decidable r.Sized :=
  inferInstanceAs (Decidable (ShortText r.name))

instance (f : FileFacts) : Decidable f.Sized :=
  decidable_of_iff _ (FileFacts.sized_iff f).symm

theorem DefinitionKind.mem_all (kind : DefinitionKind) : kind ∈ all := by
  cases kind <;> decide

theorem Usage.ofTag_tag (usage : Usage) : ofTag usage.tag = usage := by
  cases usage <;> rfl

namespace Blob

/-! ## Records -/

theorem location_delimits : location.Delimits fun _ => True :=
  (uint32_delimits.pair uint32_delimits).via (fun _ _ => ⟨trivial, trivial⟩) fun _ => rfl

theorem complexity_delimits : complexity.Delimits fun _ => True :=
  (uint32_delimits.pair <| uint32_delimits.pair <| uint32_delimits.pair <|
      uint32_delimits.pair uint32_delimits.option).via
    (fun _ _ => ⟨trivial, trivial, trivial, trivial, fun _ _ => trivial⟩) fun _ => rfl

theorem kind_delimits : kind.Delimits (· ∈ DefinitionKind.all) :=
  oneOf_delimits (by decide)

theorem definition_delimits : definition.Delimits Definition.Sized :=
  (text_delimits.pair <| text_delimits.pair <| kind_delimits.pair <| location_delimits.pair <|
      bool_delimits.pair <| text_delimits.option.pair <| text_delimits.option.pair <|
      text_delimits.option.pair <| text_delimits.option.pair <| text_delimits.list.pair
      complexity_delimits).via
    (fun d h => ⟨h.name, h.qualifiedName, d.kind.mem_all, trivial, trivial, h.visibility, h.scope,
      h.signature, h.typeHint, h.decorators, trivial⟩)
    fun _ => rfl

theorem importing_delimits : importing.Delimits Import.Sized :=
  (text_delimits.pair <| text_delimits.pair <| text_delimits.option.pair <|
      text_delimits.list.pair <| bool_delimits.pair location_delimits).via
    (fun _ h => ⟨h.target, h.raw, h.boundAs, h.items, trivial, trivial⟩) fun _ => rfl

theorem usage_delimits : usage.Delimits fun _ => True := by
  refine text_delimits.via (fun usage _ => ?_) Usage.ofTag_tag
  cases usage <;> decide

theorem reference_delimits : reference.Delimits Reference.Sized :=
  (text_delimits.pair <| location_delimits.pair usage_delimits).via
    (fun _ h => ⟨h, trivial, trivial⟩) fun _ => rfl

theorem facts_delimits : facts.Delimits FileFacts.Sized :=
  (text_delimits.pair <| text_delimits.pair <| text_delimits.pair <| text_delimits.option.pair <|
      importing_delimits.list.pair <| definition_delimits.list.pair <|
      reference_delimits.list.pair text_delimits.list).via
    (fun _ h => ⟨h.path, h.moduleField, h.language, h.package, h.imports, h.definitions,
      h.references, h.localNames⟩)
    fun _ => rfl

/-- **A blob stands for its facts.** Facts are read back from their bytes whatever follows these,
and from a part of the bytes nothing is read but that they ended. So no blob is the beginning of the
blob of other facts, and a blob that was cut short does not load. -/
theorem blob_stands_for_its_facts {f : FileFacts} (sized : f.Sized) :
    (∀ rest, facts.decode (facts.encode f ++ rest) = .ok (f, rest)) ∧
    (∀ front, front <+: facts.encode f → front ≠ facts.encode f →
      facts.decode front = .error .ended) ∧
    (∀ g : FileFacts, g.Sized → f ≠ g →
      ¬ facts.encode f <+: facts.encode g ∧ ¬ facts.encode g <+: facts.encode f) ∧
    ∀ (hash : String → UInt64) (store : Store) (path : String) (front : Bytes),
      front <+: facts.encode f → front ≠ facts.encode f →
      store.holding? (hash path) = some (.file front) →
      store.load hash path = .error (.blob .ended) := by
  refine ⟨(facts_delimits f sized).whole, ?_, ?_, ?_⟩
  · intro front begins cut
    exact facts_delimits.ended_of_prefix sized begins cut
  · intro g sized' differ
    constructor
    · intro begins
      exact differ (facts_delimits.eq_of_prefix sized sized' begins)
    · intro begins
      exact differ (facts_delimits.eq_of_prefix sized' sized begins).symm
  · intro hash store path front begins cut held
    simp only [Store.load, held, facts_delimits.ended_of_prefix sized begins cut]

/-- Facts with something in every list, and the same facts without their last reference. The cut
goes between the two bytes of a letter. -/
theorem blob_stands_for_its_facts_cut :
    let f : FileFacts := {
      path := "aé", package := some "p", imports := [{ target := "m", items := ["x"] }]
      definitions := [{ name := "f", kind := .method, signature := some "" }]
      references := [{ name := "x", usage := .call }], localNames := ["", "y"] }
    let g : FileFacts := { f with references := [] }
    f.Sized ∧ g.Sized ∧
    facts.decode (facts.encode f ++ [7]) = .ok (f, [7]) ∧
    (facts.encode f).take 10 ≠ facts.encode f ∧
    facts.decode ((facts.encode f).take 10) = .error .ended ∧
    ¬ facts.encode g <+: facts.encode f ∧
    ({ holdings := {(Store.fileName 2, .file ((facts.encode f).take 10))} } : Store).load
      (fun _ => 2) "aé" = .error (.blob .ended) := by
  intro f g
  have sized : f.Sized := by decide
  have sized' : g.Sized := by decide
  have cut : (facts.encode f).take 10 ≠ facts.encode f := by decide +kernel
  obtain ⟨whole, ended, apart, unread⟩ := blob_stands_for_its_facts sized
  have begins := List.take_prefix 10 (facts.encode f)
  exact ⟨sized, sized', whole [7], cut, ended _ begins cut, (apart g sized' (by decide)).2,
    unread _ _ _ _ begins cut (by simp [Store.holding?])⟩

end Blob

end ModuleAtlas
