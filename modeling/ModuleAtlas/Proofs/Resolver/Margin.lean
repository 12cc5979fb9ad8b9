import ModuleAtlas.Proofs.Graph.Occupancy
import ModuleAtlas.Proofs.Resolver.Stages
import ModuleAtlas.Proofs.Sorting
import ModuleAtlas.Proofs.Symbol.Table
import Mathlib.Data.List.Nodup

/-!
# A match is far ahead of all others

Only the first two of the ranked candidates are looked at. Since scores descend along a ranking, the
second speaks for all that follow: `gate_eq_some_iff`. The candidates come once each, so a record is
never its own rival, and what order they come in does not matter.
-/

namespace ModuleAtlas

namespace Resolver

variable {usage : Usage} {ranking ranking' : List (Int × SymbolRecord)} {found : SymbolMatch}

/-! ## Rankings -/

/-- The first of a ranking, if its score is accepted and leads far enough. -/
def gate (usage : Usage) : List (Int × SymbolRecord) → Option SymbolMatch
  | [] => none
  | (best, record) :: rest =>
    if Scoring.threshold usage ≤ best ∧ ∀ next ∈ rest.head?, next.1 ≤ best - Scoring.minMargin then
      some (.ofRecord record best)
    else none

theorem bestMatch?_eq_gate (resolver : Resolver) (ctx : FileContext) (name : String)
    (usage : Usage) :
    resolver.bestMatch? ctx name usage = gate usage (resolver.ranked ctx name usage) := by
  rw [bestMatch?]
  cases resolver.ranked ctx name usage with
  | nil => rfl
  | cons best rest =>
    obtain ⟨best, record⟩ := best
    dsimp only [gate]
    by_cases low : best < Scoring.threshold usage
    · simp [low]
    · cases rest with
      | nil => simp [low, not_lt.mp low]
      | cons next rest =>
        have margin : best - next.1 < Scoring.minMargin ↔ ¬ next.1 ≤ best - Scoring.minMargin := by
          omega
        simp only [low, not_lt.mp low, margin, if_false, ite_not, true_and, List.head?_cons,
          Option.mem_some_iff, forall_eq']

/-- Scores descend along a ranking. -/
def Descends (ranking : List (Int × SymbolRecord)) : Prop :=
  ranking.Pairwise fun a b => b.1 ≤ a.1

/-- The first of a ranking speaks for all of it. -/
theorem Descends.forall_mem_head?_iff (descends : Descends ranking) (bound : Int) :
    (∀ next ∈ ranking.head?, next.1 ≤ bound) ↔ ∀ other ∈ ranking, other.1 ≤ bound := by
  constructor
  · intro first other listed
    cases ranking with
    | nil => cases listed
    | cons next rest =>
      have low := first next rfl
      rcases List.mem_cons.mp listed with rfl | later
      · exact low
      · exact (List.rel_of_pairwise_cons descends later).trans low
  · exact fun all next first => all next (List.mem_of_head? first)

/-- A match is accepted and far ahead of all others. -/
theorem Descends.gate_eq_some_iff (descends : Descends ranking) (once : ranking.Nodup) :
    gate usage ranking = some found ↔
      ∃ best ∈ ranking, Scoring.threshold usage ≤ best.1 ∧
        (∀ other ∈ ranking, other ≠ best → other.1 ≤ best.1 - Scoring.minMargin) ∧
        found = .ofRecord best.2 best.1 := by
  cases ranking with
  | nil => simp [gate]
  | cons first rest =>
    obtain ⟨fresh, -⟩ := List.nodup_cons.mp once
    obtain ⟨below, later⟩ := List.pairwise_cons.mp descends
    rw [gate, Option.ite_none_right_eq_some, Descends.forall_mem_head?_iff later]
    constructor
    · rintro ⟨⟨accepted, ahead⟩, same⟩
      refine ⟨first, List.mem_cons_self, accepted, fun other listed differs => ?_,
        (Option.some.inj same).symm⟩
      exact ahead other ((List.mem_cons.mp listed).resolve_left differs)
    · rintro ⟨best, listed, accepted, ahead, rfl⟩
      -- One further down is not ahead of the first.
      have leads : best = first := by
        by_contra differs
        have under := below best ((List.mem_cons.mp listed).resolve_left differs)
        have margin := ahead first List.mem_cons_self (Ne.symm differs)
        have : Scoring.minMargin = 2 := rfl
        omega
      subst leads
      refine ⟨⟨accepted, fun other later => ahead other (.tail _ later) ?_⟩, rfl⟩
      rintro rfl
      exact fresh later

/-! ## The order of candidates -/

section
variable (ctx : FileContext) (name : String) (usage : Usage)

def scored (records : List SymbolRecord) : List (Int × SymbolRecord) :=
  records.map fun record => (score ctx name usage record, record)

variable {ctx name usage} {records : List SymbolRecord}

theorem nodup_scored (once : records.Nodup) : (scored ctx name usage records).Nodup :=
  once.map fun _ _ same => congrArg Prod.snd same

theorem Descends.gate_eq_some_iff_of_perm (descends : Descends ranking)
    (perm : ranking.Perm (scored ctx name usage records)) (once : records.Nodup) :
    gate usage ranking = some found ↔
      ∃ record ∈ records, Scoring.threshold usage ≤ score ctx name usage record ∧
        (∀ other ∈ records, other ≠ record →
          score ctx name usage other ≤ score ctx name usage record - Scoring.minMargin) ∧
        found = .ofRecord record (score ctx name usage record) := by
  rw [descends.gate_eq_some_iff (perm.nodup_iff.mpr (nodup_scored once))]
  simp only [perm.mem_iff, scored, List.mem_map]
  constructor
  · rintro ⟨_, ⟨record, listed, rfl⟩, accepted, ahead, same⟩
    refine ⟨record, listed, accepted, fun other listed' differs => ?_, same⟩
    apply ahead (score ctx name usage other, other) ⟨other, listed', rfl⟩
    exact fun same => differs (congrArg Prod.snd same)
  · rintro ⟨record, listed, accepted, ahead, rfl⟩
    refine ⟨_, ⟨record, listed, rfl⟩, accepted, ?_, rfl⟩
    rintro _ ⟨other, listed', rfl⟩ differs
    exact ahead other listed' fun same => differs (by rw [same])

end

/-- The order behind `ahead`. -/
def order : Int × SymbolRecord → Int × SymbolRecord → Ordering :=
  compareLex
    (compareLex (compareLex (fun a b => compareOn Prod.fst b a) (compareOn (·.2.moduleName)))
      (compareOn (·.2.name)))
    (compareOn (·.2.file))

instance : Std.TransCmp order := by
  unfold order
  infer_instance

theorem le_of_ahead {a b : Int × SymbolRecord} (first : ahead a b = true) : b.1 ≤ a.1 := by
  simp only [ahead, Ordering.isLE_then_iff_and] at first
  exact compare_le_iff_le.mp (Ordering.ne_gt_iff_isLE.mpr first.1.1.1)

theorem descends_mergeSort (ranking : List (Int × SymbolRecord)) :
    Descends (ranking.mergeSort ahead) :=
  (Sorting.pairwise_mergeSort order ranking).imp le_of_ahead

/-! ## Candidates come once -/

/-- The records that may be meant. -/
def gathered (resolver : Resolver) (name : String) (usage : Usage) : List SymbolRecord :=
  resolver.symbols.recordsAt (resolver.candidates name usage)

section
variable {resolver : Resolver}

/-- Places that are entered once each and lead to records. -/
structure Proper (table : SymbolTable) (places : List Nat) : Prop where
  once : places.Nodup
  held : ∀ place ∈ places, place < table.records.size

theorem proper_placesOf (table : SymbolTable) (property : SymbolRecord → Bool) :
    Proper table (placesOf property table.records.toList) where
  once := List.nodup_range.filter _
  held _ listed := List.mem_range.mp (List.mem_filter.mp listed).1

theorem Proper.foldl_enter {table : SymbolTable} {places more : List Nat}
    (proper : Proper table places) (held : ∀ place ∈ more, place < table.records.size) :
    Proper table (more.foldl
      (fun places place => if place ∈ places then places else places ++ [place]) places) := by
  induction more generalizing places with
  | nil => exact proper
  | cons place more ih =>
    obtain ⟨here, held⟩ := List.forall_mem_cons.mp held
    refine ih ?_ held
    dsimp only
    split
    · exact proper
    · next fresh =>
      refine ⟨List.nodup_append.mpr ⟨proper.once, List.nodup_singleton place, ?_⟩, ?_⟩
      · rintro a listed b inside rfl
        exact fresh (List.mem_singleton.mp inside ▸ listed)
      · simpa [or_imp, forall_and] using ⟨proper.held, here⟩

theorem proper_candidates (exact : resolver.symbols.Exact) (name : String) (usage : Usage) :
    Proper resolver.symbols (resolver.candidates name usage) := by
  have named (key : String) : Proper resolver.symbols (resolver.symbols.canonicalPlaces key) := by
    rw [exact.canonical]
    exact proper_placesOf _ _
  have services (key : String) : Proper resolver.symbols (resolver.symbols.servicePlaces key) := by
    rw [exact.service]
    exact proper_placesOf _ _
  unfold candidates
  dsimp only
  have found : Proper resolver.symbols
      (if (resolver.symbols.canonicalPlaces (canonicalize (RefName.stripSigils name))).isEmpty then
        resolver.symbols.canonicalPlaces (canonicalize (RefName.leaf (RefName.stripSigils name)))
      else resolver.symbols.canonicalPlaces (canonicalize (RefName.stripSigils name))) := by
    split
    · exact named _
    · exact named _
  split
  · exact found.foldl_enter (services _).held
  · exact found

/-- Each place leads to a record of its own. -/
theorem Proper.recordsAt {table : SymbolTable} {places : List Nat} (proper : Proper table places)
    (distinct : table.records.toList.Nodup) :
    (table.recordsAt places).Nodup ∧ (table.recordsAt places).length = places.length := by
  constructor
  · rw [SymbolTable.recordsAt]
    refine List.Nodup.filterMap (fun a b record ha hb => ?_) proper.once
    rw [Option.mem_def, ← Array.getElem?_toList] at ha hb
    have bound := (List.getElem?_eq_some_iff.mp ha).1
    exact (List.getElem?_inj bound distinct).mp (ha.trans hb.symm)
  · refine List.filterMap_length_eq_length.mpr fun place listed => ?_
    simpa using proper.held place listed

end

end Resolver

open ModuleAtlas.Resolver (gathered score scored gate Descends)

/-- **Matches.** The candidates for a name are different records. One of them is its match if and
only if its score is accepted and all others score less by two or more. So every ranking of the
candidates by score alone gives the same answer. -/
theorem match_is_far_ahead {s : Session} {capacity : Nat}
    (reached : Graph.Becomes (.empty capacity) s.graph) {settings : Option Settings}
    {resolver : Resolver} (made : s.resolver settings = .ok resolver) (ctx : FileContext)
    (name : String) (usage : Usage) :
    let records := resolver.gathered name usage
    (resolver.candidates name usage).Nodup ∧ records.Nodup ∧
    records.length = (resolver.candidates name usage).length ∧
    (∀ found, resolver.bestMatch? ctx name usage = some found ↔
      ∃ record ∈ records, Scoring.threshold usage ≤ score ctx name usage record ∧
        (∀ other ∈ records, other ≠ record →
          score ctx name usage other ≤ score ctx name usage record - 2) ∧
        found = .ofRecord record (score ctx name usage record)) ∧
    ∀ ranking, ranking.Perm (scored ctx name usage records) → Descends ranking →
      gate usage ranking = resolver.bestMatch? ctx name usage := by
  intro records
  have derived := ((Graph.Kept.start capacity).becomes reached).derived
  obtain ⟨-, symbols⟩ := Session.resolver_reads made
  have distinct : resolver.symbols.records.toList.Nodup := by
    rw [symbols]
    exact derived.records_ascend.imp SymbolRecord.Before.ne
  have proper := resolver.proper_candidates (symbols ▸ SymbolTable.exact_ofModules _) name usage
  obtain ⟨once, length⟩ := proper.recordsAt distinct
  have perm : (resolver.ranked ctx name usage).Perm (scored ctx name usage records) :=
    List.mergeSort_perm _ _
  have descends : Descends (resolver.ranked ctx name usage) := Resolver.descends_mergeSort _
  rw [Resolver.bestMatch?_eq_gate]
  refine ⟨proper.once, once, length, fun found => descends.gate_eq_some_iff_of_perm perm once,
    fun ranking perm' descends' => ?_⟩
  ext found
  rw [descends.gate_eq_some_iff_of_perm perm once, descends'.gate_eq_some_iff_of_perm perm' once]

/-- Three modules define `run`. The file's own is far ahead. Of the other two, one leads by being
public and by no more, so no file of a fourth module gets a match. -/
theorem match_is_far_ahead_own :
    let run (exported : Bool) : Definition := { name := "run", kind := .function, exported }
    let app : FileFacts := { path := "a", moduleField := "app", definitions := [run false] }
    let core : FileFacts := { path := "c", moduleField := "core", definitions := [run true] }
    let util : FileFacts := { path := "u", moduleField := "util", definitions := [run false] }
    let far : FileFacts := { path := "f", moduleField := "far" }
    let s : Session := { graph := (Graph.empty 1).addAll [core, app, util] }
    let resolver := Resolver.ofSnapshot (Session.ask.snapshot s).1
    resolver.candidates "run" .call = [0, 1, 2] ∧
    resolver.bestMatch? (resolver.context app) "run" .call = some ⟨"app", "run", "a", "", 21⟩ ∧
    resolver.bestMatch? (resolver.context far) "run" .call = none := by
  intro run app core util far s resolver
  have reached : Graph.Becomes (.empty 1) s.graph :=
    ⟨[.edit (.add core), .edit (.add app), .edit (.add util)], rfl⟩
  have made : s.resolver none = .ok resolver := rfl
  obtain ⟨-, -, -, own, -⟩ := match_is_far_ahead reached made (resolver.context app) "run" .call
  obtain ⟨-, -, -, foreign, -⟩ := match_is_far_ahead reached made (resolver.context far) "run" .call
  refine ⟨by decide +kernel, (own _).mpr ?_, Option.eq_none_iff_forall_ne_some.mpr fun found => ?_⟩
  · decide +kernel
  · rw [Ne, foreign]
    rintro ⟨record, listed, -, ahead, -⟩
    have close : ∀ record ∈ resolver.gathered "run" .call,
        ¬ ∀ other ∈ resolver.gathered "run" .call, other ≠ record →
          score (resolver.context far) "run" .call other ≤
            score (resolver.context far) "run" .call record - 2 := by decide +kernel
    exact close record listed ahead

end ModuleAtlas
