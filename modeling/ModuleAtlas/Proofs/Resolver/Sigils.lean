import ModuleAtlas.Proofs.Resolver.Exports
import ModuleAtlas.Proofs.Resolver.Margin
import ModuleAtlas.Proofs.Symbol.Name
import Mathlib.Logic.Function.Iterate

/-!
# Sigils behind a gap

One stripping takes one run of sigils from the start of a name, with the blanks around it. So a
sigil stays at the start if blanks part it from the first run, and a second stripping takes more:
`Gapped` names are those. The stages of resolution read the name stripped once, and the scores read
it stripped twice.

The candidates are the same for both. They are found by canonical forms, and neither sigils nor
blanks leave a trace there: `canonicalize_leaf_append`.
-/

namespace ModuleAtlas

open ModuleAtlas.Text (Stops)

namespace RefName

open ModuleAtlas.Text (isBlank trimChars pieces)

variable {cs u : List Char} {c : Char}

/-! ## What one stripping takes -/

/-- The characters that one stripping leaves. -/
def strippedChars (cs : List Char) : List Char :=
  ((trimChars cs).dropWhile isSigil).dropWhile isBlank

theorem stripSigils_eq (name : String) :
    stripSigils name = String.ofList (strippedChars name.toList) := rfl

/-- A text starts with sigils, up to blanks, and then has a gap and another sigil. -/
structure Gap (cs before sigils gap : List Char) (c : Char) (rest : List Char) : Prop where
  spelled : cs = before ++ (sigils ++ (gap ++ c :: rest))
  leads : ∀ b ∈ before, isBlank b = true
  filled : sigils ≠ []
  marks : ∀ s ∈ sigils, isSigil s = true
  parted : gap ≠ []
  blanks : ∀ b ∈ gap, isBlank b = true
  mark : isSigil c = true

/-- Blanks part the sigils at the start of a text. -/
def Gapped (cs : List Char) : Prop :=
  ∃ before sigils gap c rest, Gap cs before sigils gap c rest

theorem isBlank_of_isSigil (sigil : isSigil c = true) : isBlank c = false :=
  Text.outside_of_contains sigil (by decide)

theorem stops_strippedChars (cs : List Char) : Stops isBlank (strippedChars cs) :=
  Text.stops_dropWhile _ _

/-- Of a trimmed text, stripping takes a run of sigils and then a run of blanks. -/
theorem trimChars_shape (cs : List Char) :
    ∃ sigils gap, (∀ s ∈ sigils, isSigil s = true) ∧ (∀ b ∈ gap, isBlank b = true) ∧
      Stops isSigil (gap ++ strippedChars cs) ∧
      trimChars cs = sigils ++ (gap ++ strippedChars cs) := by
  let unmarked := (trimChars cs).dropWhile isSigil
  have parts : unmarked.takeWhile isBlank ++ strippedChars cs = unmarked :=
    List.takeWhile_append_dropWhile
  refine ⟨(trimChars cs).takeWhile isSigil, unmarked.takeWhile isBlank,
    fun s => List.mem_takeWhile_imp, fun b => List.mem_takeWhile_imp, ?_, ?_⟩
  · rw [parts]
    exact Text.stops_dropWhile _ _
  · rw [parts, List.takeWhile_append_dropWhile]

theorem strippedChars_suffix (cs : List Char) : strippedChars cs <:+ trimChars cs :=
  (List.dropWhile_suffix _).trans (List.dropWhile_suffix _)

theorem trimChars_strippedChars (cs : List Char) :
    trimChars (strippedChars cs) = strippedChars cs := by
  apply Text.trimChars_eq_self (stops_strippedChars cs)
  have ends := List.reverse_prefix.mpr (strippedChars_suffix cs)
  exact Text.forall_mem_head?_of_prefix ends (Text.stops_trimChars cs).2

theorem Gap.strippedChars_eq {before sigils gap rest : List Char}
    (h : Gap cs before sigils gap c rest) :
    strippedChars cs = c :: Text.dropEndWhile isBlank rest := by
  have atSigils (w : List Char) : Stops isBlank (sigils ++ w) :=
    (Text.stops_of_forall fun s inside => isBlank_of_isSigil (h.marks s inside)).append h.filled
  have atGap (w : List Char) : Stops isSigil (gap ++ w) :=
    (Text.stops_of_forall fun b inside =>
      Text.apart_symm isBlank_of_isSigil (h.blanks b inside)).append h.parted
  have atMark (w : List Char) : Stops isBlank (c :: w) := by
    simpa [Stops] using isBlank_of_isSigil h.mark
  -- The blanks at the end are behind the second sigil.
  have trimmed : trimChars cs = sigils ++ (gap ++ c :: Text.dropEndWhile isBlank rest) := by
    have last : Stops isBlank (sigils ++ gap ++ [c]).reverse := by
      rw [List.reverse_append]
      exact atMark _
    have ends := Text.dropEndWhile_append last rest
    rw [trimChars, h.spelled, (atSigils _).dropWhile_append h.leads]
    simpa using ends
  rw [strippedChars, trimmed, (atGap _).dropWhile_append h.marks,
    (atMark _).dropWhile_append h.blanks]

/-- A sigil stays at the start exactly if it stands behind a gap. -/
theorem stops_strippedChars_iff (cs : List Char) :
    Stops isSigil (strippedChars cs) ↔ ¬ Gapped cs := by
  rw [← not_iff_not, not_not, Text.not_stops_iff]
  constructor
  · rintro ⟨c, rest, left, mark⟩
    obtain ⟨before, behind, leads, -, whole⟩ := Text.exists_trimmed cs
    obtain ⟨sigils, gap, marks, blanks, stops, shape⟩ := trimChars_shape cs
    rw [left] at stops shape
    have parted : gap ≠ [] := by
      rintro rfl
      cases mark.symm.trans (stops c rfl)
    have filled : sigils ≠ [] := by
      rintro rfl
      obtain ⟨b, gap, rfl⟩ := List.exists_cons_of_ne_nil parted
      have first := (Text.stops_trimChars cs).1
      rw [shape] at first
      cases (blanks b List.mem_cons_self).symm.trans (first b rfl)
    have spelled : cs = before ++ (sigils ++ (gap ++ c :: (rest ++ behind))) := by
      rw [shape] at whole
      simpa using whole
    exact ⟨before, sigils, gap, c, _, spelled, leads, filled, marks, parted, blanks, mark⟩
  · rintro ⟨before, sigils, gap, c, rest, h⟩
    exact ⟨c, _, h.strippedChars_eq, h.mark⟩

/-! ## Stripping again -/

/-- A text that stripping does not change starts with no sigil, or it would get shorter. -/
theorem stops_of_fixed (fixed : strippedChars cs = cs) : Stops isSigil cs := by
  by_contra starts
  obtain ⟨c, rest, rfl, mark⟩ := Text.not_stops_iff.mp starts
  have trimmed := trimChars_strippedChars (c :: rest)
  rw [fixed] at trimmed
  have shorter : strippedChars (c :: rest) <:+ rest := by
    rw [strippedChars, trimmed, List.dropWhile_cons_of_pos mark]
    exact (List.dropWhile_suffix _).trans (List.dropWhile_suffix _)
  rw [fixed] at shorter
  have bound := shorter.length_le
  rw [List.length_cons] at bound
  omega

theorem strippedChars_strippedChars_iff (cs : List Char) :
    strippedChars (strippedChars cs) = strippedChars cs ↔ Stops isSigil (strippedChars cs) := by
  constructor
  · exact stops_of_fixed
  · intro free
    conv_lhs => rw [strippedChars]
    rw [trimChars_strippedChars, free.dropWhile, (stops_strippedChars cs).dropWhile]

/-- Sigils and blanks do not belong to a name that they stand before. -/
def isSkipped (c : Char) : Bool :=
  isSigil c || isBlank c

def bareChars (cs : List Char) : List Char :=
  (trimChars cs).dropWhile isSkipped

/-- A name without all sigils and blanks at its start. -/
def bare (name : String) : String :=
  String.ofList (bareChars name.toList)

theorem isSkipped_of_isSigil (sigil : isSigil c = true) : isSkipped c = true := by
  rw [isSkipped, sigil, Bool.true_or]

theorem isSkipped_of_isBlank (blank : isBlank c = true) : isSkipped c = true := by
  rw [isSkipped, blank, Bool.or_true]

theorem bareChars_strippedChars (cs : List Char) : bareChars (strippedChars cs) = bareChars cs := by
  rw [bareChars, trimChars_strippedChars, strippedChars,
    Text.dropWhile_dropWhile_of_imp fun _ => isSkipped_of_isBlank,
    Text.dropWhile_dropWhile_of_imp fun _ => isSkipped_of_isSigil, bareChars]

theorem bareChars_of_fixed (fixed : strippedChars cs = cs) : bareChars cs = cs := by
  have blank := stops_strippedChars cs
  have trimmed := trimChars_strippedChars cs
  rw [fixed] at blank trimmed
  have stops : Stops isSkipped cs := by
    intro c first
    rw [isSkipped, stops_of_fixed fixed c first, blank c first, Bool.or_false]
  rw [bareChars, trimmed, stops.dropWhile]

theorem strippedChars_sublist (cs : List Char) : (strippedChars cs).Sublist cs := by
  obtain ⟨before, behind, -, -, whole⟩ := Text.exists_trimmed cs
  have inner : (trimChars cs).Sublist (before ++ (trimChars cs ++ behind)) :=
    (List.sublist_append_left _ _).trans (List.sublist_append_right _ _)
  rw [← whole] at inner
  exact (strippedChars_suffix cs).sublist.trans inner

/-- Every stripping that takes something makes the text shorter, and what takes nothing is done. -/
theorem iterate_strippedChars {n : Nat} (room : cs.length ≤ n) :
    strippedChars^[n] cs = bareChars cs := by
  induction n generalizing cs with
  | zero =>
    rw [List.length_eq_zero_iff.mp (Nat.le_zero.mp room)]
    rfl
  | succ n ih =>
    rw [Function.iterate_succ_apply]
    by_cases fixed : strippedChars cs = cs
    · rw [fixed, Function.iterate_fixed fixed, bareChars_of_fixed fixed]
    · have shorter : (strippedChars cs).length < cs.length :=
        lt_of_not_ge fun long => fixed ((strippedChars_sublist cs).eq_of_length_le long)
      rw [ih (by omega), bareChars_strippedChars]

theorem iterate_stripSigils (n : Nat) (name : String) :
    stripSigils^[n] name = String.ofList (strippedChars^[n] name.toList) := by
  induction n generalizing name with
  | zero => exact String.ofList_toList.symm
  | succ n ih =>
    rw [Function.iterate_succ_apply, Function.iterate_succ_apply, ih, stripSigils_eq,
      String.toList_ofList]

/-! ## Canonical forms of leaves -/

def isFilled (piece : List Char) : Bool :=
  !(trimChars piece).isEmpty

theorem leafSegment?_eq (name : String) :
    leafSegment? name =
      ((pieces isLeafMark name.toList).reverse.find? isFilled).map
        fun piece => String.ofList (trimChars piece) := by
  rw [leafSegment?, ← List.map_reverse, List.find?_map, Option.map_map]
  rfl

theorem isAlphanumeric_of_isLeafMark (mark : isLeafMark c = true) :
    Text.isAlphanumeric c = false :=
  Text.outside_of_contains mark (by decide)

theorem isAlphanumeric_of_isSkipped (skipped : isSkipped c = true) :
    Text.isAlphanumeric c = false := by
  rcases Bool.or_eq_true_iff.mp skipped with sigil | blank
  · have outside := isIdentifierChar_of_isSigil sigil
    rw [isIdentifierChar, Bool.or_eq_false_iff, Bool.or_eq_false_iff] at outside
    exact outside.1.1
  · exact Text.isAlphanumeric_of_isBlank blank

theorem isSkipped_of_isLeafMark (mark : isLeafMark c = true) : isSkipped c = false :=
  Text.outside_of_contains mark (by decide)

theorem canonicalChars_of_blank {piece : List Char} (blank : isFilled piece = false) :
    canonicalChars piece = [] := by
  have nothing : trimChars piece = [] := by simpa [isFilled] using blank
  rw [← canonicalChars_trimChars, nothing]
  rfl

/-- Up to its canonical form, the leaf is the last piece behind the first that is not blank, or else
the first. If this is blank too, the leaf is all of the name, where then nothing is heard. -/
theorem canonicalize_leaf {piece : List Char} {rest : List (List Char)}
    (cut : pieces isLeafMark cs = piece :: rest) :
    canonicalize (leaf (String.ofList cs)) =
      String.ofList (canonicalChars ((rest.reverse.find? isFilled).getD piece)) := by
  rw [leaf, leafSegment?_eq, String.toList_ofList, cut, List.reverse_cons, List.find?_append]
  cases found : rest.reverse.find? isFilled with
  | some later => simp [canonicalize, canonicalChars_trimChars]
  | none =>
    cases filled : isFilled piece with
    | true => simp [canonicalize, canonicalChars_trimChars, filled]
    | false =>
      have silent := canonicalChars_of_blank filled
      have all : ∀ piece ∈ pieces isLeafMark cs, canonicalChars piece = [] := by
        rw [cut, List.forall_mem_cons]
        refine ⟨silent, fun later listed => canonicalChars_of_blank ?_⟩
        simpa using List.find?_eq_none.mp found later (List.mem_reverse.mpr listed)
      have whole : canonicalChars cs = [] := by
        rw [← canonicalChars_pieces fun _ => isAlphanumeric_of_isLeafMark]
        exact List.flatMap_eq_nil_iff.mpr all
      simp [filled, canonicalize, whole, silent]

/-- What is skipped before a name is not heard in its leaf. -/
theorem canonicalize_leaf_append (skipped : ∀ c ∈ u, isSkipped c = true) (cs : List Char) :
    canonicalize (leaf (String.ofList (u ++ cs))) = canonicalize (leaf (String.ofList cs)) := by
  obtain ⟨piece, rest, cut⟩ := Text.exists_pieces isLeafMark cs
  have joined : pieces isLeafMark (u ++ cs) = (u ++ piece) :: rest :=
    Text.pieces_append (fun c inside => Text.apart_symm isSkipped_of_isLeafMark (skipped c inside)) cut
  have silent : canonicalChars u = [] :=
    canonicalChars_of_silent fun c inside => isAlphanumeric_of_isSkipped (skipped c inside)
  rw [canonicalize_leaf joined, canonicalize_leaf cut]
  cases rest.reverse.find? isFilled with
  | some later => rfl
  | none =>
    rw [Option.getD_none, Option.getD_none, canonicalChars_append, silent, List.nil_append]

/-- A second stripping is not heard, neither in the whole name nor in its leaf. -/
theorem canonicalize_stripSigils_stripSigils (name : String) :
    let stripped := stripSigils name
    canonicalize (stripSigils stripped) = canonicalize stripped ∧
      canonicalize (leaf (stripSigils stripped)) = canonicalize (leaf stripped) := by
  let once := strippedChars name.toList
  obtain ⟨sigils, gap, marks, blanks, -, shape⟩ := trimChars_shape once
  rw [trimChars_strippedChars, ← List.append_assoc] at shape
  have skipped : ∀ c ∈ sigils ++ gap, isSkipped c = true :=
    List.forall_mem_append.mpr ⟨fun c inside => isSkipped_of_isSigil (marks c inside),
      fun c inside => isSkipped_of_isBlank (blanks c inside)⟩
  have silent : canonicalChars (sigils ++ gap) = [] :=
    canonicalChars_of_silent fun c inside => isAlphanumeric_of_isSkipped (skipped c inside)
  have twice : stripSigils (stripSigils name) = String.ofList (strippedChars once) := by
    rw [stripSigils_eq, stripSigils_eq, String.toList_ofList]
  dsimp only
  rw [twice, stripSigils_eq name]
  constructor
  · conv_rhs => rw [shape]
    rw [canonicalize, canonicalize, String.toList_ofList, String.toList_ofList,
      canonicalChars_append, silent, List.nil_append]
  · conv_rhs => rw [shape]
    rw [canonicalize_leaf_append skipped]

end RefName

/-! ## Candidates -/

/-- What was found as the best match, where one was looked for. -/
def Resolution.outcome? : Resolution → Option (Option SymbolMatch)
  | .bridge target => some target
  | .matched found => some (some found)
  | .unresolved => some none
  | _ => none

namespace Resolver

theorem candidates_stripSigils (resolver : Resolver) (name : String) (usage : Usage) :
    resolver.candidates (RefName.stripSigils name) usage = resolver.candidates name usage := by
  obtain ⟨whole, leaf⟩ := RefName.canonicalize_stripSigils_stripSigils name
  unfold candidates
  dsimp only
  rw [whole, leaf, Service.key_eq_of_canonicalize leaf]

section
variable {resolver : Resolver} {ctx : FileContext} {outcome : Option SymbolMatch}

theorem bestMatch?_of_resolveInside {head name : String} {usage : Usage}
    (asked : (resolver.resolveInside ctx head name usage).outcome? = some outcome) :
    resolver.bestMatch? ctx name usage = outcome := by
  unfold resolveInside at asked
  split at asked
  · cases asked
  · split at asked
    · cases asked
    · split at asked
      · cases asked
      · split at asked
        · next found best => exact best.trans (Option.some.inj asked)
        · next none => exact none.trans (Option.some.inj asked)

/-- A match is looked for under the use that a bridge gives the reference, or else under its own. -/
theorem bestMatch?_of_resolveIn {reference : Reference}
    (asked : (resolver.resolveIn ctx reference).outcome? = some outcome) :
    resolver.bestMatch? ctx (RefName.stripSigils reference.name)
      ((bridgeUsage? ctx reference).getD reference.usage) = outcome := by
  unfold resolveIn at asked
  dsimp only at asked
  split at asked
  · cases asked
  · split at asked
    · cases asked
    · split at asked
      · next usage hinted =>
        rw [hinted]
        exact Option.some.inj asked
      · next plain =>
        rw [plain]
        exact bestMatch?_of_resolveInside asked

end

/-- The records that are ranked for a stripped name are those gathered for the name as given. -/
theorem ranked_stripSigils_perm (resolver : Resolver) (ctx : FileContext) (name : String)
    (usage : Usage) :
    ((resolver.ranked ctx (RefName.stripSigils name) usage).map Prod.snd).Perm
      (resolver.gathered name usage) := by
  let stripped := RefName.stripSigils name
  have same : resolver.gathered stripped usage = resolver.gathered name usage := by
    rw [gathered, candidates_stripSigils, gathered]
  have perm : (resolver.ranked ctx stripped usage).Perm
      (scored ctx stripped usage (resolver.gathered stripped usage)) := List.mergeSort_perm _ _
  have records : (scored ctx stripped usage (resolver.gathered stripped usage)).map Prod.snd =
      resolver.gathered stripped usage := by
    rw [scored, List.map_map]
    exact List.map_id _
  rw [← same, ← records]
  exact perm.map Prod.snd

theorem foreignCandidates_eq (resolver : Resolver) (ctx : FileContext) (reference : Reference) :
    resolver.foreignCandidates ctx reference =
      (resolver.ranked ctx (RefName.stripSigils reference.name)
        ((bridgeUsage? ctx reference).getD reference.usage)).countP
          fun entry => !ctx.sameLanguage entry.2.language := by
  let usage := (bridgeUsage? ctx reference).getD reference.usage
  have counted : resolver.foreignCandidates ctx reference =
      (resolver.gathered reference.name usage).countP
        fun record => !ctx.sameLanguage record.language := by
    rw [List.countP_eq_length_filter]
    rfl
  rw [counted, ← (resolver.ranked_stripSigils_perm ctx reference.name usage).countP_eq,
    List.countP_map]
  simp only [Function.comp_def, usage]

end Resolver

open ModuleAtlas.Resolver (bridgeUsage? gate)

/-- **Stripping.** A stripped name never starts with a blank. It starts with a sigil, and stripping
it again takes more, exactly if blanks part the sigils at the start of the name; stripping as often
as the name has characters leaves it bare. Whichever way, the second stripping does not change the
candidates: where a match is looked for, it is picked from the records that the assessment of the
reference gathers for the name as it was given. -/
theorem one_run_of_sigils_is_stripped (resolver : Resolver) (file : FileFacts)
    (reference : Reference) :
    let name := reference.name
    let stripped := RefName.stripSigils name
    let ctx := resolver.context file
    let usage := (bridgeUsage? ctx reference).getD reference.usage
    let ranking := resolver.ranked ctx stripped usage
    Stops Text.isBlank stripped.toList ∧
    (Stops RefName.isSigil stripped.toList ↔ ¬ RefName.Gapped name.toList) ∧
    (RefName.stripSigils stripped = stripped ↔ ¬ RefName.Gapped name.toList) ∧
    RefName.stripSigils^[name.length] name = RefName.bare name ∧
    (∀ usage, resolver.candidates stripped usage = resolver.candidates name usage) ∧
    (∀ outcome ∈ (resolver.resolve file reference).outcome?, outcome = gate usage ranking) ∧
    (ranking.map Prod.snd).Perm (resolver.gathered name usage) ∧
    resolver.foreignCandidates ctx reference =
      ranking.countP fun entry => !ctx.sameLanguage entry.2.language := by
  intro name stripped ctx usage ranking
  have chars : stripped.toList = RefName.strippedChars name.toList := String.toList_ofList
  refine ⟨?_, ?_, ?_, ?_, resolver.candidates_stripSigils name, fun outcome asked => ?_,
    resolver.ranked_stripSigils_perm ctx name usage, resolver.foreignCandidates_eq ctx reference⟩
  · rw [chars]
    exact RefName.stops_strippedChars _
  · rw [chars]
    exact RefName.stops_strippedChars_iff _
  · rw [← RefName.stops_strippedChars_iff, ← RefName.strippedChars_strippedChars_iff,
      RefName.stripSigils_eq, chars, ← String.ofList_inj]
    rfl
  · rw [RefName.iterate_stripSigils, RefName.iterate_strippedChars String.length_toList.le]
    rfl
  · rw [Option.mem_def, Resolver.resolve] at asked
    rw [← Resolver.bestMatch?_eq_gate]
    exact (Resolver.bestMatch?_of_resolveIn asked).symm

/-- A name with a gap is matched, and stripping it again would take more. -/
theorem one_run_of_sigils_is_stripped_matched :
    let run : Definition := { name := "run", kind := .function, exported := true }
    let core : FileFacts :=
      { path := "core.go", moduleField := "core", language := "go", definitions := [run] }
    let marked : Reference := { name := "* *run" }
    let app : FileFacts :=
      { path := "app.py", moduleField := "app", language := "python", references := [marked] }
    let files := [app, core]
    let resolver : Resolver :=
      .ofSnapshot { modules := ((Graph.empty 2).addAll files).modules, files }
    let ctx := resolver.context app
    let usage := (bridgeUsage? ctx marked).getD marked.usage
    let ranking := resolver.ranked ctx (RefName.stripSigils marked.name) usage
    let found : SymbolMatch := ⟨"core", "run", "core.go", "go", 15⟩
    RefName.Gapped marked.name.toList ∧ resolver.resolve app marked = .matched found ∧
      gate usage ranking = some found ∧
      RefName.stripSigils (RefName.stripSigils marked.name) ≠ RefName.stripSigils marked.name := by
  intro run core marked app files resolver ctx usage ranking found
  have gapped : RefName.Gapped marked.name.toList :=
    ⟨[], ['*'], [' '], '*', ['r', 'u', 'n'], by decide, List.forall_mem_nil _, List.cons_ne_nil _ _,
      List.forall_mem_singleton.mpr rfl, List.cons_ne_nil _ _, List.forall_mem_singleton.mpr rfl,
      rfl⟩
  have fits : resolver.symbols.recordsAt (resolver.candidates
      (RefName.stripSigils marked.name) marked.usage) = resolver.symbols.records[0]?.toList := by
    decide +kernel
  have resolved : resolver.resolve app marked = .matched found :=
    (Resolver.resolve_of_single app (by decide +kernel) (by decide +kernel) fits).trans
      (by decide +kernel)
  obtain ⟨-, -, fixed, -, -, picked, -⟩ := one_run_of_sigils_is_stripped resolver app marked
  refine ⟨gapped, resolved, (picked (some found) ?_).symm, ?_⟩
  · rw [resolved]
    rfl
  · exact fun same => fixed.mp same gapped

/-- Behind a gap a sigil stays, and the local name that it marks is not seen. -/
theorem sigil_behind_a_gap_stays :
    let parted : Reference := { name := "* *run" }
    let joined : Reference := { name := "**run" }
    let file : FileFacts :=
      { path := "app/main.py", moduleField := "app", language := "python", localNames := ["run"]
        references := [parted] }
    let resolver : Resolver :=
      .ofSnapshot { modules := ((Graph.empty 1).addAll [file]).modules, files := [file] }
    RefName.stripSigils parted.name = "*run" ∧ ¬ Stops RefName.isSigil "*run".toList ∧
      RefName.stripSigils "*run" ≠ "*run" ∧
      resolver.resolve file parted = .unresolved ∧ resolver.resolve file joined = .localName := by
  intro parted joined file resolver
  have none_fits : resolver.symbols.recordsAt (resolver.candidates
      (RefName.stripSigils parted.name) parted.usage) = Option.toList none := by decide +kernel
  have missed := Resolver.resolve_of_single file (by decide +kernel) (by decide +kernel) none_fits
  exact ⟨by decide, by decide, by decide, missed.trans (by decide +kernel), by decide +kernel⟩

end ModuleAtlas
