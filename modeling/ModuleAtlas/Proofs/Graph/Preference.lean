import ModuleAtlas.Proofs.Graph.History
import Mathlib.Data.List.Induction

/-!
# Which definition stands for a name

The files of a module offer definitions, and of those with one name a single one is kept. `Chosen`
says which, in terms of the files that are tracked and without regard to the order in which they
came.
-/

namespace ModuleAtlas

open Std (ExtTreeMap)

theorem Definition.score_le_of_rank_le {d d' : Definition} (h : d.rank ≤ d'.rank) :
    d.score ≤ d'.score := by
  rw [UInt32.le_iff_toNat_le]
  by_contra greater
  exact absurd (List.cons_lt_cons_iff.mpr (.inl (Nat.lt_of_not_le greater))) (not_lt.mpr h)

namespace Entry

/-- What outranks an entry outranks all that do not. -/
theorem outranks_of_not {a b c : Entry} (hab : a.outranks b = true) (hcb : c.outranks b = false) :
    a.outranks c = true := by
  rw [outranks_iff] at *
  rw [Bool.eq_false_iff, Ne, outranks_iff, not_or, not_and, not_lt, not_lt] at hcb
  obtain ⟨rank, file⟩ := hcb
  rcases hab with hab | ⟨hab, fab⟩
  · exact .inl (rank.trans_lt hab)
  · rcases rank.lt_or_eq with lt | eq
    · exact .inl (hab ▸ lt)
    · exact .inr ⟨eq.trans hab, fab.trans_le (file eq.symm)⟩

/-- Of all rivals in a list one stands: it outranks those before it, and none of those after it
outranks it. -/
def Stands (rival : Entry → Prop) (entries : List Entry) (e : Entry) : Prop :=
  ∃ before after, entries = before ++ e :: after ∧ rival e ∧
    (∀ b ∈ before, rival b → e.outranks b = true) ∧
    ∀ a ∈ after, rival a → a.outranks e = false

/-- No rival stands only where there is none. -/
def Outcome (rival : Entry → Prop) (entries : List Entry) : Option Entry → Prop
  | some e => Stands rival entries e
  | none => ∀ e ∈ entries, ¬ rival e

section
variable {rival : Entry → Prop} {entries : List Entry} {held : Option Entry} {e : Entry}

theorem Outcome.pass (h : Outcome rival entries held) (other : ¬ rival e) :
    Outcome rival (entries ++ [e]) held := by
  cases held with
  | none => simpa [Outcome, or_imp, forall_and, other] using h
  | some winner =>
    obtain ⟨before, after, rfl, rivals, ahead, behind⟩ := h
    refine ⟨before, after ++ [e], by simp, rivals, ahead, fun a ha hrival => ?_⟩
    rcases List.mem_append.mp ha with ha | ha
    · exact behind a ha hrival
    · exact absurd (List.mem_singleton.mp ha ▸ hrival) other

theorem Outcome.compete (h : Outcome rival entries held) (rivals : rival e) :
    Outcome rival (entries ++ [e]) (some (e.winner held)) := by
  cases held with
  | none => exact ⟨entries, [], rfl, rivals, fun b hb hrival => absurd hrival (h b hb), by simp⟩
  | some current =>
    obtain ⟨before, after, rfl, currentRivals, ahead, behind⟩ := h
    cases better : e.outranks current with
    | true =>
      simp only [winner, better, ↓reduceIte]
      refine ⟨before ++ current :: after, [], rfl, rivals, fun b hb hrival => ?_, by simp⟩
      rcases List.mem_append.mp hb with hb | hb
      · exact outranks_trans better (ahead b hb hrival)
      rcases List.mem_cons.mp hb with rfl | hb
      · exact better
      · exact outranks_of_not better (behind b hb hrival)
    | false =>
      simp only [winner, better, Bool.false_eq_true, ↓reduceIte]
      refine ⟨before, after ++ [e], by simp, currentRivals, ahead, fun a ha hrival => ?_⟩
      rcases List.mem_append.mp ha with ha | ha
      · exact behind a ha hrival
      · exact List.mem_singleton.mp ha ▸ better

end

/-- Entries of two files are never tied, so the one that stands outranks those of other files. -/
theorem Stands.outranks_elsewhere {rival : Entry → Prop} {entries : List Entry} {e x : Entry}
    (h : Stands rival entries e) (hx : x ∈ entries) (rivals : rival x) (other : x.file ≠ e.file) :
    e.outranks x = true := by
  obtain ⟨before, after, rfl, -, ahead, behind⟩ := h
  rcases List.mem_append.mp hx with hx | hx
  · exact ahead x hx rivals
  rcases List.mem_cons.mp hx with rfl | hx
  · exact absurd rfl other
  · exact outranks_of_file_ne other (behind x hx rivals)

theorem Stands.mem {rival : Entry → Prop} {entries : List Entry} {e : Entry}
    (h : Stands rival entries e) : e ∈ entries ∧ rival e := by
  obtain ⟨before, after, rfl, rivals, -⟩ := h
  exact ⟨by simp, rivals⟩

theorem Stands.rank_le {rival : Entry → Prop} {entries : List Entry} {e x : Entry}
    (h : Stands rival entries e) (hx : x ∈ entries) (rivals : rival x) :
    x.definition.rank ≤ e.definition.rank := by
  obtain ⟨before, after, rfl, -, ahead, behind⟩ := h
  rcases List.mem_append.mp hx with hx | hx
  · rcases outranks_iff.mp (ahead x hx rivals) with lt | ⟨eq, -⟩
    · exact lt.le
    · exact eq.le
  rcases List.mem_cons.mp hx with rfl | hx
  · exact le_refl _
  · have beaten := behind x hx rivals
    rw [Bool.eq_false_iff, Ne, outranks_iff, not_or, not_lt] at beaten
    exact beaten.1

/-- The table that entries make one after the other, if only those count whose definition does. -/
def contest (counts : Definition → Bool) (entries : List Entry) : Table Entry :=
  (entries.filter fun e => counts e.definition).foldl prefer ∅

/-- **The contest for a name.** -/
theorem contest_outcome (counts : Definition → Bool) (entries : List Entry) (name : String) :
    Outcome (fun e => counts e.definition = true ∧ e.definition.name = name) entries
      (contest counts entries)[name]? := by
  induction entries using List.reverseRecOn with
  | nil => simp [contest, Outcome]
  | append_singleton entries e ih =>
    by_cases counted : counts e.definition = true
    · have step : contest counts (entries ++ [e]) = prefer (contest counts entries) e := by
        simp [contest, counted]
      rw [step, getElem?_prefer]
      split
      · next named => exact ih.compete ⟨counted, named⟩
      · next other => exact ih.pass fun rival => other rival.2
    · have step : contest counts (entries ++ [e]) = contest counts entries := by
        simp [contest, counted]
      rw [step]
      exact ih.pass fun rival => counted rival.1

section
variable {counts : Definition → Bool} {entries : List Entry} {name : String} {e : Entry}

theorem stands_of_contest (held : (contest counts entries)[name]? = some e) :
    Stands (fun e => counts e.definition = true ∧ e.definition.name = name) entries e := by
  have outcome := contest_outcome counts entries name
  rwa [held] at outcome

theorem exists_of_rival (offer : e ∈ entries) (counted : counts e.definition = true) :
    ∃ winner, (contest counts entries)[e.definition.name]? = some winner := by
  have outcome := contest_outcome counts entries e.definition.name
  cases held : (contest counts entries)[e.definition.name]? with
  | some winner => exact ⟨winner, rfl⟩
  | none =>
    rw [held] at outcome
    exact absurd ⟨counted, rfl⟩ (outcome e offer)

end

end Entry

namespace ModuleNode

/-- What a file of the module `name` offers. -/
def offers (name : String) (member : String × Contribution) : List Entry :=
  member.2.definitions.map fun d => ⟨d, name, member.1, member.2.language⟩

theorem gather_offers (node : ModuleNode) (members : List (String × Contribution)) :
    (node.gather members).definitions =
        (members.flatMap (offers node.name)).foldl Entry.prefer node.definitions ∧
    (node.gather members).exports =
        ((members.flatMap (offers node.name)).filter (·.definition.exported)).foldl Entry.prefer
          node.exports ∧
    (node.gather members).maxComplexity =
        (members.flatMap (offers node.name)).foldl (fun most e => max most e.score)
          node.maxComplexity := by
  induction members generalizing node with
  | nil => exact ⟨rfl, rfl, rfl⟩
  | cons member members ih =>
    obtain ⟨definitions, exports, most⟩ := ih (node.contribute member.1 member.2)
    simp only [List.flatMap_cons, List.filter_append, List.foldl_append]
    exact ⟨definitions, exports, most⟩

end ModuleNode

/-- Of the definitions in a file that count, `d` is the greatest, and the first of those as great. -/
def Foremost (counts : Definition → Bool) (definitions : List Definition) (d : Definition) : Prop :=
  ∃ front back, definitions = front ++ d :: back ∧ counts d = true ∧
    (∀ d' ∈ front, counts d' = true → d'.rank < d.rank) ∧
    ∀ d' ∈ back, counts d' = true → d'.rank ≤ d.rank

theorem Foremost.eq {counts : Definition → Bool} {definitions : List Definition}
    {d e : Definition} (hd : Foremost counts definitions d) (he : Foremost counts definitions e) :
    d = e := by
  -- Whichever comes first is no greater, and the other one is no better.
  have apart {d e : Definition} {front back middle : List Definition}
      (hd : ∀ d' ∈ middle ++ e :: back, counts d' = true → d'.rank ≤ d.rank)
      (he : ∀ d' ∈ front ++ d :: middle, counts d' = true → d'.rank < e.rank)
      (counted : counts d = true) (counted' : counts e = true) : False := by
    have le := hd e (by simp) counted'
    have lt := he d (by simp) counted
    exact absurd (lt.trans_le le) (lt_irrefl _)
  obtain ⟨front, back, split, counted, ahead, behind⟩ := hd
  obtain ⟨front', back', split', counted', ahead', behind'⟩ := he
  rw [split, List.append_eq_append_iff] at split'
  rcases split' with ⟨middle, rfl, cut⟩ | ⟨middle, rfl, cut⟩
  · rcases List.cons_eq_append_iff.mp cut with ⟨rfl, eq⟩ | ⟨middle, rfl, rfl⟩
    · exact (List.cons.inj eq).1.symm
    · exact (apart behind ahead' counted counted').elim
  · rcases List.cons_eq_append_iff.mp cut with ⟨rfl, eq⟩ | ⟨middle, rfl, rfl⟩
    · exact (List.cons.inj eq).1
    · exact (apart behind' ahead counted' counted).elim

/-- The file `path` is tracked and belongs to the module `name`. -/
def Belongs (files : Table FileFacts) (name path : String) (facts : FileFacts) : Prop :=
  files[path]? = some facts ∧ facts.moduleName = name

/-- `e` comes from a file of the module, where it is foremost of the definitions that count, and
no file of the module has a greater one, or one as great with a path before that of `e`. -/
structure Chosen (counts : Definition → Bool) (files : Table FileFacts) (name : String)
    (e : Entry) : Prop where
  named : e.moduleName = name
  foremost : ∃ facts, Belongs files name e.file facts ∧ e.language = facts.language ∧
    Foremost counts facts.definitions e.definition
  elsewhere : ∀ path facts, Belongs files name path facts → path ≠ e.file →
    ∀ d ∈ facts.definitions, counts d = true →
      d.rank < e.definition.rank ∨ d.rank = e.definition.rank ∧ e.file < path

theorem Foremost.mem {counts : Definition → Bool} {definitions : List Definition} {d : Definition}
    (h : Foremost counts definitions d) : d ∈ definitions ∧ counts d = true := by
  obtain ⟨front, back, rfl, counted, -⟩ := h
  exact ⟨by simp, counted⟩

theorem Foremost.rank_le {counts : Definition → Bool} {definitions : List Definition}
    {d d' : Definition} (h : Foremost counts definitions d) (member : d' ∈ definitions)
    (counted : counts d' = true) : d'.rank ≤ d.rank := by
  obtain ⟨front, back, rfl, -, ahead, behind⟩ := h
  rcases List.mem_append.mp member with member | member
  · exact (ahead d' member counted).le
  · rcases List.mem_cons.mp member with rfl | member
    · exact le_refl _
    · exact behind d' member counted

/-- No file of the module has a greater one. -/
theorem Chosen.rank_le {counts : Definition → Bool} {files : Table FileFacts} {name path : String}
    {e : Entry} {facts : FileFacts} {d : Definition} (h : Chosen counts files name e)
    (belongs : Belongs files name path facts) (member : d ∈ facts.definitions)
    (counted : counts d = true) : d.rank ≤ e.definition.rank := by
  by_cases own : path = e.file
  · obtain ⟨facts', belongs', -, foremost⟩ := h.foremost
    obtain rfl : facts = facts' := Option.some.inj (belongs.1.symm.trans (own ▸ belongs'.1))
    exact foremost.rank_le member counted
  · rcases h.elsewhere path facts belongs own d member counted with less | ⟨same, -⟩
    · exact less.le
    · exact same.le

theorem Chosen.eq {counts : Definition → Bool} {files : Table FileFacts} {name : String}
    {a b : Entry} (ha : Chosen counts files name a) (hb : Chosen counts files name b) : a = b := by
  obtain ⟨facts, belongs, language, foremost⟩ := ha.foremost
  obtain ⟨facts', belongs', language', foremost'⟩ := hb.foremost
  have file : a.file = b.file := by
    by_contra differ
    have below := ha.elsewhere b.file facts' belongs' (Ne.symm differ) _ foremost'.mem.1
      foremost'.mem.2
    have above := hb.elsewhere a.file facts belongs differ _ foremost.mem.1 foremost.mem.2
    rcases below with lt | ⟨eq, lt⟩ <;> rcases above with lt' | ⟨eq', lt'⟩
    · exact lt.asymm lt'
    · exact absurd lt (eq' ▸ lt_irrefl _)
    · exact absurd lt' (eq ▸ lt_irrefl _)
    · exact lt.asymm lt'
  obtain rfl : facts = facts' := Option.some.inj (belongs.1.symm.trans (file ▸ belongs'.1))
  have definition := foremost.eq foremost'
  have named := ha.named.trans hb.named.symm
  have languages := language.trans language'.symm
  obtain ⟨⟩ := a
  obtain ⟨⟩ := b
  simp only [Entry.mk.injEq]
  exact ⟨definition, named, file, languages⟩

theorem exists_split_of_flatMap {α β : Type} {f : α → List β} {items : List α}
    {before after : List β} {x : β} (h : items.flatMap f = before ++ x :: after) :
    ∃ front item back l r, items = front ++ item :: back ∧ f item = l ++ x :: r ∧
      before = front.flatMap f ++ l ∧ after = r ++ back.flatMap f := by
  induction items generalizing before with
  | nil => simp at h
  | cons item items ih =>
    have later (before' : List β) (eq : before = f item ++ before')
        (rest : items.flatMap f = before' ++ x :: after) :
        ∃ front item' back l r, item :: items = front ++ item' :: back ∧ f item' = l ++ x :: r ∧
          before = front.flatMap f ++ l ∧ after = r ++ back.flatMap f := by
      obtain ⟨front, item', back, l, r, rfl, found, rfl, rfl⟩ := ih rest
      exact ⟨item :: front, item', back, l, r, rfl, found, by simp [eq], rfl⟩
    rw [List.flatMap_cons, List.append_eq_append_iff] at h
    rcases h with ⟨before', eq, rest⟩ | ⟨own, eq, rest⟩
    · exact later before' eq rest
    · rcases List.cons_eq_append_iff.mp rest with ⟨rfl, rest⟩ | ⟨r, rfl, rfl⟩
      · exact later [] (by simpa using eq.symm) rest.symm
      · exact ⟨[], item, items, before, r, rfl, eq, rfl, rfl⟩

section
variable {files : Table FileFacts} {name n : String} {counts : Definition → Bool} {e : Entry}

/-- What the files of a module offer, in the order of their paths. -/
def offered (files : Table FileFacts) (name : String) : List Entry :=
  (membersOf (files.map fun _ facts => facts.contribution) name).flatMap (ModuleNode.offers name)

theorem mem_members_iff {path : String} {c : Contribution} :
    (path, c) ∈ membersOf (files.map fun _ facts => facts.contribution) name ↔
      ∃ facts, Belongs files name path facts ∧ facts.contribution = c := by
  rw [mem_membersOf, ExtTreeMap.getElem?_map, Option.map_eq_some_iff]
  constructor
  · rintro ⟨⟨facts, tracked, rfl⟩, belongs⟩
    exact ⟨facts, ⟨tracked, facts.contribution_moduleName.symm.trans belongs⟩, rfl⟩
  · rintro ⟨facts, ⟨tracked, belongs⟩, rfl⟩
    exact ⟨⟨facts, tracked, rfl⟩, facts.contribution_moduleName.trans belongs⟩

theorem mem_offered_iff :
    e ∈ offered files name ↔
      e.moduleName = name ∧ ∃ facts, Belongs files name e.file facts ∧
        e.language = facts.language ∧ e.definition ∈ facts.definitions := by
  simp only [offered, List.mem_flatMap, ModuleNode.offers, List.mem_map]
  constructor
  · rintro ⟨⟨path, c⟩, member, d, hd, rfl⟩
    obtain ⟨facts, belongs, rfl⟩ := mem_members_iff.mp member
    exact ⟨rfl, facts, belongs, rfl, hd⟩
  · rintro ⟨rfl, facts, belongs, language, hd⟩
    exact ⟨(e.file, facts.contribution), mem_members_iff.mpr ⟨facts, belongs, rfl⟩,
      e.definition, hd, by rw [show facts.contribution.language = e.language from language.symm]⟩

theorem Entry.Stands.chosen
    (h : Entry.Stands (fun e => counts e.definition = true ∧ e.definition.name = n)
      (offered files name) e) :
    Chosen (fun d => counts d && d.name = n) files name e := by
  have elsewhere : ∀ path facts, Belongs files name path facts → path ≠ e.file →
      ∀ d ∈ facts.definitions, (counts d && d.name = n) = true →
        d.rank < e.definition.rank ∨ d.rank = e.definition.rank ∧ e.file < path := by
    intro path facts belongs other d hd counted
    have offer : (⟨d, name, path, facts.language⟩ : Entry) ∈ offered files name :=
      mem_offered_iff.mpr ⟨rfl, facts, belongs, rfl, hd⟩
    exact Entry.outranks_iff.mp
      (h.outranks_elsewhere offer (by simpa using counted) other)
  obtain ⟨before, after, split, counted, ahead, behind⟩ := h
  obtain ⟨front, ⟨path, c⟩, back, l, r, members, offers, rfl, rfl⟩ := exists_split_of_flatMap split
  obtain ⟨l, rest, definitions, rfl, eq⟩ := List.map_eq_append_iff.mp offers
  obtain ⟨d, r, rfl, rfl, rfl⟩ := List.map_eq_cons_iff.mp eq
  obtain ⟨facts, belongs, rfl⟩ := mem_members_iff.mp
    (show (path, c) ∈ membersOf (files.map fun _ facts => facts.contribution) name by simp [members])
  -- In one file only the ranks decide.
  refine ⟨rfl, ⟨facts, belongs, rfl, l, r, definitions, by simpa using counted, ?_, ?_⟩, elsewhere⟩
  · intro d' hd' counted'
    have offer := List.mem_map_of_mem (f := fun d => (⟨d, name, path, facts.language⟩ : Entry)) hd'
    have outranked := ahead _ (List.mem_append_right _ offer) (by simpa using counted')
    simpa [Entry.outranks_iff] using outranked
  · intro d' hd' counted'
    have offer := List.mem_map_of_mem (f := fun d => (⟨d, name, path, facts.language⟩ : Entry)) hd'
    have outranked := behind _ (List.mem_append_left _ offer) (by simpa using counted')
    rw [Bool.eq_false_iff, Ne, Entry.outranks_iff] at outranked
    simpa using outranked

theorem contest_eq_some_iff :
    (Entry.contest counts (offered files name))[n]? = some e ↔
      Chosen (fun d => counts d && d.name = n) files name e := by
  constructor
  · exact fun held => (Entry.stands_of_contest held).chosen
  · intro chosen
    obtain ⟨facts, belongs, language, front, back, definitions, fits, -⟩ := chosen.foremost
    have offer : e ∈ offered files name :=
      mem_offered_iff.mpr ⟨chosen.named, facts, belongs, language, by simp [definitions]⟩
    obtain ⟨counted, rfl⟩ : counts e.definition = true ∧ e.definition.name = n := by
      simpa using fits
    obtain ⟨winner, held⟩ := Entry.exists_of_rival offer counted
    rw [held, (Entry.stands_of_contest held).chosen.eq chosen]

theorem mem_contest_iff :
    n ∈ Entry.contest counts (offered files name) ↔
      ∃ path facts, Belongs files name path facts ∧
        ∃ d ∈ facts.definitions, counts d = true ∧ d.name = n := by
  rw [Table.mem_iff_exists]
  constructor
  · rintro ⟨e, held⟩
    obtain ⟨offer, rivals⟩ := (Entry.stands_of_contest held).mem
    obtain ⟨-, facts, belongs, -, hd⟩ := mem_offered_iff.mp offer
    exact ⟨e.file, facts, belongs, e.definition, hd, rivals⟩
  · rintro ⟨path, facts, belongs, d, hd, counted, rfl⟩
    have offer : (⟨d, name, path, facts.language⟩ : Entry) ∈ offered files name :=
      mem_offered_iff.mpr ⟨rfl, facts, belongs, rfl, hd⟩
    exact Entry.exists_of_rival offer counted

end

/-- The greatest score of some entries, and zero if there are none. -/
def greatestScore (entries : List Entry) : UInt32 :=
  entries.foldl (fun most e => max most e.score) 0

theorem foldl_max_le_iff (entries : List Entry) (most bound : UInt32) :
    entries.foldl (fun most e => max most e.score) most ≤ bound ↔
      most ≤ bound ∧ ∀ e ∈ entries, e.score ≤ bound := by
  induction entries generalizing most with
  | nil => simp
  | cons e entries ih =>
    have max_le : max most e.score ≤ bound ↔ most ≤ bound ∧ e.score ≤ bound := by
      simp only [UInt32.le_iff_toNat_le, ModuleNode.toNat_max, Nat.max_le]
    rw [List.foldl_cons, ih, max_le, List.forall_mem_cons, and_assoc]

theorem greatestScore_le_iff (entries : List Entry) (bound : UInt32) :
    greatestScore entries ≤ bound ↔ ∀ e ∈ entries, e.score ≤ bound := by
  rw [greatestScore, foldl_max_le_iff]
  exact ⟨And.right, fun h => ⟨UInt32.zero_le, h⟩⟩

theorem score_le_greatestScore {entries : List Entry} {e : Entry} (h : e ∈ entries) :
    e.score ≤ greatestScore entries :=
  (greatestScore_le_iff entries _).mp (UInt32.le_refl _) e h

/-- Every score is matched by the one of an entry that is kept. -/
theorem greatestScore_contest (entries : List Entry) :
    greatestScore (Entry.contest (fun _ => true) entries).values = greatestScore entries := by
  apply UInt32.le_antisymm
  · rw [greatestScore_le_iff]
    intro e he
    obtain ⟨n, held⟩ := Table.mem_values_iff.mp he
    exact score_le_greatestScore (Entry.stands_of_contest held).mem.1
  · rw [greatestScore_le_iff]
    intro x hx
    obtain ⟨e, held⟩ : ∃ e, (Entry.contest (fun _ => true) entries)[x.definition.name]? = some e :=
      Entry.exists_of_rival hx rfl
    have rank := (Entry.stands_of_contest held).rank_le hx ⟨rfl, rfl⟩
    have less : x.score ≤ e.score := Definition.score_le_of_rank_le rank
    exact UInt32.le_trans less (score_le_greatestScore (Table.mem_values_iff.mpr ⟨_, held⟩))

theorem Table.values_ascend {α : Type} (table : Table α) (key : α → String)
    (keyed : ∀ (k : String) value, table[k]? = some value → key value = k) :
    table.values.Pairwise fun a b => key a < key b := by
  rw [Table.values_eq_map_toList, List.pairwise_map]
  have ordered := table.ordered_keys_toList
  refine ordered.imp_of_mem fun {a b} ha hb less => ?_
  rw [keyed _ _ (ExtTreeMap.mem_toList_iff_getElem?_eq_some.mp ha),
    keyed _ _ (ExtTreeMap.mem_toList_iff_getElem?_eq_some.mp hb)]
  exact compare_lt_iff_lt.mp less

namespace Graph

/-- What a module keeps is settled between what its files offer. -/
theorem Derived.contests_offers {g : Graph} (h : Derived g) {name : String} {node : ModuleNode}
    (held : g.modules[name]? = some node) :
    let offers := (membersOf g.files name).flatMap (ModuleNode.offers name)
    node.definitions = Entry.contest (fun _ => true) offers ∧
    node.exports = Entry.contest (·.exported) offers ∧
    node.maxComplexity = greatestScore offers := by
  have made := h.made name node held
  obtain ⟨definitions, exports, most⟩ :=
    ModuleNode.gather_offers { name } (membersOf g.files name)
  refine ⟨?_, ?_, ?_⟩
  · rw [Entry.contest, List.filter_true]
    exact (congrArg ModuleNode.definitions made).trans definitions
  · exact (congrArg ModuleNode.exports made).trans exports
  · exact (congrArg ModuleNode.maxComplexity made).trans most

/-- What a module exports it defines. -/
theorem Derived.defined_of_exported {g : Graph} (h : Derived g) {name n : String}
    {node : ModuleNode} (held : g.modules[name]? = some node) (exported : n ∈ node.exports) :
    n ∈ node.definitions := by
  obtain ⟨definitions, exports, -⟩ := h.contests_offers held
  rw [exports, Table.mem_iff_exists] at exported
  obtain ⟨e, kept⟩ := exported
  obtain ⟨offer, -, rfl⟩ := (Entry.stands_of_contest kept).mem
  rw [definitions, Table.mem_iff_exists]
  exact Entry.exists_of_rival offer rfl

theorem Derived.contests {g : Graph} (h : Derived g) {facts : Table FileFacts}
    (files : g.files = facts.map fun _ f => f.contribution) {name : String} {node : ModuleNode}
    (held : g.modules[name]? = some node) :
    node.definitions = Entry.contest (fun _ => true) (offered facts name) ∧
    node.exports = Entry.contest (·.exported) (offered facts name) ∧
    node.maxComplexity = greatestScore (offered facts name) := by
  have kept := h.contests_offers held
  rwa [files] at kept

section
variable {g : Graph} {facts : Table FileFacts} {name n : String} {node : ModuleNode}

theorem Derived.live_iff_belongs (h : Derived g)
    (files : g.files = facts.map fun _ f => f.contribution) :
    name ∈ g.modules ↔ ∃ path f, Belongs facts name path f := by
  rw [h.live_iff]
  refine exists_congr fun path => ?_
  rw [moduleOf?, files, ExtTreeMap.getElem?_map]
  simp [Belongs, FileFacts.contribution]

theorem Derived.mem_definitions_iff (h : Derived g)
    (files : g.files = facts.map fun _ f => f.contribution)
    (held : g.modules[name]? = some node) :
    n ∈ node.definitions ↔ ∃ path f, Belongs facts name path f ∧
      ∃ d ∈ f.definitions, d.name = n := by
  rw [(h.contests files held).1, mem_contest_iff]
  simp

theorem Derived.mem_exports_iff (h : Derived g)
    (files : g.files = facts.map fun _ f => f.contribution)
    (held : g.modules[name]? = some node) :
    n ∈ node.exports ↔ ∃ path f, Belongs facts name path f ∧
      ∃ d ∈ f.definitions, d.exported = true ∧ d.name = n := by
  rw [(h.contests files held).2.1, mem_contest_iff]

end

/-! ## All definitions that are retained -/

section
variable {g : Graph}

/-- A definition that is kept bears the names it is kept under. -/
theorem Derived.stamped (h : Derived g) {name n : String} {node : ModuleNode} {entry : Entry}
    (held : g.modules[name]? = some node) (defined : node.definitions[n]? = some entry) :
    entry.moduleName = name ∧ entry.definition.name = n := by
  rw [(h.contests_offers held).1] at defined
  obtain ⟨offered, -, named⟩ := (Entry.stands_of_contest defined).mem
  obtain ⟨member, -, offered⟩ := List.mem_flatMap.mp offered
  obtain ⟨d, -, rfl⟩ := List.mem_map.mp offered
  exact ⟨rfl, named⟩

/-- The definitions of all modules, by module and name. -/
def retained (g : Graph) : List Entry :=
  g.modules.values.flatMap fun node => node.definitions.values

theorem mem_retained_iff {entry : Entry} :
    entry ∈ g.retained ↔ ∃ (name : String) (node : ModuleNode) (n : String),
      g.modules[name]? = some node ∧ node.definitions[n]? = some entry := by
  rw [retained, List.mem_flatMap]
  constructor
  · rintro ⟨node, live, listed⟩
    obtain ⟨name, held⟩ := Table.mem_values_iff.mp live
    obtain ⟨n, defined⟩ := Table.mem_values_iff.mp listed
    exact ⟨name, node, n, held, defined⟩
  · rintro ⟨name, node, n, held, defined⟩
    exact ⟨node, Table.mem_values_iff.mpr ⟨name, held⟩, Table.mem_values_iff.mpr ⟨n, defined⟩⟩

theorem Derived.retained_ascend (h : Derived g) :
    g.retained.Pairwise fun a b => a.moduleName < b.moduleName ∨
      a.moduleName = b.moduleName ∧ a.definition.name < b.definition.name := by
  rw [retained, List.pairwise_flatMap]
  constructor
  · intro node listed
    obtain ⟨name, held⟩ := Table.mem_values_iff.mp listed
    have names := Table.values_ascend node.definitions (·.definition.name)
      fun n entry defined => (h.stamped held defined).2
    refine names.imp_of_mem fun {a b} ha hb less => .inr ⟨?_, less⟩
    obtain ⟨_, defined⟩ := Table.mem_values_iff.mp ha
    obtain ⟨_, defined'⟩ := Table.mem_values_iff.mp hb
    exact (h.stamped held defined).1.trans (h.stamped held defined').1.symm
  · have names := Table.values_ascend g.modules (·.name) h.named
    refine names.imp_of_mem fun {node other} listed listed' less a ha b hb => .inl ?_
    obtain ⟨name, held⟩ := Table.mem_values_iff.mp listed
    obtain ⟨name', held'⟩ := Table.mem_values_iff.mp listed'
    obtain ⟨_, defined⟩ := Table.mem_values_iff.mp ha
    obtain ⟨_, defined'⟩ := Table.mem_values_iff.mp hb
    rwa [(h.stamped held defined).1, (h.stamped held' defined').1, ← h.named _ _ held,
      ← h.named _ _ held']

/-- What is retained is what is chosen. -/
theorem Derived.mem_retained_iff_chosen (h : Derived g) {facts : Table FileFacts}
    (files : g.files = facts.map fun _ f => f.contribution) {e : Entry} :
    e ∈ g.retained ↔ Chosen (fun d => d.name = e.definition.name) facts e.moduleName e := by
  have chosen {name n : String} {node : ModuleNode} (held : g.modules[name]? = some node) :
      node.definitions[n]? = some e ↔ Chosen (fun d => d.name = n) facts name e := by
    rw [(h.contests files held).1, contest_eq_some_iff]
    rfl
  rw [mem_retained_iff]
  constructor
  · rintro ⟨name, node, n, held, defined⟩
    obtain ⟨rfl, rfl⟩ := h.stamped held defined
    exact (chosen held).mp defined
  · intro fits
    obtain ⟨f, belongs, -⟩ := fits.foremost
    obtain ⟨node, held⟩ :=
      Table.mem_iff_exists.mp ((h.live_iff_belongs files).mpr ⟨e.file, f, belongs⟩)
    exact ⟨e.moduleName, node, e.definition.name, held, (chosen held).mpr fits⟩

end

/-- **What a module keeps.** After any history, a module has a definition for each name that one of
its files defines, and it is the greatest by rank, from the first path among those as great, and
the first of these in its file. Of its exports the same is true, with the exported definitions only.
The complexity noted for it is the greatest of the definitions it keeps. -/
theorem modules_keep_the_greatest (capacity : Nat) (history : List Edit) {name : String}
    {node : ModuleNode} (held : (replay capacity history).modules[name]? = some node) :
    (∀ path, path ∈ node.files ↔ ∃ facts, Belongs (survivors history) name path facts) ∧
    (∀ n, n ∈ node.definitions ↔ ∃ path facts, Belongs (survivors history) name path facts ∧
      ∃ d ∈ facts.definitions, d.name = n) ∧
    (∀ (n : String) e, node.definitions[n]? = some e ↔
      Chosen (fun d => d.name = n) (survivors history) name e) ∧
    (∀ n, n ∈ node.exports ↔ ∃ path facts, Belongs (survivors history) name path facts ∧
      ∃ d ∈ facts.definitions, d.exported = true ∧ d.name = n) ∧
    (∀ (n : String) e, node.exports[n]? = some e ↔
      Chosen (fun d => d.exported && d.name = n) (survivors history) name e) ∧
    (∀ n, n ∈ node.exports → n ∈ node.definitions) ∧
    node.maxComplexity = greatestScore node.definitions.values := by
  obtain ⟨derived, files⟩ := replay_derived capacity history
  obtain ⟨definitions, exports, most⟩ := derived.contests files held
  have defined : ∀ n, n ∈ node.definitions ↔
      ∃ path facts, Belongs (survivors history) name path facts ∧
        ∃ d ∈ facts.definitions, d.name = n := by
    intro n
    rw [definitions, mem_contest_iff]
    simp
  have exported : ∀ n, n ∈ node.exports ↔
      ∃ path facts, Belongs (survivors history) name path facts ∧
        ∃ d ∈ facts.definitions, d.exported = true ∧ d.name = n := by
    intro n
    rw [exports, mem_contest_iff]
  refine ⟨fun path => ?_, defined, fun n e => ?_, exported, fun n e => ?_, fun n hn => ?_, ?_⟩
  · rw [derived.mem_files_iff held, moduleOf?, files, ExtTreeMap.getElem?_map]
    simp [Belongs, FileFacts.contribution]
  · rw [definitions, contest_eq_some_iff]
    rfl
  · rw [exports, contest_eq_some_iff]
  · obtain ⟨path, facts, belongs, d, hd, -, named⟩ := (exported n).mp hn
    exact (defined n).mpr ⟨path, facts, belongs, d, hd, named⟩
  · rw [most, definitions, greatestScore_contest]

/-- When the greatest definition goes with its file, the next one comes back: of those tied the one
in the first file, and there the first one, or the first exported one. -/
theorem modules_keep_the_greatest_left :
    let run (score : UInt32) (exported : Bool) : Definition :=
      { name := "run", kind := .function, exported, complexity := { score := some score } }
    let a : FileFacts := { path := "a", moduleField := "m", definitions := [run 9 true] }
    let b : FileFacts := { path := "b", moduleField := "m", definitions := [run 5 false, run 5 true] }
    let c : FileFacts := { path := "c", moduleField := "m", definitions := [run 5 true] }
    let history := [Edit.add c, .add a, .add b, .remove "a"]
    ∃ node, (replay 1 history).modules["m"]? = some node ∧
      node.definitions["run"]? = some ⟨run 5 false, "m", "b", ""⟩ ∧
      Chosen (fun d => d.name = "run") (survivors history) "m" ⟨run 5 false, "m", "b", ""⟩ ∧
      node.exports["run"]? = some ⟨run 5 true, "m", "b", ""⟩ ∧
      Chosen (fun d => d.exported && d.name = "run") (survivors history) "m"
        ⟨run 5 true, "m", "b", ""⟩ ∧
      greatestScore node.definitions.values = 5 := by
  intro run a b c history
  obtain ⟨node, held⟩ : ∃ node, (replay 1 history).modules["m"]? = some node :=
    Table.mem_iff_exists.mp (by decide +kernel)
  have view {β : Type} (f : ModuleNode → β) :
      (replay 1 history).modules["m"]?.map f = some (f node) := by rw [held]; rfl
  have defined : node.definitions["run"]? = some ⟨run 5 false, "m", "b", ""⟩ :=
    Option.some.inj ((view (·.definitions["run"]?)).symm.trans (by decide +kernel))
  have exported : node.exports["run"]? = some ⟨run 5 true, "m", "b", ""⟩ :=
    Option.some.inj ((view (·.exports["run"]?)).symm.trans (by decide +kernel))
  have most : node.maxComplexity = 5 :=
    Option.some.inj ((view (·.maxComplexity)).symm.trans (by decide +kernel))
  obtain ⟨-, -, definitions, -, exports, -, greatest⟩ := modules_keep_the_greatest 1 history held
  exact ⟨node, held, defined, (definitions "run" _).mp defined, exported,
    (exports "run" _).mp exported, greatest ▸ most⟩

end Graph

end ModuleAtlas
