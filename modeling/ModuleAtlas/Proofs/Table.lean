import ModuleAtlas.Graph.Module

/-! Look-ups in tables that were filled one entry after the other. -/

namespace ModuleAtlas.Table

open Std (ExtTreeMap DTreeMap)

variable {α β : Type}

theorem values_eq_map_toList (table : Table α) : table.values = table.toList.map Prod.snd := by
  obtain ⟨⟨table⟩⟩ := table
  induction table using Quotient.inductionOn with
  | h table =>
    obtain ⟨tree, _⟩ := table
    change tree.values = (DTreeMap.Internal.Impl.Const.toList tree).map Prod.snd
    simp only [DTreeMap.Internal.Impl.values, DTreeMap.Internal.Impl.Const.toList,
      DTreeMap.Internal.Impl.foldr_eq_foldr]
    generalize DTreeMap.Internal.Impl.toListModel tree = entries
    induction entries with
    | nil => rfl
    | cons entry entries ih => simp_all

theorem mem_values_iff {table : Table α} {value : α} :
    value ∈ table.values ↔ ∃ key : String, table[key]? = some value := by
  simp only [values_eq_map_toList, List.mem_map, Prod.exists, exists_eq_right,
    ExtTreeMap.mem_toList_iff_getElem?_eq_some]

theorem mem_iff_exists {table : Table α} {key : String} :
    key ∈ table ↔ ∃ value, table[key]? = some value := by
  rw [ExtTreeMap.mem_iff_isSome_getElem?, Option.isSome_iff_exists]

theorem mem_insert_of_held {table : Table α} {key : String} {old : α}
    (held : table[key]? = some old) (value : α) (k : String) :
    k ∈ table.insert key value ↔ k ∈ table := by
  have live : key ∈ table := mem_iff_exists.mpr ⟨old, held⟩
  rw [ExtTreeMap.mem_insert, Std.LawfulEqCmp.compare_eq_iff_eq]
  exact ⟨fun h => h.elim (· ▸ live) id, .inr⟩

theorem modify_eq_insert {table : Table α} {key : String} {old : α}
    (held : table[key]? = some old) (f : α → α) :
    table.modify key f = table.insert key (f old) := by
  apply ExtTreeMap.ext_getElem?
  intro k
  by_cases hk : key = k
  · subst hk; simp [held]
  · simp [ExtTreeMap.getElem?_modify, ExtTreeMap.getElem?_insert, hk]

/-- Of the entries made under a key the last one stays. -/
theorem getElem?_foldl_insert (key : β → String) (value : β → α) (items : List β)
    (table : Table α) (k : String) :
    (items.foldl (fun table item => table.insert (key item) (value item)) table)[k]? =
      ((items.reverse.find? fun item => key item = k).map value).or table[k]? := by
  induction items generalizing table with
  | nil => simp
  | cons item items ih =>
    rw [List.foldl_cons, ih, List.reverse_cons, List.find?_append, ExtTreeMap.getElem?_insert]
    cases items.reverse.find? fun item => key item = k with
    | some last => simp
    | none => by_cases hk : key item = k <;> simp [hk]

theorem mem_foldl_insert (key : β → String) (value : β → α) (items : List β)
    (table : Table α) (k : String) :
    k ∈ items.foldl (fun table item => table.insert (key item) (value item)) table ↔
      (∃ item ∈ items, key item = k) ∨ k ∈ table := by
  rw [mem_iff_exists, getElem?_foldl_insert, ← Option.isSome_iff_exists, Option.isSome_or,
    Option.isSome_map, Bool.or_eq_true, ExtTreeMap.mem_iff_isSome_getElem?]
  simp

end ModuleAtlas.Table
