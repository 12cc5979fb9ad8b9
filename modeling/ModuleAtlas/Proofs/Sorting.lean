import Mathlib.Data.List.Basic

/-!
# Sorting by a comparison

A comparison need not tell all items apart. Those that compare equal keep the order in which they
come, and so what is left of a list after deletions is sorted into what is left of the sorted list
after the same deletions.
-/

namespace ModuleAtlas.Sorting

section
variable {α : Type} (cmp : α → α → Ordering) [Std.TransCmp cmp]

theorem isLE_total (a b : α) : ((cmp a b).isLE || (cmp b a).isLE) = true := by
  have swap : cmp b a = (cmp a b).swap := Std.OrientedCmp.eq_swap
  rw [swap]
  cases cmp a b <;> rfl

theorem pairwise_mergeSort (items : List α) :
    (items.mergeSort fun a b => (cmp a b).isLE).Pairwise fun a b => (cmp a b).isLE = true :=
  List.pairwise_mergeSort (fun _ _ _ => Std.TransCmp.isLE_trans) (isLE_total cmp) items

/-- Where an item goes among sorted ones: behind those that are less, and before all others. -/
theorem mergeSort_cons (item : α) (items : List α) :
    ∃ less more, ((item :: items).mergeSort fun a b => (cmp a b).isLE) = less ++ item :: more ∧
      (items.mergeSort fun a b => (cmp a b).isLE) = less ++ more ∧
      (∀ other ∈ less, (cmp item other).isLE = false) ∧
      ∀ other ∈ more, (cmp item other).isLE = true := by
  obtain ⟨less, more, sorted, rest, behind⟩ :=
    List.mergeSort_cons (fun _ _ _ => Std.TransCmp.isLE_trans) (isLE_total cmp) item items
  refine ⟨less, more, sorted, rest, fun other member => ?_, ?_⟩
  · simpa using behind other member
  · have ascends := pairwise_mergeSort cmp (item :: items)
    rw [sorted] at ascends
    exact (List.pairwise_cons.mp (List.pairwise_append.mp ascends).2.1).1

/-- **Sorting and deletions.** It makes no difference for the order of what is left whether items are
deleted before a list is sorted or after. -/
theorem mergeSort_sublist {fewer items : List α} (deleted : fewer.Sublist items) :
    (fewer.mergeSort fun a b => (cmp a b).isLE).Sublist
      (items.mergeSort fun a b => (cmp a b).isLE) := by
  induction deleted with
  | slnil => exact .refl _
  | @cons fewer items item _ ih =>
    obtain ⟨less, more, sorted, rest, -⟩ := mergeSort_cons cmp item items
    rw [sorted]
    exact (rest ▸ ih).middle item
  | @cons_cons fewer items item _ ih =>
    obtain ⟨less, more, sorted, rest, behind, before⟩ := mergeSort_cons cmp item items
    obtain ⟨less', more', sorted', rest', behind', before'⟩ := mergeSort_cons cmp item fewer
    rw [rest, rest'] at ih
    -- What goes before the item and what goes behind it have nothing in common.
    have front : less'.Sublist less := by
      refine .of_sublist_append_left (fun other member member' => ?_)
        ((List.sublist_append_left less' more').trans ih)
      exact Bool.false_ne_true ((behind' other member).symm.trans (before other member'))
    have back : more'.Sublist more := by
      refine .of_sublist_append_right (fun other member member' => ?_)
        ((List.sublist_append_right less' more').trans ih)
      exact Bool.false_ne_true ((behind other member').symm.trans (before' other member))
    rw [sorted, sorted']
    exact front.append (back.cons_cons item)

end

end ModuleAtlas.Sorting
