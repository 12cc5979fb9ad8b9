import ModuleAtlas.Text.Alphanumeric
import ModuleAtlas.Text.Blank
import ModuleAtlas.Text.Cut
import Mathlib.Data.List.Basic
import Mathlib.Data.List.TakeWhile

/-!
# Where texts are cut

A text is put together from parts, and a cut is made where one part ends and the next begins. What
decides is the last character of the one and the first of the other. `Stops p cs` says that `cs` is
empty or starts with a character outside the class `p`.
-/

namespace ModuleAtlas.Text

variable {p q : Char → Bool} {u w cs mark : List Char} {c : Char}

def Stops (p : Char → Bool) (cs : List Char) : Prop :=
  ∀ c ∈ cs.head?, p c = false

instance (p : Char → Bool) : DecidablePred (Stops p) := fun cs =>
  decidable_of_iff (cs.head?.all fun c => !p c) (by simp [Stops, Option.all_eq_true])

theorem not_stops_iff : ¬ Stops p cs ↔ ∃ c rest, cs = c :: rest ∧ p c = true := by
  cases cs with
  | nil => simp [Stops]
  | cons c cs => simp [Stops]

theorem stops_of_forall (outside : ∀ c ∈ cs, p c = false) : Stops p cs :=
  fun c first => outside c (List.mem_of_head? first)

/-! ## Classes of characters -/

theorem exists_range {ranges : List (Nat × Nat)} {n : Nat} (inside : inRanges ranges n = true) :
    ∃ range ∈ ranges, range.1 ≤ n ∧ n ≤ range.2 := by
  induction ranges with
  | nil => cases inside
  | cons range ranges ih =>
    rw [inRanges] at inside
    split at inside
    · cases inside
    · next low =>
      split at inside
      · next high => exact ⟨range, List.mem_cons_self, Nat.le_of_not_lt low, high⟩
      · obtain ⟨range', listed, bounds⟩ := ih inside
        exact ⟨range', .tail _ listed, bounds⟩

/-- A class of listed characters keeps out of another class if each of them does. -/
theorem outside_of_contains {listed : List Char} (inside : listed.contains c = true)
    (apart : (listed.all fun d => !p d) = true) : p c = false := by
  have outside := List.all_eq_true.mp apart c (List.contains_iff_mem.mp inside)
  rwa [Bool.not_eq_true'] at outside

theorem apart_symm (apart : p c = true → q c = false) (inside : q c = true) : p c = false := by
  by_contra both
  rw [apart (by simpa using both)] at inside
  cases inside

/-- No letter and no digit is blank. -/
theorem isAlphanumeric_of_isBlank (blank : isBlank c = true) : isAlphanumeric c = false := by
  have apart : ∀ range ∈ blankRanges, ∀ offset < range.2 + 1 - range.1,
      inRanges alphanumericRanges (range.1 + offset) = false := by decide +kernel
  obtain ⟨range, listed, low, high⟩ := exists_range blank
  have outside := apart range listed (c.toNat - range.1) (by omega)
  rwa [Nat.add_sub_cancel' low] at outside

/-! ## From the start -/

theorem Stops.takeWhile (stops : Stops p w) : w.takeWhile p = [] := by
  cases w with
  | nil => rfl
  | cons c w => rw [List.takeWhile_cons_of_neg (by simpa using stops c rfl)]

theorem Stops.dropWhile (stops : Stops p w) : w.dropWhile p = w := by
  cases w with
  | nil => rfl
  | cons c w => rw [List.dropWhile_cons_of_neg (by simpa using stops c rfl)]

theorem Stops.takeWhile_append (stops : Stops p w) (inside : ∀ c ∈ u, p c = true) :
    (u ++ w).takeWhile p = u := by
  rw [List.takeWhile_append_of_pos inside, stops.takeWhile, List.append_nil]

theorem Stops.dropWhile_append (stops : Stops p w) (inside : ∀ c ∈ u, p c = true) :
    (u ++ w).dropWhile p = w := by
  rw [List.dropWhile_append_of_pos inside, stops.dropWhile]

/-- Nothing is gained by dropping less before. -/
theorem dropWhile_dropWhile_of_imp (weaker : ∀ c, p c = true → q c = true) (cs : List Char) :
    (cs.dropWhile p).dropWhile q = cs.dropWhile q := by
  have taken : ∀ c ∈ cs.takeWhile p, q c = true :=
    fun c inside => weaker c (List.mem_takeWhile_imp inside)
  calc (cs.dropWhile p).dropWhile q
      = (cs.takeWhile p ++ cs.dropWhile p).dropWhile q := by
        rw [List.dropWhile_append_of_pos taken]
    _ = cs.dropWhile q := by rw [List.takeWhile_append_dropWhile]

theorem Stops.append (stops : Stops p u) (nonempty : u ≠ []) : Stops p (u ++ w) := by
  intro c first
  cases u with
  | nil => exact absurd rfl nonempty
  | cons d u => exact stops c first

/-- What holds of the first character of a text holds of that of its beginnings. -/
theorem forall_mem_head?_of_prefix {q : Char → Prop} (start : u <+: w)
    (first : ∀ c ∈ w.head?, q c) : ∀ c ∈ u.head?, q c := by
  obtain ⟨rest, rfl⟩ := start
  cases u with
  | nil => exact fun c none => nomatch none
  | cons d u => exact first

theorem after?_append (head rest : List Char) : after? head (head ++ rest) = some rest := by
  induction head with
  | nil => rfl
  | cons c head ih => rw [List.cons_append, after?, if_pos rfl, ih]

/-! ## From the end -/

theorem dropEndWhile_prefix (p : Char → Bool) (cs : List Char) : dropEndWhile p cs <+: cs := by
  rw [dropEndWhile, ← List.reverse_suffix, List.reverse_reverse]
  exact List.dropWhile_suffix p

theorem dropEndWhile_append (stops : Stops p u.reverse) (w : List Char) :
    dropEndWhile p (u ++ w) = u ++ dropEndWhile p w := by
  unfold dropEndWhile
  rw [List.reverse_append, List.dropWhile_append, stops.dropWhile]
  split
  · next all => rw [List.isEmpty_iff.mp all, List.reverse_reverse, List.reverse_nil, List.append_nil]
  · rw [List.reverse_append, List.reverse_reverse]

theorem stops_dropWhile (p : Char → Bool) (cs : List Char) : Stops p (cs.dropWhile p) := by
  intro c first
  have kept := List.head?_dropWhile_not p cs
  rwa [Option.mem_def.mp first] at kept

theorem stops_trimChars (cs : List Char) :
    Stops isBlank (trimChars cs) ∧ Stops isBlank (trimChars cs).reverse := by
  constructor
  · exact forall_mem_head?_of_prefix (Text.dropEndWhile_prefix _ _) (stops_dropWhile _ _)
  · rw [trimChars, dropEndWhile, List.reverse_reverse]
    exact stops_dropWhile _ _

theorem trimChars_eq_self (first : Stops isBlank cs) (last : Stops isBlank cs.reverse) :
    trimChars cs = cs := by
  rw [trimChars, first.dropWhile, dropEndWhile, last.dropWhile, List.reverse_reverse]

/-- Nothing is left to trim. -/
theorem trim_trim (s : String) : trim (trim s) = trim s := by
  obtain ⟨first, last⟩ := stops_trimChars s.toList
  rw [trim, trim, String.toList_ofList, trimChars_eq_self first last]

/-- Trimming takes nothing but blanks. -/
theorem exists_trimmed (cs : List Char) :
    ∃ before behind : List Char, (∀ c ∈ before, isBlank c = true) ∧
      (∀ c ∈ behind, isBlank c = true) ∧ cs = before ++ (trimChars cs ++ behind) := by
  let started := cs.dropWhile isBlank
  refine ⟨cs.takeWhile isBlank, (started.reverse.takeWhile isBlank).reverse, ?_, ?_, ?_⟩
  · exact fun c => List.mem_takeWhile_imp
  · exact fun c inside => List.mem_takeWhile_imp (List.mem_reverse.mp inside)
  · have ended : trimChars cs ++ (started.reverse.takeWhile isBlank).reverse = started := by
      rw [trimChars, dropEndWhile, ← List.reverse_append, List.takeWhile_append_dropWhile,
        List.reverse_reverse]
    rw [ended, List.takeWhile_append_dropWhile]

theorem trimChars_append (nonempty : u ≠ []) (first : Stops isBlank u)
    (last : Stops isBlank u.reverse) (w : List Char) :
    trimChars (u ++ w) = u ++ dropEndWhile isBlank w := by
  rw [trimChars, (first.append nonempty).dropWhile, dropEndWhile_append last]

/-! ## At a mark -/

theorem after?_eq_none_of_ne {d : Char} (differs : c ≠ d) : after? (d :: mark) (c :: cs) = none := by
  rw [after?, if_neg differs]

/-- A text without the first character of a mark is not split at it. -/
theorem splitOnce?_eq_none {d : Char} (without : d ∉ cs) : splitOnce? (d :: mark) cs = none := by
  induction cs with
  | nil => rfl
  | cons c cs ih =>
    rw [List.mem_cons, not_or] at without
    obtain ⟨differs, without⟩ := without
    rw [splitOnce?, after?_eq_none_of_ne (Ne.symm differs), ih without]
    rfl

theorem splitOnce?_append {d : Char} (without : d ∉ cs) (rest : List Char) :
    splitOnce? (d :: mark) (cs ++ (d :: mark) ++ rest) = some (cs, rest) := by
  induction cs with
  | nil =>
    have found := after?_append (d :: mark) rest
    rw [List.cons_append] at found
    rw [List.nil_append, List.cons_append, splitOnce?, found]
  | cons c cs ih =>
    rw [List.mem_cons, not_or] at without
    obtain ⟨differs, without⟩ := without
    rw [List.cons_append, List.cons_append, splitOnce?, after?_eq_none_of_ne (Ne.symm differs),
      ih without]
    rfl

theorem exists_pieces (p : Char → Bool) (cs : List Char) :
    ∃ piece rest, pieces p cs = piece :: rest := by
  cases cs with
  | nil => exact ⟨[], [], rfl⟩
  | cons c cs =>
    rw [pieces]
    split
    · exact ⟨_, _, rfl⟩
    · split <;> exact ⟨_, _, rfl⟩

/-- A text without marks joins the first piece of what follows. -/
theorem pieces_append {piece : List Char} {rest : List (List Char)}
    (without : ∀ c ∈ u, p c = false) (cut : pieces p cs = piece :: rest) :
    pieces p (u ++ cs) = (u ++ piece) :: rest := by
  induction u with
  | nil => exact cut
  | cons c u ih =>
    obtain ⟨here, later⟩ := List.forall_mem_cons.mp without
    rw [List.cons_append, pieces, here, if_neg Bool.false_ne_true, ih later]
    rfl

end ModuleAtlas.Text
