import ModuleAtlas.Proofs.Text.Cut
import ModuleAtlas.Text.Case

/-!
# Small letters

Lowering a letter or digit other than the dotted capital I gives one letter or digit, which lowering
leaves as it is: `exists_small`. The tables of letters and of cases are both given as ranges, so a
whole run of capitals is compared with them at once, by its first and its last small form.
-/

namespace ModuleAtlas.Text

/-! ## Ranges -/

theorem inRanges_of_mem {ranges : List (Nat × Nat)}
    (ascending : ranges.Pairwise fun a b => a.1 ≤ b.1) {range : Nat × Nat} (listed : range ∈ ranges)
    {n : Nat} (low : range.1 ≤ n) (high : n ≤ range.2) : inRanges ranges n = true := by
  induction ranges with
  | nil => cases listed
  | cons first rest ih =>
    obtain ⟨least, ascending⟩ := List.pairwise_cons.mp ascending
    have reached : ¬ n < first.1 := by
      rcases List.mem_cons.mp listed with rfl | later
      · omega
      · have := least range later
        omega
    rw [inRanges, if_neg reached]
    split
    · rfl
    · next above =>
      rcases List.mem_cons.mp listed with rfl | later
      · exact absurd high above
      · exact ih ascending later

theorem alphanumericRanges_ascend : alphanumericRanges.Pairwise fun a b => a.1 ≤ b.1 := by
  have each : (alphanumericRanges.map Prod.fst).IsChain (· ≤ ·) := by decide +kernel
  exact List.pairwise_map.mp each.pairwise

/-- No range of letters and digits reaches into the surrogates. -/
theorem isValidChar_of_mem {range : Nat × Nat} (listed : range ∈ alphanumericRanges) {n : Nat}
    (low : range.1 ≤ n) (high : n ≤ range.2) : n.isValidChar := by
  have outside : ∀ range ∈ alphanumericRanges,
      range.2 < 0xD800 ∨ 0xDFFF < range.1 ∧ range.2 < 0x110000 := by decide +kernel
  have := outside range listed
  unfold Nat.isValidChar
  omega

theorem toNat_ofNat {n : Nat} (valid : n.isValidChar) : (Char.ofNat n).toNat = n := by
  rw [Char.ofNat, dif_pos valid]
  rfl

/-! ## Runs of capitals -/

namespace CaseRun

def Has (run : CaseRun) (n : Nat) : Prop :=
  run.first ≤ n ∧ n ≤ run.last ∧ (n - run.first) % run.stride = 0

def small (run : CaseRun) (n : Nat) : Nat :=
  ((n : Int) + run.shift).toNat

/-- Whether all small forms are in one range. -/
def staysIn (run : CaseRun) (ranges : List (Nat × Nat)) : Bool :=
  ranges.any fun range => range.1.ble (run.small run.first) && (run.small run.last).ble range.2

/-- Whether no small form is in another run: they are before it, or behind it, or between the
members of a run of every second character. -/
def misses (run other : CaseRun) : Bool :=
  (run.small run.last).blt other.first || other.last.blt (run.small run.first) ||
    (other.stride.beq 2 && ((run.small run.first + other.first) % 2).beq 1 &&
      (run.stride.beq 2 || run.last.beq run.first))

variable {run other : CaseRun} {n : Nat}

theorem small_eq (forward : 0 ≤ (run.first : Int) + run.shift) (has : run.Has n) :
    run.small n = run.small run.first + (n - run.first) ∧ run.small n ≤ run.small run.last := by
  obtain ⟨low, high, -⟩ := has
  unfold small
  omega

theorem not_has_of_misses (forward : 0 ≤ (run.first : Int) + run.shift)
    (missed : run.misses other = true) (has : run.Has n) : ¬ other.Has (run.small n) := by
  obtain ⟨place, top⟩ := small_eq forward has
  obtain ⟨low, high, step⟩ := has
  rintro ⟨low', high', step'⟩
  simp only [misses, Bool.or_eq_true, Bool.and_eq_true, Nat.blt_eq, Nat.beq_eq] at missed
  rcases missed with (before | behind) | ⟨⟨stride', odd⟩, even⟩
  · omega
  · omega
  · rw [stride'] at step'
    rcases even with stride | single
    · rw [stride] at step
      omega
    · omega

end CaseRun

theorem exists_run {runs : List CaseRun} {n : Nat} (moved : shiftIn runs n ≠ 0) :
    ∃ run ∈ runs, run.Has n ∧ shiftIn runs n = run.shift := by
  induction runs with
  | nil => exact absurd rfl moved
  | cons run runs ih =>
    rw [shiftIn] at moved ⊢
    split at moved
    · exact absurd rfl moved
    · next low =>
      split at moved
      · next high =>
        split at moved
        · next step =>
          refine ⟨run, List.mem_cons_self, ⟨Nat.le_of_not_lt low, high, step⟩, ?_⟩
          rw [if_neg low, if_pos high, if_pos step]
        · exact absurd rfl moved
      · next high =>
        obtain ⟨run', listed, has, same⟩ := ih moved
        refine ⟨run', .tail _ listed, has, ?_⟩
        rw [if_neg low, if_neg high, same]

theorem shiftIn_eq_zero {runs : List CaseRun} {n : Nat} (outside : ∀ run ∈ runs, ¬ run.Has n) :
    shiftIn runs n = 0 := by
  by_contra moved
  obtain ⟨run, listed, has, -⟩ := exists_run moved
  exact outside run listed has

/-- The dotted capital I as a run of its own. -/
def dottedRun : CaseRun :=
  ⟨0x130, 0x130, 1, 0⟩

theorem caseRuns_forward : ∀ run ∈ caseRuns, 0 ≤ (run.first : Int) + run.shift := by
  decide +kernel

theorem staysIn_of_mem {run : CaseRun} (listed : run ∈ caseRuns) :
    run.staysIn alphanumericRanges = true := by
  have all : (caseRuns.all (·.staysIn alphanumericRanges)) = true := by decide +kernel
  exact List.all_eq_true.mp all run listed

theorem misses_of_mem {run other : CaseRun} (listed : run ∈ caseRuns)
    (listed' : other ∈ dottedRun :: caseRuns) : run.misses other = true := by
  have all : (caseRuns.all fun run => (dottedRun :: caseRuns).all run.misses) = true := by
    decide +kernel
  exact List.all_eq_true.mp (List.all_eq_true.mp all run listed) other listed'

/-! ## Lowering -/

/-- What lowering leaves as it is: a letter or digit that is no capital. -/
def IsSmall (c : Char) : Prop :=
  isAlphanumeric c = true ∧ lowerChar c = [c]

/-- The small form of a capital is a letter or digit, and no capital itself. -/
theorem isSmall_small {run : CaseRun} (listed : run ∈ caseRuns) {n : Nat} (has : run.Has n) :
    IsSmall (Char.ofNat (run.small n)) := by
  have forward := caseRuns_forward run listed
  have clear {other : CaseRun} (listed' : other ∈ dottedRun :: caseRuns) :=
    CaseRun.not_has_of_misses forward (misses_of_mem listed listed') has
  obtain ⟨place, top⟩ := CaseRun.small_eq forward has
  obtain ⟨range, inside, ends⟩ := List.any_eq_true.mp (staysIn_of_mem listed)
  rw [Bool.and_eq_true, Nat.ble_eq, Nat.ble_eq] at ends
  have low : range.1 ≤ run.small n := by omega
  have high : run.small n ≤ range.2 := by omega
  have same := toNat_ofNat (isValidChar_of_mem inside low high)
  constructor
  · rw [isAlphanumeric, same]
    exact inRanges_of_mem alphanumericRanges_ascend inside low high
  · have plain : Char.ofNat (run.small n) ≠ 'İ' := by
      intro dotted
      apply clear List.mem_cons_self
      rw [← same, dotted]
      exact ⟨Nat.le_refl _, Nat.le_refl _, rfl⟩
    have fixed : shiftIn caseRuns (run.small n) = 0 :=
      shiftIn_eq_zero fun other listed' => clear (List.mem_cons_of_mem _ listed')
    rw [lowerChar, if_neg plain, same, fixed, Int.add_zero, Int.toNat_natCast]

theorem exists_small {c : Char} (letter : isAlphanumeric c = true) (plain : c ≠ 'İ') :
    ∃ d, lowerChar c = [d] ∧ IsSmall d := by
  have lowered : lowerChar c = [Char.ofNat ((c.toNat : Int) + shiftIn caseRuns c.toNat).toNat] := by
    rw [lowerChar, if_neg plain]
  by_cases still : shiftIn caseRuns c.toNat = 0
  · have same : lowerChar c = [c] := by
      rw [lowered, still, Int.add_zero, Int.toNat_natCast, Char.ofNat_toNat]
    exact ⟨c, same, letter, same⟩
  · obtain ⟨run, listed, has, shift⟩ := exists_run still
    exact ⟨Char.ofNat (run.small c.toNat), by rw [lowered, shift]; rfl, isSmall_small listed has⟩

end ModuleAtlas.Text
