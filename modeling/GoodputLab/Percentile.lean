import GoodputLab.Base.OrderStatistics
import GoodputLab.CellRunner
import GoodputLab.KvCell
/-!
# Percentile — the two percentiles are one quantile

`bench/kv_scaling/schema.py` interpolates over a list already sorted, `bench/cell_runner.py` and `bench/orchestrator.py`
sort it themselves.  Both are the quantile between ranks (`percentile_eq_quantile`, `kvPercentile_eq_quantile`), so they
agree and keep the order of positions and of entries (`percentiles_agree`).
-/
namespace GoodputLab

open OrderStatistics (interpolate quantile ranked)

/-- One entry is every rank. -/
theorem quantile_singleton (v q : ℚ) : quantile [v] q = v := by
  have hranked : ∀ i, ranked [v] i = v := by
    intro i
    rw [ranked, List.length_singleton, Nat.sub_self, Nat.min_zero]
    rfl
  simp only [quantile, interpolate, hranked, sub_self, mul_zero, add_zero]

/-- The rank below a position in the list. -/
theorem rank_floor {n : Nat} (hn : 0 < n) {q : ℚ} (hq' : q ≤ 1) : ⌊q * ((n : ℚ) - 1)⌋₊ ≤ n - 1 := by
  have hlen : (0 : ℚ) ≤ (n : ℚ) - 1 := by
    have h : (1 : ℚ) ≤ n := by exact_mod_cast hn
    linarith
  apply Nat.floor_le_of_le
  rw [Nat.cast_sub hn, Nat.cast_one]
  exact mul_le_of_le_one_left hlen hq'

/-- **The schema's percentile of the sorted list.** -/
theorem kvPercentile_eq_quantile {l : List ℚ} (hl : l ≠ []) {q : ℚ} (hq' : q ≤ 1) :
    kvPercentile (l.mergeSort (fun x y => decide (x ≤ y))) q = quantile l q := by
  have hpos := List.length_pos_of_ne_nil hl
  have hsort : l.mergeSort (fun x y => decide (x ≤ y)) = l.insertionSort (· ≤ ·) := List.mergeSort_eq_insertionSort _ l
  unfold kvPercentile
  simp only [hsort, List.length_insertionSort]
  by_cases hone : l.length = 1
  · obtain ⟨v, rfl⟩ := List.length_eq_one_iff.1 hone
    rw [if_pos hone, quantile_singleton]
    rfl
  · rw [if_neg hone]
    have hfloor : (q * ((l.length : ℚ) - 1)).floor.toNat = ⌊q * ((l.length : ℚ) - 1)⌋₊ := by
      show ⌊q * ((l.length : ℚ) - 1)⌋.toNat = _
      exact Int.floor_toNat _
    have hcap := rank_floor hpos hq'
    rw [hfloor, quantile, interpolate, ranked, ranked, min_eq_left hcap]

/-- **The cell runner's percentile.** -/
theorem percentile_eq_quantile {l : List ℚ} (hl : l ≠ []) {q : ℚ} (hq : 0 ≤ q) (hq' : q ≤ 1) :
    percentile l q = quantile l q := by
  match l, hl with
  | [v], _ => exact (quantile_singleton v q).symm
  | u :: v :: l, hl =>
    have hpos := List.length_pos_of_ne_nil hl
    have hcap := rank_floor hpos hq'
    have hk : ((((u :: v :: l).length : Int) - 1 : Int) : ℚ) * q = q * (((u :: v :: l).length : ℚ) - 1) := by
      push_cast
      ring
    have hfloor : (truncate (q * (((u :: v :: l).length : ℚ) - 1))).toNat = ⌊q * (((u :: v :: l).length : ℚ) - 1)⌋₊ := by
      rw [truncate, if_pos (OrderStatistics.rank_nonneg hl hq)]
      exact Int.floor_toNat _
    unfold percentile
    simp only [List.length_insertionSort, hk, hfloor, quantile, interpolate, ranked, min_eq_left hcap]
    split
    · rename_i hlast
      rw [← hlast, sub_self, mul_zero, add_zero]
    · exact congrArg (_ + ·) (mul_comm _ _)

/-! ## The same figure -/

theorem forall₂_set {l : List ℚ} {i : Nat} {v : ℚ} (hi : i < l.length) (hv : l[i] ≤ v) :
    List.Forall₂ (· ≤ ·) l (l.set i v) := by
  apply List.forall₂_iff_get.2
  refine ⟨(List.length_set).symm, fun j hj hj' => ?_⟩
  simp only [List.get_eq_getElem, List.getElem_set]
  split
  · rename_i hij
    subst hij
    exact hv
  · exact le_refl _

/-- **Percentiles are order-correct and consistent.**  The schema's on the sorted list is the cell runner's; it is between
the least and the greatest entry, ascends with the position, does not depend on the order of the list, and ascends with
its entries, all of them or one. -/
theorem percentiles_agree {l : List ℚ} (hl : l ≠ []) {q r : ℚ} (hq : 0 ≤ q) (hqr : q ≤ r) (hr : r ≤ 1) :
    kvPercentile (l.mergeSort (fun x y => decide (x ≤ y))) q = percentile l q ∧
    (l.minimum ≤ (percentile l q : WithTop ℚ) ∧ (percentile l q : WithBot ℚ) ≤ l.maximum) ∧
    percentile l q ≤ percentile l r ∧
    (∀ m : List ℚ, l.Perm m → percentile l q = percentile m q) ∧
    (∀ m : List ℚ, List.Forall₂ (· ≤ ·) l m → percentile l q ≤ percentile m q) ∧
    ∀ (i : Nat) (v : ℚ) (hi : i < l.length), l[i] ≤ v → percentile l q ≤ percentile (l.set i v) q := by
  have hq' := hqr.trans hr
  have hraise : ∀ m : List ℚ, List.Forall₂ (· ≤ ·) l m → percentile l q ≤ percentile m q := by
    intro m hm
    have hne : m ≠ [] := fun hnil => hl (List.forall₂_nil_right_iff.1 (hnil ▸ hm))
    rw [percentile_eq_quantile hl hq hq', percentile_eq_quantile hne hq hq']
    exact OrderStatistics.quantile_le hm hl hq
  refine ⟨?_, ?_, ?_, ?_, hraise, fun i v hi hv => hraise _ (forall₂_set hi hv)⟩
  · rw [kvPercentile_eq_quantile hl hq', percentile_eq_quantile hl hq hq']
  · rw [percentile_eq_quantile hl hq hq']
    obtain ⟨⟨x, hx, hlow⟩, y, hy, hhigh⟩ := OrderStatistics.quantile_mem hl hq
    exact ⟨(List.minimum_le_of_mem' hx).trans (WithTop.coe_le_coe.2 hlow),
      (WithBot.coe_le_coe.2 hhigh).trans (List.le_maximum_of_mem' hy)⟩
  · rw [percentile_eq_quantile hl hq hq', percentile_eq_quantile hl (hq.trans hqr) hr]
    exact OrderStatistics.quantile_mono hl hq hqr
  · intro m hm
    have hne : m ≠ [] := fun hnil => hl (List.perm_nil.1 (hnil ▸ hm))
    rw [percentile_eq_quantile hl hq hq', percentile_eq_quantile hne hq hq', OrderStatistics.quantile_perm hm]

theorem three_values : [(3 : ℚ), 1, 2] ≠ [] := List.cons_ne_nil _ _

theorem three_values_agree :
    kvPercentile ([(3 : ℚ), 1, 2].mergeSort (fun x y => decide (x ≤ y))) (1 / 2) = percentile [3, 1, 2] (1 / 2) ∧
    ([(3 : ℚ), 1, 2].minimum ≤ (percentile [3, 1, 2] (1 / 2) : WithTop ℚ) ∧
      (percentile [3, 1, 2] (1 / 2) : WithBot ℚ) ≤ [(3 : ℚ), 1, 2].maximum) ∧
    percentile [3, 1, 2] (1 / 2) ≤ percentile [3, 1, 2] (95 / 100) := by
  have h := percentiles_agree (q := 1 / 2) (r := 95 / 100) three_values (by norm_num) (by norm_num) (by norm_num)
  exact ⟨h.1, h.2.1, h.2.2.1⟩

/-- **The median of a cell's samples is no more than their 95th percentile.** -/
theorem KvScalingCell.p50Bytes_le_p95Bytes (c : KvScalingCell) : c.p50Bytes ≤ c.p95Bytes := by
  have hne : c.kvBytesUsedSamples.map (fun s : Int => (s : ℚ)) ≠ [] := by
    apply List.ne_nil_of_length_pos
    have hlen := c.length_samples
    have hpos := c.bounds.2.2.2.1
    rw [List.length_map]
    omega
  unfold KvScalingCell.p50Bytes KvScalingCell.p95Bytes
  rw [kvPercentile_eq_quantile hne (by norm_num), kvPercentile_eq_quantile hne (by norm_num)]
  exact OrderStatistics.quantile_mono hne (by norm_num) (by norm_num)

end GoodputLab
