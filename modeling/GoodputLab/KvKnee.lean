import GoodputLab.KvFinish
import GoodputLab.KvLoaders
/-!
# KvKnee — the knee is the smallest dominated point (`bench/kv_scaling/measure.py`)

With a positive baseline and no negative sample the share of a cell is below one, and reaches one half just when its median
reaches the baseline (`half_le_share_iff`).  `findKnee` scans the cells by tokens, so it returns the least tokens of such a
cell, whatever the order of the cells (`findKnee_cases`), and no fewer for a larger baseline (`findKnee_smallest`).
-/
namespace GoodputLab

/-! ## The share -/

theorem kvPercentile_half_nonneg {l : List ℚ} (hl : l ≠ []) (hnonneg : ∀ x ∈ l, 0 ≤ x) : 0 ≤ kvPercentile l (1 / 2) := by
  have hget : ∀ i, 0 ≤ l.getD i 0 := by
    intro i
    rcases lt_or_ge i l.length with hi | hi
    · rw [List.getD_eq_getElem _ _ hi]
      exact hnonneg _ (List.getElem_mem hi)
    · rw [List.getD_eq_default _ _ hi]
  rw [kvPercentile_half hl]
  split
  · exact hget _
  · exact div_nonneg (add_nonneg (hget _) (hget _)) zero_le_two

def NonnegSamples (cells : List KvScalingCell) : Prop := ∀ c ∈ cells, ∀ s ∈ c.kvBytesUsedSamples, 0 ≤ s

theorem NonnegSamples.p50Bytes {cells : List KvScalingCell} (h : NonnegSamples cells) {c : KvScalingCell} (hc : c ∈ cells) :
    0 ≤ c.p50Bytes :=
  kvPercentile_half_nonneg c.sortedSamples_ne_nil (c.sortedSamples_nonneg (h c hc))

section Share

variable {c : KvScalingCell} {baselineBytes : Int} (hF : 0 < baselineBytes) (hp : 0 ≤ c.p50Bytes)

include hF hp

theorem total_pos : (0 : ℚ) < baselineBytes + c.p50Bytes := by
  have hF' : (0 : ℚ) < baselineBytes := by exact_mod_cast hF
  linarith

/-- **The share reaches one half just when the median reaches the baseline.** -/
theorem half_le_share_iff : 1 / 2 ≤ c.kvShare baselineBytes ↔ (baselineBytes : ℚ) ≤ c.p50Bytes := by
  rw [KvScalingCell.kvShare, le_div_iff₀ (total_pos hF hp)]
  constructor <;> intro h <;> linarith

theorem share_lt_one : c.kvShare baselineBytes < 1 := by
  have hF' : (0 : ℚ) < baselineBytes := by exact_mod_cast hF
  rw [KvScalingCell.kvShare, div_lt_one (total_pos hF hp)]
  linarith

end Share

/-! ## The scan -/

/-- The tokens of the cells whose median reaches the baseline. -/
def dominated (cells : List KvScalingCell) (baselineBytes : Int) : Set Int :=
  { n | ∃ c ∈ cells, (baselineBytes : ℚ) ≤ c.p50Bytes ∧ c.totalTokens = n }

theorem dominated_cons (c : KvScalingCell) (cells : List KvScalingCell) (baselineBytes : Int) :
    dominated (c :: cells) baselineBytes =
      { n | (baselineBytes : ℚ) ≤ c.p50Bytes ∧ c.totalTokens = n } ∪ dominated cells baselineBytes := by
  ext n
  simp [dominated]

theorem dominated_perm {cells cells' : List KvScalingCell} (h : cells.Perm cells') (baselineBytes : Int) :
    dominated cells baselineBytes = dominated cells' baselineBytes := by
  ext n
  constructor
  · rintro ⟨c, hc, hle, htokens⟩
    exact ⟨c, h.mem_iff.1 hc, hle, htokens⟩
  · rintro ⟨c, hc, hle, htokens⟩
    exact ⟨c, h.mem_iff.2 hc, hle, htokens⟩

theorem dominated_anti (cells : List KvScalingCell) {baselineBytes larger : Int} (h : baselineBytes ≤ larger) :
    dominated cells larger ⊆ dominated cells baselineBytes := by
  rintro n ⟨c, hc, hle, htokens⟩
  have hcast : (baselineBytes : ℚ) ≤ larger := by exact_mod_cast h
  exact ⟨c, hc, hcast.trans hle, htokens⟩

/-- The knee is at the least of the tokens, with a share of one half or more, and less than all. -/
structure SmallestAt (tokens : Set Int) (knee : KneePoint) : Prop where
  least : IsLeast tokens knee.totalTokens
  half  : 1 / 2 ≤ knee.kvShare
  part  : knee.kvShare < 1

theorem SmallestAt.ne_empty {tokens : Set Int} {knee : KneePoint} (h : SmallestAt tokens knee) : tokens ≠ ∅ :=
  Set.nonempty_iff_ne_empty.1 h.least.nonempty

/-- **The scan of cells by tokens stops at the least dominated ones**, or passes all of them. -/
theorem firstKnee_cases {baselineBytes : Int} (hF : 0 < baselineBytes) : ∀ {cells : List KvScalingCell},
    cells.Pairwise (fun a b => a.totalTokens ≤ b.totalTokens) → (∀ c ∈ cells, 0 ≤ c.p50Bytes) →
      (∃ knee, firstKnee baselineBytes cells = .ok knee ∧ SmallestAt (dominated cells baselineBytes) knee) ∨
        (firstKnee baselineBytes cells = .error .neverReached ∧ dominated cells baselineBytes = ∅)
  | [], _, _ => by
    right
    exact ⟨rfl, Set.eq_empty_of_forall_notMem (fun n ⟨c, hc, _⟩ => List.not_mem_nil hc)⟩
  | c :: cells, hsorted, hnonneg => by
    rw [List.pairwise_cons] at hsorted
    obtain ⟨hp, hrest⟩ := List.forall_mem_cons.1 hnonneg
    have htotal := total_pos hF hp
    have hhalf := half_le_share_iff hF hp
    have hpart := share_lt_one hF hp
    rw [firstKnee, dominated_cons]
    simp only [htotal.ne', if_false]
    rw [show c.p50Bytes / (baselineBytes + c.p50Bytes) = c.kvShare baselineBytes from rfl]
    by_cases hreached : (baselineBytes : ℚ) ≤ c.p50Bytes
    · left
      have hshare := hhalf.2 hreached
      obtain ⟨-, hbatch, -, -, htokens, -⟩ := c.bounds
      obtain ⟨knee, hknee⟩ := KneePoint.make?_of htokens ⟨by linarith, hpart.le⟩ hbatch
      obtain ⟨-, hkneeTokens, hkneeShare, -⟩ := KneePoint.make?_ok hknee
      rw [if_pos hshare]
      refine ⟨knee, hknee, ⟨?_, ?_⟩, hkneeShare ▸ hshare, hkneeShare ▸ hpart⟩
      · exact Or.inl ⟨hreached, hkneeTokens.symm⟩
      · rintro n (⟨-, rfl⟩ | ⟨d, hd, -, rfl⟩)
        · exact hkneeTokens.le
        · exact hkneeTokens.le.trans (hsorted.1 d hd)
    · have hnone : { n | (baselineBytes : ℚ) ≤ c.p50Bytes ∧ c.totalTokens = n } = ∅ :=
        Set.eq_empty_of_forall_notMem (fun n h => hreached h.1)
      rw [if_neg (fun h => hreached (hhalf.1 h)), hnone, Set.empty_union]
      exact firstKnee_cases hF hsorted.2 hrest

theorem byTokens_sorted (cells : List KvScalingCell) :
    (byTokens cells).Pairwise (fun a b => a.totalTokens ≤ b.totalTokens) := by
  have htrans : ∀ a b c : KvScalingCell, decide (a.totalTokens ≤ b.totalTokens) = true →
      decide (b.totalTokens ≤ c.totalTokens) = true → decide (a.totalTokens ≤ c.totalTokens) = true :=
    fun a b c hab hbc => decide_eq_true (le_trans (of_decide_eq_true hab) (of_decide_eq_true hbc))
  have htotal : ∀ a b : KvScalingCell,
      (decide (a.totalTokens ≤ b.totalTokens) || decide (b.totalTokens ≤ a.totalTokens)) = true := by
    intro a b
    rw [Bool.or_eq_true, decide_eq_true_eq, decide_eq_true_eq]
    exact le_total _ _
  exact (List.pairwise_mergeSort htrans htotal cells).imp (fun hab => of_decide_eq_true hab)

/-- **What `findKnee` returns**: the least dominated tokens, or an error when there are none. -/
theorem findKnee_cases {baselineBytes : Int} (hF : 0 < baselineBytes) {cells : List KvScalingCell}
    (hnonneg : NonnegSamples cells) :
    (∃ knee, findKnee cells baselineBytes = .ok knee ∧ SmallestAt (dominated cells baselineBytes) knee) ∨
      ((findKnee cells baselineBytes = .error (if cells = [] then .noCells else .neverReached)) ∧
        dominated cells baselineBytes = ∅) := by
  have hperm : (byTokens cells).Perm cells := List.mergeSort_perm _ _
  have hscan := firstKnee_cases hF (byTokens_sorted cells) (fun c hc => hnonneg.p50Bytes (hperm.mem_iff.1 hc))
  have hnil : byTokens cells = [] ↔ cells = [] := by
    rw [← List.length_eq_zero_iff, hperm.length_eq, List.length_eq_zero_iff]
  rw [dominated_perm hperm] at hscan
  have hfind : findKnee cells baselineBytes =
      if byTokens cells = [] then .error .noCells else firstKnee baselineBytes (byTokens cells) :=
    if_neg (not_lt.2 hF.le)
  rw [hfind]
  by_cases hcells : cells = []
  · right
    rw [if_pos (hnil.2 hcells), if_pos hcells, hcells]
    exact ⟨rfl, Set.eq_empty_of_forall_notMem (fun n ⟨c, hc, _⟩ => List.not_mem_nil hc)⟩
  · rw [if_neg (fun h => hcells (hnil.1 h)), if_neg hcells]
    exact hscan

/-- **The knee is the smallest dominated point.**  With a positive baseline and no negative sample it is at the least tokens
of a cell whose median reaches the baseline, with a share in `[1/2, 1)`; there is an error when there is no such cell only;
the order of the cells does not matter, and a larger baseline has no smaller knee. -/
theorem findKnee_smallest (cells : List KvScalingCell) (baselineBytes : Int) (hF : 0 < baselineBytes)
    (hnonneg : NonnegSamples cells) :
    (∀ knee, findKnee cells baselineBytes = .ok knee →
      IsLeast (dominated cells baselineBytes) knee.totalTokens ∧ 1 / 2 ≤ knee.kvShare ∧ knee.kvShare < 1) ∧
    ((∃ e, findKnee cells baselineBytes = .error e) ↔ dominated cells baselineBytes = ∅) ∧
    (∀ cells', cells.Perm cells' → (findKnee cells' baselineBytes).map KneePoint.totalTokens =
      (findKnee cells baselineBytes).map KneePoint.totalTokens) ∧
    ∀ larger knee', baselineBytes ≤ larger → findKnee cells larger = .ok knee' →
      ∃ knee, findKnee cells baselineBytes = .ok knee ∧ knee.totalTokens ≤ knee'.totalTokens := by
  have hcases := findKnee_cases hF hnonneg
  refine ⟨fun knee h => ?_, ⟨?_, fun hnone => ?_⟩, fun cells' hperm => ?_, fun larger knee' hle h' => ?_⟩
  · rcases hcases with ⟨knee', h', hsmall⟩ | ⟨he, -⟩
    · rw [h] at h'
      cases h'
      exact ⟨hsmall.least, hsmall.half, hsmall.part⟩
    · rw [h] at he
      cases he
  · rintro ⟨e, he⟩
    rcases hcases with ⟨knee, h, -⟩ | ⟨-, hnone⟩
    · rw [he] at h
      cases h
    · exact hnone
  · rcases hcases with ⟨knee, -, hsmall⟩ | ⟨he, -⟩
    · exact absurd hnone hsmall.ne_empty
    · exact ⟨_, he⟩
  · have hnonneg' : NonnegSamples cells' := fun c hc => hnonneg c (hperm.mem_iff.2 hc)
    have hnil : cells' = [] ↔ cells = [] := by
      rw [← List.length_eq_zero_iff, ← hperm.length_eq, List.length_eq_zero_iff]
    have hcases' := findKnee_cases hF hnonneg'
    rw [← dominated_perm hperm] at hcases'
    rcases hcases with ⟨knee, h, hsmall⟩ | ⟨he, hnone⟩
    · rcases hcases' with ⟨knee', h', hsmall'⟩ | ⟨-, hnone⟩
      · rw [h, h']
        exact congrArg Except.ok (hsmall'.least.unique hsmall.least)
      · exact absurd hnone hsmall.ne_empty
    · rcases hcases' with ⟨knee', -, hsmall'⟩ | ⟨he', -⟩
      · exact absurd hnone hsmall'.ne_empty
      · rw [he, he']
        simp only [hnil]
  · rcases findKnee_cases (hF.trans_le hle) hnonneg with ⟨knee'', h'', hsmall'⟩ | ⟨he, -⟩
    · rw [h'] at h''
      cases h''
      have hin := dominated_anti cells hle hsmall'.least.1
      rcases hcases with ⟨knee, h, hsmall⟩ | ⟨-, hnone⟩
      · exact ⟨knee, h, hsmall.least.2 hin⟩
      · rw [hnone] at hin
        exact absurd hin (Set.notMem_empty _)
    · rw [h'] at he
      cases he

/-- A cell short of a baseline of 150 bytes, and one past it. -/
theorem lineCells_nonneg : NonnegSamples lineCells := by
  have hall : ∀ c ∈ lineCells, ∀ s ∈ c.kvBytesUsedSamples, 0 ≤ s := by decide +kernel
  exact hall

theorem lineCells_knee :
    (∀ knee, findKnee lineCells 150 = .ok knee →
      IsLeast (dominated lineCells 150) knee.totalTokens ∧ 1 / 2 ≤ knee.kvShare ∧ knee.kvShare < 1) ∧
    ((∃ e, findKnee lineCells 150 = .error e) ↔ dominated lineCells 150 = ∅) ∧
    (∀ cells', lineCells.Perm cells' →
      (findKnee cells' 150).map KneePoint.totalTokens = (findKnee lineCells 150).map KneePoint.totalTokens) ∧
    ∀ larger knee', 150 ≤ larger → findKnee lineCells larger = .ok knee' →
      ∃ knee, findKnee lineCells 150 = .ok knee ∧ knee.totalTokens ≤ knee'.totalTokens :=
  findKnee_smallest lineCells 150 (by decide) lineCells_nonneg

end GoodputLab
