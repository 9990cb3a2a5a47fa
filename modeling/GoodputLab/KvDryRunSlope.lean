import GoodputLab.FakeServes
import GoodputLab.KvDryRun
import GoodputLab.KvStaggerCell
/-!
# KvDryRunSlope — the dry run recovers the injected slope

The fake engine serves every cell of the grid in one wave, so a cell of `b` sequences of length `s` reads `b` times
`s + decode - 1` live tokens and their whole blocks (`dryRunCells_read`).  With lengths congruent modulo the block size each
sequence is rounded up by the same number of tokens, less than a block, so the least-squares slope is the injected one
raised by at most the share of a block in a sequence (`dry_run_recovers_slope`).
-/
namespace GoodputLab

open KvSweep (runCell)
open LeastSquares

/-! ## What a cell reads -/

theorem kvPercentile_replicate {n : Nat} (hn : 0 < n) (v q : ℚ) (hq : 0 ≤ q ∧ q < 1) :
    kvPercentile (List.replicate n v) q = v := by
  have hget : ∀ i, i < n → (List.replicate n v).getD i 0 = v := by
    intro i hi
    rw [List.getD_eq_getElem?_getD, List.getElem?_replicate, if_pos hi]
    rfl
  unfold kvPercentile
  simp only [List.length_replicate]
  split
  · exact hget 0 hn
  · have hlo : (q * ((n : ℚ) - 1)).floor.toNat < n := by
      have hle : q * ((n : ℚ) - 1) ≤ (n : ℚ) - 1 := by
        have hn' : (1 : ℚ) ≤ n := by exact_mod_cast hn
        nlinarith [hq.2]
      have hfloor : (q * ((n : ℚ) - 1)).floor ≤ (n : Int) - 1 := by
        have h := Rat.floor_le (q * ((n : ℚ) - 1))
        have h' : ((q * ((n : ℚ) - 1)).floor : ℚ) ≤ ((n : Int) - 1 : Int) := by
          push_cast
          exact h.trans hle
        exact_mod_cast h'
      omega
    rw [hget _ hlo, hget _ (by omega), sub_self, mul_zero, add_zero]

theorem p50Bytes_replicate {c : KvScalingCell} {n : Nat} {v : Int} (hn : 0 < n)
    (h : c.kvBytesUsedSamples = List.replicate n v) : c.p50Bytes = v := by
  have hsort : (List.replicate n (v : ℚ)).mergeSort (fun x y => decide (x ≤ y)) = List.replicate n (v : ℚ) :=
    List.perm_replicate.1 (List.mergeSort_perm _ _)
  unfold KvScalingCell.p50Bytes
  rw [h, List.map_replicate, hsort, kvPercentile_replicate hn _ _ (by norm_num)]

/-! ## The grid -/

/-- Distinct positive lengths, congruent modulo the block size, and distinct positive batch sizes, at least two cells. -/
structure DryRunArgs.Regular (a : DryRunArgs) (seqLens batchSizes : List Int) : Prop where
  seqs       : a.seqLens = some seqLens
  batches    : a.batchSizes = some batchSizes
  seqsNodup  : seqLens.Nodup
  seqsPos    : ∀ s ∈ seqLens, 0 < s
  congruent  : ∀ s ∈ seqLens, ∀ t ∈ seqLens, s % a.blockSize = t % a.blockSize
  sizesNodup : batchSizes.Nodup
  sizesPos   : ∀ b ∈ batchSizes, 0 < b
  cells      : 2 ≤ seqLens.length * batchSizes.length
  nSamples   : 1 ≤ a.nSamples
  theoryBpt  : 1 ≤ a.theoryBpt
  blockSize  : 1 ≤ a.blockSize
  decode     : 1 ≤ a.decodeTokens
  overhead   : 0 < a.fixedOverheadBytes

namespace DryRunArgs

variable {a : DryRunArgs} {seqLens batchSizes : List Int}

theorem orDefault_some {default l : List Int} (h : l ≠ []) : orDefault default (some l) = l := by
  cases l with
  | nil => exact absurd rfl h
  | cons n l => rfl

namespace Regular

variable (h : a.Regular seqLens batchSizes)

include h

theorem seqs_ne_nil : seqLens ≠ [] := by
  rintro rfl
  have hcells := h.cells
  rw [List.length_nil, Nat.zero_mul] at hcells
  omega

theorem sizes_ne_nil : batchSizes ≠ [] := by
  rintro rfl
  have hcells := h.cells
  rw [List.length_nil, Nat.mul_zero] at hcells
  omega

theorem seqs_eq : a.seqs = seqLens := by
  rw [DryRunArgs.seqs, h.seqs, orDefault_some h.seqs_ne_nil]

theorem batches_eq : a.batches = batchSizes := by
  rw [DryRunArgs.batches, h.batches, orDefault_some h.sizes_ne_nil]

theorem grid_eq : a.grid = seqLens ×ˢ batchSizes := by
  rw [grid, h.seqs_eq, h.batches_eq]

theorem mem_grid {p : Int × Int} (hp : p ∈ a.grid) : 0 < p.1 ∧ 0 < p.2 := by
  rw [h.grid_eq] at hp
  obtain ⟨hs, hb⟩ := List.pair_mem_product.1 hp
  exact ⟨h.seqsPos p.1 hs, h.sizesPos p.2 hb⟩

theorem grid_nodup : a.grid.Nodup := by
  rw [h.grid_eq]
  exact h.seqsNodup.product h.sizesNodup

end Regular

/-- The decode tokens of every cell. -/
def cellTokens (a : DryRunArgs) : Nat := (cellDecodeTokens a.decodeTokens).toNat

theorem cellTokens_eq (a : DryRunArgs) : (a.cellTokens : Int) = cellDecodeTokens a.decodeTokens := by
  have hge : (30 : Int) ≤ cellDecodeTokens a.decodeTokens := le_max_right _ _
  unfold cellTokens
  omega

theorem cellTokens_ge (a : DryRunArgs) : 30 ≤ a.cellTokens := by
  have hge : (30 : Int) ≤ cellDecodeTokens a.decodeTokens := le_max_right _ _
  have heq := a.cellTokens_eq
  omega

/-- The live tokens of a sequence at the decode reading. -/
def liveAt (a : DryRunArgs) (s : Int) : Int := s + (a.cellTokens - 1 : Nat)

/-- The batch of a cell, as the fake engine serves it. -/
def batch (a : DryRunArgs) (p : Int × Int) (hp : 0 < p.1 ∧ 0 < p.2) : FakeEngine.Batch where
  size := p.2.toNat
  tokens := a.cellTokens
  seqLen := p.1
  sizePos := by
    have := hp.2
    omega
  tokensGe := by
    have := a.cellTokens_ge
    omega
  seqPos := hp.1

/-! ## The pool -/

theorem le_needed {p : Int × Int} (hp : p ∈ a.grid) :
    p.2 * ⌈((p.1 + cellDecodeTokens a.decodeTokens : Int) : ℚ) / a.blockSize⌉ ≤ a.needed := by
  have hmem : p.2 * ⌈((p.1 + cellDecodeTokens a.decodeTokens : Int) : ℚ) / a.blockSize⌉ ∈
      a.grid.map (fun p => p.2 * ⌈((p.1 + cellDecodeTokens a.decodeTokens : Int) : ℚ) / a.blockSize⌉) :=
    List.mem_map.2 ⟨p, hp, rfl⟩
  unfold needed
  cases hmax : (a.grid.map (fun p => p.2 * ⌈((p.1 + cellDecodeTokens a.decodeTokens : Int) : ℚ) / a.blockSize⌉)).max? with
  | none =>
    rw [List.max?_eq_none_iff] at hmax
    rw [hmax] at hmem
    cases hmem
  | some m => exact (List.max?_le_iff hmax).1 (le_refl m) _ hmem

/-- **The pool holds the batch of every cell.** -/
theorem Regular.engine_ok (h : a.Regular seqLens batchSizes) :
    ∃ e, a.engine? = .ok e ∧ e.blockSize = a.blockSize ∧
      ∀ p ∈ a.grid, ∀ hp : 0 < p.1 ∧ 0 < p.2, e.Roomy (a.batch p hp) := by
  have hblock := h.blockSize
  have hneeded : 0 ≤ a.needed := by
    obtain ⟨s, hs⟩ := List.exists_mem_of_ne_nil _ h.seqs_ne_nil
    obtain ⟨b, hb⟩ := List.exists_mem_of_ne_nil _ h.sizes_ne_nil
    have hp : (s, b) ∈ a.grid := by
      rw [h.grid_eq]
      exact List.pair_mem_product.2 ⟨hs, hb⟩
    have hpos := h.mem_grid hp
    have hge : (30 : Int) ≤ cellDecodeTokens a.decodeTokens := le_max_right _ _
    have hblocks := ceil_div_nonneg (n := s + cellDecodeTokens a.decodeTokens) (b := a.blockSize) (by omega) (by omega)
    exact le_trans (mul_nonneg hpos.2.le hblocks) (le_needed hp)
  have hpool : 0 < a.poolBlocks := by
    unfold poolBlocks
    omega
  refine ⟨⟨a.poolBlocks, a.blockSize, a.fixedOverheadBytes, none, hpool, by omega, h.overhead, rfl⟩, ?_, rfl, ?_⟩
  · unfold engine? FakeEngine.make?
    rw [dif_pos (by omega), dif_pos h.overhead, dif_pos Option.all_none, dif_pos hpool]
  · intro p hp hpos
    have hle := le_needed hp
    have hsize : ((p.2.toNat : Nat) : Int) = p.2 := by omega
    have htokens := a.cellTokens_eq
    show ((p.2.toNat : Nat) : Int) * ⌈((p.1 + a.cellTokens : Int) : ℚ) / a.blockSize⌉ ≤ a.poolBlocks
    rw [hsize, htokens]
    unfold poolBlocks
    omega

end DryRunArgs

/-! ## The cells -/

def KvScalingCell.reading (c : KvScalingCell) : Int × Int × ℚ := (c.totalTokens, c.batchSize, c.p50Bytes)

namespace DryRunArgs

variable {a : DryRunArgs} {seqLens batchSizes : List Int} {e : FakeEngine}

/-- The blocks of a sequence at the decode reading, in tokens. -/
def blockTokens (a : DryRunArgs) (s : Int) : Int := ⌈(a.liveAt s : ℚ) / a.blockSize⌉ * a.blockSize

def expected (a : DryRunArgs) (p : Int × Int) : Int × Int × ℚ :=
  (p.2 * a.liveAt p.1, p.2, ((p.2 * a.blockTokens p.1 * a.theoryBpt : Int) : ℚ))

theorem length_batch (a : DryRunArgs) (e : FakeEngine) (p : Int × Int) (hp : 0 < p.1 ∧ 0 < p.2) :
    (e.schedule (a.batch p hp)).length (a.cellTokens - 1) 0 = a.liveAt p.1 := by
  show p.1 + (min a.cellTokens (a.cellTokens - 1 - 0) : Nat) = _
  rw [Nat.sub_zero, Nat.min_eq_right (Nat.sub_le _ _)]
  rfl

theorem live_batch (a : DryRunArgs) (e : FakeEngine) (p : Int × Int) (hp : 0 < p.1 ∧ 0 < p.2) :
    (e.schedule (a.batch p hp)).live (a.cellTokens - 1) = p.2 * a.liveAt p.1 := by
  show ((List.replicate p.2.toNat 0).map _).sum = _
  rw [List.map_replicate, List.sum_replicate, nsmul_eq_mul, length_batch, Int.toNat_of_nonneg hp.2.le]

theorem held_batch (hblock : e.blockSize = a.blockSize) (p : Int × Int) (hp : 0 < p.1 ∧ 0 < p.2) :
    (e.schedule (a.batch p hp)).held (a.cellTokens - 1) * e.blockSize = p.2 * a.blockTokens p.1 := by
  have hge := a.cellTokens_ge
  have halive : (e.schedule (a.batch p hp)).Alive (a.cellTokens - 1) 0 :=
    (e.alive_schedule _ _).2 ⟨by omega, Nat.sub_lt (by omega) Nat.one_pos⟩
  have hheld : (e.schedule (a.batch p hp)).heldBy (a.cellTokens - 1) 0 = ⌈(a.liveAt p.1 : ℚ) / a.blockSize⌉ := by
    rw [Stagger.heldBy, if_pos halive, length_batch, ← hblock]
    rfl
  show ((List.replicate p.2.toNat 0).map _).sum * _ = _
  rw [List.map_replicate, List.sum_replicate, nsmul_eq_mul, hheld, Int.toNat_of_nonneg hp.2.le, hblock, mul_assoc]
  rfl

/-- **A cell of the dry run reads its live tokens and their whole blocks.** -/
theorem Regular.runCell_read (h : a.Regular seqLens batchSizes) (hblock : e.blockSize = a.blockSize) {p : Int × Int}
    (hp : 0 < p.1 ∧ 0 < p.2) (hroomy : e.Roomy (a.batch p hp)) {prompts : List Text}
    (hprompts : (prompts.length : Int) = p.2) {seen : List Text} {s : FakeState}
    (hidle : ∀ b, FakeEngine.Serving e b seen [] 0 s)
    (hnew : ∀ i k, cellRequestId a.campaignId p.1 p.2 i k ∉ seen) :
    Act.Returns (runCell e.driver a.context p.1 p.2 a.nSamples prompts) s (fun cell s' =>
      cell.reading = a.expected p ∧ ∃ seen', (∀ b, FakeEngine.Serving e b seen' [] 0 s') ∧
        ∀ rid ∈ seen', rid ∈ seen ∨ ∃ i k, rid = cellRequestId a.campaignId p.1 p.2 i k) := by
  have hn := h.nSamples
  have htheory := h.theoryBpt
  have hfits : (e.schedule (a.batch p hp)).Fits a.context p.1 p.2 := by
    refine ⟨?_, rfl, a.cellTokens_eq, hblock, by show 0 < a.theoryBpt; omega, h.overhead.le⟩
    show ((List.replicate p.2.toNat 0).length : Int) = p.2
    rw [List.length_replicate, Int.toNat_of_nonneg hp.2.le]
  have hbudget : ((0 : Nat) : Int) ≤ -Int.fdiv (-p.2 * p.1) defaultMaxNumBatchedTokens + 8 := by
    have hneg : -p.2 * p.1 ≤ 0 := mul_nonpos_of_nonpos_of_nonneg (by omega) hp.1.le
    rw [defaultMaxNumBatchedTokens, Int.fdiv_eq_ediv_of_nonneg _ (by decide)]
    omega
  have hchunk : ¬ defaultMaxNumBatchedTokens = 0 := by decide
  refine (Stagger.runCell_staggered (FakeEngine.serves hroomy) hfits hn hprompts (if_neg hchunk) hbudget
    (hidle _) hnew).mono (fun cell s' ⟨hfields, seen', hs', hseen⟩ => ⟨?_, seen', fun b => hs'.idle_congr, hseen⟩)
  have hused : cell.kvBytesUsedSamples = List.replicate a.nSamples.toNat (p.2 * a.blockTokens p.1 * a.theoryBpt) := by
    rw [hfields, ← held_batch hblock p hp]
    rfl
  unfold KvScalingCell.reading expected
  rw [p50Bytes_replicate (by omega) hused, hfields, ← live_batch a e p hp]
  rfl

theorem Regular.dryRunCells_read (h : a.Regular seqLens batchSizes) (hblock : e.blockSize = a.blockSize)
    (hroomy : ∀ p ∈ a.grid, ∀ hp : 0 < p.1 ∧ 0 < p.2, e.Roomy (a.batch p hp)) :
    ∀ (g : List (Int × Int)) {seen : List Text} {s : FakeState}, g.Nodup → (∀ p ∈ g, p ∈ a.grid) →
    (∀ b, FakeEngine.Serving e b seen [] 0 s) →
    (∀ p ∈ g, ∀ i k, cellRequestId a.campaignId p.1 p.2 i k ∉ seen) →
    Act.Returns (dryRunCells e.driver a g) s (fun cells _ => cells.map KvScalingCell.reading = g.map a.expected)
  | [], _, _, _, _, _, _ => Act.returns_pure rfl
  | p :: g, seen, s, hnodup, hmem, hidle, hnew => by
    rw [List.nodup_cons] at hnodup
    have hp := h.mem_grid (hmem p List.mem_cons_self)
    have hprompts : ((List.replicate p.2.toNat ("fake-prompt-".toList ++ Text.ofInt p.1)).length : Int) = p.2 := by
      rw [List.length_replicate, Int.toNat_of_nonneg hp.2.le]
    have hcell := h.runCell_read hblock hp (hroomy p (hmem p List.mem_cons_self) hp) hprompts hidle
      (hnew p List.mem_cons_self)
    unfold dryRunCells
    refine hcell.bind (fun cell s₁ ⟨hread, seen', hs₁, hseen⟩ => ?_)
    have hlater : ∀ q ∈ g, ∀ i k, cellRequestId a.campaignId q.1 q.2 i k ∉ seen' := by
      intro q hq i k hin
      rcases hseen _ hin with hin | ⟨i', k', heq⟩
      · exact hnew q (List.mem_cons_of_mem _ hq) i k hin
      · obtain ⟨hq₁, hq₂⟩ := h.mem_grid (hmem q (List.mem_cons_of_mem _ hq))
        have hqp := cellRequestId_cell hq₁.le hq₂.le hp.1.le hp.2.le heq
        exact hnodup.1 (Prod.ext hqp.1 hqp.2 ▸ hq)
    refine (h.dryRunCells_read hblock hroomy g hnodup.2 (fun q hq => hmem q (List.mem_cons_of_mem _ hq)) hs₁
      hlater).bind (fun cells s₂ hcells => Act.returns_pure ?_)
    rw [List.map_cons, List.map_cons, hread, hcells]

end DryRunArgs

/-! ## The slope -/

/-- The mean over the cells of the live tokens of one of their sequences. -/
def meanLive (cells : List KvScalingCell) : ℚ := avg cells (fun c => (c.totalTokens : ℚ) / c.batchSize)

namespace DryRunArgs.Regular

variable {a : DryRunArgs} {seqLens batchSizes : List Int}

theorem liveAt_pos (a : DryRunArgs) {s : Int} (hs : 0 < s) : (0 : ℚ) < a.liveAt s := by
  have hlive : 0 < a.liveAt s := by
    unfold liveAt
    omega
  exact_mod_cast hlive

/-- **Every sequence is rounded up by the same number of tokens**, less than a block. -/
theorem exists_rounding (h : a.Regular seqLens batchSizes) :
    ∃ δ : Int, 0 ≤ δ ∧ δ ≤ a.blockSize - 1 ∧ ∀ s ∈ seqLens, a.blockTokens s = a.liveAt s + δ := by
  have hblock : 0 < a.blockSize := h.blockSize
  obtain ⟨t, ht⟩ := List.exists_mem_of_ne_nil _ h.seqs_ne_nil
  refine ⟨-a.liveAt t % a.blockSize, Int.emod_nonneg _ hblock.ne', ?_, fun s hs => ?_⟩
  · have := Int.emod_lt_of_pos (-a.liveAt t) hblock
    omega
  · have hst : s ≡ t [ZMOD a.blockSize] := h.congruent s hs t ht
    have hmod : -a.liveAt s ≡ -a.liveAt t [ZMOD a.blockSize] := (hst.add_right _).neg
    rw [blockTokens, ceil_div_mul (a.liveAt s) hblock, hmod]

/-- The grid has two points with different token counts. -/
theorem cov_pos (h : a.Regular seqLens batchSizes) :
    0 < cov a.grid (fun p => (a.liveAt p.1 : ℚ) * p.2) (fun p => (a.liveAt p.1 : ℚ) * p.2) := by
  rw [h.grid_eq]
  refine cov_product_pos (f := fun s => (a.liveAt s : ℚ)) (g := fun b : Int => (b : ℚ)) h.seqs_ne_nil h.sizes_ne_nil
    (fun s hs => liveAt_pos a (h.seqsPos s hs)) (fun b hb => by exact_mod_cast h.sizesPos b hb) ?_
  have htwo : ∀ {l : List Int}, l.Nodup → 2 ≤ l.length → ∃ x ∈ l, ∃ y ∈ l, x ≠ y := by
    intro l hnodup hlen
    match l, hnodup, hlen with
    | x :: y :: l, hnodup, _ =>
      refine ⟨x, List.mem_cons_self, y, List.mem_cons_of_mem _ List.mem_cons_self, ?_⟩
      rintro rfl
      exact (List.nodup_cons.1 hnodup).1 List.mem_cons_self
  have hcells := h.cells
  rcases Nat.lt_or_ge 1 seqLens.length with hlen | hlen
  · obtain ⟨x, hx, y, hy, hne⟩ := htwo h.seqsNodup hlen
    refine Or.inl (cov_self_pos hx hy (fun heq => hne ?_))
    have heq' : a.liveAt x = a.liveAt y := by exact_mod_cast heq
    unfold liveAt at heq'
    omega
  · have hlen' : 2 ≤ batchSizes.length := by
      have hone : seqLens.length = 1 := by
        have := List.length_pos_iff.2 h.seqs_ne_nil
        omega
      rwa [hone, Nat.one_mul] at hcells
    obtain ⟨x, hx, y, hy, hne⟩ := htwo h.sizesNodup hlen'
    exact Or.inr (cov_self_pos hx hy (fun heq => hne (by exact_mod_cast heq)))

section Cells

variable {cells : List KvScalingCell}

theorem totals_eq (hcells : cells.map KvScalingCell.reading = a.grid.map a.expected) :
    cells.map (fun c => (c.totalTokens : ℚ)) = a.grid.map (fun p => (a.liveAt p.1 : ℚ) * p.2) := by
  have hmap := congrArg (List.map (fun r : Int × Int × ℚ => (r.1 : ℚ))) hcells
  rw [List.map_map, List.map_map] at hmap
  refine hmap.trans (List.map_congr_left (fun p _ => ?_))
  show ((p.2 * a.liveAt p.1 : Int) : ℚ) = _
  push_cast
  ring

theorem p50_eq (h : a.Regular seqLens batchSizes) {δ : Int}
    (hδ : ∀ s ∈ seqLens, a.blockTokens s = a.liveAt s + δ)
    (hcells : cells.map KvScalingCell.reading = a.grid.map a.expected) :
    cells.map (fun c => c.p50Bytes) =
      a.grid.map (fun p => (a.theoryBpt : ℚ) * ((a.liveAt p.1 : ℚ) * p.2 + (δ : ℚ) * p.2)) := by
  have hmap := congrArg (List.map (fun r : Int × Int × ℚ => r.2.2)) hcells
  rw [List.map_map, List.map_map] at hmap
  refine hmap.trans (List.map_congr_left (fun p hp => ?_))
  rw [h.grid_eq] at hp
  show ((p.2 * a.blockTokens p.1 * a.theoryBpt : Int) : ℚ) = _
  rw [hδ p.1 (List.pair_mem_product.1 hp).1]
  push_cast
  ring

theorem meanLive_eq (h : a.Regular seqLens batchSizes)
    (hcells : cells.map KvScalingCell.reading = a.grid.map a.expected) :
    meanLive cells = avg seqLens (fun s => (a.liveAt s : ℚ)) := by
  have hmap := congrArg (List.map (fun r : Int × Int × ℚ => (r.1 : ℚ) / r.2.1)) hcells
  rw [List.map_map, List.map_map] at hmap
  have hlen := congrArg List.length hcells
  rw [List.length_map, List.length_map] at hlen
  have hratio : a.grid.map ((fun r : Int × Int × ℚ => (r.1 : ℚ) / r.2.1) ∘ a.expected) =
      a.grid.map (fun p => (a.liveAt p.1 : ℚ)) := by
    refine List.map_congr_left (fun p hp => ?_)
    have hpos : (p.2 : ℚ) ≠ 0 := by exact_mod_cast (h.mem_grid hp).2.ne'
    show ((p.2 * a.liveAt p.1 : Int) : ℚ) / p.2 = _
    push_cast
    field_simp
  have havg := avg_product_left seqLens h.sizes_ne_nil (fun s => (a.liveAt s : ℚ))
  rw [← havg, ← h.grid_eq]
  unfold meanLive avg
  rw [← hratio, ← hmap, hlen]
  rfl

end Cells

/-- The slope over a regular grid, when every sequence loses `δ` tokens to its last block. -/
theorem slope_bounds (h : a.Regular seqLens batchSizes) {δ : Int} (hδ₀ : 0 ≤ δ) (hδ₁ : δ ≤ a.blockSize - 1) :
    let slope := slope a.grid (fun p => (a.liveAt p.1 : ℚ) * p.2)
      (fun p => (a.theoryBpt : ℚ) * ((a.liveAt p.1 : ℚ) * p.2 + (δ : ℚ) * p.2))
    (a.theoryBpt : ℚ) ≤ slope ∧
      slope ≤ a.theoryBpt * (1 + ((a.blockSize : ℚ) - 1) / avg seqLens (fun s => (a.liveAt s : ℚ))) := by
  intro slope
  have hx := h.cov_pos
  have hpos : ∀ s ∈ seqLens, (0 : ℚ) < a.liveAt s := fun s hs => liveAt_pos a (h.seqsPos s hs)
  have htheory : (0 : ℚ) ≤ a.theoryBpt := by
    have := h.theoryBpt
    exact_mod_cast (by omega : 0 ≤ a.theoryBpt)
  have hδ₀' : (0 : ℚ) ≤ δ := by exact_mod_cast hδ₀
  have hδ₁' : (δ : ℚ) ≤ a.blockSize - 1 := by exact_mod_cast hδ₁
  have hle : slope ≤ a.theoryBpt * (1 + (δ : ℚ) / avg seqLens (fun s => (a.liveAt s : ℚ))) := by
    simp only [slope]
    rw [h.grid_eq] at hx ⊢
    exact slope_product_le (f := fun s => (a.liveAt s : ℚ)) (g := fun b : Int => (b : ℚ)) h.seqs_ne_nil
      h.sizes_ne_nil hpos hx htheory hδ₀'
  constructor
  · simp only [slope]
    rw [h.grid_eq] at hx ⊢
    exact le_slope_product (f := fun s => (a.liveAt s : ℚ)) (g := fun b : Int => (b : ℚ)) h.seqs_ne_nil
      h.sizes_ne_nil hpos hx htheory hδ₀'
  · refine hle.trans (mul_le_mul_of_nonneg_left (add_le_add (le_refl 1) ?_) htheory)
    exact div_le_div_of_nonneg_right hδ₁' (avg_pos h.seqs_ne_nil hpos).le

/-- The slope test of the gate: a slope in these bounds passes it. -/
theorem slope_passes (h : a.Regular seqLens batchSizes) {regression : RegressionFit}
    (hlo : (a.theoryBpt : ℚ) ≤ regression.slopeBpt)
    (hhi : regression.slopeBpt ≤
      a.theoryBpt * (1 + ((a.blockSize : ℚ) - 1) / avg seqLens (fun s => (a.liveAt s : ℚ)))) :
    checkDryRunGate regression a.theoryBpt a.blockSize (minSeqLen a) = .ok () ∨
      ∃ r2, checkDryRunGate regression a.theoryBpt a.blockSize (minSeqLen a) = .error (.r2Below r2) := by
  have htheory : (0 : ℚ) < a.theoryBpt := by
    have := h.theoryBpt
    exact_mod_cast (by omega : 0 < a.theoryBpt)
  have hblock : (1 : ℚ) ≤ a.blockSize := by exact_mod_cast h.blockSize
  obtain ⟨m, hm⟩ := Option.ne_none_iff_exists'.1 (fun hnone => h.seqs_ne_nil (List.min?_eq_none_iff.1 hnone))
  have hmin : minSeqLen a = m := by
    rw [minSeqLen, h.seqs_eq, hm]
    rfl
  have hmpos : (0 : ℚ) < m := by exact_mod_cast h.seqsPos m (List.min?_mem hm)
  have hmean : (m : ℚ) ≤ avg seqLens (fun s => (a.liveAt s : ℚ)) := by
    refine le_avg h.seqs_ne_nil (fun s hs => ?_)
    have hle := (List.le_min?_iff hm).1 (le_refl m) s hs
    have hlive : m ≤ a.liveAt s := by
      unfold liveAt
      omega
    exact_mod_cast hlive
  have hshare : ((a.blockSize : ℚ) - 1) / avg seqLens (fun s => (a.liveAt s : ℚ)) ≤ a.blockSize / m :=
    div_le_div₀ (by linarith) (by linarith) hmpos hmean
  have hbounds : (a.theoryBpt : ℚ) * (999 / 1000) ≤ regression.slopeBpt ∧
      regression.slopeBpt ≤ a.theoryBpt * (1 + (a.blockSize : ℚ) / m) := by
    refine ⟨by linarith, hhi.trans (mul_le_mul_of_nonneg_left (by linarith) htheory.le)⟩
  have hm0 : m ≠ 0 := by exact_mod_cast hmpos.ne'
  unfold checkDryRunGate
  rw [hmin, if_neg (by have := h.theoryBpt; omega), if_neg hm0]
  simp only [hbounds, and_self, not_true_eq_false, if_false]
  split
  · exact Or.inr ⟨_, rfl⟩
  · exact Or.inl rfl

/-- After its cells and its fit the campaign is refused by the gate, by the knee search, or not at all. -/
theorem campaign_refused (h : a.Regular seqLens batchSizes) {e : FakeEngine} {cells : List KvScalingCell} {s : FakeState}
    {regression : RegressionFit} (he : a.engine? = .ok e)
    (hrun : dryRunCells e.driver a a.grid .fresh = (.ok cells, s)) (hne : cells ≠ [])
    (hfit : dryRunFit cells = .ok regression) {x : DryRunError} (hx : runDryRunCampaign a = .error x) :
    (∃ k, checkDryRunGate regression a.theoryBpt a.blockSize (minSeqLen a) = .error k ∧ x = .fit k) ∨
      ∃ k, findKnee cells a.fixedOverheadBytes = .error k ∧ x = .fit k := by
  have hcells := h.cells
  have hblock := h.blockSize
  have htheory := h.theoryBpt
  have hlen : 1 ≤ cells.length := List.length_pos_iff.2 hne
  unfold runDryRunCampaign at hx
  rw [h.seqs_eq, h.batches_eq, if_neg (by omega), if_neg (by omega), he] at hx
  simp only [Except.mapError, Act.except_ok_bind, hrun, hfit] at hx
  cases hgate : checkDryRunGate regression a.theoryBpt a.blockSize (minSeqLen a) with
  | error k =>
    rw [hgate] at hx
    cases hx
    exact Or.inl ⟨k, rfl, rfl⟩
  | ok u =>
    rw [hgate] at hx
    cases hknee : findKnee cells a.fixedOverheadBytes with
    | error k =>
      rw [hknee] at hx
      cases hx
      exact Or.inr ⟨k, rfl, rfl⟩
    | ok knee =>
      rw [hknee] at hx
      have hmake : KvScalingCampaign.make? a.campaignId "fake".toList cells a.theoryBpt regression knee = .error x := hx
      rw [KvScalingCampaign.make?, dif_pos ⟨hlen, by omega⟩] at hmake
      cases hmake

end DryRunArgs.Regular

/-- **The dry run recovers the injected slope**: every cell of a regular grid is measured, and the slope fitted to them is
the injected one raised by less than the share of a block in a sequence, so only its R² or the knee search can refuse the
campaign. -/
theorem dry_run_recovers_slope (a : DryRunArgs) (seqLens batchSizes : List Int) (h : a.Regular seqLens batchSizes) :
    ∃ e cells s regression, a.engine? = .ok e ∧ dryRunCells e.driver a a.grid .fresh = (.ok cells, s) ∧
      dryRunFit cells = .ok regression ∧ (a.theoryBpt : ℚ) ≤ regression.slopeBpt ∧
      regression.slopeBpt ≤ a.theoryBpt * (1 + ((a.blockSize : ℚ) - 1) / meanLive cells) ∧
      (checkDryRunGate regression a.theoryBpt a.blockSize (minSeqLen a) = .ok () ∨
        ∃ r2, checkDryRunGate regression a.theoryBpt a.blockSize (minSeqLen a) = .error (.r2Below r2)) ∧
      ∀ x, runDryRunCampaign a = .error x → (∃ r2, x = .fit (.r2Below r2)) ∨
        ∃ k, findKnee cells a.fixedOverheadBytes = .error k ∧ x = .fit k := by
  obtain ⟨e, he, hblock, hroomy⟩ := h.engine_ok
  obtain ⟨cells, s, hrun, hcells⟩ := h.dryRunCells_read hblock hroomy a.grid h.grid_nodup (fun _ hp => hp)
    (FakeEngine.Serving.fresh e) (fun _ _ _ _ hin => by cases hin)
  obtain ⟨δ, hδ₀, hδ₁, hδ⟩ := h.exists_rounding
  obtain ⟨hlo, hhi⟩ := h.slope_bounds hδ₀ hδ₁
  have htheory : (0 : ℚ) ≤ a.theoryBpt := by
    have := h.theoryBpt
    exact_mod_cast (by omega : 0 ≤ a.theoryBpt)
  have hlen : 2 ≤ a.grid.length := by
    rw [h.grid_eq, List.length_product]
    exact h.cells
  obtain ⟨regression, hfit, hslope, -⟩ := fitBytesPerToken_ok a.grid (fun p => (a.liveAt p.1 : ℚ) * p.2)
    (fun p => (a.theoryBpt : ℚ) * ((a.liveAt p.1 : ℚ) * p.2 + (δ : ℚ) * p.2)) hlen h.cov_pos (htheory.trans hlo)
  rw [← hslope] at hlo hhi
  have hgate := h.slope_passes hlo hhi
  have hfitted : dryRunFit cells = .ok regression := by
    rw [dryRunFit, DryRunArgs.Regular.totals_eq hcells, h.p50_eq hδ hcells, hfit]
  have hne : cells ≠ [] := by
    rintro rfl
    have hnil := congrArg List.length hcells
    rw [List.map_nil, List.length_nil, List.length_map] at hnil
    omega
  refine ⟨e, cells, s, regression, he, hrun, hfitted, hlo, ?_, hgate, fun x hx => ?_⟩
  · rw [h.meanLive_eq hcells]
    exact hhi
  · rcases h.campaign_refused he hrun hne hfitted hx with ⟨k, hk, rfl⟩ | hknee
    · rcases hgate with hok | ⟨r2, hr2⟩
      · rw [hok] at hk
        cases hk
      · rw [hr2] at hk
        cases hk
        exact Or.inl ⟨r2, rfl⟩
    · exact Or.inr hknee

/-- Two lengths and two batch sizes, with the command's defaults. -/
def smallGrid : DryRunArgs where
  campaignId := "kv-scaling-dry-run".toList
  seqLens := some [16, 32]
  batchSizes := some [1, 2]
  nSamples := 5
  theoryBpt := 12288
  blockSize := 16
  decodeTokens := 4
  totalBlocks := 32768
  fixedOverheadBytes := 2097152

theorem smallGrid_recovers : ∃ e cells s regression, smallGrid.engine? = .ok e ∧
    dryRunCells e.driver smallGrid smallGrid.grid .fresh = (.ok cells, s) ∧ dryRunFit cells = .ok regression ∧
    (12288 : Int) ≤ regression.slopeBpt ∧
    regression.slopeBpt ≤ (12288 : Int) * (1 + (((16 : Int) : ℚ) - 1) / meanLive cells) ∧
    (checkDryRunGate regression 12288 16 (minSeqLen smallGrid) = .ok () ∨
      ∃ r2, checkDryRunGate regression 12288 16 (minSeqLen smallGrid) = .error (.r2Below r2)) ∧
    ∀ x, runDryRunCampaign smallGrid = .error x → (∃ r2, x = .fit (.r2Below r2)) ∨
      ∃ k, findKnee cells 2097152 = .error k ∧ x = .fit k :=
  dry_run_recovers_slope smallGrid [16, 32] [1, 2] ⟨rfl, rfl, by decide, by decide, by decide, by decide, by decide,
    by decide, by decide, by decide, by decide, by decide, by decide⟩

end GoodputLab
