import GoodputLab.KvCell
import GoodputLab.KvStaggerSample
/-!
# KvStaggerCell — a cell of an engine that serves its batches staggered

The request ids of all samples of all cells are different (`cellRequestId_inj`), so every sample of a cell finds the
engine ready and reads the same; the cell holds those readings (`runCell_staggered`), or its first sample raises
(`runCell_outOfSteps`).
-/
namespace GoodputLab

open KvSweep (runCell)

/-! ## The ids -/

/-- **An id names its cell, its sample and its place in the batch.** -/
theorem cellRequestId_inj {campaignId : Text} {s b i k s' b' i' k' : Nat}
    (h : cellRequestId campaignId s b i k = cellRequestId campaignId s' b' i' k') :
    s = s' ∧ b = b' ∧ i = i' ∧ k = k' := by
  have hpeel : ∀ {x y : Text} {c : Char}, '-' :: c :: x = '-' :: c :: y → x = y := fun hxy =>
    (List.cons.inj (List.cons.inj hxy).2).2
  unfold cellRequestId at h
  simp only [Text.ofInt_natCast, List.append_assoc, String.reduceToList, List.cons_append, List.nil_append] at h
  obtain ⟨hs, h⟩ := Text.ofNat_sep_inj rfl (hpeel (List.append_cancel_left h))
  obtain ⟨hb, h⟩ := Text.ofNat_sep_inj rfl (List.cons.inj h).2
  obtain ⟨hi, h⟩ := Text.ofNat_sep_inj rfl (List.cons.inj h).2
  exact ⟨hs, hb, hi, Text.ofNat_injective (List.cons.inj h).2⟩

theorem cellRequestId_cell {campaignId : Text} {s b s' b' : Int} {i k i' k' : Nat} (hs : 0 ≤ s) (hb : 0 ≤ b)
    (hs' : 0 ≤ s') (hb' : 0 ≤ b') (h : cellRequestId campaignId s b i k = cellRequestId campaignId s' b' i' k') :
    s = s' ∧ b = b' := by
  obtain ⟨m, rfl⟩ := Int.eq_ofNat_of_zero_le hs
  obtain ⟨n, rfl⟩ := Int.eq_ofNat_of_zero_le hb
  obtain ⟨m', rfl⟩ := Int.eq_ofNat_of_zero_le hs'
  obtain ⟨n', rfl⟩ := Int.eq_ofNat_of_zero_le hb'
  obtain ⟨hm, hn, -⟩ := cellRequestId_inj h
  exact ⟨congrArg Int.ofNat hm, congrArg Int.ofNat hn⟩

theorem mem_cellRequestIds {ctx : SweepContext} {seqLen batchSize : Int} {i : Nat} {rid : Text}
    (h : rid ∈ cellRequestIds ctx seqLen batchSize i) : ∃ k, rid = cellRequestId ctx.campaignId seqLen batchSize i k := by
  obtain ⟨k, -, rfl⟩ := List.mem_map.1 h
  exact ⟨k, rfl⟩

theorem cellRequestIds_nodup (ctx : SweepContext) (s b i : Nat) : (cellRequestIds ctx s b i).Nodup :=
  List.Nodup.map (fun _ _ h => (cellRequestId_inj h).2.2.2) List.nodup_range

namespace Stagger

variable {σ : Type} {d : EngineDriver σ} {p : Stagger}

/-! ## The samples -/

theorem runSamples_staggered (engine : Serves d p) (args : Nat → SampleArgs) {theoryBpt : Int}
    (hasks : ∀ i, p.Asks (args i)) (htheory : ∀ i, (args i).theoryBpt = theoryBpt)
    (hbudget : ∀ i, (p.last : Int) ≤ (args i).prefillChunks + 8)
    (hdistinct : ∀ i j rid, rid ∈ (args i).requestIds → rid ∈ (args j).requestIds → i = j) :
    ∀ (n i : Nat) {seen : List Text} {s : σ}, engine.idle seen s →
    (∀ j, i ≤ j → ∀ rid ∈ (args j).requestIds, rid ∉ seen) →
    Act.Returns (runSamples d args n i) s (fun rs s' => rs = List.replicate n (p.readings theoryBpt) ∧
      ∃ seen', engine.idle seen' s' ∧ ∀ rid ∈ seen', rid ∈ seen ∨ ∃ j, rid ∈ (args j).requestIds)
  | 0, _, seen, _, hidle, _ => Act.returns_pure ⟨rfl, seen, hidle, fun _ hr => Or.inl hr⟩
  | n + 1, i, seen, s, hidle, hnew => by
    unfold runSamples
    have hsample := sample_staggered engine (hasks i) hidle (hnew i (le_refl i)) (hbudget i)
    refine hsample.mapError.bind (fun r s₁ ⟨hr, hs₁⟩ => ?_)
    have hlater : ∀ j, i + 1 ≤ j → ∀ rid ∈ (args j).requestIds, rid ∉ seen ++ (args i).requestIds := by
      intro j hj rid hrid hmem
      rcases List.mem_append.1 hmem with hmem | hmem
      · exact hnew j (by omega) rid hrid hmem
      · have := hdistinct j i rid hrid hmem
        omega
    refine (runSamples_staggered engine args hasks htheory hbudget hdistinct n (i + 1) hs₁ hlater).bind
      (fun rs s₂ ⟨hrs, seen', hs₂, hseen⟩ => ?_)
    refine Act.returns_pure ⟨?_, seen', hs₂, fun rid hmem => ?_⟩
    · rw [hr, hrs, htheory i, List.replicate_succ]
    · rcases hseen rid hmem with hmem | hmem
      · rcases List.mem_append.1 hmem with hmem | hmem
        · exact Or.inl hmem
        · exact Or.inr ⟨i, hmem⟩
      · exact Or.inr hmem

theorem runSamples_outOfSteps (engine : Serves d p) (args : Nat → SampleArgs) {i : Nat} (hasks : p.Asks (args i))
    (hbudget : (args i).prefillChunks + 8 < (p.last : Int)) (n : Nat) {seen : List Text} {s : σ}
    (hidle : engine.idle seen s) (hnew : ∀ rid ∈ (args i).requestIds, rid ∉ seen) :
    Act.Raises (runSamples d args (n + 1) i) s :=
  (sample_outOfSteps engine hasks hidle hnew hbudget).mapError.bind

/-! ## The cell -/

/-- The cell is the one `p` serves. -/
structure Fits (p : Stagger) (ctx : SweepContext) (seqLen batchSize : Int) : Prop where
  batch     : (p.starts.length : Int) = batchSize
  seq       : p.seqLen = seqLen
  tokens    : (p.tokens : Int) = cellDecodeTokens ctx.decodeTokens
  blocks    : p.blockSize = ctx.blockSize
  theoryPos : 0 < ctx.theoryBpt
  baseline  : 0 ≤ ctx.baselineBytes

variable {ctx : SweepContext} {seqLen batchSize : Int} {prompts : List Text}

theorem Fits.lift (h : p.Fits ctx seqLen batchSize) :
    ∃ s b : Nat, seqLen = s ∧ batchSize = b ∧ p.starts.length = b ∧ 0 < s ∧ 0 < b := by
  have hseq := p.seqPos
  have hlen := List.length_pos_of_mem p.firstMem
  have hs := h.seq
  exact ⟨seqLen.toNat, p.starts.length, by omega, h.batch.symm, rfl, by omega, hlen⟩

theorem Fits.asks (h : p.Fits ctx seqLen batchSize) (hprompts : (prompts.length : Int) = batchSize) (chunks : Int)
    (i : Nat) : p.Asks (cellArgs ctx seqLen batchSize prompts chunks i) := by
  obtain ⟨s, b, rfl, rfl, hlen, -, -⟩ := h.lift
  refine ⟨?_, cellRequestIds_nodup ctx s b i, ?_, ?_, h.tokens.symm, rfl, h.blocks.symm, h.theoryPos⟩
  · rw [hlen]
    simp [cellArgs, cellRequestIds]
  · rw [hlen]
    exact_mod_cast hprompts
  · rw [hlen, h.seq]
    rfl

/-- The record of the cell, after `nSamples` samples. -/
def cellFields (p : Stagger) (ctx : SweepContext) (batchSize nSamples : Int) : CellFields where
  modelId := ctx.modelId
  gpu := ctx.gpu
  vllmVersion := ctx.vllmVersion
  seqLen := p.seqLen
  batchSize := batchSize
  nSamples := nSamples
  kvBytesUsedSamples := List.replicate nSamples.toNat (p.held (p.tokens - 1) * p.blockSize * ctx.theoryBpt)
  kvBytesPrefillSamples := some (List.replicate nSamples.toNat (p.held (p.last + 1) * p.blockSize * ctx.theoryBpt))
  totalTokens := p.live (p.tokens - 1)
  baselineBytes := ctx.baselineBytes
  method := ctx.method

theorem live_pos (p : Stagger) (k : Nat) : 0 < p.live k := by
  refine List.sum_pos _ (fun x hx => ?_) (fun hnil => ?_)
  · obtain ⟨start, -, rfl⟩ := List.mem_map.1 hx
    exact p.length_pos k start
  · rw [List.map_eq_nil_iff] at hnil
    have hmem := p.firstMem
    rw [hnil] at hmem
    cases hmem

theorem Fits.check_ok (h : p.Fits ctx seqLen batchSize) {nSamples : Int} (hn : 1 ≤ nSamples) :
    (p.cellFields ctx batchSize nSamples).check = .ok () := by
  obtain ⟨s, b, hs, hb, -, hspos, hbpos⟩ := h.lift
  have hseq := p.seqPos
  have hlive := p.live_pos (p.tokens - 1)
  have hbase := h.baseline
  have hlen : (nSamples.toNat : Int) = nSamples := by omega
  have hrefused : (p.cellFields ctx batchSize nSamples).refused = [] := by
    unfold CellFields.refused cellFields
    simp only [List.length_replicate]
    rw [decide_eq_true hseq, decide_eq_true (by omega), decide_eq_true (by omega), decide_eq_true (by omega),
      decide_eq_true hlive, decide_eq_true hbase]
    rfl
  unfold CellFields.check
  rw [hrefused]
  simp [cellFields, hlen]

theorem headD_replicate {α : Type} {n : Nat} (h : 0 < n) (x y : α) : (List.replicate n x).headD y = x := by
  obtain ⟨m, rfl⟩ := Nat.exists_eq_succ_of_ne_zero h.ne'
  rfl

/-- **A cell whose samples' budget reaches the last token** holds the readings of the first and the last step with the
whole batch alive, and leaves the engine ready for other cells. -/
theorem runCell_staggered (engine : Serves d p) (h : p.Fits ctx seqLen batchSize) {nSamples chunks : Int}
    (hn : 1 ≤ nSamples) (hprompts : (prompts.length : Int) = batchSize)
    (hchunks : prefillChunks batchSize seqLen ctx.maxNumBatchedTokens = .ok chunks)
    (hbudget : (p.last : Int) ≤ chunks + 8) {seen : List Text} {s : σ} (hidle : engine.idle seen s)
    (hnew : ∀ i k, cellRequestId ctx.campaignId seqLen batchSize i k ∉ seen) :
    Act.Returns (runCell d ctx seqLen batchSize nSamples prompts) s (fun cell s' =>
      cell.toCellFields = p.cellFields ctx batchSize nSamples ∧
      ∃ seen', engine.idle seen' s' ∧
        ∀ rid ∈ seen', rid ∈ seen ∨ ∃ i k, rid = cellRequestId ctx.campaignId seqLen batchSize i k) := by
  have hdistinct : ∀ i j rid, rid ∈ cellRequestIds ctx seqLen batchSize i → rid ∈ cellRequestIds ctx seqLen batchSize j →
      i = j := by
    obtain ⟨s', b, rfl, rfl, -⟩ := h.lift
    intro i j rid hi hj
    obtain ⟨k, rfl⟩ := mem_cellRequestIds hi
    obtain ⟨k', hk'⟩ := mem_cellRequestIds hj
    exact (cellRequestId_inj hk').2.2.1
  have hfresh : ∀ j, 0 ≤ j → ∀ rid ∈ cellRequestIds ctx seqLen batchSize j, rid ∉ seen := by
    intro j _ rid hr
    obtain ⟨k, rfl⟩ := mem_cellRequestIds hr
    exact hnew j k
  have hsamples := runSamples_staggered engine (cellArgs ctx seqLen batchSize prompts chunks)
    (fun i => h.asks hprompts chunks i) (fun _ => rfl) (fun _ => hbudget) hdistinct nSamples.toNat 0 hidle hfresh
  unfold runCell
  rw [Act.Returns, decide_eq_false (by omega), hprompts, decide_eq_false (not_not.2 rfl), hchunks]
  show Act.Returns (_ >>= _) s _
  refine hsamples.bind (fun rs s' hrun => ?_)
  obtain ⟨hrs, seen', hs', hseen⟩ := hrun
  have hlive : rs.map (fun r => r.liveTokensDecode) = List.replicate nSamples.toNat (p.live (p.tokens - 1)) := by
    rw [hrs, List.map_replicate]
    rfl
  have hhead := headD_replicate (n := nSamples.toNat) (by omega) (p.live (p.tokens - 1)) 0
  have hsame : (List.replicate nSamples.toNat (p.live (p.tokens - 1))).any
      (fun c => decide (c ≠ p.live (p.tokens - 1))) = false := by
    rw [List.any_eq_false]
    intro c hc
    simpa using List.eq_of_mem_replicate hc
  have hfields : (⟨ctx.modelId, ctx.gpu, ctx.vllmVersion, seqLen, batchSize, nSamples,
      rs.map (fun r => r.kvBytesDecode), some (rs.map (fun r => r.kvBytesPrefill)), p.live (p.tokens - 1),
      ctx.baselineBytes, ctx.method⟩ : CellFields) = p.cellFields ctx batchSize nSamples := by
    rw [hrs, List.map_replicate, List.map_replicate, ← h.seq]
    rfl
  simp only [hlive, hhead, hsame]
  rw [hfields, KvScalingCell.make?_ok (h.check_ok hn)]
  refine ⟨⟨_, h.check_ok hn⟩, s', rfl, rfl, seen', hs', fun rid hr => ?_⟩
  rcases hseen rid hr with hr | ⟨j, hj⟩
  · exact Or.inl hr
  · obtain ⟨k, hk⟩ := mem_cellRequestIds hj
    exact Or.inr ⟨j, k, hk⟩

/-- **A cell whose budget does not reach it is refused.** -/
theorem runCell_outOfSteps (engine : Serves d p) (h : p.Fits ctx seqLen batchSize) {nSamples chunks : Int}
    (hn : 1 ≤ nSamples) (hprompts : (prompts.length : Int) = batchSize)
    (hchunks : prefillChunks batchSize seqLen ctx.maxNumBatchedTokens = .ok chunks)
    (hbudget : chunks + 8 < (p.last : Int)) {seen : List Text} {s : σ} (hidle : engine.idle seen s)
    (hnew : ∀ i k, cellRequestId ctx.campaignId seqLen batchSize i k ∉ seen) :
    Act.Raises (runCell d ctx seqLen batchSize nSamples prompts) s := by
  have hfresh : ∀ rid ∈ cellRequestIds ctx seqLen batchSize 0, rid ∉ seen := by
    intro rid hr
    obtain ⟨k, rfl⟩ := mem_cellRequestIds hr
    exact hnew 0 k
  have hsamples := runSamples_outOfSteps engine (cellArgs ctx seqLen batchSize prompts chunks)
    (h.asks hprompts chunks 0) hbudget (nSamples.toNat - 1) hidle hfresh
  rw [Nat.sub_add_cancel (by omega)] at hsamples
  unfold runCell
  rw [Act.Raises, decide_eq_false (by omega), hprompts, decide_eq_false (not_not.2 rfl), hchunks]
  show Act.Raises (_ >>= _) s
  exact hsamples.bind

end Stagger
end GoodputLab
