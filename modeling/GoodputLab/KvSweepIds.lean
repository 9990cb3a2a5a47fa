import GoodputLab.Base.ActLog
import GoodputLab.KvEndSample
import GoodputLab.KvResume
import GoodputLab.KvStaggerCell
/-!
# KvSweepIds — the request ids of a whole sweep (`bench/kv_scaling/measure.py`)

The driver keeps what it has seen of a request under its id for as long as the engine lives, so an id must not come back
within a sweep.  A sample gives the engine each of its ids at most once, also when the engine refuses one
(`sample_appends`), a cell has ids of its own (`runCell_appends`), and a point that was measured is read from its file when
the grid names it again; so no id is given twice, whatever the engine does and whatever stands in the directory
(`sweep_ids_nodup`).
-/
namespace GoodputLab

variable {σ : Type}

/-! ## One sample -/

/-- The engine with the ids it was given: a call counts before the engine answers it. -/
def withIds (d : EngineDriver σ) : EngineDriver (σ × List Text) where
  numGpuBlocks             := unrecorded d.numGpuBlocks
  numFreeBlocks            := unrecorded d.numFreeBlocks
  addRequest               := fun r s => unrecorded (d.addRequest r) (s.1, s.2 ++ [r.requestId])
  step                     := unrecorded d.step
  getNumUnfinishedRequests := unrecorded d.getNumUnfinishedRequests
  endSample                := unrecorded d.endSample

/-- **The log changes nothing for the engine.** -/
theorem withIds_inStep (d : EngineDriver σ) :
    EnginesInStep (fun s (t : σ × List Text) => t.1 = s) (fun _ => True) d (withIds d) where
  numGpuBlocks  := unrecorded_inStep _
  numFreeBlocks := unrecorded_inStep _
  addRequest    := by
    rintro r - s t rfl
    exact ⟨rfl, rfl⟩
  step          := unrecorded_inStep _
  unfinished    := unrecorded_inStep _
  endSample     := unrecorded_inStep _

theorem withIds_loopKeeps (d : EngineDriver σ) : LoopKeeps Prod.snd (withIds d) where
  numFreeBlocks := keeps_unrecorded _
  step          := keeps_unrecorded _
  unfinished    := keeps_unrecorded _

/-- A request is given to the engine, which may take it or raise. -/
theorem addRequest_appends (d : EngineDriver σ) (r : AddRequest) :
    Act.Appends Prod.snd (· = r.requestId) ((withIds d).addRequest r) :=
  fun _ => ⟨[r.requestId], rfl, List.nodup_singleton _, fun _ ht => List.mem_singleton.1 ht⟩

theorem addRequests_appends (d : EngineDriver σ) : ∀ {rs : List AddRequest}, (rs.map AddRequest.requestId).Nodup →
    Act.Appends Prod.snd (· ∈ rs.map AddRequest.requestId) (addRequests (withIds d) rs)
  | [], _ => Act.appends_of_keeps (Act.keeps_pure _)
  | r :: rs, h => by
    obtain ⟨hr, hrs⟩ := List.nodup_cons.1 h
    refine (Act.appends_bind (addRequest_appends d r) (fun _ => addRequests_appends d hrs) ?_).mono (fun t ht => ?_)
    · rintro t rfl ht
      exact hr ht
    · exact List.mem_cons.2 ht

theorem map_fst_zip_begins {α β : Type} : ∀ (l : List α) (l' : List β), (l.zip l').map Prod.fst <+: l
  | [], _           => List.nil_prefix
  | _ :: _, []      => List.nil_prefix
  | a :: l, _ :: l' => (List.prefix_cons_inj a).2 (map_fst_zip_begins l l')

theorem requestId_requests (a : SampleArgs) : a.requests.map AddRequest.requestId <+: a.requestIds := by
  have hmap : a.requests.map AddRequest.requestId = (a.requestIds.zip (a.prompts.zip a.promptLens)).map Prod.fst := by
    rw [SampleArgs.requests, List.map_map]
    rfl
  rw [hmap]
  exact map_fst_zip_begins _ _

/-- The arguments pass their checks. -/
def Accepted (a : SampleArgs) : Prop := checkArgs a = .ok ()

/-- **A sample gives each of its ids at most once**, and none when its arguments are refused. -/
theorem sample_appends (d : EngineDriver σ) {a : SampleArgs} (hnd : Accepted a → a.requestIds.Nodup) :
    Act.Appends Prod.snd (fun rid => Accepted a ∧ rid ∈ a.requestIds) (sampleDecodeWindow (withIds d) a) := by
  unfold sampleDecodeWindow
  refine Act.appends_lift_bind (fun u hargs => ?_)
  have hprefix := requestId_requests a
  refine Act.appends_keeps_bind (keeps_unrecorded _) (fun total => ?_)
  refine Act.appends_lift_bind (fun n _ => ?_)
  have hadd := addRequests_appends d ((hnd hargs).sublist hprefix.sublist)
  refine (Act.appends_bind_keeps hadd (fun _ => ?_)).mono (fun rid hrid => ⟨hargs, hprefix.subset hrid⟩)
  have hloop := Act.keeps_bind (sampleLoop_keeps (withIds_loopKeeps d) a n (maxSteps a).toNat 0
    (Window.initial a.requestIds)) (fun w => Act.keeps_lift (finish a w))
  have hwindow := Act.appends_ensuring (P := fun _ => False) (Act.appends_of_keeps hloop) (keeps_unrecorded d.endSample)
  exact hwindow.keeps (fun _ => id)

/-! ## One cell -/

theorem runSamples_appends (d : EngineDriver σ) (args : Nat → SampleArgs)
    (hnd : ∀ i, Accepted (args i) → (args i).requestIds.Nodup)
    (hdistinct : ∀ i j rid, Accepted (args i) → Accepted (args j) → rid ∈ (args i).requestIds →
      rid ∈ (args j).requestIds → i = j) : ∀ n i : Nat,
    Act.Appends Prod.snd (fun rid => ∃ j, i ≤ j ∧ Accepted (args j) ∧ rid ∈ (args j).requestIds)
      (runSamples (withIds d) args n i)
  | 0, _ => Act.appends_of_keeps (Act.keeps_pure _)
  | n + 1, i => by
    unfold runSamples
    have hfirst := Act.appends_mapError (g := CellError.sample) (sample_appends d (hnd i))
    have hrest := runSamples_appends d args hnd hdistinct n (i + 1)
    refine (Act.appends_bind hfirst (fun r => Act.appends_bind_keeps hrest (fun rs => Act.keeps_pure _)) ?_).mono ?_
    · rintro rid ⟨hi, hmem⟩ ⟨j, hj, hacc, hmem'⟩
      have := hdistinct i j rid hi hacc hmem hmem'
      omega
    · rintro rid (⟨hi, hmem⟩ | ⟨j, hj, hacc, hmem⟩)
      · exact ⟨i, le_refl i, hi, hmem⟩
      · exact ⟨j, by omega, hacc, hmem⟩

/-- The ids of a point. -/
def OfPoint (campaignId : Text) (point : Int × Int) (rid : Text) : Prop :=
  Positive point ∧ ∃ i k, rid = cellRequestId campaignId point.1 point.2 i k

/-- **An id names its point.** -/
theorem OfPoint.inj {campaignId : Text} {p q : Int × Int} {rid : Text} (hp : OfPoint campaignId p rid)
    (hq : OfPoint campaignId q rid) : p = q := by
  obtain ⟨hp, i, k, rfl⟩ := hp
  obtain ⟨hq, i', k', hid⟩ := hq
  obtain ⟨hseq, hbatch⟩ := cellRequestId_cell hp.1.le hp.2.le hq.1.le hq.2.le hid
  exact Prod.ext hseq hbatch

section Cell
variable {ctx : SweepContext} {seqLen batchSize : Int} {prompts : List Text} {chunks : Int}

/-- A sample whose arguments are accepted is one of a positive point. -/
theorem positive_of_accepted {i : Nat} (h : Accepted (cellArgs ctx seqLen batchSize prompts chunks i)) :
    Positive (seqLen, batchSize) := by
  unfold Accepted checkArgs at h
  by_cases hnone : (cellArgs ctx seqLen batchSize prompts chunks i).requestIds.length = 0
  · rw [if_pos hnone] at h
    cases h
  rw [if_neg hnone] at h
  have hbatch : 0 < batchSize.toNat := by
    simp only [cellArgs, cellRequestIds, List.length_map, List.length_range] at hnone
    omega
  refine ⟨?_, by simpa using hbatch⟩
  by_contra hseq
  have hlens : (cellArgs ctx seqLen batchSize prompts chunks i).promptLens.any (fun pl => decide (pl ≤ 0)) = true := by
    refine List.any_eq_true.2 ⟨seqLen, ?_, decide_eq_true (not_lt.1 hseq)⟩
    exact List.mem_replicate.2 ⟨by omega, rfl⟩
  rw [hlens] at h
  split at h
  · cases h
  · cases h

theorem cellArgs_spec {i : Nat} (h : Accepted (cellArgs ctx seqLen batchSize prompts chunks i)) :
    (cellArgs ctx seqLen batchSize prompts chunks i).requestIds.Nodup ∧
      ∀ rid ∈ (cellArgs ctx seqLen batchSize prompts chunks i).requestIds,
        OfPoint ctx.campaignId (seqLen, batchSize) rid := by
  have hpos := positive_of_accepted h
  obtain ⟨s, rfl⟩ := Int.eq_ofNat_of_zero_le hpos.1.le
  obtain ⟨b, rfl⟩ := Int.eq_ofNat_of_zero_le hpos.2.le
  refine ⟨cellRequestIds_nodup ctx s b i, fun rid hrid => ?_⟩
  obtain ⟨k, rfl⟩ := mem_cellRequestIds hrid
  exact ⟨hpos, i, k, rfl⟩

theorem cellArgs_distinct {i j : Nat} {rid : Text} (h : Accepted (cellArgs ctx seqLen batchSize prompts chunks i))
    (hi : rid ∈ (cellArgs ctx seqLen batchSize prompts chunks i).requestIds)
    (hj : rid ∈ (cellArgs ctx seqLen batchSize prompts chunks j).requestIds) : i = j := by
  have hpos := positive_of_accepted h
  obtain ⟨s, rfl⟩ := Int.eq_ofNat_of_zero_le hpos.1.le
  obtain ⟨b, rfl⟩ := Int.eq_ofNat_of_zero_le hpos.2.le
  obtain ⟨k, rfl⟩ := mem_cellRequestIds hi
  obtain ⟨k', hid⟩ := mem_cellRequestIds hj
  exact (cellRequestId_inj hid).2.2.1

end Cell

/-- **A cell gives ids of its point, none of them twice.** -/
theorem runCell_appends (d : EngineDriver σ) (ctx : SweepContext) (seqLen batchSize nSamples : Int)
    (prompts : List Text) :
    Act.Appends Prod.snd (OfPoint ctx.campaignId (seqLen, batchSize))
      (KvSweep.runCell (withIds d) ctx seqLen batchSize nSamples prompts) := by
  unfold KvSweep.runCell
  refine Act.appends_keeps_bind (Act.keeps_guard _ _) (fun _ => Act.appends_keeps_bind (Act.keeps_guard _ _) (fun _ =>
    Act.appends_lift_bind (fun chunks _ => ?_)))
  have hsamples := runSamples_appends d (cellArgs ctx seqLen batchSize prompts chunks) (fun i h => (cellArgs_spec h).1)
    (fun i j rid h _ hi hj => cellArgs_distinct h hi hj) nSamples.toNat 0
  refine (Act.appends_bind_keeps hsamples (fun readings => ?_)).mono ?_
  · exact Act.keeps_bind (Act.keeps_guard _ _) (fun _ => Act.keeps_lift _)
  · rintro rid ⟨i, -, h, hrid⟩
    exact (cellArgs_spec h).2 rid hrid

/-! ## A cell with its log -/

theorem runSamples_inStep {τ : Type} {R : σ → τ → Prop} {d : EngineDriver σ} {e : EngineDriver τ}
    (h : EnginesInStep R (fun _ => True) d e) (args : Nat → SampleArgs) : ∀ n i : Nat,
    Act.InStep R (runSamples d args n i) (runSamples e args n i)
  | 0, _ => Act.inStep_pure _
  | n + 1, i => Act.inStep_bind (Act.inStep_mapError (sampleDecodeWindow_inStep h (args i) (fun _ _ => trivial)))
      (fun _ => Act.inStep_bind (runSamples_inStep h args n (i + 1)) (fun _ => Act.inStep_pure _))

theorem runCell_inStep {τ : Type} {R : σ → τ → Prop} {d : EngineDriver σ} {e : EngineDriver τ}
    (h : EnginesInStep R (fun _ => True) d e) (ctx : SweepContext) (seqLen batchSize nSamples : Int)
    (prompts : List Text) :
    Act.InStep R (KvSweep.runCell d ctx seqLen batchSize nSamples prompts)
      (KvSweep.runCell e ctx seqLen batchSize nSamples prompts) := by
  unfold KvSweep.runCell
  exact Act.inStep_bind (Act.inStep_guard _ _) (fun _ => Act.inStep_bind (Act.inStep_guard _ _) (fun _ =>
    Act.inStep_bind (Act.inStep_lift _) (fun _ => Act.inStep_bind (runSamples_inStep h _ _ _) (fun _ =>
      Act.inStep_bind (Act.inStep_guard _ _) (fun _ => Act.inStep_lift _)))))

/-! ## The sweep -/

namespace SweepRun

/-- The run on an engine with its log. -/
def logged (r : SweepRun σ) : SweepRun (σ × List Text) where
  campaignId := r.campaignId
  modelId := r.modelId
  seqLens := r.seqLens
  batchSizes := r.batchSizes
  nSamples := r.nSamples
  blockSize := r.blockSize
  enforceEager := r.enforceEager
  decodeTokens := r.decodeTokens
  gpuName := r.gpuName
  vllmVersion := r.vllmVersion
  theoryBpt := r.theoryBpt
  fixedOverhead := r.fixedOverhead
  maxNumBatchedTokens := r.maxNumBatchedTokens
  driver := withIds r.driver
  engine := (r.engine, [])
  prompt := r.prompt

/-- The engine when a point has been measured, or the measurement has raised. -/
def engineAt (r : SweepRun σ) (point : Int × Int) (s : σ) : σ :=
  match r.prompt point.1 with
  | none        => s
  | some prompt =>
    (KvSweep.runCell r.driver r.context point.1 point.2 r.nSamples (List.replicate point.2.toNat prompt) s).2

theorem measure_engine {r : SweepRun σ} {point : Int × Int} {s s' : σ} {cell : KvScalingCell}
    (h : r.measure point s = some (cell, s')) : s' = r.engineAt point s := by
  unfold measure at h
  unfold engineAt
  cases hprompt : r.prompt point.1 with
  | none => rw [hprompt] at h; cases h
  | some prompt =>
    rw [hprompt] at h
    simp only at h ⊢
    split at h
    · cases h
    · rename_i hrun
      cases h
      rw [hrun]

variable {C : Type}

/-- The engine when a sweep has come to its end, or stopped at a point that raised. -/
def engineAfter (codec : KvCellCodec C) (r : SweepRun σ) : List (Int × Int) → σ → CampaignDir C → σ
  | [], s, _                => s
  | point :: points, s, dir =>
    match r.read codec dir point with
    | some _ => engineAfter codec r points s dir
    | none   =>
      match r.measure point s with
      | none            => r.engineAt point s
      | some (cell, s') => engineAfter codec r points s' (writeCellJson codec dir point cell)

/-- A point is measured as without the log. -/
theorem measure_logged (r : SweepRun σ) (point : Int × Int) (s : σ × List Text) :
    (r.logged.measure point s).map (fun m => (m.1, m.2.1)) = r.measure point s.1 := by
  unfold measure
  show Option.map _ (match r.prompt point.1 with | none => none | some prompt => _) = _
  cases r.prompt point.1 with
  | none => rfl
  | some prompt =>
    obtain ⟨hout, hengine⟩ := runCell_inStep (withIds_inStep r.driver) r.context point.1 point.2 r.nSamples
      (List.replicate point.2.toNat prompt) s.1 s rfl
    simp only
    cases hplain : KvSweep.runCell r.driver r.context point.1 point.2 r.nSamples
        (List.replicate point.2.toNat prompt) s.1 with
    | mk q s₁ =>
      cases hlog : KvSweep.runCell r.logged.driver r.logged.context point.1 point.2 r.logged.nSamples
          (List.replicate point.2.toNat prompt) s with
      | mk q' s₂ =>
        rw [hplain, show KvSweep.runCell (withIds r.driver) r.context point.1 point.2 r.nSamples
          (List.replicate point.2.toNat prompt) s = (q', s₂) from hlog] at hout hengine
        obtain rfl : q = q' := hout
        obtain rfl : s₂.1 = s₁ := hengine
        cases q <;> rfl

/-- **The log changes nothing of a sweep.** -/
theorem cellsOf_logged (codec : KvCellCodec C) (r : SweepRun σ) : ∀ (points : List (Int × Int)) (s : σ × List Text)
    (dir : CampaignDir C), r.logged.cellsOf codec points s dir = r.cellsOf codec points s.1 dir
  | [], _, _ => rfl
  | point :: points, s, dir => by
    unfold cellsOf
    rw [show r.logged.read codec dir point = r.read codec dir point from rfl, ← measure_logged r point s]
    cases r.read codec dir point with
    | some cell => simp only [cellsOf_logged codec r points s dir]
    | none =>
      cases r.logged.measure point s with
      | none   => rfl
      | some m => simp only [Option.map_some, cellsOf_logged codec r points m.2 _]

/-- What a point's measurement adds to the ids given. -/
theorem engineAt_logged (r : SweepRun σ) (point : Int × Int) (s : σ × List Text) :
    ∃ more, (r.logged.engineAt point s).2 = s.2 ++ more ∧ more.Nodup ∧
      ∀ rid ∈ more, OfPoint r.campaignId point rid := by
  unfold engineAt
  cases r.logged.prompt point.1 with
  | none => exact ⟨[], by rw [List.append_nil], List.nodup_nil, fun rid h => absurd h List.not_mem_nil⟩
  | some prompt =>
    exact runCell_appends r.driver r.logged.context point.1 point.2 r.nSamples _ s

/-- Ids given so far, each once and each of a point whose file is there. -/
def IdsStored (codec : KvCellCodec C) (r : SweepRun σ) (dir : CampaignDir C) (ids : List Text) : Prop :=
  ids.Nodup ∧ ∀ rid ∈ ids, ∃ point, OfPoint r.campaignId point rid ∧ (r.read codec dir point).isSome = true

/-- The ids of a point without a file are new. -/
theorem IdsStored.append {codec : KvCellCodec C} {r : SweepRun σ} {dir : CampaignDir C} {ids more : List Text}
    (h : IdsStored codec r dir ids) {point : Int × Int} (hnone : r.read codec dir point = none) (hnd : more.Nodup)
    (hmore : ∀ rid ∈ more, OfPoint r.campaignId point rid) : (ids ++ more).Nodup := by
  refine List.nodup_append'.2 ⟨h.1, hnd, fun rid hrid hrid' => ?_⟩
  obtain ⟨q, hq, hread⟩ := h.2 rid hrid
  rw [hq.inj (hmore rid hrid'), hnone] at hread
  cases hread

/-- **The ids stay distinct along the points of a sweep**: those given belong to points with a file. -/
theorem engineAfter_nodup (codec : KvCellCodec C) (r : SweepRun σ) : ∀ (points : List (Int × Int)) (s : σ × List Text)
    (dir : CampaignDir C), IdsStored codec r dir s.2 →
      (r.logged.engineAfter codec points s dir).2.Nodup
  | [], _, _, h => h.1
  | point :: points, s, dir, h => by
    unfold engineAfter
    cases hread : r.logged.read codec dir point with
    | some cell => exact engineAfter_nodup codec r points s dir h
    | none =>
      obtain ⟨more, hmore, hnd, hof⟩ := engineAt_logged r point s
      have hnew : (s.2 ++ more).Nodup := h.append hread hnd hof
      cases hmeasure : r.logged.measure point s with
      | none =>
        simp only
        rw [hmore]
        exact hnew
      | some m =>
        obtain ⟨cell, s'⟩ := m
        have hstays : ∀ q, q = point ∨ (r.read codec dir q).isSome = true →
            (r.read codec (writeCellJson codec dir point cell) q).isSome = true :=
          fun _ hq => isSome_read_write codec (r := r.logged) hmeasure hq
        obtain rfl := measure_engine hmeasure
        refine engineAfter_nodup codec r points _ _ ⟨by rw [hmore]; exact hnew, fun rid hrid => ?_⟩
        rw [hmore] at hrid
        rcases List.mem_append.1 hrid with hrid | hrid
        · obtain ⟨q, hq, hfound⟩ := h.2 rid hrid
          exact ⟨q, hq, hstays q (Or.inr hfound)⟩
        · exact ⟨point, hof rid hrid, hstays point (Or.inl rfl)⟩

/-- **No request id is given to the engine twice in a sweep**, whatever its grid, its engine and its directory are: a point
the grid names again is read from the file it was measured to. -/
theorem sweep_ids_nodup (codec : KvCellCodec C) (r : SweepRun σ) (dir : CampaignDir C) :
    (r.logged.engineAfter codec r.points (r.engine, []) dir).2.Nodup :=
  engineAfter_nodup codec r r.points (r.engine, []) dir ⟨List.nodup_nil, fun _ h => absurd h List.not_mem_nil⟩

end SweepRun
end GoodputLab
