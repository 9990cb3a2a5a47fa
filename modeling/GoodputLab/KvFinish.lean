import GoodputLab.KvResults
/-!
# KvFinish — the gate before a campaign is published (`bench/kv_scaling/measure.py`)

The fit, the comparison with the theory and the knee come before the first file, so a campaign that one of them refuses
writes nothing.  None of them looks at R²: what is published meets the protocol exactly when the cells are not scattered
about a line of the right slope (`publishes_gated_iff`).
-/
namespace GoodputLab

open LeastSquares

/-! ## The program -/

inductive TheoryError
  | theory (got : Int)
  | measured (got : ℚ)
  | tolerance (got : ℚ)
  | deviates (measured relErr : ℚ) (theory : Int)
deriving DecidableEq

inductive FinishError
  | fit (e : FitError)
  | theory (e : TheoryError)
  | campaign (e : DryRunError)
deriving DecidableEq

/-- What a sweep reads of the theory. -/
structure HfKvTheory where
  bytesPerToken : Int
  revision      : Text

def defaultTolerance : ℚ := 15 / 100

def validateAgainstTheory (measuredBpt : ℚ) (theoryBpt : Int) (tol : ℚ) : Except TheoryError ℚ :=
  if theoryBpt ≤ 0 then .error (.theory theoryBpt)
  else if measuredBpt < 0 then .error (.measured measuredBpt)
  else if tol < 0 then .error (.tolerance tol)
  else
    let relErr := |measuredBpt - theoryBpt| / theoryBpt
    if tol < relErr then .error (.deviates measuredBpt relErr theoryBpt) else .ok relErr

/-- The campaign of two or more cells. -/
def finishedCampaign (cells : List KvScalingCell) (campaignId : Text) (theory : HfKvTheory) (fixedOverhead : Int) :
    Except FinishError KvScalingCampaign := do
  let regression ← (dryRunFit cells).mapError .fit
  let _ ← (validateAgainstTheory regression.slopeBpt theory.bytesPerToken defaultTolerance).mapError .theory
  let knee ← (findKnee cells fixedOverhead).mapError .fit
  (KvScalingCampaign.make? campaignId theory.revision cells theory.bytesPerToken regression knee).mapError .campaign

/-- The files of a campaign, in the order they are written. -/
def campaignArtifacts (v : ValueText) (now : Text) (campaignId : Text) (campaign : KvScalingCampaign) :
    List (Text × Artifact) :=
  writeCampaign v campaign campaignId ++ writeSummaryJson campaign now

/-- `_finish_campaign_artifacts`: how it ends and what it writes.  A single cell has no slope, and nothing is fitted. -/
def finishCampaignArtifacts (v : ValueText) (now : Text) (cells : List KvScalingCell) (campaignId : Text)
    (theory : HfKvTheory) (fixedOverhead : Int) : Except FinishError Unit × List (Text × Artifact) :=
  if 2 ≤ cells.length then
    match finishedCampaign cells campaignId theory fixedOverhead with
    | .error e     => (.error e, [])
    | .ok campaign => (.ok (), campaignArtifacts v now campaignId campaign)
  else (.ok (), [])

/-! ## The knee -/

/-- The share of a cell's bytes in the memory used. -/
def KvScalingCell.kvShare (c : KvScalingCell) (fixedOverhead : Int) : ℚ := c.p50Bytes / (fixedOverhead + c.p50Bytes)

/-- The cell is the first whose share reaches one half, and no cell up to it divides by zero. -/
structure ReachedAt (fixedOverhead : Int) (cells : List KvScalingCell) (c : KvScalingCell) : Prop where
  first   : ∃ before after, cells = before ++ c :: after ∧
    ∀ b ∈ before, (fixedOverhead : ℚ) + b.p50Bytes ≠ 0 ∧ b.kvShare fixedOverhead < 1 / 2
  nonzero : (fixedOverhead : ℚ) + c.p50Bytes ≠ 0
  half    : 1 / 2 ≤ c.kvShare fixedOverhead
  whole   : c.kvShare fixedOverhead ≤ 1

theorem ReachedAt.mem {fixedOverhead : Int} {cells : List KvScalingCell} {c : KvScalingCell}
    (h : ReachedAt fixedOverhead cells c) : c ∈ cells := by
  obtain ⟨before, after, rfl, -⟩ := h.first
  exact List.mem_append_right _ List.mem_cons_self

theorem KneePoint.make?_ok {n : Int} {q : ℚ} {b : Option Int} {knee : KneePoint}
    (h : KneePoint.make? n q b = .ok knee) :
    q ≤ 1 ∧ knee.totalTokens = n ∧ knee.kvShare = q ∧ knee.batchSize = b := by
  unfold KneePoint.make? at h
  split at h
  · rename_i hok
    cases h
    exact ⟨hok.2.1.2, rfl, rfl, rfl⟩
  · cases h

theorem KneePoint.make?_of {n : Int} {q : ℚ} {b : Int} (hn : 0 < n) (hq : 0 ≤ q ∧ q ≤ 1) (hb : 0 < b) :
    ∃ knee, KneePoint.make? n q (some b) = .ok knee :=
  ⟨⟨n, q, some b, hn, hq, decide_eq_true hb⟩, dif_pos ⟨hn, hq, decide_eq_true hb⟩⟩

/-- **The knee found is the first cell whose share reaches one half.** -/
theorem firstKnee_ok {fixedOverhead : Int} {knee : KneePoint} : ∀ {cells : List KvScalingCell},
    firstKnee fixedOverhead cells = .ok knee → ∃ c, ReachedAt fixedOverhead cells c ∧
      knee.totalTokens = c.totalTokens ∧ knee.kvShare = c.kvShare fixedOverhead ∧ knee.batchSize = some c.batchSize
  | [], h => by
    cases h
  | c :: cells, h => by
    unfold firstKnee at h
    dsimp only at h
    split at h
    · cases h
    · rename_i hzero
      split at h
      · rename_i hhalf
        obtain ⟨hwhole, htokens, hshare, hbatch⟩ := KneePoint.make?_ok h
        exact ⟨c, ⟨⟨[], cells, rfl, fun b hb => absurd hb List.not_mem_nil⟩, hzero, hhalf, hwhole⟩, htokens, hshare,
          hbatch⟩
      · rename_i hhalf
        obtain ⟨d, hd, hknee⟩ := firstKnee_ok h
        obtain ⟨before, after, hcells, hbefore⟩ := hd.first
        refine ⟨d, ⟨⟨c :: before, after, by rw [hcells, List.cons_append], ?_⟩, hd.nonzero, hd.half, hd.whole⟩, hknee⟩
        intro b hb
        rcases List.mem_cons.1 hb with rfl | hb
        · exact ⟨hzero, not_le.1 hhalf⟩
        · exact hbefore b hb

/-- **A share that reaches one half, and no more than all, is found.** -/
theorem firstKnee_of_reached {fixedOverhead : Int} {c : KvScalingCell} (hzero : (fixedOverhead : ℚ) + c.p50Bytes ≠ 0)
    (hhalf : 1 / 2 ≤ c.kvShare fixedOverhead) (hwhole : c.kvShare fixedOverhead ≤ 1) (after : List KvScalingCell) :
    ∀ before : List KvScalingCell,
      (∀ b ∈ before, (fixedOverhead : ℚ) + b.p50Bytes ≠ 0 ∧ b.kvShare fixedOverhead < 1 / 2) →
      ∃ knee, firstKnee fixedOverhead (before ++ c :: after) = .ok knee
  | [], _ => by
    obtain ⟨-, hbatch, -, -, htokens, -⟩ := c.bounds
    obtain ⟨knee, hknee⟩ := KneePoint.make?_of (q := c.kvShare fixedOverhead) htokens ⟨by linarith, hwhole⟩ hbatch
    refine ⟨knee, ?_⟩
    rw [List.nil_append, firstKnee]
    dsimp only
    rw [if_neg hzero]
    exact (if_pos hhalf).trans hknee
  | b :: before, h => by
    obtain ⟨hne, hlow⟩ := h b List.mem_cons_self
    obtain ⟨knee, hknee⟩ := firstKnee_of_reached hzero hhalf hwhole after before
      (fun d hd => h d (List.mem_cons_of_mem _ hd))
    refine ⟨knee, ?_⟩
    rw [List.cons_append, firstKnee]
    dsimp only
    rw [if_neg hne]
    exact (if_neg (not_le.2 hlow)).trans hknee

/-! ## What a published campaign meets -/

def byTokens (cells : List KvScalingCell) : List KvScalingCell :=
  cells.mergeSort (fun a b => decide (a.totalTokens ≤ b.totalTokens))

def cellTokens (c : KvScalingCell) : ℚ := c.totalTokens

/-- The slope and R² of the least-squares line through the medians of the cells. -/
def cellsSlope (cells : List KvScalingCell) : ℚ := slope cells cellTokens KvScalingCell.p50Bytes

def cellsRSquared (cells : List KvScalingCell) : ℚ := rSquared cells cellTokens KvScalingCell.p50Bytes

/-- The slope is within the tolerance of a positive theory. -/
def SlopeWithin (cells : List KvScalingCell) (theoryBpt : Int) : Prop :=
  0 < theoryBpt ∧ |cellsSlope cells - theoryBpt| ≤ 15 / 100 * theoryBpt

/-- The protocol's acceptance of a campaign. -/
structure Gated (cells : List KvScalingCell) (theory : HfKvTheory) (fixedOverhead : Int)
    (campaign : KvScalingCampaign) : Prop where
  fitted  : campaign.regression.slopeBpt = cellsSlope cells ∧ campaign.regression.r2 = cellsRSquared cells
  slope   : SlopeWithin cells theory.bytesPerToken
  r2      : 98 / 100 ≤ campaign.regression.r2
  knee    : ∃ c ∈ cells, campaign.knee.totalTokens = c.totalTokens ∧ campaign.knee.batchSize = some c.batchSize ∧
    campaign.knee.kvShare = c.kvShare fixedOverhead ∧ 1 / 2 ≤ c.kvShare fixedOverhead

/-- Either the files of a campaign that the protocol accepts are written, or an exception is raised and none is. -/
def PublishesGated (cells : List KvScalingCell) (campaignId : Text) (theory : HfKvTheory) (fixedOverhead : Int)
    (v : ValueText) (now : Text) : Prop :=
  (∃ campaign, finishCampaignArtifacts v now cells campaignId theory fixedOverhead =
      (.ok (), campaignArtifacts v now campaignId campaign) ∧ Gated cells theory fixedOverhead campaign) ∨
    ∃ e, finishCampaignArtifacts v now cells campaignId theory fixedOverhead = (.error e, [])

/-- The slope is right and the knee is reached, but the residuals are more than a fiftieth of the variation. -/
structure Scattered (cells : List KvScalingCell) (theory : HfKvTheory) (fixedOverhead : Int) : Prop where
  slope    : SlopeWithin cells theory.bytesPerToken
  overhead : 0 ≤ fixedOverhead
  knee     : ∃ c, ReachedAt fixedOverhead (byTokens cells) c
  scatter  : cov cells KvScalingCell.p50Bytes KvScalingCell.p50Bytes <
    50 * residual cells cellTokens KvScalingCell.p50Bytes

section Finish

variable {cells : List KvScalingCell} {campaignId : Text} {theory : HfKvTheory} {fixedOverhead : Int}

theorem validateAgainstTheory_ok {m : ℚ} {t : Int} :
    (∃ relErr, validateAgainstTheory m t defaultTolerance = .ok relErr) ↔
      0 < t ∧ 0 ≤ m ∧ |m - t| ≤ 15 / 100 * t := by
  unfold validateAgainstTheory defaultTolerance
  by_cases ht : t ≤ 0
  · rw [if_pos ht]
    simp [not_lt.2 ht]
  · rw [if_neg ht]
    rw [not_le] at ht
    by_cases hm : m < 0
    · rw [if_pos hm]
      simp [not_le.2 hm]
    · have htq : (0 : ℚ) < t := by exact_mod_cast ht
      rw [if_neg hm, if_neg (by norm_num)]
      dsimp only
      by_cases herr : 15 / 100 < |m - t| / t
      · rw [if_pos herr]
        rw [lt_div_iff₀ htq] at herr
        simp [not_le.2 herr]
      · rw [if_neg herr]
        rw [not_lt, div_le_iff₀ htq] at herr
        exact ⟨fun _ => ⟨ht, not_lt.1 hm, herr⟩, fun _ => ⟨_, rfl⟩⟩

theorem findKnee_ok {knee : KneePoint} (h : findKnee cells fixedOverhead = .ok knee) :
    0 ≤ fixedOverhead ∧ ∃ c, ReachedAt fixedOverhead (byTokens cells) c ∧ knee.totalTokens = c.totalTokens ∧
      knee.kvShare = c.kvShare fixedOverhead ∧ knee.batchSize = some c.batchSize := by
  unfold findKnee at h
  split at h
  · cases h
  · rename_i hF
    dsimp only at h
    split at h
    · cases h
    · exact ⟨not_lt.1 hF, firstKnee_ok h⟩

theorem findKnee_of_reached (hF : 0 ≤ fixedOverhead) {c : KvScalingCell}
    (h : ReachedAt fixedOverhead (byTokens cells) c) : ∃ knee, findKnee cells fixedOverhead = .ok knee := by
  obtain ⟨before, after, hcells, hbefore⟩ := h.first
  obtain ⟨knee, hknee⟩ := firstKnee_of_reached h.nonzero h.half h.whole after before hbefore
  refine ⟨knee, ?_⟩
  unfold findKnee
  rw [if_neg (not_lt.2 hF)]
  dsimp only
  exact (if_neg (List.ne_nil_of_mem h.mem)).trans ((congrArg (firstKnee fixedOverhead) hcells).trans hknee)

theorem dryRunFit_ok (hlen : 2 ≤ cells.length) (hx : 0 < cov cells cellTokens cellTokens)
    (hslope : 0 ≤ cellsSlope cells) :
    ∃ regression, dryRunFit cells = .ok regression :=
  (fitBytesPerToken_ok cells cellTokens KvScalingCell.p50Bytes hlen hx hslope).imp (fun _ h => h.1)

theorem dryRunFit_spec (hlen : 2 ≤ cells.length) {regression : RegressionFit} (h : dryRunFit cells = .ok regression) :
    0 < cov cells cellTokens cellTokens ∧ regression.slopeBpt = cellsSlope cells ∧
      regression.r2 = cellsRSquared cells :=
  fitBytesPerToken_spec hlen h

/-- A line of a slope above zero has tokens and bytes that spread. -/
theorem SlopeWithin.spread {theoryBpt : Int} (h : SlopeWithin cells theoryBpt) :
    0 < cellsSlope cells ∧ 0 < cov cells cellTokens cellTokens ∧
      0 < cov cells KvScalingCell.p50Bytes KvScalingCell.p50Bytes := by
  have htheory : (0 : ℚ) < theoryBpt := by exact_mod_cast h.1
  have hpos : 0 < cellsSlope cells := by
    have := (abs_le.1 h.2).1
    linarith
  have hx : 0 < cov cells cellTokens cellTokens := by
    refine lt_of_le_of_ne (cov_self_nonneg _ _) (fun hzero => hpos.ne' ?_)
    rw [cellsSlope, LeastSquares.slope, ← hzero, div_zero]
  refine ⟨hpos, hx, lt_of_le_of_ne (cov_self_nonneg _ _) (fun hzero => hpos.ne' ?_)⟩
  exact slope_eq_zero cells hx hzero.symm

/-- **R² is below the protocol's bound exactly when the cells are scattered.** -/
theorem SlopeWithin.rSquared_lt {theoryBpt : Int} (h : SlopeWithin cells theoryBpt) : cellsRSquared cells < 98 / 100 ↔
    cov cells KvScalingCell.p50Bytes KvScalingCell.p50Bytes <
      50 * residual cells cellTokens KvScalingCell.p50Bytes := by
  obtain ⟨-, -, hy⟩ := h.spread
  have hshare : cellsRSquared cells < 98 / 100 ↔ 2 / 100 < residual cells cellTokens KvScalingCell.p50Bytes /
      cov cells KvScalingCell.p50Bytes KvScalingCell.p50Bytes := by
    rw [cellsRSquared, rSquared, if_pos hy]
    constructor <;> intro h <;> linarith
  rw [hshare, lt_div_iff₀ hy]
  constructor <;> intro h <;> linarith

/-- **What the checks of a finished campaign let through.** -/
theorem finishedCampaign_ok (hlen : 2 ≤ cells.length) {campaign : KvScalingCampaign}
    (h : finishedCampaign cells campaignId theory fixedOverhead = .ok campaign) :
    SlopeWithin cells theory.bytesPerToken ∧ 0 ≤ fixedOverhead ∧
      (∃ c, ReachedAt fixedOverhead (byTokens cells) c ∧ campaign.knee.totalTokens = c.totalTokens ∧
        campaign.knee.kvShare = c.kvShare fixedOverhead ∧ campaign.knee.batchSize = some c.batchSize) ∧
      campaign.regression.slopeBpt = cellsSlope cells ∧ campaign.regression.r2 = cellsRSquared cells := by
  unfold finishedCampaign at h
  obtain ⟨regression, hfit, h⟩ := Act.except_mapError_bind_ok h
  obtain ⟨relErr, hvalid, h⟩ := Act.except_mapError_bind_ok h
  obtain ⟨knee, hknee, h⟩ := Act.except_mapError_bind_ok h
  obtain ⟨-, hslope, hr2⟩ := dryRunFit_spec hlen hfit
  obtain ⟨htheory, -, hwithin⟩ := validateAgainstTheory_ok.1 ⟨relErr, hvalid⟩
  obtain ⟨hF, hreached⟩ := findKnee_ok hknee
  unfold KvScalingCampaign.make? at h
  split at h
  · cases h
    exact ⟨⟨htheory, hslope ▸ hwithin⟩, hF, hreached, hslope, hr2⟩
  · cases h

/-- **And what they do not refuse is a campaign.** -/
theorem finishedCampaign_of (campaignId : Text) (hlen : 2 ≤ cells.length)
    (hslope : SlopeWithin cells theory.bytesPerToken) (hF : 0 ≤ fixedOverhead) {c : KvScalingCell}
    (hknee : ReachedAt fixedOverhead (byTokens cells) c) :
    ∃ campaign, finishedCampaign cells campaignId theory fixedOverhead = .ok campaign := by
  obtain ⟨hpos, hx, -⟩ := hslope.spread
  obtain ⟨regression, hfit⟩ := dryRunFit_ok hlen hx hpos.le
  obtain ⟨-, hfitted, -⟩ := dryRunFit_spec hlen hfit
  have hmeasured := hslope.2
  rw [← hfitted] at hmeasured hpos
  obtain ⟨relErr, hvalid⟩ := validateAgainstTheory_ok.2 ⟨hslope.1, hpos.le, hmeasured⟩
  obtain ⟨knee, hknee⟩ := findKnee_of_reached hF hknee
  have hcells : 1 ≤ cells.length := by omega
  refine ⟨⟨campaignId, theory.revision, cells, theory.bytesPerToken, regression, knee, hcells, hslope.1⟩, ?_⟩
  unfold finishedCampaign
  rw [hfit, hknee]
  simp only [Except.mapError, Act.except_ok_bind, hvalid]
  rw [KvScalingCampaign.make?, dif_pos ⟨hcells, hslope.1⟩]

theorem finishCampaignArtifacts_of (v : ValueText) (now : Text) (hlen : 2 ≤ cells.length) :
    finishCampaignArtifacts v now cells campaignId theory fixedOverhead =
      match finishedCampaign cells campaignId theory fixedOverhead with
      | .error e     => (.error e, [])
      | .ok campaign => (.ok (), campaignArtifacts v now campaignId campaign) :=
  if_pos hlen

/-- **A scattered campaign is published, with an R² below the protocol's.** -/
theorem scattered_published (campaignId : Text) (v : ValueText) (now : Text) (hlen : 2 ≤ cells.length)
    (h : Scattered cells theory fixedOverhead) :
    ∃ campaign, finishCampaignArtifacts v now cells campaignId theory fixedOverhead =
      (.ok (), campaignArtifacts v now campaignId campaign) ∧ campaign.regression.r2 < 98 / 100 := by
  obtain ⟨c, hknee⟩ := h.knee
  obtain ⟨campaign, hcampaign⟩ := finishedCampaign_of campaignId hlen h.slope h.overhead hknee
  obtain ⟨-, -, -, -, hr2⟩ := finishedCampaign_ok hlen hcampaign
  refine ⟨campaign, ?_, ?_⟩
  · rw [finishCampaignArtifacts_of v now hlen, hcampaign]
  · rw [hr2]
    exact h.slope.rSquared_lt.2 h.scatter

/-- The files of a campaign hold its R². -/
theorem campaignArtifacts_r2 {v : ValueText} {now campaignId : Text} {a b : KvScalingCampaign}
    (h : campaignArtifacts v now campaignId a = campaignArtifacts v now campaignId b) :
    a.regression.r2 = b.regression.r2 := by
  have hsummary : a.summaryJson now = b.summaryJson now := by
    simp only [campaignArtifacts, writeCampaign, writeSummaryJson, List.cons_append, List.nil_append, List.cons.injEq,
      Prod.mk.injEq, Artifact.document.injEq] at h
    exact h.2.2.1.2
  unfold KvScalingCampaign.summaryJson at hsummary
  simp only [Payload.dict.injEq, List.cons.injEq, Prod.mk.injEq, Payload.float.injEq] at hsummary
  exact hsummary.2.2.2.2.1.2

theorem not_publishesGated (v : ValueText) (now campaignId : Text) (hlen : 2 ≤ cells.length)
    (h : Scattered cells theory fixedOverhead) : ¬ PublishesGated cells campaignId theory fixedOverhead v now := by
  intro hgated
  obtain ⟨campaign, hpublished, hlow⟩ := scattered_published campaignId v now hlen h
  rcases hgated with ⟨other, hother, hg⟩ | ⟨e, he⟩
  · have hsame := congrArg Prod.snd (hpublished.symm.trans hother)
    rw [campaignArtifacts_r2 hsame] at hlow
    exact absurd hg.r2 (not_le.2 hlow)
  · rw [hpublished] at he
    cases congrArg Prod.fst he

/-- **Only gated campaigns are published, but for those scattered about a line of the right slope.** -/
theorem publishes_gated_iff (v : ValueText) (now campaignId : Text) (hlen : 2 ≤ cells.length) :
    PublishesGated cells campaignId theory fixedOverhead v now ↔ ¬ Scattered cells theory fixedOverhead := by
  constructor
  · intro hgated h
    exact not_publishesGated v now campaignId hlen h hgated
  · intro h
    unfold PublishesGated
    rw [finishCampaignArtifacts_of v now hlen]
    cases hcampaign : finishedCampaign cells campaignId theory fixedOverhead with
    | error e => exact .inr ⟨e, rfl⟩
    | ok campaign =>
      obtain ⟨hslope, hF, ⟨c, hreached, hknee⟩, hfitted, hr2⟩ := finishedCampaign_ok hlen hcampaign
      refine .inl ⟨campaign, rfl, ⟨hfitted, hr2⟩, hslope, ?_, c, ?_, hknee.1, hknee.2.2, hknee.2.1, hreached.half⟩
      · rw [hr2]
        by_contra hlow
        exact h ⟨hslope, hF, ⟨c, hreached⟩, hslope.rSquared_lt.1 (not_le.1 hlow)⟩
      · exact (List.mergeSort_perm _ _).mem_iff.1 hreached.mem

end Finish

/-! ## Two campaigns -/

def singleFields (tokens used : Int) : CellFields where
  modelId := "m".toList
  gpu := "gpu".toList
  vllmVersion := "0".toList
  seqLen := tokens
  batchSize := 1
  nSamples := 1
  kvBytesUsedSamples := [used]
  kvBytesPrefillSamples := none
  totalTokens := tokens
  baselineBytes := 50
  method := []

theorem singleFields_check {tokens : Int} (h : 0 < tokens) (used : Int) :
    (singleFields tokens used).check = .ok () := by
  simp [CellFields.check, CellFields.refused, refusedOf, singleFields, h]

/-- A cell of one sample. -/
def singleCell (tokens used : Int) (h : 0 < tokens) : KvScalingCell :=
  ⟨singleFields tokens used, singleFields_check h used⟩

theorem singleCell_p50 (tokens used : Int) (h : 0 < tokens) : (singleCell tokens used h).p50Bytes = used := by
  have hsamples : (singleCell tokens used h).kvBytesUsedSamples = [used] := rfl
  unfold KvScalingCell.p50Bytes
  rw [hsamples, List.map_singleton, List.mergeSort_singleton]
  rfl

theorem singleCell_tokens (tokens used : Int) (h : 0 < tokens) : cellTokens (singleCell tokens used h) = tokens := rfl

theorem twoTokens_pos : (0 : Int) < 2 := by decide

theorem threeTokens_pos : (0 : Int) < 3 := by decide

/-- Cells on a line of 100 bytes a token, and cells about it. -/
def lineCells : List KvScalingCell := [singleCell 1 100 Int.zero_lt_one, singleCell 2 200 twoTokens_pos]

def scatteredCells : List KvScalingCell :=
  [singleCell 1 100 Int.zero_lt_one, singleCell 2 250 twoTokens_pos, singleCell 3 300 threeTokens_pos]

theorem scatteredCells_cov : cov scatteredCells cellTokens cellTokens = 2 ∧
    cov scatteredCells cellTokens KvScalingCell.p50Bytes = 200 ∧
      cov scatteredCells KvScalingCell.p50Bytes KvScalingCell.p50Bytes = 65000 / 3 := by
  unfold cov avg scatteredCells
  simp only [List.map_cons, List.map_nil, singleCell_p50, singleCell_tokens, List.sum_cons, List.sum_nil,
    List.length_cons, List.length_nil]
  norm_num

theorem scatteredCells_scattered : Scattered scatteredCells ⟨100, []⟩ 50 := by
  obtain ⟨hxx, hxy, hyy⟩ := scatteredCells_cov
  have hslope : cellsSlope scatteredCells = 100 := by
    rw [cellsSlope, LeastSquares.slope, hxx, hxy]
    norm_num
  have hsorted : byTokens scatteredCells = scatteredCells := List.mergeSort_of_pairwise (by decide)
  have hfirst := singleCell_p50 1 100 (by decide)
  refine ⟨⟨by decide, ?_⟩, by decide, ⟨singleCell 1 100 (by decide), ⟨[], scatteredCells.tail, ?_, ?_⟩, ?_, ?_, ?_⟩, ?_⟩
  · rw [hslope]
    norm_num
  · rw [hsorted]
    rfl
  · exact fun b hb => absurd hb List.not_mem_nil
  · rw [hfirst]
    norm_num
  · rw [KvScalingCell.kvShare, hfirst]
    norm_num
  · rw [KvScalingCell.kvShare, hfirst]
    norm_num
  · rw [residual_eq _ _ (by rw [hxx]; norm_num), hxx, hxy, hyy]
    norm_num

/-- Three cells about a line of the right slope are published with an R² of twelve thirteenths. -/
theorem scattered_cells_published : 2 ≤ scatteredCells.length ∧
    ¬ PublishesGated scatteredCells "c".toList ⟨100, []⟩ 50 .whole [] :=
  ⟨by decide, not_publishesGated .whole [] "c".toList (by decide) scatteredCells_scattered⟩

theorem line_cells_gated : PublishesGated lineCells "c".toList ⟨100, []⟩ 50 .whole [] := by
  refine (publishes_gated_iff .whole [] "c".toList (by decide)).2 (fun h => ?_)
  have hcov : cov lineCells cellTokens cellTokens = 1 / 2 ∧ cov lineCells cellTokens KvScalingCell.p50Bytes = 50 ∧
      cov lineCells KvScalingCell.p50Bytes KvScalingCell.p50Bytes = 5000 := by
    unfold cov avg lineCells
    simp only [List.map_cons, List.map_nil, singleCell_p50, singleCell_tokens, List.sum_cons, List.sum_nil,
      List.length_cons, List.length_nil]
    norm_num
  have hscatter := h.scatter
  rw [residual_eq _ _ (by rw [hcov.1]; norm_num), hcov.1, hcov.2.1, hcov.2.2] at hscatter
  norm_num at hscatter

end GoodputLab
