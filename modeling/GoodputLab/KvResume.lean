import GoodputLab.Base.Runs
import GoodputLab.KvCellText
import GoodputLab.KvDryRun
/-!
# KvResume — a sweep resumed from its cell files (`bench/kv_scaling/measure.py`, `bench/kv_scaling/results.py`)

A sweep measures the points of its grid one after another and writes each cell to a file named by its point; a point
whose file was measured with the same model and number of samples is not measured again.  So the cells of a resumed
sweep are its own exactly when the files it accepts were measured under its settings (`resumed_homogeneous_iff`).
-/
namespace GoodputLab

/-! ## The cell files -/

abbrev CampaignDir (C : Type) := OrdDict Text C

def kvCellPath (point : Int × Int) : Text :=
  "cell_s".toList ++ Text.ofInt point.1 ++ "_b".toList ++ Text.ofInt point.2 ++ ".json".toList

variable {C σ : Type}

/-- The cell counts when it parses and has the expected point, number of samples and model. -/
def readCellJson (codec : KvCellCodec C) (dir : CampaignDir C) (point : Int × Int) (nSamples : Int) (modelId : Text) :
    Option KvScalingCell :=
  match (dir.get? (kvCellPath point)).bind codec.parse with
  | none      => none
  | some cell =>
    if cell.seqLen ≠ point.1 ∨ cell.batchSize ≠ point.2 ∨ cell.nSamples ≠ nSamples ∨ cell.modelId ≠ modelId then none
    else some cell

def writeCellJson (codec : KvCellCodec C) (dir : CampaignDir C) (point : Int × Int) (cell : KvScalingCell) :
    CampaignDir C :=
  dir.set (kvCellPath point) (codec.dump cell)

/-! ## The sweep -/

def pyBool (b : Bool) : Text := if b then "True".toList else "False".toList

/-- One invocation: its arguments, what it reads of its machine, its engine, and its prompts, `none` for one that cannot
be built. -/
structure SweepRun (σ : Type) where
  campaignId          : Text
  modelId             : Text
  seqLens             : List Int
  batchSizes          : List Int
  nSamples            : Int
  blockSize           : Int
  enforceEager        : Bool
  decodeTokens        : Int
  gpuName             : Text
  vllmVersion         : Text
  theoryBpt           : Int
  fixedOverhead       : Int
  maxNumBatchedTokens : Int
  driver              : EngineDriver σ
  engine              : σ
  prompt              : Int → Option Text

namespace SweepRun

def method (r : SweepRun σ) : Text :=
  "vllm-".toList ++ r.vllmVersion ++ " offline engine, manual step loop, ".toList ++
    "block-manager accounting, max_tokens=".toList ++ Text.ofInt r.decodeTokens ++ ", ".toList ++
    "ignore_eos=True, enforce_eager=".toList ++ pyBool r.enforceEager

def context (r : SweepRun σ) : SweepContext where
  campaignId := r.campaignId
  modelId := r.modelId
  gpu := r.gpuName
  vllmVersion := r.vllmVersion
  theoryBpt := r.theoryBpt
  baselineBytes := r.fixedOverhead
  blockSize := r.blockSize
  decodeTokens := r.decodeTokens
  method := r.method
  maxNumBatchedTokens := r.maxNumBatchedTokens

def points (r : SweepRun σ) : List (Int × Int) := r.seqLens ×ˢ r.batchSizes

def read (codec : KvCellCodec C) (r : SweepRun σ) (dir : CampaignDir C) (point : Int × Int) : Option KvScalingCell :=
  readCellJson codec dir point r.nSamples r.modelId

/-- The cell a point gives and the engine it leaves; `none` is an exception. -/
def measure (r : SweepRun σ) (point : Int × Int) (s : σ) : Option (KvScalingCell × σ) :=
  match r.prompt point.1 with
  | none        => none
  | some prompt =>
    match KvSweep.runCell r.driver r.context point.1 point.2 r.nSamples (List.replicate point.2.toNat prompt) s with
    | (.error _, _)  => none
    | (.ok cell, s') => some (cell, s')

/-- The cells of the points, `none` when one raised, and the directory. -/
def cellsOf (codec : KvCellCodec C) (r : SweepRun σ) :
    List (Int × Int) → σ → CampaignDir C → Option (List KvScalingCell) × CampaignDir C
  | [], _, dir              => (some [], dir)
  | point :: points, s, dir =>
    match r.read codec dir point with
    | some cell =>
      let rest := cellsOf codec r points s dir
      (rest.1.map (fun cells => cell :: cells), rest.2)
    | none      =>
      match r.measure point s with
      | none        => (none, dir)
      | some (cell, s') =>
        let rest := cellsOf codec r points s' (writeCellJson codec dir point cell)
        (rest.1.map (fun cells => cell :: cells), rest.2)

/-- A sweep interrupted after so many cells: what it leaves in the directory. -/
def interrupted (codec : KvCellCodec C) (dir : CampaignDir C) (run : SweepRun σ × Nat) : CampaignDir C :=
  (run.1.cellsOf codec (run.1.points.take run.2) run.1.engine dir).2

/-! ## What is measured -/

/-- The cell was measured on this machine with this engine and these settings. -/
structure MeasuredBy (r : SweepRun σ) (cell : KvScalingCell) : Prop where
  gpu           : cell.gpu = r.gpuName
  vllmVersion   : cell.vllmVersion = r.vllmVersion
  method        : cell.method = r.method
  baselineBytes : cell.baselineBytes = r.fixedOverhead

end SweepRun

theorem KvScalingCell.ok_fields {f : CellFields} {cell : KvScalingCell} (h : KvScalingCell.make? f = .ok cell) :
    cell.toCellFields = f := by
  unfold KvScalingCell.make? at h
  split at h
  · cases h
    rfl
  · cases h

/-- **A measured cell has the point, the number of samples and the settings of its sweep.** -/
theorem KvSweep.runCell_fields {d : EngineDriver σ} {ctx : SweepContext} {seqLen batchSize nSamples : Int}
    {prompts : List Text} {s s' : σ} {cell : KvScalingCell}
    (h : KvSweep.runCell d ctx seqLen batchSize nSamples prompts s = (.ok cell, s')) :
    (cell.seqLen = seqLen ∧ cell.batchSize = batchSize ∧ cell.nSamples = nSamples ∧ cell.modelId = ctx.modelId) ∧
      cell.gpu = ctx.gpu ∧ cell.vllmVersion = ctx.vllmVersion ∧ cell.method = ctx.method ∧
      cell.baselineBytes = ctx.baselineBytes := by
  unfold KvSweep.runCell at h
  obtain ⟨-, s₁, -, h⟩ := Act.bind_ok h
  obtain ⟨-, s₂, -, h⟩ := Act.bind_ok h
  obtain ⟨chunks, s₃, -, h⟩ := Act.bind_ok h
  obtain ⟨readings, s₄, -, h⟩ := Act.bind_ok h
  obtain ⟨-, s₅, -, h⟩ := Act.bind_ok h
  have hfields := KvScalingCell.ok_fields (Act.lift_ok h).1
  simp only [hfields, and_self]

/-! ## Points and their files -/

theorem KvScalingCell.positive (cell : KvScalingCell) : 0 < cell.seqLen ∧ 0 < cell.batchSize :=
  ⟨cell.bounds.1, cell.bounds.2.1⟩

def Positive (point : Int × Int) : Prop := 0 < point.1 ∧ 0 < point.2

/-- **Two points have two files.** -/
theorem kvCellPath_inj {p q : Int × Int} (hp : Positive p) (hq : Positive q) (h : kvCellPath p = kvCellPath q) :
    p = q := by
  obtain ⟨a, ha⟩ := Int.eq_ofNat_of_zero_le hp.1.le
  obtain ⟨b, hb⟩ := Int.eq_ofNat_of_zero_le hp.2.le
  obtain ⟨c, hc⟩ := Int.eq_ofNat_of_zero_le hq.1.le
  obtain ⟨d, hd⟩ := Int.eq_ofNat_of_zero_le hq.2.le
  unfold kvCellPath at h
  rw [ha, hb, hc, hd] at h
  simp only [Text.ofInt_natCast, List.append_assoc] at h
  obtain ⟨hac, h⟩ := Text.ofNat_sep_inj (c := '_') rfl (List.append_cancel_left h)
  obtain ⟨hbd, -⟩ := Text.ofNat_sep_inj (c := '.') rfl (List.cons.inj h).2
  exact Prod.ext (by rw [ha, hc, hac]) (by rw [hb, hd, hbd])

section Files

variable (codec : KvCellCodec C) {dir : CampaignDir C} {point : Int × Int} {cell : KvScalingCell} {nSamples : Int}
  {modelId : Text}

theorem readCellJson_eq_some : readCellJson codec dir point nSamples modelId = some cell ↔
    (dir.get? (kvCellPath point)).bind codec.parse = some cell ∧
      cell.seqLen = point.1 ∧ cell.batchSize = point.2 ∧ cell.nSamples = nSamples ∧ cell.modelId = modelId := by
  unfold readCellJson
  cases hfile : (dir.get? (kvCellPath point)).bind codec.parse with
  | none => simp
  | some found =>
    simp only
    constructor
    · intro h
      split at h
      · cases h
      · rename_i hsame
        cases h
        exact ⟨rfl, by tauto⟩
    · rintro ⟨hfound, hsame⟩
      cases hfound
      rw [if_neg (by tauto)]

theorem read_write_self (hseq : cell.seqLen = point.1) (hbatch : cell.batchSize = point.2) (found : KvScalingCell) :
    readCellJson codec (writeCellJson codec dir point cell) point nSamples modelId = some found ↔
      found = cell ∧ cell.nSamples = nSamples ∧ cell.modelId = modelId := by
  rw [readCellJson_eq_some, writeCellJson, OrdDict.get?_set_self, Option.bind_some, codec.roundTrip]
  constructor
  · rintro ⟨hfound, -, -, hn, hm⟩
    cases hfound
    exact ⟨rfl, hn, hm⟩
  · rintro ⟨rfl, hn, hm⟩
    exact ⟨rfl, hseq, hbatch, hn, hm⟩

theorem read_set_of_ne (content : C) {other : Int × Int} (hne : other ≠ point) (hpos : Positive point)
    (found : KvScalingCell) :
    readCellJson codec (dir.set (kvCellPath point) content) other nSamples modelId = some found ↔
      readCellJson codec dir other nSamples modelId = some found := by
  rw [readCellJson_eq_some, readCellJson_eq_some]
  refine and_congr_left (fun hfields => ?_)
  have hother : Positive other := by
    have hp := found.positive
    rw [hfields.1, hfields.2.1] at hp
    exact hp
  rw [OrdDict.get?_set_of_ne _ _ (fun he => hne (kvCellPath_inj hother hpos he))]

theorem read_write_of_ne {other : Int × Int} (hne : other ≠ point) (hpos : Positive point) (found : KvScalingCell) :
    readCellJson codec (writeCellJson codec dir point cell) other nSamples modelId = some found ↔
      readCellJson codec dir other nSamples modelId = some found :=
  read_set_of_ne codec (codec.dump cell) hne hpos found

end Files

namespace SweepRun

/-- **A measured cell has its point and the settings of its run.** -/
theorem measure_spec {r : SweepRun σ} {point : Int × Int} {s s' : σ} {cell : KvScalingCell}
    (h : r.measure point s = some (cell, s')) :
    (cell.seqLen = point.1 ∧ cell.batchSize = point.2 ∧ cell.nSamples = r.nSamples ∧ cell.modelId = r.modelId) ∧
      r.MeasuredBy cell := by
  unfold measure at h
  split at h
  · cases h
  · split at h
    · cases h
    · rename_i hrun
      cases h
      obtain ⟨hpoint, hgpu, hversion, hmethod, hbaseline⟩ := KvSweep.runCell_fields hrun
      exact ⟨hpoint, hgpu, hversion, hmethod, hbaseline⟩

theorem positive_of_measure {r : SweepRun σ} {point : Int × Int} {s s' : σ} {cell : KvScalingCell}
    (h : r.measure point s = some (cell, s')) : Positive point := by
  obtain ⟨⟨hseq, hbatch, -⟩, -⟩ := measure_spec h
  have hpos := cell.positive
  rw [hseq, hbatch] at hpos
  exact hpos

/-- A measured cell is read back from the file it is written to. -/
theorem read_write_measured (codec : KvCellCodec C) {r : SweepRun σ} {point : Int × Int} {s s' : σ}
    {cell : KvScalingCell} {dir : CampaignDir C} (h : r.measure point s = some (cell, s')) :
    r.read codec (writeCellJson codec dir point cell) point = some cell := by
  obtain ⟨⟨hseq, hbatch, hn, hmodel⟩, -⟩ := measure_spec h
  exact (read_write_self codec hseq hbatch cell).2 ⟨rfl, hn, hmodel⟩

/-- Writing a measured cell leaves its file and every file that was there. -/
theorem isSome_read_write (codec : KvCellCodec C) {r : SweepRun σ} {point other : Int × Int} {s s' : σ}
    {cell : KvScalingCell} {dir : CampaignDir C} (h : r.measure point s = some (cell, s'))
    (hother : other = point ∨ (r.read codec dir other).isSome = true) :
    (r.read codec (writeCellJson codec dir point cell) other).isSome = true := by
  by_cases hsame : other = point
  · rw [hsame]
    exact Option.isSome_iff_exists.2 ⟨cell, read_write_measured codec h⟩
  · obtain ⟨found, hfound⟩ := Option.isSome_iff_exists.1 (hother.resolve_left hsame)
    exact Option.isSome_iff_exists.2 ⟨found, (read_write_of_ne codec hsame (positive_of_measure h) found).2 hfound⟩

/-! ## One sweep -/

/-- The first cell is accepted from its file, or measured and written to it. -/
theorem cellsOf_cons (codec : KvCellCodec C) (r : SweepRun σ) {point : Int × Int} {points : List (Int × Int)} {s : σ}
    {dir : CampaignDir C} {cells : List KvScalingCell} (h : (r.cellsOf codec (point :: points) s dir).1 = some cells) :
    ∃ cell rest, cells = cell :: rest ∧
      ((r.read codec dir point = some cell ∧ (r.cellsOf codec points s dir).1 = some rest) ∨
        (r.read codec dir point = none ∧ ∃ s', r.measure point s = some (cell, s') ∧
          (r.cellsOf codec points s' (writeCellJson codec dir point cell)).1 = some rest)) := by
  rw [cellsOf] at h
  cases hread : r.read codec dir point with
  | some cell =>
    simp only [hread] at h
    obtain ⟨rest, hrest, rfl⟩ := Option.map_eq_some_iff.1 h
    exact ⟨cell, rest, rfl, Or.inl ⟨rfl, hrest⟩⟩
  | none =>
    simp only [hread] at h
    cases hmeasure : r.measure point s with
    | none =>
      rw [hmeasure] at h
      cases h
    | some m =>
      simp only [hmeasure] at h
      obtain ⟨rest, hrest, rfl⟩ := Option.map_eq_some_iff.1 h
      exact ⟨m.1, rest, rfl, Or.inr ⟨rfl, m.2, rfl, hrest⟩⟩

/-- **The cells of a sweep**: each accepted from its file or measured now, and every accepted one is among them. -/
theorem cellsOf_spec (codec : KvCellCodec C) (r : SweepRun σ) : ∀ (points : List (Int × Int)) (s : σ)
    (dir : CampaignDir C) (cells : List KvScalingCell), (r.cellsOf codec points s dir).1 = some cells →
      (∀ c ∈ cells, (∃ point ∈ points, r.read codec dir point = some c) ∨ r.MeasuredBy c) ∧
        ∀ point ∈ points, ∀ c, r.read codec dir point = some c → c ∈ cells
  | [], _, _, cells, h => by
    cases h
    exact ⟨fun c hc => absurd hc List.not_mem_nil, fun point hp => absurd hp List.not_mem_nil⟩
  | point :: points, s, dir, cells, h => by
    obtain ⟨cell, rest, rfl, ⟨hread, hrest⟩ | ⟨hread, s', hmeasure, hrest⟩⟩ := cellsOf_cons codec r h
    · obtain ⟨hfrom, hall⟩ := cellsOf_spec codec r points s dir rest hrest
      refine ⟨fun c hc => ?_, fun p hp c hc => ?_⟩
      · rcases List.mem_cons.1 hc with rfl | hc
        · exact Or.inl ⟨point, List.mem_cons_self, hread⟩
        · rcases hfrom c hc with ⟨p, hp, hpc⟩ | hmeasured
          · exact Or.inl ⟨p, List.mem_cons_of_mem _ hp, hpc⟩
          · exact Or.inr hmeasured
      · rcases List.mem_cons.1 hp with rfl | hp
        · rw [hread] at hc
          cases hc
          exact List.mem_cons_self
        · exact List.mem_cons_of_mem _ (hall p hp c hc)
    · obtain ⟨-, hmeasured⟩ := measure_spec hmeasure
      obtain ⟨hfrom, hall⟩ := cellsOf_spec codec r points s' _ rest hrest
      refine ⟨fun c hc => ?_, fun p hp c hc => ?_⟩
      · rcases List.mem_cons.1 hc with rfl | hc
        · exact Or.inr hmeasured
        · rcases hfrom c hc with ⟨p, hp, hpc⟩ | hmeasured'
          · by_cases hsame : p = point
            · subst hsame
              obtain rfl := Option.some.inj ((read_write_measured codec hmeasure).symm.trans hpc)
              exact Or.inr hmeasured
            · exact Or.inl ⟨p, List.mem_cons_of_mem _ hp,
                (read_write_of_ne codec hsame (positive_of_measure hmeasure) c).1 hpc⟩
          · exact Or.inr hmeasured'
      · have hne : p ≠ point := by
          rintro rfl
          rw [hread] at hc
          cases hc
        have hp' := (List.mem_cons.1 hp).resolve_left hne
        exact List.mem_cons_of_mem _ (hall p hp' c
          ((read_write_of_ne codec hne (positive_of_measure hmeasure) c).2 hc))

/-! ## Runs -/

/-- **The cells of a resumed sweep are its own exactly when the files it accepts are.** -/
theorem resumed_homogeneous_iff (codec : KvCellCodec C) (dir : CampaignDir C) (history : List (SweepRun σ × Nat))
    (r : SweepRun σ) (cells : List KvScalingCell)
    (hcells : (r.cellsOf codec r.points r.engine (Runs.run (interrupted codec) dir history)).1 = some cells) :
    (∀ c ∈ cells, r.MeasuredBy c) ↔
      ∀ point ∈ r.points, ∀ c, r.read codec (Runs.run (interrupted codec) dir history) point = some c →
        r.MeasuredBy c := by
  obtain ⟨hfrom, hall⟩ := cellsOf_spec codec r r.points r.engine _ cells hcells
  constructor
  · intro h point hp c hc
    exact h c (hall point hp c hc)
  · intro h c hc
    rcases hfrom c hc with ⟨point, hp, hpc⟩ | hmeasured
    · exact h point hp c hpc
    · exact hmeasured

/-- The runs would record the same of a cell. -/
structure SameSettings (q r : SweepRun σ) : Prop where
  gpuName       : q.gpuName = r.gpuName
  vllmVersion   : q.vllmVersion = r.vllmVersion
  method        : q.method = r.method
  fixedOverhead : q.fixedOverhead = r.fixedOverhead

/-- Every file that this run would accept is as it would have measured it. -/
def AcceptsOwn (codec : KvCellCodec C) (r : SweepRun σ) (dir : CampaignDir C) : Prop :=
  ∀ point c, r.read codec dir point = some c → r.MeasuredBy c

theorem acceptsOwn_cellsOf (codec : KvCellCodec C) (q r : SweepRun σ)
    (hsame : q.modelId = r.modelId → q.nSamples = r.nSamples → SameSettings q r) :
    ∀ (points : List (Int × Int)) (s : σ) (dir : CampaignDir C), AcceptsOwn codec r dir →
      AcceptsOwn codec r (q.cellsOf codec points s dir).2
  | [], _, _, h => h
  | point :: points, s, dir, h => by
    rw [cellsOf]
    cases hread : q.read codec dir point with
    | some cell => exact acceptsOwn_cellsOf codec q r hsame points s dir h
    | none =>
      cases hmeasure : q.measure point s with
      | none => exact h
      | some m =>
        obtain ⟨cell, s'⟩ := m
        refine acceptsOwn_cellsOf codec q r hsame points s' _ (fun p c hc => ?_)
        obtain ⟨⟨hseq, hbatch, hn, hm⟩, hmeasured⟩ := measure_spec hmeasure
        by_cases hp : p = point
        · subst hp
          obtain ⟨rfl, hn', hm'⟩ := (read_write_self codec hseq hbatch c).1 hc
          obtain ⟨hgpu, hversion, hmethod, hoverhead⟩ := hsame (hm.symm.trans hm') (hn.symm.trans hn')
          exact ⟨hmeasured.gpu.trans hgpu, hmeasured.vllmVersion.trans hversion, hmeasured.method.trans hmethod,
            hmeasured.baselineBytes.trans hoverhead⟩
        · exact h p c ((read_write_of_ne codec hp (positive_of_measure hmeasure) c).1 hc)

/-- **A sweep resumed after runs with its settings has only its own cells**, whatever runs of other models or numbers of
samples there were. -/
theorem homogeneous_over_runs (codec : KvCellCodec C) (dir : CampaignDir C) (history : List (SweepRun σ × Nat))
    (r : SweepRun σ) (cells : List KvScalingCell) (hdir : AcceptsOwn codec r dir)
    (hsame : ∀ x ∈ history, x.1.modelId = r.modelId → x.1.nSamples = r.nSamples → SameSettings x.1 r)
    (hcells : (r.cellsOf codec r.points r.engine (Runs.run (interrupted codec) dir history)).1 = some cells) :
    ∀ c ∈ cells, r.MeasuredBy c := by
  have hafter : AcceptsOwn codec r (Runs.run (interrupted codec) dir history) :=
    Runs.run_invariant (AcceptsOwn codec r) history dir
      (fun d x hx hd => acceptsOwn_cellsOf codec x.1 r (hsame x hx) _ _ d hd) hdir
  intro c hc
  rcases (cellsOf_spec codec r r.points r.engine _ cells hcells).1 c hc with ⟨point, -, hpc⟩ | hmeasured
  · exact hafter point c hpc
  · exact hmeasured

/-! ## A sweep resumed on another machine -/

theorem poolBlocks_pos : (0 : Int) < 64 := by decide

theorem blockTokens_pos : (0 : Int) < 16 := by decide

def smallPool : FakeEngine where
  totalBlocks := 64
  blockSize := 16
  fixedOverheadBytes := 1
  eosAfter := none
  totalPos := poolBlocks_pos
  blockSizePos := blockTokens_pos
  overheadPos := Int.zero_lt_one
  eosGe := rfl

/-- Two points, a sample each. -/
def sweepOn (gpuName : Text) (fixedOverhead : Int) : SweepRun FakeState where
  campaignId := "kv-scaling".toList
  modelId := "Qwen/Qwen2.5-7B".toList
  seqLens := [16]
  batchSizes := [1, 2]
  nSamples := 1
  blockSize := 16
  enforceEager := true
  decodeTokens := 4
  gpuName := gpuName
  vllmVersion := "0.11.2".toList
  theoryBpt := 2
  fixedOverhead := fixedOverhead
  maxNumBatchedTokens := 8192
  driver := smallPool.driver
  engine := FakeState.fresh
  prompt := fun _ => some []

def onA40 : SweepRun FakeState := sweepOn "NVIDIA A40".toList 1000

def onL40S : SweepRun FakeState := sweepOn "NVIDIA L40S".toList 2000

/-- The directory a sweep leaves that was interrupted after its first cell. -/
def afterFirstCell : CampaignDir Text := Runs.run (interrupted (cellFileCodec strictCoercions)) .empty [(onA40, 1)]

theorem resumed_cells :
    ((onL40S.cellsOf (cellFileCodec strictCoercions) onL40S.points onL40S.engine afterFirstCell).1.map (fun cells =>
      cells.map (fun c => (c.gpu, c.baselineBytes)))) =
        some [("NVIDIA A40".toList, 1000), ("NVIDIA L40S".toList, 2000)] := by
  decide +kernel

theorem resumed_iff :
    ∃ cells, (onL40S.cellsOf (cellFileCodec strictCoercions) onL40S.points onL40S.engine afterFirstCell).1 = some cells ∧
      ((∀ c ∈ cells, onL40S.MeasuredBy c) ↔
        ∀ point ∈ onL40S.points, ∀ c, onL40S.read (cellFileCodec strictCoercions) afterFirstCell point = some c →
          onL40S.MeasuredBy c) := by
  obtain ⟨cells, hcells, -⟩ := Option.map_eq_some_iff.1 resumed_cells
  exact ⟨cells, hcells, resumed_homogeneous_iff (cellFileCodec strictCoercions) .empty [(onA40, 1)] onL40S cells hcells⟩

/-- **A sweep resumed on another machine mixes two machines in one campaign**, and two fixed overheads. -/
theorem resumed_on_another_machine :
    ∃ cells, (onL40S.cellsOf (cellFileCodec strictCoercions) onL40S.points onL40S.engine afterFirstCell).1 = some cells ∧
      cells.map (fun c => (c.gpu, c.baselineBytes)) = [("NVIDIA A40".toList, 1000), ("NVIDIA L40S".toList, 2000)] ∧
      ¬ ∀ c ∈ cells, onL40S.MeasuredBy c := by
  obtain ⟨cells, hcells, hread⟩ := Option.map_eq_some_iff.1 resumed_cells
  refine ⟨cells, hcells, hread, fun h => ?_⟩
  have hmem : ("NVIDIA A40".toList, (1000 : Int)) ∈ cells.map (fun c => (c.gpu, c.baselineBytes)) := by
    rw [hread]
    exact List.mem_cons_self
  obtain ⟨c, hc, heq⟩ := List.mem_map.1 hmem
  have hoverhead : (1000 : Int) = 2000 := (congrArg Prod.snd heq).symm.trans (h c hc).baselineBytes
  cases hoverhead

end SweepRun
end GoodputLab
