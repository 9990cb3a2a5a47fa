import GoodputLab.FakeServes
import GoodputLab.KvCellFile
import GoodputLab.KvSweepIds
/-!
# KvSweepResume — a killed sweep resumed ends like one that was not (`bench/kv_scaling/measure.py`)

An engine that has finished its earlier points measures a new one alike wherever it stands (`Steady`); one that serves
every point on a schedule does (`Staggered.steady`).  Runs that are killed then leave only such cells in the files
(`accepts_killed`), and the run that ends has the cells of one that was never killed (`sweep_survives_kills`).
-/
namespace GoodputLab

variable {σ C : Type}

namespace SweepRun

/-! ## Steady engines -/

/-- The run measures a point as `cellOf` says whatever it measured before: `idle done s` after the points `done`. -/
structure SteadyFrom (r : SweepRun σ) (cellOf : Int × Int → Option KvScalingCell)
    (idle : List (Int × Int) → σ → Prop) : Prop where
  fresh   : idle [] r.engine
  measure : ∀ {done s point}, idle done s → point ∈ r.points → point ∉ done →
    (r.measure point s).map Prod.fst = cellOf point ∧ ∀ m ∈ r.measure point s, idle (point :: done) m.2

def Steady (r : SweepRun σ) (cellOf : Int × Int → Option KvScalingCell) : Prop := ∃ idle, r.SteadyFrom cellOf idle

/-- Every file that the run would accept is the cell of its point. -/
def AcceptsOnly (codec : KvCellCodec C) (r : SweepRun σ) (cellOf : Int × Int → Option KvScalingCell)
    (dir : CampaignDir C) : Prop :=
  ∀ point c, r.read codec dir point = some c → cellOf point = some c

/-- A run on its way: the engine is idle after points whose files are there. -/
structure OnTheWay (codec : KvCellCodec C) (r : SweepRun σ) (cellOf : Int × Int → Option KvScalingCell)
    (idle : List (Int × Int) → σ → Prop) (s : σ) (dir : CampaignDir C) : Prop where
  stored  : ∃ done, idle done s ∧ ∀ point ∈ done, (r.read codec dir point).isSome = true
  accepts : r.AcceptsOnly codec cellOf dir

section Steps
variable {codec : KvCellCodec C} {r : SweepRun σ} {cellOf : Int × Int → Option KvScalingCell}
  {idle : List (Int × Int) → σ → Prop} {s : σ} {dir : CampaignDir C} {point : Int × Int}

theorem SteadyFrom.start (h : r.SteadyFrom cellOf idle) (haccepts : r.AcceptsOnly codec cellOf dir) :
    r.OnTheWay codec cellOf idle r.engine dir :=
  ⟨⟨[], h.fresh, fun _ hq => absurd hq List.not_mem_nil⟩, haccepts⟩

theorem AcceptsOnly.write {s' : σ} {cell : KvScalingCell} (haccepts : r.AcceptsOnly codec cellOf dir)
    (h : r.measure point s = some (cell, s')) (hcell : cellOf point = some cell) :
    r.AcceptsOnly codec cellOf (writeCellJson codec dir point cell) := by
  intro q c hc
  by_cases hqp : q = point
  · subst hqp
    rw [read_write_measured codec h] at hc
    exact hcell.trans hc
  · exact haccepts q c ((read_write_of_ne codec hqp (positive_of_measure h) c).1 hc)

/-- **A point without a file is measured as its cell**, and then its file is there. -/
theorem OnTheWay.measure (hr : r.SteadyFrom cellOf idle) (h : r.OnTheWay codec cellOf idle s dir)
    (hpoint : point ∈ r.points) (hnone : r.read codec dir point = none) :
    (r.measure point s).map Prod.fst = cellOf point ∧
      ∀ m ∈ r.measure point s, r.OnTheWay codec cellOf idle m.2 (writeCellJson codec dir point m.1) := by
  obtain ⟨done, hidle, hstored⟩ := h.stored
  have hnew : point ∉ done := by
    intro hmem
    have hsome := hstored point hmem
    rw [hnone] at hsome
    cases hsome
  obtain ⟨hcell, hnext⟩ := hr.measure hidle hpoint hnew
  refine ⟨hcell, fun m hm => ?_⟩
  have hmeasure : r.measure point s = some m := hm
  rw [hmeasure, Option.map_some] at hcell
  refine ⟨⟨point :: done, hnext m hm, fun q hq => ?_⟩, h.accepts.write hmeasure hcell.symm⟩
  exact isSome_read_write codec hmeasure ((List.mem_cons.1 hq).imp_right (hstored q))

/-- **The cells of a run on its way** are those of its points. -/
theorem OnTheWay.cells (hr : r.SteadyFrom cellOf idle) : ∀ {points : List (Int × Int)} {s : σ} {dir : CampaignDir C},
    (∀ q ∈ points, q ∈ r.points) → r.OnTheWay codec cellOf idle s dir →
      (r.cellsOf codec points s dir).1 = points.mapM cellOf
  | [], _, _, _, _ => rfl
  | point :: points, s, dir, hpoints, h => by
    have hrest : ∀ q ∈ points, q ∈ r.points := fun q hq => hpoints q (List.mem_cons_of_mem _ hq)
    rw [cellsOf, List.mapM_cons]
    cases hread : r.read codec dir point with
    | some cell =>
      simp only [h.cells hr hrest, h.accepts point cell hread]
      cases points.mapM cellOf <;> rfl
    | none =>
      obtain ⟨hcell, hnext⟩ := h.measure hr (hpoints point List.mem_cons_self) hread
      cases hmeasure : r.measure point s with
      | none =>
        rw [hmeasure] at hcell
        rw [← hcell]
        rfl
      | some m =>
        rw [hmeasure] at hcell
        have hm := (hnext m hmeasure).cells hr hrest
        simp only [hm, ← hcell]
        cases points.mapM cellOf <;> rfl

end Steps

/-! ## Kills -/

section Kills
variable (p : Coercions) {r : SweepRun σ} {cellOf : Int × Int → Option KvScalingCell}
  {idle : List (Int × Int) → σ → Prop}

/-- **A killed run leaves only the cells of its points**, torn or not. -/
theorem OnTheWay.killed (hr : r.SteadyFrom cellOf idle) : ∀ {points : List (Int × Int)} {s : σ}
    {dir : CampaignDir Text} {n : Nat} {torn : Option Nat}, (∀ q ∈ points, q ∈ r.points) →
      r.OnTheWay (cellFileCodec p) cellOf idle s dir →
      r.AcceptsOnly (cellFileCodec p) cellOf (r.killedAt (cellFileCodec p) points s dir n torn)
  | [], _, _, _, _, _, h => h.accepts
  | point :: points, s, dir, n, torn, hpoints, h => by
    have hrest : ∀ q ∈ points, q ∈ r.points := fun q hq => hpoints q (List.mem_cons_of_mem _ hq)
    unfold killedAt
    cases hread : r.read (cellFileCodec p) dir point with
    | some _ =>
      cases n with
      | zero   => exact h.accepts
      | succ n => exact h.killed hr hrest
    | none =>
      obtain ⟨hcell, hnext⟩ := h.measure hr (hpoints point List.mem_cons_self) hread
      cases hmeasure : r.measure point s with
      | none => exact h.accepts
      | some m =>
        obtain ⟨cell, s'⟩ := m
        cases n with
        | succ n => exact (hnext (cell, s') hmeasure).killed hr hrest
        | zero =>
          cases torn with
          | none => exact h.accepts
          | some k =>
            intro q c hc
            obtain ⟨⟨hseq, hbatch, -⟩, -⟩ := measure_spec hmeasure
            rcases read_torn p (positive_of_measure hmeasure) (List.take_prefix k _) hc with ⟨rfl, -⟩ | hbefore
            · obtain ⟨-, hseq', hbatch', -⟩ := (readCellJson_eq_some (cellFileCodec p)).1 hc
              obtain rfl : q = point := Prod.ext (hseq'.symm.trans hseq) (hbatch'.symm.trans hbatch)
              rw [hmeasure] at hcell
              exact hcell.symm
            · exact h.accepts q c hbefore

theorem acceptsOnly_congr {q : SweepRun σ} (hmodel : q.modelId = r.modelId) (hn : q.nSamples = r.nSamples)
    (codec : KvCellCodec C) (dir : CampaignDir C) :
    q.AcceptsOnly codec cellOf dir ↔ r.AcceptsOnly codec cellOf dir := by
  unfold AcceptsOnly read
  rw [hmodel, hn]

/-- A run for the same model and number of samples leaves only cells of their points, any other run none that would be
accepted. -/
theorem acceptsOnly_killed {x : Killed σ}
    (hsame : x.run.modelId = r.modelId → x.run.nSamples = r.nSamples → x.run.Steady cellOf) {dir : CampaignDir Text}
    (h : r.AcceptsOnly (cellFileCodec p) cellOf dir) :
    r.AcceptsOnly (cellFileCodec p) cellOf (killed (cellFileCodec p) dir x) := by
  by_cases hown : x.run.modelId = r.modelId ∧ x.run.nSamples = r.nSamples
  · obtain ⟨idle, hidle⟩ := hsame hown.1 hown.2
    rw [← acceptsOnly_congr hown.1 hown.2] at h ⊢
    exact (hidle.start h).killed p hidle (fun _ hq => hq)
  · refine killedAt_invariant (cellFileCodec p) (r.AcceptsOnly (cellFileCodec p) cellOf) ?_ _ _ _ _ _ h
    intro dir point cell s s' content hdir _ hmeasure hcontent q c hc
    obtain ⟨⟨-, -, hn, hmodel⟩, -⟩ := measure_spec hmeasure
    rcases read_torn p (positive_of_measure hmeasure) hcontent hc with ⟨-, hn', hmodel'⟩ | hbefore
    · exact absurd ⟨hmodel.symm.trans hmodel', hn.symm.trans hn'⟩ hown
    · exact hdir q c hbefore

theorem acceptsOnly_empty : r.AcceptsOnly (cellFileCodec p) cellOf .empty := by
  intro point c hc
  obtain ⟨hparse, -⟩ := (readCellJson_eq_some (cellFileCodec p)).1 hc
  cases hparse

/-- **A sweep survives kills.**  When every earlier run for its model and number of samples measured its points alike,
the run that comes to its end has the cells of one that found an empty directory, or raises as that one does. -/
theorem sweep_survives_kills (history : List (Killed σ)) (hr : r.Steady cellOf)
    (hsame : ∀ x ∈ history, x.run.modelId = r.modelId → x.run.nSamples = r.nSamples → x.run.Steady cellOf) :
    (r.cellsOf (cellFileCodec p) r.points r.engine (Runs.run (killed (cellFileCodec p)) .empty history)).1 =
      (r.cellsOf (cellFileCodec p) r.points r.engine .empty).1 := by
  obtain ⟨idle, hidle⟩ := hr
  have hafter : r.AcceptsOnly (cellFileCodec p) cellOf (Runs.run (killed (cellFileCodec p)) .empty history) :=
    Runs.run_invariant (r.AcceptsOnly (cellFileCodec p) cellOf) history .empty
      (fun _ x hx hdir => acceptsOnly_killed p (hsame x hx) hdir) (acceptsOnly_empty p)
  have hresumed := (hidle.start hafter).cells hidle (fun _ hq => hq)
  have halone := (hidle.start (acceptsOnly_empty p)).cells hidle (fun _ hq => hq)
  exact hresumed.trans halone.symm

end Kills

/-! ## Engines that serve every point on a schedule -/

/-- The run's engine serves each point of the grid on a schedule, from one idle state to another. -/
structure Staggered (r : SweepRun σ) where
  schedule : Int × Int → Stagger
  serves   : ∀ point ∈ r.points, Serves r.driver (schedule point)
  fits     : ∀ point ∈ r.points, (schedule point).Fits r.context point.1 point.2
  idle     : List Text → σ → Prop
  idle_iff : ∀ point hpoint seen s, (serves point hpoint).idle seen s ↔ idle seen s
  fresh    : idle [] r.engine
  prompts  : ∀ point ∈ r.points, (r.prompt point.1).isSome = true
  samples  : 1 ≤ r.nSamples
  chunked  : r.maxNumBatchedTokens ≠ 0

namespace Staggered

variable {r : SweepRun σ} (g : r.Staggered)

def chunks (r : SweepRun σ) (point : Int × Int) : Int := -Int.fdiv (-point.2 * point.1) r.maxNumBatchedTokens

/-- The cell of a point, none when the budget of its samples does not reach the last start of its schedule. -/
def cell (point : Int × Int) : Option KvScalingCell :=
  if ((g.schedule point).last : Int) ≤ chunks r point + 8 then
    (KvScalingCell.make? ((g.schedule point).cellFields r.context point.2 r.nSamples)).toOption
  else none

/-- The engine is idle, and what it has seen are ids of the points `done`. -/
def idleAfter (done : List (Int × Int)) (s : σ) : Prop :=
  ∃ seen, g.idle seen s ∧ ∀ rid ∈ seen, ∃ q ∈ done, OfPoint r.campaignId q rid

section Measured
variable {point : Int × Int} {seen : List Text} {s : σ} (hpoint : point ∈ r.points)
  (hfresh : ∀ i k, cellRequestId r.context.campaignId point.1 point.2 i k ∉ seen) (hidle : g.idle seen s)

theorem prefillChunks_eq (hchunked : r.maxNumBatchedTokens ≠ 0) (point : Int × Int) :
    prefillChunks point.2 point.1 r.context.maxNumBatchedTokens = .ok (chunks r point) := if_neg hchunked

include g hpoint

/-- The prompts a point is measured with. -/
theorem exists_prompt : ∃ prompt, r.prompt point.1 = some prompt ∧
    ((List.replicate point.2.toNat prompt).length : Int) = point.2 := by
  obtain ⟨b, n, hb, hn, -, hbpos, hnpos⟩ := (g.fits point hpoint).lift
  obtain ⟨prompt, hprompt⟩ := Option.isSome_iff_exists.1 (g.prompts point hpoint)
  refine ⟨prompt, hprompt, ?_⟩
  rw [List.length_replicate]
  omega

include hfresh hidle

/-- Within the budget the engine measures the cell of its schedule, and has then seen ids of the point besides. -/
theorem measure_withinBudget (hbudget : ((g.schedule point).last : Int) ≤ chunks r point + 8) :
    ∃ cell s', r.measure point s = some (cell, s') ∧ g.cell point = some cell ∧ ∃ seen', g.idle seen' s' ∧
      ∀ rid ∈ seen', rid ∈ seen ∨ ∃ i k, rid = cellRequestId r.context.campaignId point.1 point.2 i k := by
  obtain ⟨prompt, hprompt, hprompts⟩ := g.exists_prompt hpoint
  obtain ⟨cell, s', hrun, hfields, seen', hs', hseen'⟩ := Stagger.runCell_staggered (g.serves point hpoint)
    (g.fits point hpoint) g.samples hprompts (prefillChunks_eq g.chunked point) hbudget
    ((g.idle_iff point hpoint seen s).2 hidle) hfresh
  refine ⟨cell, s', ?_, ?_, seen', (g.idle_iff point hpoint seen' s').1 hs', hseen'⟩
  · unfold SweepRun.measure
    rw [hprompt]
    simp only [hrun]
  · have hmake := KvScalingCell.make?_ok (hfields ▸ cell.checked)
    rw [Staggered.cell, if_pos hbudget, hmake]
    cases cell
    simp only at hfields
    subst hfields
    rfl

theorem measure_outOfSteps (hbudget : chunks r point + 8 < ((g.schedule point).last : Int)) :
    r.measure point s = none := by
  obtain ⟨prompt, hprompt, hprompts⟩ := g.exists_prompt hpoint
  obtain ⟨e, s', hrun⟩ := Stagger.runCell_outOfSteps (g.serves point hpoint) (g.fits point hpoint) g.samples hprompts
    (prefillChunks_eq g.chunked point) hbudget ((g.idle_iff point hpoint seen s).2 hidle) hfresh
  unfold SweepRun.measure
  rw [hprompt]
  simp only [hrun]

end Measured

/-- The engine measures a new point as its cell wherever it stands. -/
theorem measure (g : r.Staggered) {done : List (Int × Int)} {s : σ} {point : Int × Int} (h : g.idleAfter done s)
    (hpoint : point ∈ r.points) (hnew : point ∉ done) :
    (r.measure point s).map Prod.fst = g.cell point ∧ ∀ m ∈ r.measure point s, g.idleAfter (point :: done) m.2 := by
  obtain ⟨seen, hidle, hseen⟩ := h
  obtain ⟨b, n, hb, hn, -, hbpos, hnpos⟩ := (g.fits point hpoint).lift
  have hof : ∀ i k, OfPoint r.campaignId point (cellRequestId r.campaignId point.1 point.2 i k) :=
    fun i k => ⟨⟨by omega, by omega⟩, i, k, rfl⟩
  have hfresh : ∀ i k, cellRequestId r.context.campaignId point.1 point.2 i k ∉ seen := by
    intro i k hmem
    obtain ⟨q, hq, hofq⟩ := hseen _ hmem
    exact hnew ((hof i k).inj hofq ▸ hq)
  by_cases hbudget : ((g.schedule point).last : Int) ≤ chunks r point + 8
  · obtain ⟨cell, s', hmeasure, hcell, seen', hidle', hseen'⟩ := g.measure_withinBudget hpoint hfresh hidle hbudget
    rw [hmeasure, hcell]
    refine ⟨rfl, fun m hm => ?_⟩
    obtain rfl := Option.some.inj hm
    refine ⟨seen', hidle', fun rid hrid => ?_⟩
    rcases hseen' rid hrid with hold | ⟨i, k, rfl⟩
    · obtain ⟨q, hq, hofq⟩ := hseen rid hold
      exact ⟨q, List.mem_cons_of_mem _ hq, hofq⟩
    · exact ⟨point, List.mem_cons_self, hof i k⟩
  · rw [g.measure_outOfSteps hpoint hfresh hidle (not_le.1 hbudget), cell, if_neg hbudget]
    exact ⟨rfl, fun m hm => by cases hm⟩

/-- **An engine that serves every point on a schedule is steady**, whether the budget of a point reaches its last token
or not. -/
theorem steady : r.Steady g.cell :=
  ⟨g.idleAfter, ⟨⟨[], g.fresh, fun _ h => absurd h List.not_mem_nil⟩, fun h => g.measure h⟩⟩

end Staggered

/-! ## A killed sweep of the fake engine -/

theorem one_le_size (point : Int × Int) : 0 < max 1 point.2.toNat := by omega

theorem one_le_seqLen (point : Int × Int) : 0 < max 1 point.1 := by omega

/-- The batch of a positive point. -/
def batchAt (point : Int × Int) : FakeEngine.Batch :=
  ⟨max 1 point.2.toNat, 30, max 1 point.1, one_le_size point, Nat.le_add_left 2 28, one_le_seqLen point⟩

theorem roomy_batchAt : ∀ point ∈ onA40.points, smallPool.Roomy (batchAt point) := by
  unfold FakeEngine.Roomy
  decide +kernel

theorem onA40_fits : ∀ point ∈ onA40.points,
    (smallPool.schedule (batchAt point)).Fits onA40.context point.1 point.2 := by
  have hpoints : onA40.points = [(16, 1), (16, 2)] := rfl
  rw [hpoints]
  simp only [List.forall_mem_cons, List.not_mem_nil, false_implies, implies_true, and_true]
  exact ⟨⟨rfl, rfl, rfl, rfl, by decide, by decide⟩, ⟨rfl, rfl, rfl, rfl, by decide, by decide⟩⟩

theorem onA40_chunked : onA40.maxNumBatchedTokens ≠ 0 := by decide

def onA40_staggered : onA40.Staggered where
  schedule := fun point => smallPool.schedule (batchAt point)
  serves := fun point hpoint => smallPool.serves (roomy_batchAt point hpoint)
  fits := onA40_fits
  idle := fun seen s => FakeEngine.Serving smallPool (batchAt (16, 1)) seen [] 0 s
  idle_iff := fun _ _ _ _ => ⟨fun h => h.idle_congr, fun h => h.idle_congr⟩
  fresh := FakeEngine.Serving.fresh smallPool (batchAt (16, 1))
  prompts := fun _ _ => rfl
  samples := Int.le_refl 1
  chunked := onA40_chunked

/-- A run killed in the middle of its second file, and then one killed in the middle of its first. -/
def tornRuns : List (Killed FakeState) := [⟨onA40, 1, some 30⟩, tornRun]

theorem onA40_cells :
    ((onA40.cellsOf (cellFileCodec strictCoercions) onA40.points onA40.engine .empty).1.map (fun cells =>
      cells.map (fun c => c.totalTokens))) = some [45, 90] := by
  decide +kernel

theorem tornRuns_resumed :
    ((onA40.cellsOf (cellFileCodec strictCoercions) onA40.points onA40.engine
      (Runs.run (killed (cellFileCodec strictCoercions)) .empty tornRuns)).1.map (fun cells =>
        cells.map (fun c => c.totalTokens))) = some [45, 90] := by
  have hsame := sweep_survives_kills strictCoercions tornRuns onA40_staggered.steady (fun x hx _ _ => by
    rcases List.mem_cons.1 hx with rfl | hx
    · exact onA40_staggered.steady
    · obtain rfl := List.mem_singleton.1 hx
      exact onA40_staggered.steady)
  rw [hsame, onA40_cells]

end SweepRun
end GoodputLab
