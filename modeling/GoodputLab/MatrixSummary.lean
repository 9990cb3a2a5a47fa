import GoodputLab.Base.GroupBy
import GoodputLab.RunMatrix
/-!
# MatrixSummary — what `summary.json` says (`bench/matrix_aggregator.py`, `bench/schema/cell_schema.py`)

The summary of a directory is made twice from its results: over all of them (`SummaryStats`) and topology by topology.
The rows of the topologies add up to the summary (`writeSummary_partition`), their means weighted by the cells that were
reconciled; a cell that was not is a stub, and what it says of latencies is in none of them (`summaryPayload_blank`).
-/
namespace GoodputLab

/-! ## The overall summary -/

structure SummaryStats where
  nCells           : Nat
  nCellsReconciled : Nat
  nUnreconciled    : Nat
  nThermalWarnings : Nat
  allReconciled    : Bool
  meanTtftMs       : ℚ
  meanItlMs        : ℚ
deriving DecidableEq

def SummaryStats.fromResults (results : List CellResult) : SummaryStats :=
  if results.isEmpty then ⟨0, 0, 0, 0, true, 0, 0⟩
  else
    let reconciled := results.filter (fun r => r.reconcilePasses)
    let nUnreconciled := results.length - reconciled.length
    let nThermal := results.countP (fun r => r.hasThermalWarning)
    let nReconciled := reconciled.length
    let meanTtft := if nReconciled ≠ 0 then (reconciled.map (fun r => r.meanTtftMs)).sum / nReconciled else 0
    let meanItl := if nReconciled ≠ 0 then (reconciled.map (fun r => r.meanItlMs)).sum / nReconciled else 0
    ⟨results.length, nReconciled, nUnreconciled, nThermal, decide (nUnreconciled = 0), meanTtft, meanItl⟩

namespace MatrixSummary

/-! ## The payload -/

structure CampaignReport where
  nCellsCompleted : Nat
  nCellsFailed    : Nat
  totalDurationS  : ℚ
  costUsd         : ℚ
  podId           : Text
  startedAt       : Int
  endedAt         : Int
  durationGe      : 0 ≤ totalDurationS
  costGe          : 0 ≤ costUsd

structure TopologyRow where
  nCells           : Nat
  nReconciled      : Nat
  meanTtftMs       : ℚ
  meanItlMs        : ℚ
  successRate      : ℚ
  nUnreconciled    : Nat
  nThermalWarnings : Nat
  totalCostUsd     : ℚ
deriving DecidableEq

structure Cost where
  perHourUsd : ℚ
  nCells     : Nat
  totalUsd   : ℚ

structure SummaryPayload where
  campaign    : CampaignReport
  summary     : SummaryStats
  perTopology : OrdDict Text TopologyRow
  cost        : Cost

/-- The cells of each topology that has one. -/
def perTopologyBreakdown (results : List CellResult) : OrdDict Topology (List CellResult) :=
  OrdDict.groupBy (fun r => r.topology) results

def costPerCell (durationS costPerHourUsd : ℚ) : ℚ := durationS / 3600 * costPerHourUsd

def topologyRow (costPerHourUsd : ℚ) (cells : List CellResult) : TopologyRow :=
  let n := cells.length
  let reconciled := cells.filter (fun c => c.reconcilePasses)
  let nReconciled := reconciled.length
  let meanTtft := if nReconciled ≠ 0 then (reconciled.map (fun c => c.meanTtftMs)).sum / nReconciled else 0
  let meanItl := if nReconciled ≠ 0 then (reconciled.map (fun c => c.meanItlMs)).sum / nReconciled else 0
  let successRate := if nReconciled ≠ 0 then (reconciled.map (fun c => c.successRate)).sum / nReconciled else 0
  { nCells := n
    nReconciled := nReconciled
    meanTtftMs := meanTtft
    meanItlMs := meanItl
    successRate := successRate
    nUnreconciled := n - nReconciled
    nThermalWarnings := cells.countP (fun c => c.hasThermalWarning)
    totalCostUsd := (cells.map (fun c => costPerCell c.durationS costPerHourUsd)).sum }

def perTopologyPayload (costPerHourUsd : ℚ) (results : List CellResult) : OrdDict Text TopologyRow :=
  OrdDict.ofList (((perTopologyBreakdown results).items.insertionSort (fun a b => a.1.value ≤ b.1.value)).map
    (fun g => (g.1.value, topologyRow costPerHourUsd g.2)))

def summaryPayload (campaign : CampaignReport) (costPerHourUsd : ℚ) (results : List CellResult) : SummaryPayload where
  campaign := campaign
  summary := SummaryStats.fromResults results
  perTopology := perTopologyPayload costPerHourUsd results
  cost := ⟨costPerHourUsd, results.length, (results.map (fun c => costPerCell c.durationS costPerHourUsd)).sum⟩

variable {C : Type}

/-- The payload written for a directory; `none` is the `ValueError` of the aggregator. -/
def writeSummary (codec : CellCodec C) (dir : Dir C) (campaign : CampaignReport) (costPerHourUsd : ℚ) :
    Option SummaryPayload :=
  (RunMatrix.aggregate codec dir).map (summaryPayload campaign costPerHourUsd)

/-- **The file the sweep runner leaves holds this payload**, written as a text. -/
theorem writeSummary_file {codec : CellCodec C} (sidecars : Sidecars codec) {text : SummaryPayload → C}
    {campaign : CampaignReport} {costPerHourUsd : ℚ} {dir dir' : Dir C}
    (htext : ∀ results, sidecars.summary results = text (summaryPayload campaign costPerHourUsd results))
    (h : RunMatrix.writeSummary sidecars dir = some dir') :
    ∃ p, writeSummary codec dir campaign costPerHourUsd = some p ∧ dir'.get? RunMatrix.summaryPath = some (text p) := by
  obtain ⟨results, hresults, rfl⟩ := Option.map_eq_some_iff.1 h
  refine ⟨_, by rw [writeSummary, hresults, Option.map_some], ?_⟩
  rw [OrdDict.get?_set_self, htext]

/-! ## The rows -/

theorem topology_value_injective : Function.Injective Topology.value := by
  intro a b h
  cases a <;> cases b <;> first | rfl | (revert h; decide)

/-- The rows, in the order in which the topologies first come, are those of the payload. -/
theorem rows_perm (costPerHourUsd : ℚ) (results : List CellResult) :
    (perTopologyPayload costPerHourUsd results).values.Perm
      ((perTopologyBreakdown results).values.map (topologyRow costPerHourUsd)) := by
  have hsort := List.perm_insertionSort (fun a b : Topology × List CellResult => a.1.value ≤ b.1.value)
    (perTopologyBreakdown results).items
  have hkeys : (((perTopologyBreakdown results).items.insertionSort (fun a b => a.1.value ≤ b.1.value)).map
      (fun g => g.1.value)).Nodup := by
    have hnodup := (perTopologyBreakdown results).nodup.map topology_value_injective
    rw [List.map_map] at hnodup
    exact (hsort.map _).nodup_iff.2 hnodup
  refine (OrdDict.values_ofList_perm (fun g => topologyRow costPerHourUsd g.2) hkeys).trans ?_
  rw [OrdDict.values, List.map_map]
  exact hsort.map _

theorem sum_rows {M : Type} [AddCommMonoid M] (costPerHourUsd : ℚ) (results : List CellResult) (field : TopologyRow → M) :
    ((perTopologyPayload costPerHourUsd results).values.map field).sum =
      ((perTopologyBreakdown results).values.map (fun g => field (topologyRow costPerHourUsd g))).sum := by
  rw [((rows_perm costPerHourUsd results).map field).sum_eq, List.map_map]
  rfl

/-- What a list of cells adds to a mean: nothing when none was reconciled. -/
theorem mul_reconciledMean (value : CellResult → ℚ) (cells : List CellResult) :
    ((cells.filter (fun c => c.reconcilePasses)).length : ℚ) *
        (if (cells.filter (fun c => c.reconcilePasses)).length ≠ 0 then
          ((cells.filter (fun c => c.reconcilePasses)).map value).sum /
            ((cells.filter (fun c => c.reconcilePasses)).length : ℚ) else 0) =
      ((cells.filter (fun c => c.reconcilePasses)).map value).sum := by
  generalize cells.filter (fun c => c.reconcilePasses) = reconciled
  by_cases h : reconciled.length = 0
  · rw [if_neg (not_not.2 h), mul_zero, List.length_eq_zero_iff.1 h, List.map_nil, List.sum_nil]
  · rw [if_pos h, mul_div_cancel₀ _ (by exact_mod_cast h)]

theorem nUnreconciled_eq (cells : List CellResult) :
    cells.length - (cells.filter (fun c => c.reconcilePasses)).length = cells.countP (fun c => !c.reconcilePasses) := by
  rw [← List.countP_eq_length_filter, List.length_eq_countP_add_countP (fun c => c.reconcilePasses) (l := cells)]
  simp

/-- Without results the summary is what it would be anyway. -/
theorem fromResults_eq (results : List CellResult) :
    SummaryStats.fromResults results =
      let reconciled := results.filter (fun r => r.reconcilePasses)
      ⟨results.length, reconciled.length, results.length - reconciled.length,
        results.countP (fun r => r.hasThermalWarning), decide (results.length - reconciled.length = 0),
        if reconciled.length ≠ 0 then (reconciled.map (fun r => r.meanTtftMs)).sum / reconciled.length else 0,
        if reconciled.length ≠ 0 then (reconciled.map (fun r => r.meanItlMs)).sum / reconciled.length else 0⟩ := by
  unfold SummaryStats.fromResults
  split
  · rename_i h
    rw [List.isEmpty_iff.1 h]
    rfl
  · rfl

/-- The average of the rows' values, each as often as the row has reconciled cells, 0 when none has any. -/
def weightedMean (rows : List TopologyRow) (value : TopologyRow → ℚ) : ℚ :=
  let total := (rows.map (fun row => row.nReconciled)).sum
  if total = 0 then 0 else (rows.map (fun row => (row.nReconciled : ℚ) * value row)).sum / total

theorem sum_nReconciled (costPerHourUsd : ℚ) (results : List CellResult) :
    ((perTopologyPayload costPerHourUsd results).values.map (fun row => row.nReconciled)).sum =
      (results.filter (fun r => r.reconcilePasses)).length := by
  rw [sum_rows, ← List.countP_eq_length_filter, ← OrdDict.countP_groupBy (fun r : CellResult => r.topology)]
  congr 1
  exact List.map_congr_left (fun g _ => List.countP_eq_length_filter.symm)

/-- **A mean of the rows, weighted, is that of all the reconciled cells.** -/
theorem weightedMean_rows (costPerHourUsd : ℚ) (results : List CellResult) (value : CellResult → ℚ)
    {field : TopologyRow → ℚ}
    (hfield : ∀ cells, ((topologyRow costPerHourUsd cells).nReconciled : ℚ) * field (topologyRow costPerHourUsd cells) =
      ((cells.filter (fun c => c.reconcilePasses)).map value).sum) :
    weightedMean (perTopologyPayload costPerHourUsd results).values field =
      if (results.filter (fun r => r.reconcilePasses)).length ≠ 0 then
        ((results.filter (fun r => r.reconcilePasses)).map value).sum /
          (results.filter (fun r => r.reconcilePasses)).length else 0 := by
  have hsum : ((perTopologyPayload costPerHourUsd results).values.map
      (fun row => (row.nReconciled : ℚ) * field row)).sum =
      ((results.filter (fun r => r.reconcilePasses)).map value).sum := by
    rw [sum_rows, ← OrdDict.sum_filter_groupBy (fun r : CellResult => r.topology)]
    exact congrArg List.sum (List.map_congr_left (fun g _ => hfield g))
  unfold weightedMean
  simp only [hsum, sum_nReconciled, ne_eq, ite_not]

/-! ## Stubs -/

/-- The same cell but for the latencies of a stub. -/
def SameButStubLatency (r r' : CellResult) : Prop :=
  r' = r ∨ r.reconcilePasses = false ∧
    ∃ meanTtft p95Ttft meanItl, r' = { r with meanTtftMs := meanTtft, p95TtftMs := p95Ttft, meanItlMs := meanItl }

/-- The cell without the latencies of a stub. -/
def blank (r : CellResult) : CellResult :=
  if r.reconcilePasses then r else { r with meanTtftMs := 0, p95TtftMs := 0, meanItlMs := 0 }

theorem blank_eq {r r' : CellResult} (h : SameButStubLatency r r') : blank r' = blank r := by
  rcases h with rfl | ⟨hstub, meanTtft, p95Ttft, meanItl, rfl⟩
  · rfl
  · simp only [blank, hstub, Bool.false_eq_true, if_false]

theorem blank_view {α : Type} (view : CellResult → α)
    (h : ∀ r : CellResult, view { r with meanTtftMs := 0, p95TtftMs := 0, meanItlMs := 0 } = view r) (r : CellResult) :
    view (blank r) = view r := by
  unfold blank
  split
  · rfl
  · exact h r

theorem comp_blank {α : Type} (view : CellResult → α)
    (h : ∀ r : CellResult, view { r with meanTtftMs := 0, p95TtftMs := 0, meanItlMs := 0 } = view r) :
    view ∘ blank = view := by
  funext r
  exact blank_view view h r

theorem blank_cellId (r : CellResult) : (blank r).cellId = r.cellId := blank_view (fun r => r.cellId) (fun _ => rfl) r

/-- What a summary reads of a stub it reads of the blank. -/
theorem filter_blank (cells : List CellResult) :
    (cells.map blank).filter (fun c => c.reconcilePasses) = cells.filter (fun c => c.reconcilePasses) := by
  rw [List.filter_map, comp_blank (fun c => c.reconcilePasses) (fun _ => rfl)]
  refine (List.map_congr_left (fun c hc => ?_)).trans (List.map_id _)
  rw [blank, if_pos (List.mem_filter.1 hc).2]
  rfl

theorem countP_blank (cells : List CellResult) :
    (cells.map blank).countP (fun c => c.hasThermalWarning) = cells.countP (fun c => c.hasThermalWarning) := by
  rw [List.countP_map, comp_blank (fun c => c.hasThermalWarning) (fun _ => rfl)]

theorem costs_blank (costPerHourUsd : ℚ) (cells : List CellResult) :
    (cells.map blank).map (fun c => costPerCell c.durationS costPerHourUsd) =
      cells.map (fun c => costPerCell c.durationS costPerHourUsd) := by
  rw [List.map_map, comp_blank (fun c => costPerCell c.durationS costPerHourUsd) (fun _ => rfl)]

theorem topologyRow_blank (costPerHourUsd : ℚ) (cells : List CellResult) :
    topologyRow costPerHourUsd (cells.map blank) = topologyRow costPerHourUsd cells := by
  unfold topologyRow
  rw [filter_blank, countP_blank, costs_blank, List.length_map]

theorem fromResults_blank (results : List CellResult) :
    SummaryStats.fromResults (results.map blank) = SummaryStats.fromResults results := by
  rw [fromResults_eq, fromResults_eq, filter_blank, countP_blank, List.length_map]

theorem perTopologyPayload_blank (costPerHourUsd : ℚ) (results : List CellResult) :
    perTopologyPayload costPerHourUsd (results.map blank) = perTopologyPayload costPerHourUsd results := by
  have hgroups : (perTopologyBreakdown (results.map blank)).items =
      (perTopologyBreakdown results).items.map (fun g => (g.1, g.2.map blank)) := by
    unfold perTopologyBreakdown
    rw [OrdDict.groupBy_map (blank_view (fun r => r.topology) (fun _ => rfl))]
    rfl
  have hrows : (fun g : Topology × List CellResult => (g.1.value, topologyRow costPerHourUsd g.2)) ∘
      (fun g : Topology × List CellResult => (g.1, g.2.map blank)) =
        fun g : Topology × List CellResult => (g.1.value, topologyRow costPerHourUsd g.2) :=
    funext (fun g => congrArg (Prod.mk g.1.value) (topologyRow_blank costPerHourUsd g.2))
  unfold perTopologyPayload
  have hsort := List.map_insertionSort (fun a b : Topology × List CellResult => a.1.value ≤ b.1.value)
    (fun a b : Topology × List CellResult => a.1.value ≤ b.1.value) (fun g => (g.1, g.2.map blank))
    (perTopologyBreakdown results).items (fun _ _ _ _ => Iff.rfl)
  rw [hgroups, ← hsort, List.map_map, hrows]

/-- **What a stub says of latencies is in no part of the payload.** -/
theorem summaryPayload_blank (campaign : CampaignReport) (costPerHourUsd : ℚ) (results : List CellResult) :
    summaryPayload campaign costPerHourUsd (results.map blank) = summaryPayload campaign costPerHourUsd results := by
  unfold summaryPayload
  rw [fromResults_blank, perTopologyPayload_blank, costs_blank, List.length_map]

/-! ## Directories -/

/-- Two directories with the same files, whose results are the same but for the latencies of stubs. -/
def StubsRetimed (codec : CellCodec C) (dir dir' : Dir C) : Prop :=
  List.Forall₂ (fun f f' => f.1 = f'.1 ∧ Option.Rel SameButStubLatency (codec.parse f.2) (codec.parse f'.2)) dir.items
    dir'.items

/-- A file's name, and its result without the latencies of a stub. -/
def fileView (codec : CellCodec C) (f : Text × C) : Text × Option CellResult := (f.1, (codec.parse f.2).map blank)

theorem map_blank_eq {r? r'? : Option CellResult} (h : Option.Rel SameButStubLatency r? r'?) :
    r'?.map blank = r?.map blank := by
  cases h with
  | none => rfl
  | some hr => exact congrArg some (blank_eq hr)

theorem fileView_eq {codec : CellCodec C} {dir dir' : Dir C} (h : StubsRetimed codec dir dir') :
    dir'.items.map (fileView codec) = dir.items.map (fileView codec) := by
  unfold StubsRetimed at h
  generalize dir.items = fs at h ⊢
  generalize dir'.items = fs' at h ⊢
  induction h with
  | nil => rfl
  | cons hf _ ih =>
    obtain ⟨hname, hrel⟩ := hf
    rw [List.map_cons, List.map_cons, ih]
    congr 1
    exact Prod.ext hname.symm (map_blank_eq hrel)

theorem jsonFiles_view (codec : CellCodec C) (dir : Dir C) :
    (RunMatrix.jsonFiles dir).map (fileView codec) =
      (((dir.items.map (fileView codec)).filter (fun f => f.1.endsWith jsonSuffix)).insertionSort
        (fun f g => f.1 ≤ g.1)) := by
  unfold RunMatrix.jsonFiles
  rw [List.map_insertionSort (fun f g : Text × C => f.1 ≤ g.1) (fun f g : Text × Option CellResult => f.1 ≤ g.1)
    (fileView codec) _ (fun _ _ _ _ => Iff.rfl), List.filter_map]
  rfl

theorem loadResults_view (codec : CellCodec C) : ∀ {fs fs' : List (Text × C)},
    fs'.map (fileView codec) = fs.map (fileView codec) →
      (RunMatrix.loadResults codec fs').map (List.map blank) = (RunMatrix.loadResults codec fs).map (List.map blank)
  | [], [], _ => rfl
  | [], f' :: fs', h => by cases h
  | f :: fs, [], h => by cases h
  | f :: fs, f' :: fs', h => by
    rw [List.map_cons, List.map_cons, List.cons.injEq] at h
    obtain ⟨hview, hrest⟩ := h
    obtain ⟨hname, hparse⟩ := Prod.ext_iff.1 hview
    have ih := loadResults_view codec hrest
    have hname : f'.1 = f.1 := hname
    have hparse : (codec.parse f'.2).map blank = (codec.parse f.2).map blank := hparse
    unfold RunMatrix.loadResults
    cases hp : codec.parse f.2 with
    | none =>
      rw [hp, Option.map_none, Option.map_eq_none_iff] at hparse
      rw [hparse]
      exact ih
    | some r =>
      rw [hp, Option.map_some] at hparse
      obtain ⟨r', hr', hblank⟩ := Option.map_eq_some_iff.1 hparse
      have hid : r'.cellId = r.cellId := by rw [← blank_cellId r', hblank, blank_cellId]
      rw [hr']
      simp only [hid, hname]
      split
      · rfl
      · rw [Option.map_map, Option.map_map]
        have hcons : ∀ x : CellResult, List.map blank ∘ (fun rs => x :: rs) = (fun rs => blank x :: rs) ∘ List.map blank :=
          fun _ => rfl
        rw [hcons, hcons, hblank, ← Option.map_map, ← Option.map_map, ih]

theorem aggregate_view {codec : CellCodec C} {dir dir' : Dir C} (h : StubsRetimed codec dir dir') :
    (RunMatrix.aggregate codec dir').map (List.map blank) = (RunMatrix.aggregate codec dir).map (List.map blank) := by
  have hfiles : (RunMatrix.jsonFiles dir').map (fileView codec) = (RunMatrix.jsonFiles dir).map (fileView codec) := by
    rw [jsonFiles_view, jsonFiles_view, fileView_eq h]
  have hload := loadResults_view codec hfiles
  have hempty : (RunMatrix.jsonFiles dir').isEmpty = (RunMatrix.jsonFiles dir).isEmpty := by
    rw [← List.isEmpty_map (f := fileView codec), hfiles, List.isEmpty_map]
  unfold RunMatrix.aggregate
  rw [hempty]
  split
  · rfl
  · cases hl : RunMatrix.loadResults codec (RunMatrix.jsonFiles dir) with
    | none =>
      rw [hl, Option.map_none, Option.map_eq_none_iff] at hload
      rw [hload]
    | some results =>
      rw [hl, Option.map_some] at hload
      obtain ⟨results', hl', hblank⟩ := Option.map_eq_some_iff.1 hload
      have hnone : results'.isEmpty = results.isEmpty := by
        rw [← List.isEmpty_map (f := blank), hblank, List.isEmpty_map]
      have hsort : ∀ l : List CellResult, (l.insertionSort (fun r q => r.cellId ≤ q.cellId)).map blank =
          (l.map blank).insertionSort (fun r q => r.cellId ≤ q.cellId) := fun l =>
        List.map_insertionSort _ _ _ _ (fun a _ b _ => by rw [blank_cellId, blank_cellId])
      rw [hl']
      simp only [hnone]
      split
      · rfl
      · rw [Option.map_some, Option.map_some, hsort, hsort, hblank]

/-- **Retiming stubs changes nothing in the payload.** -/
theorem writeSummary_retimed {codec : CellCodec C} {dir dir' : Dir C} (h : StubsRetimed codec dir dir')
    (campaign : CampaignReport) (costPerHourUsd : ℚ) :
    writeSummary codec dir' campaign costPerHourUsd = writeSummary codec dir campaign costPerHourUsd := by
  have hview : ∀ dir : Dir C, writeSummary codec dir campaign costPerHourUsd =
      ((RunMatrix.aggregate codec dir).map (List.map blank)).map (summaryPayload campaign costPerHourUsd) := by
    intro dir
    rw [Option.map_map, writeSummary]
    exact congrArg (fun f => (RunMatrix.aggregate codec dir).map f)
      (funext (fun results => (summaryPayload_blank campaign costPerHourUsd results).symm))
  rw [hview, hview, aggregate_view h]

/-- The rows of a payload add up to its summary and its cost. -/
structure RowsAddUp (p : SummaryPayload) : Prop where
  nCells           : (p.perTopology.values.map (fun row => row.nCells)).sum = p.summary.nCells
  nReconciled      : (p.perTopology.values.map (fun row => row.nReconciled)).sum = p.summary.nCellsReconciled
  nUnreconciled    : (p.perTopology.values.map (fun row => row.nUnreconciled)).sum = p.summary.nUnreconciled
  nThermalWarnings : (p.perTopology.values.map (fun row => row.nThermalWarnings)).sum = p.summary.nThermalWarnings
  totalCostUsd     : (p.perTopology.values.map (fun row => row.totalCostUsd)).sum = p.cost.totalUsd
  meanTtftMs       : weightedMean p.perTopology.values (fun row => row.meanTtftMs) = p.summary.meanTtftMs
  meanItlMs        : weightedMean p.perTopology.values (fun row => row.meanItlMs) = p.summary.meanItlMs

theorem summaryPayload_addsUp (campaign : CampaignReport) (costPerHourUsd : ℚ) (results : List CellResult) :
    RowsAddUp (summaryPayload campaign costPerHourUsd results) := by
  unfold summaryPayload
  rw [fromResults_eq]
  constructor
  · rw [sum_rows]
    exact OrdDict.length_groupBy (fun r : CellResult => r.topology) results
  · exact sum_nReconciled costPerHourUsd results
  · refine Eq.trans ?_ (nUnreconciled_eq results).symm
    rw [sum_rows, ← OrdDict.countP_groupBy (fun r : CellResult => r.topology)]
    exact congrArg List.sum (List.map_congr_left (fun g _ => nUnreconciled_eq g))
  · rw [sum_rows]
    exact OrdDict.countP_groupBy (fun r : CellResult => r.topology) (fun r => r.hasThermalWarning) results
  · rw [sum_rows]
    exact OrdDict.sum_groupBy (fun r : CellResult => r.topology) _ results
  · exact weightedMean_rows costPerHourUsd results (fun r => r.meanTtftMs) (fun cells => mul_reconciledMean _ cells)
  · exact weightedMean_rows costPerHourUsd results (fun r => r.meanItlMs) (fun cells => mul_reconciledMean _ cells)

/-- **The summary of a directory**: its rows add up to it, and what its stubs say of latencies makes no difference. -/
theorem writeSummary_partition (codec : CellCodec C) (dir : Dir C) (campaign : CampaignReport) (costPerHourUsd : ℚ)
    (p : SummaryPayload) (h : writeSummary codec dir campaign costPerHourUsd = some p) :
    RowsAddUp p ∧ ∀ dir', StubsRetimed codec dir dir' → writeSummary codec dir' campaign costPerHourUsd = some p := by
  refine ⟨?_, fun dir' hdir => by rw [writeSummary_retimed hdir, h]⟩
  obtain ⟨results, -, rfl⟩ := Option.map_eq_some_iff.1 h
  exact summaryPayload_addsUp campaign costPerHourUsd results

theorem full_share : (0 : ℚ) ≤ 1 ∧ (1 : ℚ) ≤ 1 := ⟨zero_le_one, le_refl 1⟩

theorem hour_nonneg : (0 : ℚ) ≤ 3600 := by norm_num

theorem cost_nonneg : (0 : ℚ) ≤ 3 := by norm_num

/-- A cell of an hour with these figures. -/
def cellOf (cellId : Text) (topology : Topology) (meanTtftMs : ℚ) (reconciled : Bool) : CellResult where
  cellId := cellId
  topology := topology
  model := .qwen3_1_7b
  rateRps := 1
  mix := .chat
  nWarmup := 0
  nMeasure := 1
  seed := 1
  meanTtftMs := meanTtftMs
  p95TtftMs := meanTtftMs
  meanItlMs := meanTtftMs / 10
  successRate := 1
  cacheHitRate := 1
  reconcilePasses := reconciled
  thermal := BenchMatrix.steadyMeasurement.thermal
  startedAt := 0
  durationS := 3600
  notes := []
  successBounds := full_share
  cacheHitBounds := full_share
  durationGe := hour_nonneg

def oneHour : CampaignReport := ⟨3, 0, 3600, 3, "pod".toList, 0, 3600000000, hour_nonneg, cost_nonneg⟩

/-- Three cells of two topologies, one of them a stub that says 500 ms. -/
def twoTopologies : Dir (Option CellResult) :=
  .ofList [("a.json".toList, some (cellOf "a".toList .colocated 100 true)),
    ("b.json".toList, some (cellOf "b".toList .colocated 500 false)),
    ("c.json".toList, some (cellOf "c".toList .disagg 200 true)), ("notes.json".toList, none)]

theorem twoTopologies_partition :
    ∃ p, writeSummary BenchMatrix.plainCodec twoTopologies oneHour 3 = some p ∧ p.summary.nCells = 3 ∧
      p.summary.meanTtftMs = 150 ∧ RowsAddUp p ∧ ∀ dir', StubsRetimed BenchMatrix.plainCodec twoTopologies dir' →
        writeSummary BenchMatrix.plainCodec dir' oneHour 3 = some p := by
  have hrun : (writeSummary BenchMatrix.plainCodec twoTopologies oneHour 3).map
      (fun p => (p.summary.nCells, p.summary.meanTtftMs)) = some (3, 150) := by decide +kernel
  obtain ⟨p, hp, hfigures⟩ := Option.map_eq_some_iff.1 hrun
  obtain ⟨hn, hmean⟩ := Prod.ext_iff.1 hfigures
  exact ⟨p, hp, hn, hmean, writeSummary_partition _ _ _ _ p hp⟩

end MatrixSummary
end GoodputLab
