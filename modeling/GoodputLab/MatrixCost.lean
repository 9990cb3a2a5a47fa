import GoodputLab.MatrixCrash
/-!
# MatrixCost — the cost preflight over a sweep that dies and is resumed (`bench/preflight.py`)

The preflight estimates what the pending cells will take and cost.  A cell is pending before a history of sessions when it
is pending after it or was recorded in it, and never both (`pending_perm`); so the estimates add up, and no cell is paid
for twice (`preflight_adds_up`).
-/
namespace GoodputLab
namespace BenchMatrix

open CellRunner (CellRun)

/-! ## The preflight -/

def cellOverheadS : ℚ := 45

/-- Arrivals at the rate, and the overhead. -/
def estimateCellSeconds (spec : CellSpec) : ℚ :=
  ((spec.nWarmup + spec.nMeasure : Nat) : ℚ) / max (spec.rateRps : ℚ) (1 / 1000000) + cellOverheadS

structure CostPreflight where
  nTotalCells    : Int
  nPendingCells  : Int
  nSkippedCells  : Int
  topologies     : List Text
  models         : List Text
  ratesRps       : List Nat
  mixes          : List Text
  nWarmup        : Nat
  nMeasure       : Nat
  estWallMinutes : ℚ
  costPerHourUsd : ℚ
  estCostUsd     : ℚ
  outputDir      : Text
  smoke          : Bool

/-- The values in the order they first come. -/
def uniq (values : List Text) : List Text := (OrdDict.ofList (values.map (fun v => (v, ())))).keys

def buildCostPreflight (pending : List CellSpec) (nTotalCells : Int) (costPerHourUsd : ℚ) (outputDir : Text)
    (smoke : Bool) : CostPreflight :=
  let estWallS := (pending.map estimateCellSeconds).sum
  { nTotalCells := nTotalCells
    nPendingCells := pending.length
    nSkippedCells := nTotalCells - pending.length
    topologies := uniq (pending.map (fun s => s.topology.value))
    models := uniq (pending.map (fun s => s.model.value))
    ratesRps := (pending.map (fun s => s.rateRps)).dedup.insertionSort (· ≤ ·)
    mixes := uniq (pending.map (fun s => s.mix.value))
    nWarmup := (pending.head?.map (fun s => s.nWarmup)).getD 0
    nMeasure := (pending.head?.map (fun s => s.nMeasure)).getD 0
    estWallMinutes := estWallS / 60
    costPerHourUsd := costPerHourUsd
    estCostUsd := estWallS / 3600 * costPerHourUsd
    outputDir := outputDir
    smoke := smoke }

/-! ## Before and after a history -/

variable {C : Type}

/-- The cells recorded in a log. -/
def recordedCells (cs : List CellSpec) (log : List (CellSpec × CellRun)) : List CellSpec :=
  cs.filter (fun c => !(results c.cellId log).isEmpty)

/-- What recording once says of a cell: it is done after the history when it was done before or was recorded, and not
both. -/
theorem Recorded.done {codec : CellCodec C} {dir : Dir C} {c : CellSpec} {s : Sweep C}
    (h : Recorded codec (dir.get? (cellPath c.cellId)) c.cellId s) :
    (Done codec s.dir c ↔ Done codec dir c ∨ results c.cellId s.log ≠ []) ∧
      (Done codec dir c → results c.cellId s.log = []) ∧ (results c.cellId s.log).length ≤ 1 := by
  unfold Recorded at h
  unfold Done JsonCellSink.load
  by_cases hparsed : ((dir.get? (cellPath c.cellId)).bind codec.parse).isSome = true
  · rw [if_pos hparsed] at h
    obtain ⟨hexec, hfile⟩ := h
    have hnone : results c.cellId s.log = [] := by rw [results, hexec]; rfl
    rw [hfile, hnone]
    exact ⟨by simp, fun _ => rfl, Nat.zero_le 1⟩
  · rw [if_neg hparsed] at h
    have hold : (dir.get? (cellPath c.cellId)).bind codec.parse = none := by simpa using hparsed
    rcases h with ⟨hnone, hfile⟩ | ⟨r, hone, hid, hfile⟩
    · rw [hfile, hnone, hold]
      exact ⟨by simp, fun _ => rfl, Nat.zero_le 1⟩
    · rw [hfile, hone, hold, Option.bind_some, codec.roundTrip]
      exact ⟨by simp [hid], by simp, le_refl 1⟩

/-- A list's entries under `p` are those under `q` and those under `r`, when every entry under `p` is under just one. -/
theorem filter_perm_split {α : Type} {l : List α} {p q r : α → Bool}
    (h : ∀ c ∈ l, p c = (q c || r c) ∧ (q c && r c) = false) : (l.filter p).Perm (l.filter q ++ l.filter r) := by
  have hq : (l.filter p).filter q = l.filter q := by
    rw [List.filter_filter]
    refine List.filter_congr (fun c hc => ?_)
    rw [(h c hc).1]
    cases q c <;> simp
  have hr : (l.filter p).filter (fun c => !q c) = l.filter r := by
    rw [List.filter_filter]
    refine List.filter_congr (fun c hc => ?_)
    obtain ⟨hp, hno⟩ := h c hc
    rw [hp]
    revert hno
    cases q c <;> cases r c <;> simp
  have hperm := List.filter_append_perm q (l.filter p)
  rw [hq, hr] at hperm
  exact hperm.symm

/-- **The cells pending before a history** are those pending after it and those recorded in it. -/
theorem pending_perm (b : Bench C) {m : MatrixSpec} {cs : List CellSpec} (hm : m.cells = some cs) (dir : Dir C)
    (history : List (Session C)) {before after : List CellSpec} (hbefore : pendingCellSpecs b.codec dir m = some before)
    (hafter : pendingCellSpecs b.codec (sessions b cs dir history).dir m = some after) :
    before.Perm (after ++ recordedCells cs (sessions b cs dir history).log) := by
  have hone := fun c : CellSpec => (recorded_sessions b cs dir history c.cellId).done
  generalize sessions b cs dir history = s at hone hafter ⊢
  rw [pendingCellSpecs, hm, Option.map_some] at hbefore hafter
  obtain rfl := Option.some.inj hbefore
  obtain rfl := Option.some.inj hafter
  refine filter_perm_split (fun c _ => ?_)
  obtain ⟨hdone, hnot, -⟩ := hone c
  rw [← mem_existing, ← mem_existing] at hdone
  rw [← mem_existing] at hnot
  by_cases hold : c.cellId ∈ existing b.codec dir
  · have hnew : c.cellId ∈ existing b.codec s.dir := hdone.2 (Or.inl hold)
    simp [hold, hnew, hnot hold]
  · by_cases hrec : results c.cellId s.log = []
    · have hnew : c.cellId ∉ existing b.codec s.dir := fun h => (hdone.1 h).elim hold (fun hne => hne hrec)
      simp [hold, hnew, hrec]
    · have hnew : c.cellId ∈ existing b.codec s.dir := hdone.2 (Or.inr hrec)
      simp [hold, hnew, hrec]

section Estimates
variable (total : Int) (costPerHourUsd : ℚ) (outputDir : Text) (smoke : Bool)

/-- What the estimates of two lists of cells come to together. -/
theorem estimates_append {before after recorded : List CellSpec} (h : before.Perm (after ++ recorded)) :
    (before.map estimateCellSeconds).sum =
      (after.map estimateCellSeconds).sum + (recorded.map estimateCellSeconds).sum := by
  rw [(h.map estimateCellSeconds).sum_eq, List.map_append, List.sum_append]

/-- **The estimates add up.**  After any history of sessions, the cells, minutes and dollars that the preflight showed
before it are those it shows now and those of the cells recorded in between, each of which was recorded once. -/
theorem preflight_adds_up (b : Bench C) (m : MatrixSpec) (cs : List CellSpec) (hm : m.cells = some cs) (dir : Dir C)
    (history : List (Session C)) (before after : List CellSpec)
    (hbefore : pendingCellSpecs b.codec dir m = some before)
    (hafter : pendingCellSpecs b.codec (sessions b cs dir history).dir m = some after) :
    let shown := fun pending => buildCostPreflight pending total costPerHourUsd outputDir smoke
    let recorded := recordedCells cs (sessions b cs dir history).log
    (shown before).nPendingCells = (shown after).nPendingCells + recorded.length ∧
      (shown before).estWallMinutes = (shown after).estWallMinutes + (recorded.map estimateCellSeconds).sum / 60 ∧
      (shown before).estCostUsd = (shown after).estCostUsd + (recorded.map estimateCellSeconds).sum / 3600 * costPerHourUsd ∧
      ∀ c ∈ recorded, (results c.cellId (sessions b cs dir history).log).length = 1 := by
  have hperm := pending_perm b hm dir history hbefore hafter
  have hsum := estimates_append hperm
  have hlength := hperm.length_eq
  rw [List.length_append] at hlength
  refine ⟨?_, ?_, ?_, fun c hc => ?_⟩
  · simp only [buildCostPreflight, hlength, Nat.cast_add]
  · simp only [buildCostPreflight, hsum]
    ring
  · simp only [buildCostPreflight, hsum]
    ring
  · have hle := (recorded_sessions b cs dir history c.cellId).done.2.2
    have hne : results c.cellId (sessions b cs dir history).log ≠ [] := by simpa using (List.mem_filter.1 hc).2
    have hpos := List.length_pos_iff.2 hne
    omega

end Estimates

/-- A process that dies writing its only result, and one that records it. -/
def diedOnce : List (Session (Option CellResult)) := [⟨steadyBench.replay, 0, some none⟩, ⟨steadyBench.replay, 1, none⟩]

theorem died_once_adds_up : ∃ before after,
    pendingCellSpecs steadyBench.codec .empty oneCellMatrix = some before ∧
      pendingCellSpecs steadyBench.codec (sessions steadyBench [chatCell] .empty diedOnce).dir oneCellMatrix = some after ∧
      let shown := fun pending => buildCostPreflight pending 1 (299 / 100) "cells".toList false
      let recorded := recordedCells [chatCell] (sessions steadyBench [chatCell] .empty diedOnce).log
      (shown before).nPendingCells = (shown after).nPendingCells + recorded.length ∧
        (shown before).estWallMinutes = (shown after).estWallMinutes + (recorded.map estimateCellSeconds).sum / 60 ∧
        (shown before).estCostUsd =
          (shown after).estCostUsd + (recorded.map estimateCellSeconds).sum / 3600 * (299 / 100) ∧
        ∀ c ∈ recorded, (results c.cellId (sessions steadyBench [chatCell] .empty diedOnce).log).length = 1 :=
  ⟨_, _, rfl, rfl, preflight_adds_up 1 (299 / 100) "cells".toList false steadyBench oneCellMatrix [chatCell]
    oneCellMatrix_cells .empty diedOnce _ _ rfl rfl⟩

end BenchMatrix
end GoodputLab
