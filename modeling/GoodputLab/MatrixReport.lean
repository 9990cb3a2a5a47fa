import GoodputLab.MatrixPending
/-!
# MatrixReport — the sweep completion report (`bench/matrix_report.py`)

`sweepCompletionReport` scans the cells directory on its own: it takes every file whose name looks like a cell's, where
`pendingCellSpecs` takes every JSON that is no sidecar.  Both find the same cells of the matrix done
(`mem_scanRaw`, `mem_existing`), so the report's missing cells are the pending ones (`report_agrees`).
-/
namespace GoodputLab

/-- An entry of a directory; what is no file cannot be read. -/
inductive Entry (C : Type)
  | file (content : C)
  | other

namespace Entry

variable {C : Type}

def isFile : Entry C → Bool
  | .file _ => true
  | .other  => false

end Entry

def CellCodec.entries {C : Type} (codec : CellCodec C) : CellCodec (Entry C) where
  parse
    | .file c => codec.parse c
    | .other  => none
  dump := fun r => .file (codec.dump r)
  roundTrip := codec.roundTrip

namespace BenchMatrix

variable {C : Type}

/-! ## The report -/

structure SweepReport where
  expectedTotal       : Nat
  onDisk              : Nat
  missingCount        : Nat
  missingByTopology   : OrdDict Topology Nat
  missingCellIds      : List Text
  corruptOrMismatched : List Text
  completionPct       : ℚ

def rateMark : Text := "__rate-".toList

/-- The files named like a cell's result, in the order of their names. -/
def cellFiles (dir : Dir (Entry C)) : List (Text × Entry C) :=
  (dir.items.filter (fun f => f.1.endsWith jsonSuffix && f.2.isFile && decide (rateMark <:+: f.1))).mergeSort
    (fun f g => decide (f.1 ≤ g.1))

/-- What a scanned file is counted as: a valid cell, or a corrupt or mismatched file. -/
inductive Scanned
  | valid (cellId : Text)
  | corrupt (name : Text)

def scanFile (codec : CellCodec C) (f : Text × Entry C) : Scanned :=
  match codec.entries.parse f.2 with
  | none   => .corrupt f.1
  | some r => if r.cellId ≠ stem f.1 then .corrupt f.1 else .valid r.cellId

def Scanned.valid? : Scanned → Option Text
  | .valid id  => some id
  | .corrupt _ => none

def Scanned.corrupt? : Scanned → Option Text
  | .valid _      => none
  | .corrupt name => some name

/-- The valid identifiers, each once, and the corrupt or mismatched file names. -/
def scanRaw (codec : CellCodec C) (dir : Dir (Entry C)) : List Text × List Text :=
  let scanned := (cellFiles dir).map (scanFile codec)
  ((scanned.filterMap Scanned.valid?).dedup, scanned.filterMap Scanned.corrupt?)

/-- `by_topo[topo_for_id[cid]] += 1`; an identifier without a topology raises. -/
def countMissing (topoForId : OrdDict Text Topology) : List Text → OrdDict Topology Nat → Option (OrdDict Topology Nat)
  | [], byTopo          => some byTopo
  | cid :: ids, byTopo =>
    match topoForId.get? cid with
    | none   => none
    | some t => countMissing topoForId ids (byTopo.set t ((byTopo.get? t).getD 0 + 1))

def setDefault (byTopo : OrdDict Topology Nat) (t : Topology) : OrdDict Topology Nat :=
  if byTopo.contains t then byTopo else byTopo.set t 0

def sweepCompletionReport (codec : CellCodec C) (dir : Dir (Entry C)) (m : MatrixSpec) : Option SweepReport := do
  let cells ← m.cells
  let expectedIds := (cells.map CellSpec.cellId).dedup
  let scanned := scanRaw codec dir
  let missingIds := (expectedIds.filter (fun id => !scanned.1.contains id)).mergeSort (fun a b => decide (a ≤ b))
  let topoForId := OrdDict.ofList (cells.map (fun c => (c.cellId, c.topology)))
  let byTopo ← countMissing topoForId missingIds .empty
  let found := (expectedIds.filter (fun id => scanned.1.contains id)).length
  pure {
    expectedTotal := expectedIds.length
    onDisk := scanned.1.length
    missingCount := missingIds.length
    missingByTopology := Topology.all.foldl setDefault byTopo
    missingCellIds := missingIds
    corruptOrMismatched := scanned.2.mergeSort (fun a b => decide (a ≤ b))
    completionPct := if expectedIds.isEmpty then 100 else 100 * found / expectedIds.length }

/-! ## The scans -/

theorem rateMark_cellId (c : CellSpec) : rateMark <:+: cellPath c.cellId := by
  have hsplit : ∀ t m r x u s mark : Text,
      t ++ u ++ m ++ mark ++ (r ++ u ++ x ++ s) = t ++ u ++ m ++ mark ++ r ++ u ++ x ++ s := by
    intro t m r x u s mark
    simp only [List.append_assoc]
  exact ⟨_, _, hsplit c.topology.value c.model.value (Text.ofNat c.rateRps) c.mix.value "__".toList jsonSuffix rateMark⟩

theorem mem_cellFiles (dir : Dir (Entry C)) (f : Text × Entry C) :
    f ∈ cellFiles dir ↔ f ∈ dir.items ∧ f.1.endsWith jsonSuffix = true ∧ f.2.isFile = true ∧ rateMark <:+: f.1 := by
  rw [cellFiles, List.mem_mergeSort, List.mem_filter]
  simp [and_assoc]

/-- **The identifiers the report finds on disk are those of the cells that are done.** -/
theorem mem_scanRaw (codec : CellCodec C) (dir : Dir (Entry C)) (c : CellSpec) :
    c.cellId ∈ (scanRaw codec dir).1 ↔ Done codec.entries dir c := by
  unfold scanRaw
  simp only [List.mem_dedup, List.filterMap_map, List.mem_filterMap, Function.comp_apply]
  constructor
  · rintro ⟨f, hf, hvalid⟩
    obtain ⟨hmem, hend, -, -⟩ := (mem_cellFiles dir f).1 hf
    unfold scanFile at hvalid
    split at hvalid
    · cases hvalid
    · rename_i r hr
      split at hvalid
      · cases hvalid
      · rename_i hstem
        have hid : r.cellId = c.cellId := Option.some.inj hvalid
        obtain ⟨p, hp⟩ := endsWith_json hend
        rw [not_not, hid, hp] at hstem
        obtain rfl := cellPath_of_stem hstem.symm
        refine ⟨r, ?_, hid⟩
        rw [JsonCellSink.load, ← hp, (OrdDict.mem_items dir f.1 f.2).1 hmem]
        exact hr
  · rintro ⟨r, hl, hid⟩
    obtain ⟨content, hget, hr⟩ := Option.bind_eq_some_iff.1 hl
    have hfile : content.isFile = true := by
      cases content with
      | file c => rfl
      | other => cases hr
    refine ⟨(cellPath c.cellId, content), (mem_cellFiles dir _).2
      ⟨(OrdDict.mem_items dir _ _).2 hget, cellPath_endsWith _, hfile, rateMark_cellId c⟩, ?_⟩
    unfold scanFile
    simp only [hr, hid, stem_cellPath (cellId_ne_nil c), ne_eq, not_true_eq_false, if_false]
    rfl

/-! ## The counts -/

theorem countMissing_sum (topoForId : OrdDict Text Topology) : ∀ (ids : List Text) (byTopo : OrdDict Topology Nat),
    (∀ cid ∈ ids, topoForId.contains cid = true) →
      ∃ counts, countMissing topoForId ids byTopo = some counts ∧ counts.values.sum = byTopo.values.sum + ids.length
  | [], byTopo, _ => ⟨byTopo, rfl, rfl⟩
  | cid :: ids, byTopo, h => by
    obtain ⟨t, ht⟩ := (OrdDict.contains_iff topoForId cid).1 (h cid List.mem_cons_self)
    obtain ⟨counts, hcounts, hsum⟩ := countMissing_sum topoForId ids (byTopo.set t ((byTopo.get? t).getD 0 + 1))
      (fun x hx => h x (List.mem_cons_of_mem _ hx))
    have hset := OrdDict.sum_values_set byTopo t ((byTopo.get? t).getD 0 + 1)
    refine ⟨counts, by rw [countMissing, ht]; exact hcounts, ?_⟩
    rw [hsum, List.length_cons]
    omega

theorem setDefault_sum (byTopo : OrdDict Topology Nat) (t : Topology) :
    (setDefault byTopo t).values.sum = byTopo.values.sum := by
  unfold setDefault
  split
  · rfl
  · rename_i h
    have hnone : byTopo.get? t = none := by
      rw [OrdDict.contains, Bool.not_eq_true, Option.isSome_eq_false_iff, Option.isNone_iff_eq_none] at h
      exact h
    have hset := OrdDict.sum_values_set byTopo t 0
    rw [hnone] at hset
    exact hset

theorem foldl_setDefault_sum : ∀ (ts : List Topology) (byTopo : OrdDict Topology Nat),
    (ts.foldl setDefault byTopo).values.sum = byTopo.values.sum
  | [], _ => rfl
  | t :: ts, byTopo => by rw [List.foldl_cons, foldl_setDefault_sum ts, setDefault_sum]

theorem contains_ofList (l : List (Text × Topology)) (k : Text) (h : k ∈ l.map Prod.fst) :
    (OrdDict.ofList l).contains k = true := by
  induction l with
  | nil => cases h
  | cons p l ih =>
    rw [OrdDict.contains_iff, OrdDict.ofList, List.foldl_cons, OrdDict.get?_foldl_set_eq]
    by_cases hin : k ∈ l.map Prod.fst
    · obtain ⟨v, hv⟩ := (OrdDict.contains_iff _ _).1 (ih hin)
      exact ⟨v, by rw [hv]; rfl⟩
    · rw [List.map_cons, List.mem_cons] at h
      obtain rfl := h.resolve_right hin
      rw [OrdDict.get?_set_self]
      cases (OrdDict.ofList l).get? p.1 with
      | none => exact ⟨p.2, rfl⟩
      | some v => exact ⟨v, rfl⟩

theorem pct_eq_hundred {n : Nat} (hn : 0 < n) {k : Nat} : (100 * (k : ℚ) / n = 100) ↔ k = n := by
  have hpos : (0 : ℚ) < n := by exact_mod_cast hn
  rw [div_eq_iff hpos.ne']
  constructor
  · intro h
    have hkn : (k : ℚ) = n := by linarith
    exact_mod_cast hkn
  · rintro rfl
    rfl

/-- The percentage is 100 when every expected identifier was found, and then only. -/
theorem completion_iff (ids valid : List Text) :
    (if ids.isEmpty then (100 : ℚ)
      else 100 * ((ids.filter (fun id => valid.contains id)).length : ℕ) / ids.length) = 100 ↔
      ∀ id ∈ ids, id ∈ valid := by
  split
  · rename_i hempty
    rw [List.isEmpty_iff.1 hempty]
    simp
  · rename_i hne
    have hpos : 0 < ids.length := List.length_pos_iff.2 (fun h => hne (List.isEmpty_iff.2 h))
    rw [pct_eq_hundred hpos, List.length_filter_eq_length_iff]
    simp

/-! ## The two views agree -/

/-- **Resume and the completion report agree**: both raise, or the report misses the pending cells, counts each of them
under one topology, and is at 100 percent exactly when nothing is pending. -/
theorem report_agrees (codec : CellCodec C) (dir : Dir (Entry C)) (m : MatrixSpec) :
    (pendingCellSpecs codec.entries dir m = none ∧ sweepCompletionReport codec dir m = none) ∨
    ∃ pending report, pendingCellSpecs codec.entries dir m = some pending ∧
      sweepCompletionReport codec dir m = some report ∧
      (∀ id, id ∈ pending.map CellSpec.cellId ↔ id ∈ report.missingCellIds) ∧
      report.missingCount = report.missingByTopology.values.sum ∧
      (report.completionPct = 100 ↔ pending = []) := by
  unfold pendingCellSpecs sweepCompletionReport
  cases m.cells with
  | none => exact Or.inl ⟨rfl, rfl⟩
  | some cs =>
    right
    set ids := (cs.map CellSpec.cellId).dedup with hids
    set valid := (scanRaw codec dir).1 with hvalid
    set missing := (ids.filter (fun id => !valid.contains id)).mergeSort (fun a b => decide (a ≤ b)) with hmissing
    have hmem : ∀ id, id ∈ missing ↔ id ∈ cs.map CellSpec.cellId ∧ id ∉ valid := by
      intro id
      rw [hmissing, List.mem_mergeSort, List.mem_filter, hids, List.mem_dedup]
      simp
    have hpend : ∀ id, id ∈ (cs.filter (fun c => !(existing codec.entries dir).contains c.cellId)).map CellSpec.cellId ↔
        id ∈ missing := by
      intro id
      rw [hmem]
      constructor
      · intro h
        obtain ⟨c, hc, rfl⟩ := List.mem_map.1 h
        obtain ⟨hcs, hnot⟩ := (mem_pending codec.entries dir cs c).1 hc
        exact ⟨List.mem_map.2 ⟨c, hcs, rfl⟩, fun hv => hnot ((mem_scanRaw codec dir c).1 hv)⟩
      · rintro ⟨h, hnot⟩
        obtain ⟨c, hcs, rfl⟩ := List.mem_map.1 h
        exact List.mem_map.2 ⟨c, (mem_pending codec.entries dir cs c).2
          ⟨hcs, fun hd => hnot ((mem_scanRaw codec dir c).2 hd)⟩, rfl⟩
    obtain ⟨counts, hcounts, hsum⟩ := countMissing_sum (OrdDict.ofList (cs.map (fun c => (c.cellId, c.topology))))
      missing .empty (fun cid hcid => contains_ofList _ _ (by
        rw [List.map_map]
        exact ((hmem cid).1 hcid).1))
    refine ⟨_, _, rfl, Option.bind_eq_some_iff.2 ⟨cs, rfl, Option.bind_eq_some_iff.2 ⟨counts, hcounts, rfl⟩⟩,
      hpend, ?_, ?_⟩
    · show missing.length = (Topology.all.foldl setDefault counts).values.sum
      rw [foldl_setDefault_sum, hsum]
      exact (Nat.zero_add _).symm
    · rw [completion_iff ids valid, ← List.map_eq_nil_iff, List.eq_nil_iff_forall_not_mem]
      constructor
      · intro hall id hid
        obtain ⟨hcell, hnot⟩ := (hmem id).1 ((hpend id).1 hid)
        exact hnot (hall id (List.mem_dedup.2 hcell))
      · intro hnone id hid
        by_contra hnot
        exact hnone id ((hpend id).2 ((hmem id).2 ⟨List.mem_dedup.1 hid, hnot⟩))

end BenchMatrix
end GoodputLab
