import GoodputLab.ChatBudget
import GoodputLab.MatrixRunAll
/-!
# MatrixPending — when a resumed sweep has nothing left to do

`runPending` leaves nothing pending exactly when no cell's file holds another cell's result
(`runPending_converges_iff`): `pendingCellSpecs` compares the identifier, `runCell` does not.
-/
namespace GoodputLab
namespace BenchMatrix

open CellRunner (CellRun runCell execute cellResult)

variable {C : Type}

/-! ## Cells and their files -/

/-- The cell's file parses to a result of that cell. -/
def Done (codec : CellCodec C) (dir : Dir C) (c : CellSpec) : Prop :=
  ∃ r, JsonCellSink.load codec dir c.cellId = some r ∧ r.cellId = c.cellId

/-- The cell's file parses to a result of another cell. -/
def Foreign (codec : CellCodec C) (dir : Dir C) (c : CellSpec) : Prop :=
  ∃ r, JsonCellSink.load codec dir c.cellId = some r ∧ r.cellId ≠ c.cellId

/-- A `*.json` file that parses to the result its name says. -/
def NameMatching (codec : CellCodec C) (name : Text) (content : C) : Prop :=
  name.endsWith jsonSuffix = true ∧ ∃ r, codec.parse content = some r ∧ r.cellId = stem name

theorem cellId_head (c : CellSpec) : ∃ ch rest, c.cellId = ch :: rest ∧ (ch = 'c' ∨ ch = 'd') := by
  unfold CellSpec.cellId
  cases c.topology with
  | colocated  => exact ⟨_, _, rfl, Or.inl rfl⟩
  | chunked    => exact ⟨_, _, rfl, Or.inl rfl⟩
  | disagg     => exact ⟨_, _, rfl, Or.inr rfl⟩
  | disaggTier => exact ⟨_, _, rfl, Or.inr rfl⟩

theorem cellId_ne_nil (c : CellSpec) : c.cellId ≠ [] := by
  obtain ⟨ch, rest, hhead, -⟩ := cellId_head c
  rw [hhead]
  exact List.cons_ne_nil _ _

theorem cellPath_endsWith (id : Text) : (cellPath id).endsWith jsonSuffix = true :=
  List.isSuffixOf_iff_suffix.2 (List.suffix_append _ _)

theorem endsWith_json {name : Text} (h : name.endsWith jsonSuffix = true) : ∃ id, name = cellPath id := by
  obtain ⟨p, hp⟩ := List.isSuffixOf_iff_suffix.1 h
  exact ⟨p, hp.symm⟩

theorem stem_cellPath {id : Text} (h : id ≠ []) : stem (cellPath id) = id := by
  have hne : cellPath id ≠ jsonSuffix := fun he => h (List.append_left_eq_self.1 he)
  rw [stem, if_neg hne, cellPath, List.length_append, Nat.add_sub_cancel, List.take_left']
  rfl

/-- Only a cell's own file has its identifier for a stem: a name that is all suffix is its own stem. -/
theorem cellPath_of_stem {c : CellSpec} {id : Text} (h : stem (cellPath id) = c.cellId) : id = c.cellId := by
  by_cases hid : id = []
  · obtain ⟨ch, rest, hhead, hch⟩ := cellId_head c
    subst hid
    rw [hhead] at h
    cases h
    rcases hch with h | h <;> cases h
  · rw [← h, stem_cellPath hid]

theorem cellPath_sidecars (c : CellSpec) : sidecars.contains (cellPath c.cellId) = false := by
  obtain ⟨ch, rest, hid, hch⟩ := cellId_head c
  rw [hid]
  rcases hch with rfl | rfl <;> rfl

/-- **The identifiers found on disk are those of the cells that are done.** -/
theorem mem_existing (codec : CellCodec C) (dir : Dir C) (c : CellSpec) :
    c.cellId ∈ existing codec dir ↔ Done codec dir c := by
  unfold existing
  rw [List.mem_filterMap]
  constructor
  · rintro ⟨⟨name, content⟩, hmem, hf⟩
    simp only at hf
    split at hf
    · cases hf
    split at hf
    · cases hf
    split at hf
    · cases hf
    · rename_i hend _ _ r hr
      split at hf
      · rename_i hstem
        have hid : r.cellId = c.cellId := Option.some.inj hf
        obtain ⟨p, rfl⟩ := endsWith_json (by simpa using hend)
        obtain rfl := cellPath_of_stem (hstem.symm.trans hid)
        refine ⟨r, ?_, hid⟩
        rw [JsonCellSink.load, (OrdDict.mem_items dir _ _).1 hmem]
        exact hr
      · cases hf
  · rintro ⟨r, hl, hid⟩
    obtain ⟨content, hget, hr⟩ := Option.bind_eq_some_iff.1 hl
    refine ⟨(cellPath c.cellId, content), (OrdDict.mem_items dir _ _).2 hget, ?_⟩
    simp [cellPath_endsWith, cellPath_sidecars c, hr, hid, stem_cellPath (cellId_ne_nil c), -List.contains_eq_mem]

theorem mem_pending (codec : CellCodec C) (dir : Dir C) (cs : List CellSpec) (c : CellSpec) :
    c ∈ cs.filter (fun c => !(existing codec dir).contains c.cellId) ↔ c ∈ cs ∧ ¬ Done codec dir c := by
  rw [List.mem_filter, ← mem_existing]
  simp

/-- **What was valid and named after its cell is unchanged.** -/
theorem nameMatching_unchanged (b : Bench C) (dir : Dir C) (specs : List CellSpec)
    (hpend : ∀ c ∈ specs, ¬ Done b.codec dir c) {name : Text} {content : C} (hget : dir.get? name = some content)
    (hmatch : NameMatching b.codec name content) :
    (Runs.run (visit b) ⟨dir, []⟩ specs).dir.get? name = some content := by
  refine Runs.run_invariant (fun s : Sweep C => s.dir.get? name = some content) specs ⟨dir, []⟩ ?_ hget
  intro s c hc h
  obtain ⟨hend, r, hr, hid⟩ := hmatch
  obtain ⟨p, rfl⟩ := endsWith_json hend
  rw [visit_frame b s c ?_ (cellPath_ne_tmpPath p c.cellId)]
  · exact h
  · intro he
    have hp := cellPath_injective he
    subst hp
    refine hpend c hc ⟨r, ?_, hid.trans (stem_cellPath (cellId_ne_nil c))⟩
    rw [JsonCellSink.load, hget]
    exact hr

theorem executions_ok {s : Sweep C} (h : nFailed s = 0) (id : Text) :
    ∀ o ∈ executions id s.log, o.isOk = true := by
  intro o ho
  obtain ⟨⟨c, run⟩, hmem, he⟩ := List.mem_filterMap.1 ho
  have hok := List.countP_eq_zero.1 h (c, run) hmem
  cases run with
  | loaded r => cases he
  | executed o' =>
    simp only at he
    split at he
    · cases he
      simpa [CellRun.outcome] using hok
    · cases he

theorem done_of_run (b : Bench C) (dir : Dir C) (specs : List CellSpec) (c : CellSpec) (hc : c ∈ specs)
    (hl : JsonCellSink.load b.codec dir c.cellId = none) (hok : nFailed (Runs.run (visit b) ⟨dir, []⟩ specs) = 0) :
    Done b.codec (Runs.run (visit b) ⟨dir, []⟩ specs).dir c := by
  obtain ⟨hvis, hpos⟩ := visits_of_among b dir (among_self hc)
  rcases standing_run b hl specs with ⟨hall, hlen, -⟩ | ⟨failed, r, -, -, -, hid, hget⟩
  · rw [hvis] at hlen
    obtain ⟨o, ho⟩ := List.exists_mem_of_length_pos (hlen.symm ▸ hpos)
    have hraised := hall o ho
    rw [executions_ok hok c.cellId o ho] at hraised
    cases hraised
  · refine ⟨r, ?_, hid⟩
    rw [JsonCellSink.load, hget, Option.bind_some, b.codec.roundTrip]

/-- **A resumed sweep in which nothing raises leaves nothing pending exactly when no cell's file held another cell's
result**; the valid files named after their cells are unchanged. -/
theorem runPending_converges_iff (b : Bench C) (dir : Dir C) (m : MatrixSpec) (cs : List CellSpec) (s : Sweep C)
    (hm : m.cells = some cs) (hs : runPending b dir m false = some s) (hok : nFailed s = 0) :
    (pendingCellSpecs b.codec s.dir m = some [] ∧
      ∀ name content, dir.get? name = some content → NameMatching b.codec name content →
        s.dir.get? name = some content) ↔
      ∀ c ∈ cs, ¬ Foreign b.codec dir c := by
  rw [runPending, pendingCellSpecs, hm, Option.map_some, Option.map_some, run_eq] at hs
  rw [pendingCellSpecs, hm, Option.map_some]
  generalize hspecs : cs.filter (fun c => !(existing b.codec dir).contains c.cellId) = specs at hs
  have hmem : ∀ c, c ∈ specs ↔ c ∈ cs ∧ ¬ Done b.codec dir c := by
    intro c
    rw [← hspecs]
    exact mem_pending b.codec dir cs c
  cases hs
  have hkeep : ∀ name content, dir.get? name = some content → NameMatching b.codec name content →
      (Runs.run (visit b) ⟨dir, []⟩ specs).dir.get? name = some content := fun name content hget hmatch =>
    nameMatching_unchanged b dir specs (fun c hc => ((hmem c).1 hc).2) hget hmatch
  constructor
  · rintro ⟨hnone, -⟩ c hc ⟨r, hl, hid⟩
    obtain ⟨old, hold, hp⟩ := Option.bind_eq_some_iff.1 hl
    have hkept := (kept_run b hold hp specs).2
    have hmore := (mem_pending b.codec (Runs.run (visit b) ⟨dir, []⟩ specs).dir cs c).2 ⟨hc, by
      rintro ⟨r', hl', hid'⟩
      rw [JsonCellSink.load, hkept, Option.bind_some, hp] at hl'
      cases hl'
      exact hid hid'⟩
    rw [Option.some.inj hnone] at hmore
    cases hmore
  · intro hforeign
    refine ⟨congrArg some (List.eq_nil_iff_forall_not_mem.2 (fun c hc => ?_)), hkeep⟩
    obtain ⟨hc, hnot⟩ := (mem_pending b.codec _ cs c).1 hc
    by_cases hd : Done b.codec dir c
    · obtain ⟨r, hl, hid⟩ := hd
      obtain ⟨content, hget, hr⟩ := Option.bind_eq_some_iff.1 hl
      have hnow := hkeep _ _ hget
        ⟨cellPath_endsWith _, r, hr, hid.trans (stem_cellPath (cellId_ne_nil c)).symm⟩
      refine hnot ⟨r, ?_, hid⟩
      rw [JsonCellSink.load, hnow]
      exact hr
    · have hl : JsonCellSink.load b.codec dir c.cellId = none := by
        refine Option.eq_none_iff_forall_ne_some.2 (fun r hr => ?_)
        by_cases hid : r.cellId = c.cellId
        · exact hd ⟨r, hr, hid⟩
        · exact hforeign c hc ⟨r, hr, hid⟩
      exact hnot (done_of_run b dir specs c ((hmem c).2 ⟨hc, hd⟩) hl hok)

theorem steadyBench_executes (dir : Dir (Option CellResult))
    (hl : JsonCellSink.load plainCodec dir chatCell.cellId = none) :
    nFailed (Runs.run (visit steadyBench) ⟨dir, []⟩ [chatCell]) = 0 := by
  obtain ⟨t, ht, -⟩ := buildTrace_chat steadyBench.source chatCell rfl
  have hexec : execute steadyBench 0 dir chatCell =
      (.ok (cellResult chatCell steadyMeasurement),
        JsonCellSink.write plainCodec dir (cellResult chatCell steadyMeasurement)) := by
    rw [execute, ht]
    rfl
  have hrun := runCell_executed steadyBench 0 dir chatCell hl
  rw [hexec] at hrun
  rw [Runs.run_cons, Runs.run_nil, visit, nFailed]
  show List.countP _ ([] ++ [(chatCell, (runCell steadyBench 0 dir chatCell).1)]) = 0
  rw [hrun]
  rfl

theorem runPending_converges_corrupt :
    ∃ s, runPending steadyBench corruptDir oneCellMatrix false = some s ∧ nFailed s = 0 ∧
      ((pendingCellSpecs plainCodec s.dir oneCellMatrix = some [] ∧
        ∀ name content, corruptDir.get? name = some content → NameMatching plainCodec name content →
          s.dir.get? name = some content) ↔
        ∀ c ∈ [chatCell], ¬ Foreign plainCodec corruptDir c) := by
  have hpend : pendingCellSpecs plainCodec corruptDir oneCellMatrix = some [chatCell] := by decide
  have hs : runPending steadyBench corruptDir oneCellMatrix false =
      some (Runs.run (visit steadyBench) ⟨corruptDir, []⟩ [chatCell]) := by
    rw [runPending, show steadyBench.codec = plainCodec from rfl, hpend, Option.map_some, run_eq]
  have hok := steadyBench_executes corruptDir rfl
  exact ⟨_, hs, hok,
    runPending_converges_iff steadyBench corruptDir oneCellMatrix [chatCell] _ oneCellMatrix_cells hs hok⟩

/-- The cell's file holds the result of the same point at another rate: a renamed or copied file. -/
def renamedDir : Dir (Option CellResult) :=
  OrdDict.ofList [(cellPath chatCell.cellId,
    some { unreconciled with cellId := "colocated__qwen3-1.7b__rate-2__chat".toList, rateRps := 2 })]

/-- **A renamed result stays pending for ever**: a resumed sweep visits its cell, loads the file and raises nothing. -/
theorem renamed_result_stays_pending :
    ∃ s, runPending steadyBench renamedDir oneCellMatrix false = some s ∧ nFailed s = 0 ∧
      pendingCellSpecs plainCodec s.dir oneCellMatrix = some [chatCell] :=
  ⟨_, rfl, by decide, by decide⟩

end BenchMatrix
end GoodputLab
