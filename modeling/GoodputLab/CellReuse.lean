import GoodputLab.Base.Collect
import GoodputLab.MatrixPending
/-!
# CellReuse — whether a result is that of the cell asked for

A file is named by topology, model, rate and mix (`cellId_inj`), and `runCell` returns whatever parses there.  So its
results are those of the cell exactly when the file, if it parses, is (`runCell_matches_iff`).  Two cells of one matrix
never share a file, so a sweep from files that match returns results that match (`results_match_over_runs`).
-/
namespace GoodputLab
namespace BenchMatrix

open CellRunner (CellRun runCell execute cellResult)

variable {C : Type}

/-! ## What a file name says -/

theorem topology_prefixFree (t t' : Topology) (h : t.value ++ "__".toList <+: t'.value ++ "__".toList) : t = t' := by
  cases t <;> cases t' <;> first | rfl | exact absurd h (by decide)

theorem model_prefixFree (m m' : Model) (h : m.value <+: m'.value) : m = m' := by
  cases m <;> cases m' <;> first | rfl | exact absurd h (by decide)

theorem mix_prefixFree (x x' : Mix) (h : x.value <+: x'.value) : x = x' := by
  cases x <;> cases x' <;> first | rfl | exact absurd h (by decide)

/-- **The identifier names topology, model, rate and mix**, and nothing else. -/
theorem cellId_inj {c c' : CellSpec} (h : c.cellId = c'.cellId) :
    c.topology = c'.topology ∧ c.model = c'.model ∧ c.rateRps = c'.rateRps ∧ c.mix = c'.mix := by
  have hid : ∀ c : CellSpec, c.cellId = (c.topology.value ++ "__".toList) ++ (c.model.value ++ ("__rate-".toList ++
      (Text.ofNat c.rateRps ++ '_' :: '_' :: (c.mix.value ++ [])))) := fun c => by
    rw [CellSpec.cellId, List.append_nil]
    simp only [List.append_assoc]
    rfl
  rw [hid c, hid c'] at h
  obtain ⟨ht, h⟩ := Text.append_inj_of_prefixFree topology_prefixFree h
  obtain ⟨hm, h⟩ := Text.append_inj_of_prefixFree model_prefixFree h
  obtain ⟨hr, h⟩ := Text.ofNat_sep_inj rfl (List.append_cancel_left h)
  exact ⟨ht, hm, hr, (Text.append_inj_of_prefixFree mix_prefixFree (List.cons.inj h).2).1⟩

theorem seed_eq {m : MatrixSpec} {cs : List CellSpec} (hm : m.cells = some cs) {c : CellSpec} (hc : c ∈ cs) :
    (c.nWarmup : Int) = m.nWarmup ∧ (c.nMeasure : Int) = m.nMeasure ∧
      c.seed = deriveSeed c.topology c.model c.rateRps c.mix := by
  unfold MatrixSpec.cells at hm
  obtain ⟨p, -, hp⟩ := Collect.exists_of_mem_right hm hc
  unfold CellSpec.make? at hp
  split at hp
  · rename_i h
    cases hp
    exact ⟨Int.toNat_of_nonneg h.2.1, Int.toNat_of_nonneg (by omega), rfl⟩
  · cases hp

/-- The cells of one matrix with one identifier are one cell. -/
theorem eq_of_cellId {m : MatrixSpec} {cs : List CellSpec} (hm : m.cells = some cs) {c c' : CellSpec} (hc : c ∈ cs)
    (hc' : c' ∈ cs) (h : c.cellId = c'.cellId) : c = c' := by
  obtain ⟨ht, hmo, hr, hx⟩ := cellId_inj h
  obtain ⟨hw, hn, hs⟩ := seed_eq hm hc
  obtain ⟨hw', hn', hs'⟩ := seed_eq hm hc'
  cases c
  cases c'
  simp only at ht hmo hr hx hw hn hs hw' hn' hs'
  subst ht hmo hr hx
  simp only [CellSpec.mk.injEq, true_and]
  exact ⟨by omega, by omega, hs.trans hs'.symm⟩

/-! ## One call -/

/-- The result has the identifier, the point, the load and the seed of the cell. -/
def MeasuredAs (r : CellResult) (spec : CellSpec) : Prop :=
  r.cellId = spec.cellId ∧ r.topology = spec.topology ∧ r.model = spec.model ∧ r.rateRps = spec.rateRps ∧
    r.mix = spec.mix ∧ r.nWarmup = spec.nWarmup ∧ r.nMeasure = spec.nMeasure ∧ r.seed = spec.seed

theorem cellResult_measuredAs (spec : CellSpec) (m : Measurement) : MeasuredAs (cellResult spec m) spec :=
  ⟨rfl, rfl, rfl, rfl, rfl, rfl, rfl, rfl⟩

theorem execute_measuredAs (b : Bench C) (n : Nat) (dir : Dir C) (spec : CellSpec) :
    (∃ e, execute b n dir spec = (.error e, dir)) ∨
      ∃ r, MeasuredAs r spec ∧ execute b n dir spec = (.ok r, JsonCellSink.write b.codec dir r) := by
  unfold execute
  split
  · exact Or.inl ⟨_, rfl⟩
  · split
    · exact Or.inl ⟨_, rfl⟩
    · exact Or.inr ⟨_, cellResult_measuredAs spec _, rfl⟩

theorem returned_measuredAs (b : Bench C) (n : Nat) (dir : Dir C) (spec : CellSpec)
    (h : ∀ r, JsonCellSink.load b.codec dir spec.cellId = some r → MeasuredAs r spec) :
    ∀ r, (runCell b n dir spec).1.outcome = .ok r → MeasuredAs r spec := by
  intro r hr
  cases hl : JsonCellSink.load b.codec dir spec.cellId with
  | some old =>
    rw [runCell_loaded b n dir spec old hl] at hr
    exact h r (hl.trans (congrArg some (Except.ok.inj hr)))
  | none =>
    rw [runCell_executed b n dir spec hl] at hr
    rcases execute_measuredAs b n dir spec with ⟨e, he⟩ | ⟨r', hr', he⟩
    · rw [he] at hr
      cases hr
    · rw [he] at hr
      cases hr
      exact hr'

/-- **A cell is returned as asked for exactly when its file, if it parses, is of that cell and that load.** -/
theorem runCell_matches_iff (b : Bench C) (n : Nat) (dir : Dir C) (spec : CellSpec) :
    (∀ r, (runCell b n dir spec).1.outcome = .ok r → MeasuredAs r spec) ↔
      ∀ r, JsonCellSink.load b.codec dir spec.cellId = some r → MeasuredAs r spec := by
  refine ⟨fun h r hr => ?_, returned_measuredAs b n dir spec⟩
  have hreturned : (runCell b n dir spec).1.outcome = .ok r := by
    rw [runCell_loaded b n dir spec r hr]
    rfl
  exact h r hreturned

/-! ## Whole sweeps -/

/-- The files of these cells and every result returned so far are of the cells they stand for. -/
structure Matching (codec : CellCodec C) (specs : List CellSpec) (s : Sweep C) : Prop where
  files   : ∀ c ∈ specs, ∀ r, JsonCellSink.load codec s.dir c.cellId = some r → MeasuredAs r c
  results : ∀ e ∈ s.log, ∀ r, e.2.outcome = .ok r → MeasuredAs r e.1

theorem matching_visit (b : Bench C) {specs : List CellSpec}
    (happart : ∀ c ∈ specs, ∀ c' ∈ specs, c.cellId = c'.cellId → c = c') (s : Sweep C) (c : CellSpec) (hc : c ∈ specs)
    (h : Matching b.codec specs s) : Matching b.codec specs (visit b s c) := by
  have hreturned := returned_measuredAs b s.log.length s.dir c (h.files c hc)
  refine ⟨fun c' hc' r hr => ?_, fun e he r hr => ?_⟩
  · by_cases hid : c'.cellId = c.cellId
    · obtain rfl := happart c' hc' c hc hid
      cases hl : JsonCellSink.load b.codec s.dir c'.cellId with
      | some old =>
        rw [(visit_loaded b s c' hl c'.cellId).1, hl] at hr
        exact h.files c' hc' r (hl.trans hr)
      | none =>
        rw [(visit_executed b s c' hl).1] at hr
        rcases execute_measuredAs b s.log.length s.dir c' with ⟨e, he⟩ | ⟨r', hr', he⟩
        · rw [he, hl] at hr
          cases hr
        · rw [he, ← hr'.1, JsonCellSink.load, get?_write, Option.bind_some, b.codec.roundTrip] at hr
          cases hr
          exact hr'
    · rw [JsonCellSink.load, visit_frame b s c (fun he => hid (cellPath_injective he))
        (cellPath_ne_tmpPath c'.cellId c.cellId)] at hr
      exact h.files c' hc' r hr
  · rcases List.mem_append.1 he with he | he
    · exact h.results e he r hr
    · obtain rfl := List.mem_singleton.1 he
      exact hreturned r hr

/-- **A sweep over a matrix that starts from matching files returns matching results.** -/
theorem results_match_over_runs (b : Bench C) (dir : Dir C) (m : MatrixSpec) (cs : List CellSpec)
    (hm : m.cells = some cs)
    (hfiles : ∀ c ∈ cs, ∀ r, JsonCellSink.load b.codec dir c.cellId = some r → MeasuredAs r c) :
    Matching b.codec cs (Runs.run (visit b) ⟨dir, []⟩ cs) :=
  Runs.run_invariant (Matching b.codec cs) cs _
    (fun s c hc h => matching_visit b (fun _ hc _ hc' => eq_of_cellId hm hc hc') s c hc h)
    ⟨hfiles, fun e he => by cases he⟩

/-! ## A result of another load -/

/-- The chat cell with thirty measured requests where it had one. -/
def longerCell : CellSpec := { chatCell with nMeasure := 30, measureGe := thirty_measured }

theorem steady_run_dir :
    (Runs.run (visit steadyBench) ⟨.empty, []⟩ [chatCell]).dir =
      JsonCellSink.write plainCodec .empty (cellResult chatCell steadyMeasurement) := by
  obtain ⟨t, ht, -⟩ := buildTrace_chat steadyBench.source chatCell rfl
  have hnone : JsonCellSink.load steadyBench.codec .empty chatCell.cellId = none := rfl
  have hdir := (visit_executed steadyBench ⟨.empty, []⟩ chatCell hnone).1
  rw [Runs.run_cons, Runs.run_nil, hdir, execute, ht]
  rfl

/-- **A file measured with another load is returned as it stands.** -/
theorem shorter_run_returned :
    ∃ r, (runCell steadyBench 1 (Runs.run (visit steadyBench) ⟨.empty, []⟩ [chatCell]).dir longerCell).1.outcome = .ok r ∧
      r.cellId = longerCell.cellId ∧ r.nMeasure = 1 ∧ longerCell.nMeasure = 30 ∧ ¬ MeasuredAs r longerCell := by
  have hl : JsonCellSink.load steadyBench.codec
      (JsonCellSink.write plainCodec .empty (cellResult chatCell steadyMeasurement)) longerCell.cellId =
      some (cellResult chatCell steadyMeasurement) := by
    show JsonCellSink.load plainCodec _ (cellResult chatCell steadyMeasurement).cellId = _
    rw [JsonCellSink.load, get?_write, Option.bind_some, plainCodec.roundTrip]
  refine ⟨cellResult chatCell steadyMeasurement, ?_, rfl, rfl, rfl, fun h => ?_⟩
  · rw [steady_run_dir, runCell_loaded steadyBench 1 _ longerCell _ hl]
    rfl
  · have hn := h.2.2.2.2.2.2.1
    revert hn
    decide

end BenchMatrix
end GoodputLab
