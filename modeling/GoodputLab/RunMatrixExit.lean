import GoodputLab.RunMatrix
/-!
# RunMatrixExit — whether the exit code of a sweep tells what it left

The code is taken from what the run attempted: 0 when something was, nothing raised and the aggregator found no misnamed
file.  What the sweep leaves is taken from the directory: each cell done before, or come to now.  So the code is truthful
exactly when something raised or these two agree (`exit_truthful_iff`).
-/
namespace GoodputLab
namespace RunMatrix

open CellRunner (runCell execute)
open BenchMatrix

variable {C : Type}

/-! ## The cells a sweep comes to -/

/-- The cells come to, from what each gives over the directory the sweep starts from: a sweep asked to stop ends at a new
cell that raises or does not reconcile. -/
def reached (b : Bench C) (dir : Dir C) (stopOnUnreconciled : Bool) : List CellSpec → List CellSpec → List CellSpec
  | _, []             => []
  | before, c :: rest =>
    if !before.any (fun x => decide (x.cellId = c.cellId)) &&
        stopsAt stopOnUnreconciled (runCell b before.length dir c).1.outcome then [c]
    else c :: reached b dir stopOnUnreconciled (before ++ [c]) rest

theorem among_iff_any (before : List CellSpec) (c : CellSpec) :
    Among before c ↔ before.any (fun x => decide (x.cellId = c.cellId)) = true := by
  rw [List.any_eq_true]
  simp [Among]

theorem execute_fst (b : Bench C) (n : Nat) (dir dir' : Dir C) (c : CellSpec) :
    (execute b n dir c).1 = (execute b n dir' c).1 := by
  unfold execute
  cases buildTrace b.source c with
  | none => rfl
  | some t =>
    simp only
    cases b.replay n t <;> rfl

theorem outcome_congr (b : Bench C) (n : Nat) {dir dir' : Dir C} {c : CellSpec}
    (h : JsonCellSink.load b.codec dir c.cellId = JsonCellSink.load b.codec dir' c.cellId) :
    (runCell b n dir c).1.outcome = (runCell b n dir' c).1.outcome := by
  cases hl : JsonCellSink.load b.codec dir' c.cellId with
  | some r => rw [runCell_loaded b n dir c r (h.trans hl), runCell_loaded b n dir' c r hl]
  | none =>
    rw [runCell_executed b n dir c (h.trans hl), runCell_executed b n dir' c hl]
    exact execute_fst b n dir dir' c

theorem halts_run (b : Bench C) (dir : Dir C) (stopOnUnreconciled : Bool) (before : List CellSpec) (c : CellSpec)
    (hgo : Runs.GoesOn (visit b) (halts b stopOnUnreconciled) before ⟨dir, []⟩) :
    halts b stopOnUnreconciled (Runs.run (visit b) ⟨dir, []⟩ before) c =
      (!before.any (fun x => decide (x.cellId = c.cellId)) &&
        stopsAt stopOnUnreconciled (runCell b before.length dir c).1.outcome) := by
  cases stopOnUnreconciled with
  | false =>
    rw [halts_false]
    cases (runCell b before.length dir c).1.outcome <;> simp [stopsAt]
  | true =>
    by_cases hamong : Among before c
    · rw [(among_iff_any before c).1 hamong]
      obtain ⟨x, hx, hid⟩ := hamong
      obtain ⟨r, hl, hr⟩ := settled_run b before ⟨dir, []⟩ hgo x hx
      exact halts_settled b _ c ⟨r, hid ▸ hl, hr⟩
    · have hnew : before.any (fun x => decide (x.cellId = c.cellId)) = false :=
        Bool.eq_false_iff.2 (fun h => hamong ((among_iff_any before c).2 h))
      rw [hnew, halts, log_length, outcome_congr b _ (load_unvisited b dir hamong)]
      simp

theorem run_concat (b : Bench C) (s : Sweep C) (p : List CellSpec) (c : CellSpec) :
    Runs.run (visit b) s (p ++ [c]) = visit b (Runs.run (visit b) s p) c := Runs.run_append _ _ p [c]

theorem goesOn_concat (b : Bench C) {stopOnUnreconciled : Bool} : ∀ (p : List CellSpec) (s : Sweep C) (c : CellSpec),
    Runs.GoesOn (visit b) (halts b stopOnUnreconciled) p s →
      halts b stopOnUnreconciled (Runs.run (visit b) s p) c = false →
        Runs.GoesOn (visit b) (halts b stopOnUnreconciled) (p ++ [c]) s
  | [], s, c, _, h => Runs.goesOn_cons.2 ⟨h, Runs.forall_split_nil⟩
  | x :: p, s, c, hgo, h => by
    obtain ⟨hfirst, hrest⟩ := Runs.goesOn_cons.1 hgo
    exact Runs.goesOn_cons.2 ⟨hfirst, goesOn_concat b p (visit b s x) c hrest h⟩

/-- **A sweep is a run of the cells it comes to.** -/
theorem run_reached (b : Bench C) (dir : Dir C) (stopOnUnreconciled : Bool) : ∀ (rest before : List CellSpec),
    Runs.GoesOn (visit b) (halts b stopOnUnreconciled) before ⟨dir, []⟩ →
      run b stopOnUnreconciled rest (Runs.run (visit b) ⟨dir, []⟩ before) =
        Runs.run (visit b) ⟨dir, []⟩ (before ++ reached b dir stopOnUnreconciled before rest)
  | [], before, _ => by rw [reached, List.append_nil, run]
  | c :: rest, before, hgo => by
    have hhalts := halts_run b dir stopOnUnreconciled before c hgo
    rw [run, reached, ← hhalts]
    cases hh : halts b stopOnUnreconciled (Runs.run (visit b) ⟨dir, []⟩ before) c with
    | true =>
      rw [if_pos rfl, run_concat]
      exact if_pos hh
    | false =>
      rw [if_neg Bool.false_ne_true, ← run_concat, run_reached b dir stopOnUnreconciled rest (before ++ [c])
        (goesOn_concat b before _ c hgo hh), List.append_assoc]
      exact if_neg (Bool.eq_false_iff.1 hh)

/-! ## What raised -/

/-- A new cell of these raised. -/
def Raises (b : Bench C) (dir : Dir C) (specs : List CellSpec) : Prop :=
  ∃ p c q, specs = p ++ c :: q ∧ ¬ Among p c ∧ (runCell b p.length dir c).1.outcome.isOk = false

theorem raises_concat (b : Bench C) (dir : Dir C) (p : List CellSpec) (c : CellSpec) :
    Raises b dir (p ++ [c]) ↔
      Raises b dir p ∨ (¬ Among p c ∧ (runCell b p.length dir c).1.outcome.isOk = false) := by
  constructor
  · rintro ⟨p', c', q, heq, hnew, hraised⟩
    rcases List.eq_nil_or_concat q with rfl | ⟨q, d, rfl⟩
    · obtain ⟨rfl, he⟩ := List.append_inj' heq rfl
      cases he
      exact Or.inr ⟨hnew, hraised⟩
    · rw [List.concat_eq_append, ← List.cons_append, ← List.append_assoc] at heq
      obtain ⟨rfl, -⟩ := List.append_inj' heq rfl
      exact Or.inl ⟨p', c', q, rfl, hnew, hraised⟩
  · rintro (⟨p', c', q, rfl, hnew, hraised⟩ | ⟨hnew, hraised⟩)
    · exact ⟨p', c', q ++ [c], by simp, hnew, hraised⟩
    · exact ⟨p, c, [], rfl, hnew, hraised⟩

theorem nFailed_visit (b : Bench C) (s : Sweep C) (c : CellSpec) :
    nFailed (visit b s c) = 0 ↔ nFailed s = 0 ∧ (runCell b s.log.length s.dir c).1.outcome.isOk = true := by
  rw [nFailed, visit, List.countP_append, Nat.add_eq_zero_iff, List.countP_singleton]
  refine and_congr Iff.rfl ?_
  cases (runCell b s.log.length s.dir c).1.outcome.isOk <;> simp

/-- A cell that was come to, and raised no more, has a file that parses. -/
theorem valid_of_visited (b : Bench C) (dir : Dir C) {specs : List CellSpec} {c : CellSpec} (hamong : Among specs c)
    (hok : nFailed (Runs.run (visit b) ⟨dir, []⟩ specs) = 0) :
    ValidOnDisk b.codec (Runs.run (visit b) ⟨dir, []⟩ specs).dir c := by
  obtain ⟨x, hx, hid⟩ := hamong
  rw [ValidOnDisk, ← hid]
  cases hl : JsonCellSink.load b.codec dir x.cellId with
  | some r =>
    obtain ⟨old, hold, hp⟩ := Option.bind_eq_some_iff.1 hl
    refine ⟨r, ?_⟩
    rw [JsonCellSink.load, (kept_run b hold hp specs).2]
    exact hp
  | none =>
    obtain ⟨r, hr, -⟩ := done_of_run b dir specs x hx hl hok
    exact ⟨r, hr⟩

/-- **A sweep counts no failure exactly when no new cell it came to raised.** -/
theorem nFailed_iff (b : Bench C) (dir : Dir C) (specs : List CellSpec) :
    nFailed (Runs.run (visit b) ⟨dir, []⟩ specs) = 0 ↔ ¬ Raises b dir specs := by
  induction specs using List.reverseRecOn with
  | nil => exact iff_of_true rfl (fun ⟨p, c, q, h, _⟩ => absurd h.symm (by simp))
  | append_singleton p c ih =>
    rw [run_concat, nFailed_visit, ih, raises_concat, not_or]
    refine and_congr_right (fun hno => ?_)
    by_cases hamong : Among p c
    · obtain ⟨r, hr⟩ := valid_of_visited b dir hamong (ih.2 hno)
      rw [runCell_loaded b _ _ c r hr]
      exact iff_of_true rfl (fun h => h.1 hamong)
    · rw [outcome_congr b _ (load_unvisited b dir hamong), log_length]
      simp [hamong]

/-! ## What the sweep leaves -/

/-- The cell is done, or was come to and had no file that parses. -/
def Covered (codec : CellCodec C) (dir : Dir C) (visited : List CellSpec) (c : CellSpec) : Prop :=
  Done codec dir c ∨ (Among visited c ∧ JsonCellSink.load codec dir c.cellId = none)

/-- **The cells done after a sweep in which nothing raised.** -/
theorem done_iff_covered (b : Bench C) (dir : Dir C) (specs : List CellSpec) (c : CellSpec)
    (hok : nFailed (Runs.run (visit b) ⟨dir, []⟩ specs) = 0) :
    Done b.codec (Runs.run (visit b) ⟨dir, []⟩ specs).dir c ↔ Covered b.codec dir specs c := by
  cases hl : JsonCellSink.load b.codec dir c.cellId with
  | some r =>
    obtain ⟨old, hold, hp⟩ := Option.bind_eq_some_iff.1 hl
    have hkept : JsonCellSink.load b.codec (Runs.run (visit b) ⟨dir, []⟩ specs).dir c.cellId =
        JsonCellSink.load b.codec dir c.cellId := by
      rw [JsonCellSink.load, (kept_run b hold hp specs).2, JsonCellSink.load, hold]
    rw [Done, hkept, Covered, Done, hl]
    simp
  | none =>
    have hnot : ¬ Done b.codec dir c := by
      rintro ⟨r, hr, -⟩
      rw [hl] at hr
      cases hr
    rw [Covered, hl]
    constructor
    · rintro ⟨r, hr, -⟩
      refine Or.inr ⟨?_, rfl⟩
      by_contra hnew
      rw [load_unvisited b dir hnew, hl] at hr
      cases hr
    · rintro (hdone | ⟨⟨x, hx, hid⟩, -⟩)
      · exact absurd hdone hnot
      · have hdone := done_of_run b dir specs x hx (hid ▸ hl) hok
        rw [Done, hid] at hdone
        exact hdone

/-- A `*.json` file that parses to a result of another name. -/
def Misnamed (codec : CellCodec C) (dir : Dir C) (name : Text) : Prop :=
  name.endsWith jsonSuffix = true ∧
    ∃ content r, dir.get? name = some content ∧ codec.parse content = some r ∧ r.cellId ≠ stem name

theorem misnamed_write (codec : CellCodec C) (dir : Dir C) {r : CellResult} {c : CellSpec} (hid : r.cellId = c.cellId)
    (hl : JsonCellSink.load codec dir c.cellId = none) (name : Text) :
    Misnamed codec (JsonCellSink.write codec dir r) name ↔ Misnamed codec dir name := by
  refine and_congr_right (fun hend => ?_)
  by_cases hcell : name = cellPath r.cellId
  · subst hcell
    refine iff_of_false ?_ ?_
    · rintro ⟨content, r', hget, hp, hne⟩
      rw [get?_write] at hget
      cases hget
      rw [codec.roundTrip] at hp
      cases hp
      exact hne (by rw [hid, stem_cellPath (cellId_ne_nil c)])
    · rintro ⟨content, r', hget, hp, -⟩
      rw [← hid, JsonCellSink.load, hget, Option.bind_some, hp] at hl
      cases hl
  · have htmp : name ≠ tmpPath r.cellId := by
      obtain ⟨id, rfl⟩ := endsWith_json hend
      exact cellPath_ne_tmpPath id r.cellId
    rw [get?_write_of_ne codec dir r hcell htmp]

/-- **A sweep neither writes nor replaces a misnamed file.** -/
theorem misnamed_run (b : Bench C) (dir : Dir C) (specs : List CellSpec) (name : Text) :
    Misnamed b.codec (Runs.run (visit b) ⟨dir, []⟩ specs).dir name ↔ Misnamed b.codec dir name := by
  refine Runs.run_invariant (fun s : Sweep C => Misnamed b.codec s.dir name ↔ Misnamed b.codec dir name) specs
    ⟨dir, []⟩ (fun s c _ hs => ?_) Iff.rfl
  rw [← hs]
  cases hl : JsonCellSink.load b.codec s.dir c.cellId with
  | some r => rw [(visit_loaded b s c hl c.cellId).1]
  | none =>
    rw [(visit_executed b s c hl).1]
    rcases execute_cases b s.log.length s.dir c with ⟨e, he⟩ | ⟨r, hid, he⟩
    · rw [he]
    · rw [he]
      exact misnamed_write b.codec s.dir hid hl name

/-! ## The aggregator -/

theorem mem_jsonFiles (dir : Dir C) (f : Text × C) :
    f ∈ jsonFiles dir ↔ dir.get? f.1 = some f.2 ∧ f.1.endsWith jsonSuffix = true := by
  rw [jsonFiles, List.mem_insertionSort, List.mem_filter, OrdDict.mem_items]

theorem loadResults_none_iff (codec : CellCodec C) : ∀ files : List (Text × C),
    loadResults codec files = none ↔ ∃ f ∈ files, ∃ r, codec.parse f.2 = some r ∧ r.cellId ≠ stem f.1
  | []      => by simp [loadResults]
  | f :: fs => by
    rw [loadResults, List.exists_mem_cons_iff, ← loadResults_none_iff codec fs]
    cases hp : codec.parse f.2 with
    | none => simp
    | some r =>
      by_cases hne : r.cellId = stem f.1
      · simp [hne]
      · simp [hne]

theorem loadResults_nil_iff (codec : CellCodec C) : ∀ {files : List (Text × C)} {results : List CellResult},
    loadResults codec files = some results → (results = [] ↔ ∀ f ∈ files, codec.parse f.2 = none)
  | [], results, h => by
    cases h
    simp
  | f :: fs, results, h => by
    rw [loadResults] at h
    cases hp : codec.parse f.2 with
    | none =>
      rw [hp] at h
      rw [loadResults_nil_iff codec h, List.forall_mem_cons, hp]
      simp
    | some r =>
      rw [hp] at h
      simp only at h
      split at h
      · cases h
      · obtain ⟨rs, -, rfl⟩ := Option.map_eq_some_iff.1 h
        refine iff_of_false (List.cons_ne_nil r rs) (fun hall => ?_)
        have hnone := hall f List.mem_cons_self
        rw [hp] at hnone
        cases hnone

/-- **The aggregator returns exactly when a file parses and none is misnamed.** -/
theorem aggregate_iff (codec : CellCodec C) (dir : Dir C) :
    aggregate codec dir ≠ none ↔
      (∀ name, ¬ Misnamed codec dir name) ∧ ∃ name content r, dir.get? name = some content ∧
        name.endsWith jsonSuffix = true ∧ codec.parse content = some r := by
  have hmisnamed : loadResults codec (jsonFiles dir) = none ↔ ∃ name, Misnamed codec dir name := by
    rw [loadResults_none_iff]
    constructor
    · rintro ⟨f, hf, r, hp, hne⟩
      obtain ⟨hget, hend⟩ := (mem_jsonFiles dir f).1 hf
      exact ⟨f.1, hend, f.2, r, hget, hp, hne⟩
    · rintro ⟨name, hend, content, r, hget, hp, hne⟩
      exact ⟨(name, content), (mem_jsonFiles dir _).2 ⟨hget, hend⟩, r, hp, hne⟩
  unfold aggregate
  cases hload : loadResults codec (jsonFiles dir) with
  | none =>
    obtain ⟨name, hname⟩ := hmisnamed.1 hload
    simp only [ite_self, ne_eq, not_true_eq_false, false_iff]
    exact fun h => h.1 name hname
  | some results =>
    have hno : ∀ name, ¬ Misnamed codec dir name := fun name hname => by
      rw [hmisnamed.2 ⟨name, hname⟩] at hload
      cases hload
    have hvalid : results ≠ [] ↔ ∃ name content r, dir.get? name = some content ∧
        name.endsWith jsonSuffix = true ∧ codec.parse content = some r := by
      rw [ne_eq, loadResults_nil_iff codec hload]
      constructor
      · intro h
        obtain ⟨f, hf, hp⟩ : ∃ f ∈ jsonFiles dir, codec.parse f.2 ≠ none := by
          by_contra hall
          exact h (fun f hf => by_contra (fun hp => hall ⟨f, hf, hp⟩))
        obtain ⟨hget, hend⟩ := (mem_jsonFiles dir f).1 hf
        obtain ⟨r, hr⟩ := Option.ne_none_iff_exists'.1 hp
        exact ⟨f.1, f.2, r, hget, hend, hr⟩
      · rintro ⟨name, content, r, hget, hend, hp⟩ hall
        rw [hall (name, content) ((mem_jsonFiles dir _).2 ⟨hget, hend⟩)] at hp
        cases hp
    rw [and_iff_right hno, ← hvalid]
    cases hfiles : jsonFiles dir with
    | nil =>
      rw [hfiles] at hload
      cases hload
      simp
    | cons f fs =>
      cases results with
      | nil => simp
      | cons r rs => simp

/-! ## The exit code -/

theorem load_set_of_ne (codec : CellCodec C) (dir : Dir C) (content : C) {name : Text} {c : CellSpec}
    (h : cellPath c.cellId ≠ name) :
    JsonCellSink.load codec (dir.set name content) c.cellId = JsonCellSink.load codec dir c.cellId := by
  rw [JsonCellSink.load, OrdDict.get?_set_of_ne _ _ h, JsonCellSink.load]

theorem cellPath_ne_sidecar (c : CellSpec) {name : Text} (h : name ∈ sidecars) : cellPath c.cellId ≠ name := by
  rintro rfl
  have hnot := cellPath_sidecars c
  rw [List.contains_iff_mem.2 h] at hnot
  cases hnot

/-- The directory the preflight has been recorded in. -/
def startDir {codec : CellCodec C} (files : Sidecars codec) (dir : Dir C) : Dir C :=
  dir.set preflightPath files.preflight

theorem done_startDir {codec : CellCodec C} (files : Sidecars codec) (dir : Dir C) (c : CellSpec) :
    Done codec (startDir files dir) c ↔ Done codec dir c := by
  rw [Done, startDir, load_set_of_ne codec dir _ (cellPath_ne_sidecar c (by decide)), Done]

theorem pending_startDir {codec : CellCodec C} (files : Sidecars codec) (dir : Dir C) (m : MatrixSpec) :
    pendingCellSpecs codec (startDir files dir) m = pendingCellSpecs codec dir m := by
  unfold pendingCellSpecs
  refine congrArg (fun f => m.cells.map f) (funext (fun cs => List.filter_congr (fun c _ => ?_)))
  rw [Bool.eq_iff_iff]
  simp only [Bool.not_eq_true', List.contains_eq_mem, decide_eq_false_iff_not, mem_existing, done_startDir]

theorem sweep_eq (b : Bench C) (files : Sidecars b.codec) (dir : Dir C) (m : MatrixSpec) (args : Args) :
    sweep b files dir m args = (planned b.codec dir m args).map (fun pending =>
      Runs.run (visit b) ⟨startDir files dir, []⟩ (reached b (startDir files dir) (!args.keepGoing) [] pending)) := by
  have hrun : ∀ pending, run b (!args.keepGoing) pending ⟨startDir files dir, []⟩ =
      Runs.run (visit b) ⟨startDir files dir, []⟩ (reached b (startDir files dir) (!args.keepGoing) [] pending) :=
    fun pending => run_reached b (startDir files dir) (!args.keepGoing) pending []
      Runs.forall_split_nil
  unfold sweep planned
  split
  · rw [runAll]
    exact congrArg (fun f => m.cells.map f) (funext hrun)
  · rw [runPending, show dir.set preflightPath files.preflight = startDir files dir from rfl, pending_startDir]
    exact congrArg (fun f => (pendingCellSpecs b.codec dir m).map f) (funext hrun)

theorem finish_code (b : Bench C) (files : Sidecars b.codec) (s : Sweep C) :
    (finish b files s).1 = 0 ↔ nCompleted s ≠ 0 ∧ aggregate b.codec s.dir ≠ none ∧ nFailed s = 0 := by
  unfold finish writeSummary
  by_cases hnone : nCompleted s = 0
  · simp [hnone]
  · rw [if_neg hnone]
    cases aggregate b.codec s.dir with
    | none => simp
    | some results =>
      by_cases hfailed : nFailed s = 0
      · simp [hnone, hfailed]
      · simp [hnone, hfailed]

theorem finish_log (b : Bench C) (files : Sidecars b.codec) (s : Sweep C) : (finish b files s).2.log = s.log := by
  unfold finish
  split
  · rfl
  · split <;> rfl

/-- The summary replaces no cell's file. -/
theorem finish_done (b : Bench C) (files : Sidecars b.codec) (s : Sweep C) (c : CellSpec) :
    Done b.codec (finish b files s).2.dir c ↔ Done b.codec s.dir c := by
  unfold finish
  split
  · exact Iff.rfl
  · split
    · exact Iff.rfl
    · rename_i dir hdir
      obtain ⟨results, -, rfl⟩ := Option.map_eq_some_iff.1 hdir
      have htmp : cellPath c.cellId ≠ summaryTmpPath := by
        intro h
        have hlast := congrArg List.getLast? h
        rw [cellPath, List.getLast?_append] at hlast
        cases hlast
      have hload : JsonCellSink.load b.codec
          (((s.dir.set summaryTmpPath (files.summary results)).erase summaryTmpPath).set summaryPath
            (files.summary results)) c.cellId = JsonCellSink.load b.codec s.dir c.cellId := by
        rw [load_set_of_ne _ _ _ (cellPath_ne_sidecar c (by decide)), JsonCellSink.load, OrdDict.get?_erase, if_neg htmp,
          OrdDict.get?_set_of_ne _ _ htmp, JsonCellSink.load]
      rw [Done, hload, Done]

theorem completed_add_failed (s : Sweep C) : nCompleted s + nFailed s = s.log.length := by
  rw [nCompleted, nFailed, List.length_eq_countP_add_countP (fun x => x.2.outcome.isOk)]
  simp

theorem reached_eq_nil (b : Bench C) (dir : Dir C) (stopOnUnreconciled : Bool) (before pending : List CellSpec) :
    reached b dir stopOnUnreconciled before pending = [] ↔ pending = [] := by
  cases pending with
  | nil => exact iff_of_true rfl rfl
  | cons c rest =>
    rw [reached]
    split <;> simp

/-- **A sweep in which nothing raised exits with 0 exactly when it came to a cell and no file is misnamed.** -/
theorem code_of_no_failure (b : Bench C) (files : Sidecars b.codec) (dir : Dir C) (specs : List CellSpec)
    (hok : nFailed (Runs.run (visit b) ⟨dir, []⟩ specs) = 0) :
    (finish b files (Runs.run (visit b) ⟨dir, []⟩ specs)).1 = 0 ↔
      specs ≠ [] ∧ ∀ name, ¬ Misnamed b.codec dir name := by
  have hcompleted : nCompleted (Runs.run (visit b) ⟨dir, []⟩ specs) = specs.length := by
    have hlog := log_length b specs ⟨dir, []⟩
    have hadd := completed_add_failed (Runs.run (visit b) ⟨dir, []⟩ specs)
    rw [List.length_nil, Nat.zero_add] at hlog
    omega
  rw [finish_code, aggregate_iff, hcompleted, ne_eq, List.length_eq_zero_iff]
  simp only [misnamed_run]
  constructor
  · rintro ⟨hne, ⟨hno, -⟩, -⟩
    exact ⟨hne, hno⟩
  · rintro ⟨hne, hno⟩
    refine ⟨hne, ⟨hno, ?_⟩, hok⟩
    obtain ⟨c, hc⟩ := List.exists_mem_of_ne_nil specs hne
    obtain ⟨r, hr⟩ := valid_of_visited b dir (among_self hc) hok
    obtain ⟨content, hget, hp⟩ := Option.bind_eq_some_iff.1 hr
    exact ⟨cellPath c.cellId, content, r, hget, cellPath_endsWith _, hp⟩

def OfMatrix (m : MatrixSpec) (c : CellSpec) : Prop := ∃ cs, m.cells = some cs ∧ c ∈ cs

/-- The code is 0 exactly when every cell of the matrix is done and no execution raised. -/
def Truthful (codec : CellCodec C) (m : MatrixSpec) (exit : Nat × Sweep C) : Prop :=
  exit.1 = 0 ↔ (∀ c, OfMatrix m c → Done codec exit.2.dir c) ∧ nFailed exit.2 = 0

/-- **The exit code is truthful exactly when a cell raised, or the cells are all covered exactly when there was a cell to
visit and no file is misnamed.** -/
theorem exit_truthful_iff (b : Bench C) (files : Sidecars b.codec) (cfg cfg' : MatrixSweepConfig) (args : Args)
    (env : Environ) (dir : Dir C) (pending : List CellSpec) (hcfg : restricted cfg args = some cfg')
    (henv : env.vllmBaseUrl ≠ []) (hpending : planned b.codec dir cfg'.toMatrixSpec args = some pending)
    (hgates : refusal b.source cfg' args env pending = some none) :
    ∃ exit, main b files cfg args env dir = some exit ∧
      (Truthful b.codec cfg'.toMatrixSpec exit ↔
        Raises b (startDir files dir) (reached b (startDir files dir) (!args.keepGoing) [] pending) ∨
          ((pending ≠ [] ∧ ∀ name, ¬ Misnamed b.codec (startDir files dir) name) ↔
            ∀ c, OfMatrix cfg'.toMatrixSpec c → Covered b.codec (startDir files dir)
              (reached b (startDir files dir) (!args.keepGoing) [] pending) c)) := by
  generalize hvisited : reached b (startDir files dir) (!args.keepGoing) [] pending = visited
  have hempty : visited = [] ↔ pending = [] := by
    rw [← hvisited]
    exact reached_eq_nil b _ _ [] pending
  refine ⟨finish b files (Runs.run (visit b) ⟨startDir files dir, []⟩ visited), ?_, ?_⟩
  · unfold main
    rw [hcfg]
    simp only [if_neg henv, hpending, hgates, sweep_eq, hvisited, Option.bind_eq_bind, Option.bind_some, Option.map_some]
    rfl
  · have hfailed : nFailed (finish b files (Runs.run (visit b) ⟨startDir files dir, []⟩ visited)).2 =
        nFailed (Runs.run (visit b) ⟨startDir files dir, []⟩ visited) := by
      rw [nFailed, finish_log, nFailed]
    have hiff := nFailed_iff b (startDir files dir) visited
    unfold Truthful
    simp only [finish_done]
    rw [hfailed]
    by_cases hraises : Raises b (startDir files dir) visited
    · have hne : nFailed (Runs.run (visit b) ⟨startDir files dir, []⟩ visited) ≠ 0 := fun h => (hiff.1 h) hraises
      refine iff_of_true ?_ (Or.inl hraises)
      rw [finish_code]
      exact iff_of_false (fun h => hne h.2.2) (fun h => hne h.2)
    · have hok := hiff.2 hraises
      rw [code_of_no_failure b files _ visited hok, ne_eq, hempty, and_iff_left hok, or_iff_right hraises]
      simp only [done_iff_covered b (startDir files dir) visited _ hok, ne_eq]

/-! ## A sweep that stops early -/

/-- Every replay returns no telemetry, so no cell reconciles. -/
def silentBench : Bench (Option CellResult) where
  source := fun _ _ _ => 0
  replay := fun _ _ => .ok { steadyMeasurement with telemetries := [] }
  codec := plainCodec

def plainFiles : Sidecars plainCodec := ⟨none, fun _ => none, rfl, fun _ => rfl⟩

theorem one_measured : 1 ≤ 1 := Nat.le_refl 1

/-- Two topologies at the chat point, one request each. -/
def pairConfig : MatrixSweepConfig where
  topologies := some [.colocated, .chunked]
  models := some [.qwen3_1_7b]
  ratesRps := some [1]
  mixes := some [.chat]
  nWarmup := 0
  nMeasure := 1
  smoke := true
  maxModelLen := none
  ratesPos := by
    intro rates hrates r hr
    cases hrates
    rw [List.mem_singleton.1 hr]
    exact Int.one_pos
  measureGe := one_measured
  modelLenGe := by
    intro l hl
    cases hl

def defaultArgs : Args := ⟨false, false, false, false, none⟩

def localServer : Environ := ⟨"http://127.0.0.1:8000/v1".toList, []⟩

theorem pair_planned : planned plainCodec .empty pairConfig.toMatrixSpec defaultArgs = some [chatCell, chunkedCell] := by
  decide +kernel

theorem pair_gates :
    refusal silentBench.source pairConfig defaultArgs localServer [chatCell, chunkedCell] = some none := by
  decide +kernel

theorem pair_exit :
    ∃ exit, main silentBench plainFiles pairConfig defaultArgs localServer .empty = some exit ∧
      (Truthful plainCodec pairConfig.toMatrixSpec exit ↔
        Raises silentBench (startDir plainFiles .empty)
            (reached silentBench (startDir plainFiles .empty) (!defaultArgs.keepGoing) [] [chatCell, chunkedCell]) ∨
          (([chatCell, chunkedCell] ≠ [] ∧ ∀ name, ¬ Misnamed plainCodec (startDir plainFiles .empty) name) ↔
            ∀ c, OfMatrix pairConfig.toMatrixSpec c → Covered plainCodec (startDir plainFiles .empty)
              (reached silentBench (startDir plainFiles .empty) (!defaultArgs.keepGoing) [] [chatCell, chunkedCell]) c)) :=
  exit_truthful_iff silentBench plainFiles pairConfig pairConfig defaultArgs localServer .empty _ rfl
    (List.cons_ne_nil _ _) pair_planned pair_gates

/-- **A sweep stopped by its first, unreconciled cell exits with 0**, its second cell not measured. -/
theorem early_stop_exits_zero :
    ∃ exit, main silentBench plainFiles pairConfig defaultArgs localServer .empty = some exit ∧ exit.1 = 0 ∧
      nFailed exit.2 = 0 ∧ OfMatrix pairConfig.toMatrixSpec chunkedCell ∧ ¬ Done plainCodec exit.2.dir chunkedCell ∧
      ¬ Truthful plainCodec pairConfig.toMatrixSpec exit := by
  have hmain : (main silentBench plainFiles pairConfig defaultArgs localServer .empty).map (fun e =>
      (e.1, nFailed e.2, JsonCellSink.exists e.2.dir chunkedCell.cellId)) = some (0, 0, false) := by
    decide +kernel
  obtain ⟨exit, hexit, hread⟩ := Option.map_eq_some_iff.1 hmain
  simp only [Prod.mk.injEq] at hread
  obtain ⟨hcode, hfailed, habsent⟩ := hread
  have hmatrix : OfMatrix pairConfig.toMatrixSpec chunkedCell :=
    ⟨[chatCell, chunkedCell], by decide, List.mem_cons_of_mem _ List.mem_cons_self⟩
  have hnot : ¬ Done plainCodec exit.2.dir chunkedCell := by
    rintro ⟨r, hl, -⟩
    obtain ⟨content, hget, -⟩ := Option.bind_eq_some_iff.1 hl
    rw [JsonCellSink.exists, (OrdDict.contains_iff _ _).2 ⟨content, hget⟩] at habsent
    cases habsent
  exact ⟨exit, hexit, hcode, hfailed, hmatrix, hnot, fun h => hnot ((h.1 hcode).1 chunkedCell hmatrix)⟩

end RunMatrix
end GoodputLab
