import GoodputLab.MatrixResume
/-!
# MatrixRunAll — when `run_all` measures again

A cell of the sweep is measured exactly when the sweep comes to it and no result was on disk (`remeasured_iff`): one on
disk, unreconciled or not, is returned as it stands.  Asked to, the sweep ends at a cell that raised or did not
reconcile, so it comes to every cell exactly when no such cell has a new one after it (`visitsAll_iff`).  Together they
say when `runAll` measures every cell again (`runAll_remeasures_iff`).
-/
namespace GoodputLab
namespace BenchMatrix

open CellRunner (CellRun runCell execute cellResult)

variable {C : Type}

/-! ## The cells a sweep comes to -/

/-- The sweep executed the cell once, and again only while it raised; what the last execution returned is its file. -/
def Remeasured (codec : CellCodec C) (cs : List CellSpec) (s : Sweep C) (c : CellSpec) : Prop :=
  ∃ failed out, executions c.cellId s.log = failed ++ [out] ∧ (∀ o ∈ failed, o.isOk = false) ∧
    failed.length < cs.countP (fun x => decide (x.cellId = c.cellId)) ∧
    ∀ r, out = .ok r → s.dir.get? (cellPath c.cellId) = some (codec.dump r)

/-- The cell, or another specification of it, is among these. -/
def Among (specs : List CellSpec) (c : CellSpec) : Prop := ∃ x ∈ specs, x.cellId = c.cellId

theorem among_self {specs : List CellSpec} {c : CellSpec} (h : c ∈ specs) : Among specs c := ⟨c, h, rfl⟩

theorem visits_of_among (b : Bench C) (dir : Dir C) {specs : List CellSpec} {c : CellSpec} (h : Among specs c) :
    visits c.cellId (Runs.run (visit b) ⟨dir, []⟩ specs).log = specs.countP (fun x => decide (x.cellId = c.cellId)) ∧
      0 < specs.countP (fun x => decide (x.cellId = c.cellId)) := by
  obtain ⟨x, hx, hid⟩ := h
  refine ⟨?_, List.countP_pos_iff.2 ⟨x, hx, by simpa using hid⟩⟩
  rw [visits_run]
  exact Nat.zero_add _

theorem executions_unvisited (b : Bench C) (dir : Dir C) {specs : List CellSpec} {c : CellSpec} (h : ¬ Among specs c) :
    executions c.cellId (Runs.run (visit b) ⟨dir, []⟩ specs).log = [] := by
  refine Runs.run_invariant (fun s : Sweep C => executions c.cellId s.log = []) specs ⟨dir, []⟩ ?_ rfl
  intro s x hx hs
  rw [executions_visit b s x c.cellId (fun hid => h ⟨x, hx, hid⟩)]
  exact hs

/-- **A cell is measured exactly when the sweep comes to it and its file did not parse.** -/
theorem remeasured_iff (b : Bench C) (dir : Dir C) (specs rest : List CellSpec) (c : CellSpec) :
    Remeasured b.codec (specs ++ rest) (Runs.run (visit b) ⟨dir, []⟩ specs) c ↔
      Among specs c ∧ ¬ ValidOnDisk b.codec dir c := by
  constructor
  · rintro ⟨failed, out, hex, -⟩
    have hne : executions c.cellId (Runs.run (visit b) ⟨dir, []⟩ specs).log ≠ [] := by
      rw [hex]
      exact List.append_ne_nil_of_right_ne_nil failed (List.cons_ne_nil out [])
    constructor
    · by_contra hnot
      exact hne (executions_unvisited b dir hnot)
    · rintro ⟨r, hr⟩
      obtain ⟨old, hold, hp⟩ := Option.bind_eq_some_iff.1 hr
      exact hne (kept_run b hold hp specs).1
  · rintro ⟨hamong, hnot⟩
    obtain ⟨hvis, hpos⟩ := visits_of_among b dir hamong
    have hl : JsonCellSink.load b.codec dir c.cellId = none :=
      Option.eq_none_iff_forall_ne_some.2 (fun r hr => hnot ⟨r, hr⟩)
    have hcount : specs.countP (fun x => decide (x.cellId = c.cellId)) ≤
        (specs ++ rest).countP (fun x => decide (x.cellId = c.cellId)) := by
      rw [List.countP_append]
      exact Nat.le_add_right _ _
    rcases standing_run b hl specs with ⟨hall, hlen, -⟩ | ⟨failed, r, hex, hall, hlen, -, hget⟩
    · -- no execution returned: the last one raised as well
      rw [hvis] at hlen
      have hne : executions c.cellId (Runs.run (visit b) ⟨dir, []⟩ specs).log ≠ [] :=
        List.ne_nil_of_length_pos (hlen.symm ▸ hpos)
      refine ⟨_, _, (List.dropLast_append_getLast hne).symm, ?_, ?_, ?_⟩
      · intro o ho
        exact hall o (List.dropLast_subset _ ho)
      · rw [List.length_dropLast]
        omega
      · intro r hr
        have := hall _ (List.getLast_mem hne)
        rw [hr] at this
        cases this
    · refine ⟨failed, .ok r, hex, hall, lt_of_lt_of_le (hvis ▸ hlen) hcount, ?_⟩
      intro r' hr'
      cases hr'
      exact hget

/-! ## A sweep asked to stop -/

/-- The replay of the cell's trace, as the `n`-th of the sweep, returns a measurement that reconciles. -/
def Reconciles (b : Bench C) (n : Nat) (c : CellSpec) : Prop :=
  ∃ t m, buildTrace b.source c = some t ∧ b.replay n t = .ok m ∧ (cellResult c m).reconcilePasses = true

def Settled (codec : CellCodec C) (s : Sweep C) (c : CellSpec) : Prop :=
  ∃ r, JsonCellSink.load codec s.dir c.cellId = some r ∧ r.reconcilePasses = true

theorem stopsAt_eq_false (outcome : Except String CellResult) :
    stopsAt true outcome = false ↔ ∃ r, outcome = .ok r ∧ r.reconcilePasses = true := by
  cases outcome with
  | error e => simp [stopsAt]
  | ok r => simp [stopsAt]

theorem halts_executed (b : Bench C) (s : Sweep C) (c : CellSpec)
    (hl : JsonCellSink.load b.codec s.dir c.cellId = none) :
    halts b true s c = false ↔ Reconciles b s.log.length c := by
  rw [halts, runCell_executed b _ _ _ hl, stopsAt_eq_false]
  show (∃ r, (execute b s.log.length s.dir c).1 = .ok r ∧ r.reconcilePasses = true) ↔ _
  unfold execute Reconciles
  cases buildTrace b.source c with
  | none => simp
  | some t =>
    cases hr : b.replay s.log.length t with
    | error e => simp [hr]
    | ok m => simp [hr]

theorem halts_settled (b : Bench C) (s : Sweep C) (c : CellSpec) (h : Settled b.codec s c) :
    halts b true s c = false := by
  obtain ⟨r, hl, hr⟩ := h
  rw [halts, runCell_loaded b _ _ _ r hl, stopsAt_eq_false]
  exact ⟨r, rfl, hr⟩

theorem settled_visit (b : Bench C) (s : Sweep C) (c : CellSpec) (h : halts b true s c = false) :
    Settled b.codec (visit b s c) c := by
  rw [halts, stopsAt_eq_false] at h
  obtain ⟨r, ho, hr⟩ := h
  refine ⟨r, ?_, hr⟩
  cases hl : JsonCellSink.load b.codec s.dir c.cellId with
  | some r' =>
    rw [runCell_loaded b s.log.length s.dir c r' hl] at ho
    cases ho
    rw [(visit_loaded b s c hl c.cellId).1]
    exact hl
  | none =>
    rw [runCell_executed b s.log.length s.dir c hl] at ho
    replace ho : (execute b s.log.length s.dir c).1 = .ok r := ho
    rw [(visit_executed b s c hl).1]
    rcases execute_cases b s.log.length s.dir c with ⟨e, he⟩ | ⟨r', hid, he⟩
    · rw [he] at ho
      cases ho
    · rw [he] at ho
      cases ho
      rw [he, JsonCellSink.load, ← hid, get?_write, Option.bind_some, b.codec.roundTrip]

theorem settled_frame (b : Bench C) (s : Sweep C) (x c : CellSpec) (h : Settled b.codec s c) :
    Settled b.codec (visit b s x) c := by
  obtain ⟨r, hl, hr⟩ := h
  refine ⟨r, ?_, hr⟩
  by_cases hid : x.cellId = c.cellId
  · have hlx : JsonCellSink.load b.codec s.dir x.cellId = some r := by
      rw [hid]
      exact hl
    rw [(visit_loaded b s x hlx x.cellId).1]
    exact hl
  · rw [JsonCellSink.load, visit_frame b s x (fun he => hid (cellPath_injective he).symm) (cellPath_ne_tmpPath _ _)]
    exact hl

/-- **Every cell a sweep has gone on from is settled.** -/
theorem settled_run (b : Bench C) : ∀ (specs : List CellSpec) (s : Sweep C),
    Runs.GoesOn (visit b) (halts b true) specs s → ∀ c ∈ specs, Settled b.codec (Runs.run (visit b) s specs) c
  | [], _, _, _, hc => by cases hc
  | x :: specs, s, hgo, c, hc => by
    obtain ⟨hfirst, hrest⟩ := Runs.goesOn_cons.1 hgo
    rw [Runs.run_cons]
    rcases List.mem_cons.1 hc with rfl | hc
    · exact Runs.run_invariant (fun s : Sweep C => Settled b.codec s c) specs _
        (fun s y _ h => settled_frame b s y c h) (settled_visit b s c hfirst)
    · exact settled_run b specs (visit b s x) hrest c hc

theorem load_unvisited (b : Bench C) (dir : Dir C) {specs : List CellSpec} {c : CellSpec} (h : ¬ Among specs c) :
    JsonCellSink.load b.codec (Runs.run (visit b) ⟨dir, []⟩ specs).dir c.cellId =
      JsonCellSink.load b.codec dir c.cellId := by
  refine Runs.run_invariant (fun s : Sweep C => JsonCellSink.load b.codec s.dir c.cellId =
    JsonCellSink.load b.codec dir c.cellId) specs ⟨dir, []⟩ ?_ rfl
  intro s x hx hs
  rw [← hs, JsonCellSink.load, JsonCellSink.load,
    visit_frame b s x (fun he => h ⟨x, hx, (cellPath_injective he).symm⟩) (cellPath_ne_tmpPath _ _)]

theorem log_length (b : Bench C) : ∀ (specs : List CellSpec) (s : Sweep C),
    (Runs.run (visit b) s specs).log.length = s.log.length + specs.length
  | [], _ => rfl
  | x :: specs, s => by
    rw [Runs.run_cons, log_length b specs (visit b s x), visit, List.length_append, List.length_cons, List.length_cons,
      List.length_nil]
    omega

/-- The `p.length`-th cell is not among the ones before it, `p`, and a cell after it is new too. -/
def Pivotal (p : List CellSpec) (c : CellSpec) (q : List CellSpec) : Prop :=
  ¬ Among p c ∧ ∃ d ∈ q, ¬ Among (p ++ [c]) d

/-- If the sweep is asked to stop, every measurement with a new cell to come reconciles. -/
def KeepsGoing (b : Bench C) (stopOnUnreconciled : Bool) (cs : List CellSpec) : Prop :=
  stopOnUnreconciled = true → ∀ p c q, cs = p ++ c :: q → Pivotal p c q → Reconciles b p.length c

/-- A new cell is executed, so the sweep goes on from it exactly when its measurement reconciles. -/
theorem halts_new (b : Bench C) (dir : Dir C) {p : List CellSpec} {c : CellSpec} (hnew : ¬ Among p c)
    (hl : JsonCellSink.load b.codec dir c.cellId = none) :
    halts b true (Runs.run (visit b) ⟨dir, []⟩ p) c = false ↔ Reconciles b p.length c := by
  rw [halts_executed b _ c ((load_unvisited b dir hnew).trans hl), log_length]
  exact iff_of_eq (congrArg (fun n => Reconciles b n c) (Nat.zero_add _))

/-- Of two places in a list, the second is after the first unless the cells up to it are among those up to the first. -/
theorem before_of_split {p q p' q' : List CellSpec} {c c' : CellSpec} (h : p ++ c :: q = p' ++ c' :: q')
    (hnot : ¬ ∀ x ∈ p ++ [c], x ∈ p' ++ [c']) : ∃ rest, p = p' ++ c' :: rest := by
  rcases List.append_eq_append_iff.1 h with ⟨a, rfl, ha⟩ | ⟨a, rfl, ha⟩
  · refine absurd (fun x hx => ?_) hnot
    cases a with
    | nil =>
      cases ha
      simpa using hx
    | cons y a =>
      cases ha
      rcases List.mem_append.1 hx with hx | hx
      · simp [hx]
      · simp [List.mem_singleton.1 hx]
  · cases a with
    | nil =>
      cases ha
      exact absurd (fun x hx => by simpa using hx) hnot
    | cons y a =>
      cases ha
      exact ⟨a, rfl⟩

/-- **The cells a sweep comes to**: if no result is on disk, all of them exactly when it keeps going. -/
theorem visitsAll_iff (b : Bench C) (dir : Dir C) (stopOnUnreconciled : Bool) (cs : List CellSpec) :
    ∃ specs rest, cs = specs ++ rest ∧ run b stopOnUnreconciled cs ⟨dir, []⟩ = Runs.run (visit b) ⟨dir, []⟩ specs ∧
      ((∀ c ∈ cs, JsonCellSink.load b.codec dir c.cellId = none) →
        ((∀ c ∈ cs, Among specs c) ↔ KeepsGoing b stopOnUnreconciled cs)) := by
  rw [run_eq_runUntil]
  rcases Runs.runUntil_cases (visit b) (halts b stopOnUnreconciled) cs ⟨dir, []⟩ with
    ⟨hgo, hrun⟩ | ⟨p, c, q, rfl, hgo, hlast, hrun⟩
  · refine ⟨cs, [], (List.append_nil cs).symm, hrun, fun hno => ⟨fun _ hstop p c q hcs hpiv => ?_, fun _ c hc => ?_⟩⟩
    · subst hstop
      exact (halts_new b dir hpiv.1 (hno c (by rw [hcs]; simp))).1 (hgo p c q hcs)
    · exact among_self hc
  · refine ⟨p ++ [c], q, by simp, hrun, fun hno => ⟨?_, ?_⟩⟩
    · rintro hall rfl p' c' q' hcs ⟨hnew, d, hd, hdnew⟩
      -- the sweep comes to `d`, which is new after `c'`, so it went on from `c'`
      obtain ⟨x, hx, hid⟩ := hall d (by rw [hcs]; simp [hd])
      obtain ⟨rest, rfl⟩ := before_of_split hcs (fun hsub => hdnew ⟨x, hsub x hx, hid⟩)
      exact (halts_new b dir hnew (hno c' (by simp))).1 (hgo p' c' rest rfl)
    · intro hkeep d hd
      by_contra hdnew
      have hdq : d ∈ q := by
        rcases List.mem_append.1 hd with hd | hd
        · exact absurd (among_self (List.mem_append_left [c] hd)) hdnew
        · rcases List.mem_cons.1 hd with rfl | hd
          · exact absurd (among_self (by simp)) hdnew
          · exact hd
      cases stopOnUnreconciled with
      | false =>
        rw [halts_false] at hlast
        cases hlast
      | true =>
        have hgoes : halts b true (Runs.run (visit b) ⟨dir, []⟩ p) c = false := by
          by_cases hnew : Among p c
          · obtain ⟨x, hx, hid⟩ := hnew
            obtain ⟨r, hl, hr⟩ := settled_run b p ⟨dir, []⟩ hgo x hx
            exact halts_settled b _ c ⟨r, hid ▸ hl, hr⟩
          · exact (halts_new b dir hnew (hno c (by simp))).2 (hkeep rfl p c q rfl ⟨hnew, d, hdq, hdnew⟩)
        rw [hgoes] at hlast
        cases hlast

/-! ## `runAll` -/

/-- **`run_all` measures every cell again exactly when no cell's file parses and the sweep keeps going.** -/
theorem runAll_remeasures_iff (b : Bench C) (dir : Dir C) (m : MatrixSpec) (cs : List CellSpec)
    (stopOnUnreconciled : Bool) (hm : m.cells = some cs) :
    ∃ s, runAll b dir m stopOnUnreconciled = some s ∧
      ((∀ c ∈ cs, Remeasured b.codec cs s c) ↔
        (∀ c ∈ cs, ¬ ValidOnDisk b.codec dir c) ∧ KeepsGoing b stopOnUnreconciled cs) := by
  obtain ⟨specs, rest, hcs, hrun, hall⟩ := visitsAll_iff b dir stopOnUnreconciled cs
  have hload : ∀ c, ¬ ValidOnDisk b.codec dir c → JsonCellSink.load b.codec dir c.cellId = none := fun c hnot =>
    Option.eq_none_iff_forall_ne_some.2 (fun r hr => hnot ⟨r, hr⟩)
  have hmeasured : ∀ c, Remeasured b.codec cs (Runs.run (visit b) ⟨dir, []⟩ specs) c ↔
      Among specs c ∧ ¬ ValidOnDisk b.codec dir c := by
    rw [hcs]
    exact remeasured_iff b dir specs rest
  refine ⟨Runs.run (visit b) ⟨dir, []⟩ specs, ?_, ?_⟩
  · rw [runAll, hm, Option.map_some, hrun]
  · constructor
    · intro h
      have hno : ∀ c ∈ cs, ¬ ValidOnDisk b.codec dir c := fun c hc => ((hmeasured c).1 (h c hc)).2
      exact ⟨hno, (hall (fun c hc => hload c (hno c hc))).1 (fun c hc => ((hmeasured c).1 (h c hc)).1)⟩
    · rintro ⟨hno, hkeep⟩ c hc
      exact (hmeasured c).2 ⟨(hall (fun c hc => hload c (hno c hc))).2 hkeep c hc, hno c hc⟩

/-- A codec whose contents are the results themselves, `none` a content that does not parse. -/
def plainCodec : CellCodec (Option CellResult) := ⟨id, some, fun _ => rfl⟩

def steadyMeasurement : Measurement where
  telemetries := [⟨"r".toList, 4, 0, some 20, [20000000, 30000000], some 30000000, 200, none, none, by decide,
    by decide, by decide⟩]
  thermal := ⟨50, 90, 1000, 80, by decide, by decide⟩
  startedAt := 0
  durationS := 1
  durationGe := zero_le_one

def steadyBench : Bench (Option CellResult) := ⟨fun _ _ _ => 0, fun _ _ => .ok steadyMeasurement, plainCodec⟩

def oneCellMatrix : MatrixSpec := ⟨[.colocated], [.qwen3_1_7b], [1], [.chat], 0, 1⟩

def chatCell : CellSpec where
  topology := .colocated
  model := .qwen3_1_7b
  rateRps := 1
  mix := .chat
  nWarmup := 0
  nMeasure := 1
  seed := deriveSeed .colocated .qwen3_1_7b 1 .chat
  rateBounds := by decide
  measureGe := by decide

def chunkedCell : CellSpec where
  topology := .chunked
  model := .qwen3_1_7b
  rateRps := 1
  mix := .chat
  nWarmup := 0
  nMeasure := 1
  seed := deriveSeed .chunked .qwen3_1_7b 1 .chat
  rateBounds := by decide
  measureGe := by decide

theorem oneCellMatrix_cells : oneCellMatrix.cells = some [chatCell] := by decide

/-- Two topologies at the chat point, one request each. -/
def pairMatrix : MatrixSpec := ⟨[.colocated, .chunked], [.qwen3_1_7b], [1], [.chat], 0, 1⟩

theorem pairMatrix_cells : pairMatrix.cells = some [chatCell, chunkedCell] := by decide

/-- The result of a replay in which every request failed. -/
def unreconciled : CellResult := CellRunner.cellResult chatCell { steadyMeasurement with telemetries := [] }

def unreconciledDir : Dir (Option CellResult) := OrdDict.ofList [(cellPath chatCell.cellId, some unreconciled)]

def corruptDir : Dir (Option CellResult) := OrdDict.ofList [(cellPath chatCell.cellId, none)]

theorem runAll_remeasures_corrupt :
    ∃ s, runAll steadyBench corruptDir oneCellMatrix true = some s ∧
      ((∀ c ∈ [chatCell], Remeasured steadyBench.codec [chatCell] s c) ↔
        (∀ c ∈ [chatCell], ¬ ValidOnDisk steadyBench.codec corruptDir c) ∧ KeepsGoing steadyBench true [chatCell]) :=
  runAll_remeasures_iff steadyBench corruptDir oneCellMatrix [chatCell] true oneCellMatrix_cells

/-- **An unreconciled result survives `run_all`**: the cell is not executed and the file is not replaced. -/
theorem unreconciled_result_kept :
    unreconciled.reconcilePasses = false ∧
      ∃ s, runAll steadyBench unreconciledDir oneCellMatrix false = some s ∧ executions chatCell.cellId s.log = [] ∧
        s.dir.get? (cellPath chatCell.cellId) = some (some unreconciled) ∧
        ¬ ∀ c ∈ [chatCell], Remeasured steadyBench.codec [chatCell] s c := by
  have hget : unreconciledDir.get? (cellPath chatCell.cellId) = some (some unreconciled) := OrdDict.get?_set_self _ _ _
  have hkept := kept_run steadyBench (r := unreconciled) hget rfl [chatCell]
  refine ⟨by decide +kernel, Runs.run (visit steadyBench) ⟨unreconciledDir, []⟩ [chatCell], ?_, hkept.1, hkept.2, ?_⟩
  · rw [runAll, oneCellMatrix_cells, Option.map_some, run_eq]
  · intro h
    have hmeasured := h chatCell List.mem_cons_self
    rw [show [chatCell] = [chatCell] ++ [] from rfl] at hmeasured
    refine ((remeasured_iff steadyBench unreconciledDir [chatCell] [] chatCell).1 hmeasured).2 ⟨unreconciled, ?_⟩
    rw [JsonCellSink.load, hget]
    rfl

end BenchMatrix
end GoodputLab
