import GoodputLab.CellReuse
import GoodputLab.MatrixPending
/-!
# MatrixCrash — a sweep that dies and is resumed (`bench/cell_runner.py`, `bench/runpod_matrix.py`)

A process may end anywhere: between two cells, in the middle of a measurement, or while a result is written to its
temporary name, which leaves any content there.  The next process looks at the directory again and visits what is
pending.

After any history of such sessions a cell's file is the one it had, or the result of the one execution that came to its
end (`recorded_once`).  A sweep that is resumed at last leaves the results of a sweep that was never interrupted, as far
as a trace is measured to the same whenever it is replayed (`resumed_like_uninterrupted`).
-/
namespace GoodputLab
namespace BenchMatrix

open CellRunner (CellRun runCell execute cellResult)

variable {C : Type}

/-- One process: its world, how many of the pending cells it gets through, and what it leaves under the temporary name
when it dies writing the result of the next. -/
structure Session (C : Type) where
  replay : Nat → Trace → Except String Measurement
  visits : Nat
  torn   : Option C

/-- The directory when the process ends at the next cell. -/
def tear (b : Bench C) (s : Sweep C) : List CellSpec → Option C → Dir C
  | spec :: _, some content =>
    match (runCell b s.log.length s.dir spec).1 with
    | .executed (.ok r) => s.dir.set (tmpPath r.cellId) content
    | _                 => s.dir
  | _, _                    => s.dir

/-- A process resumes the sweep where the directory stands. -/
def session (b : Bench C) (cs : List CellSpec) (s : Sweep C) (x : Session C) : Sweep C :=
  let pending := cs.filter (fun c => !(existing b.codec s.dir).contains c.cellId)
  let b := { b with replay := x.replay }
  let swept := Runs.run (visit b) ⟨s.dir, []⟩ (pending.take x.visits)
  ⟨tear b swept (pending.drop x.visits) x.torn, s.log ++ swept.log⟩

def sessions (b : Bench C) (cs : List CellSpec) (dir : Dir C) (history : List (Session C)) : Sweep C :=
  Runs.run (session b cs) ⟨dir, []⟩ history

/-- Nothing is torn under the name of a result. -/
theorem get?_tear (b : Bench C) (s : Sweep C) (rest : List CellSpec) (torn : Option C) (id : Text) :
    (tear b s rest torn).get? (cellPath id) = s.dir.get? (cellPath id) := by
  unfold tear
  split
  · split
    · exact OrdDict.get?_set_of_ne _ _ (cellPath_ne_tmpPath _ _)
    · rfl
  · rfl

/-- A sweep that may stop early visits some of the first cells. -/
theorem run_take (b : Bench C) (stopOnUnreconciled : Bool) (specs : List CellSpec) (s : Sweep C) :
    ∃ k, run b stopOnUnreconciled specs s = Runs.run (visit b) s (specs.take k) := by
  rw [run_eq_runUntil]
  rcases Runs.runUntil_cases (visit b) (halts b stopOnUnreconciled) specs s with ⟨-, hrun⟩ | ⟨p, c, q, rfl, -, -, hrun⟩
  · exact ⟨specs.length, by rw [List.take_length, hrun]⟩
  · refine ⟨(p ++ [c]).length, ?_⟩
    rw [hrun, show p ++ c :: q = (p ++ [c]) ++ q by simp, List.take_left]

/-- **`run_pending` is a session**, whether or not it stops early. -/
theorem runPending_eq_session (b : Bench C) (dir : Dir C) (m : MatrixSpec) (stopOnUnreconciled : Bool)
    {cs : List CellSpec} (hm : m.cells = some cs) :
    ∃ k, runPending b dir m stopOnUnreconciled = some (session b cs ⟨dir, []⟩ ⟨b.replay, k, none⟩) := by
  obtain ⟨k, hk⟩ := run_take b stopOnUnreconciled (cs.filter (fun c => !(existing b.codec dir).contains c.cellId))
    ⟨dir, []⟩
  refine ⟨k, ?_⟩
  rw [runPending, pendingCellSpecs, hm, Option.map_some, Option.map_some, hk]
  simp only [session, tear, List.nil_append]
  cases (cs.filter (fun c => !(existing b.codec dir).contains c.cellId)).drop k <;> rfl

/-! ## Recorded once -/

/-- The results of the executions of a cell that came to their end. -/
def results (id : Text) (log : List (CellSpec × CellRun)) : List CellResult :=
  (executions id log).filterMap (fun o => o.toOption)

theorem results_append (id : Text) (l m : List (CellSpec × CellRun)) :
    results id (l ++ m) = results id l ++ results id m := by
  rw [results, executions_append, List.filterMap_append]
  rfl

/-- A file that parsed is as it was and its cell is not executed.  Another is as it was until an execution of its cell
comes to its end, and from then on it is the result of that one. -/
def Recorded (codec : CellCodec C) (old : Option C) (id : Text) (s : Sweep C) : Prop :=
  if (old.bind codec.parse).isSome then executions id s.log = [] ∧ s.dir.get? (cellPath id) = old
  else (results id s.log = [] ∧ s.dir.get? (cellPath id) = old) ∨
    ∃ r, results id s.log = [r] ∧ r.cellId = id ∧ s.dir.get? (cellPath id) = some (codec.dump r)

/-- What a visit of a cell does to the file and the executions of a cell. -/
theorem visit_cases (b : Bench C) (s : Sweep C) (spec : CellSpec) (id : Text) :
    ((visit b s spec).dir.get? (cellPath id) = s.dir.get? (cellPath id) ∧
        executions id (visit b s spec).log = executions id s.log) ∨
      (JsonCellSink.load b.codec s.dir id = none ∧ ∃ o, executions id (visit b s spec).log = executions id s.log ++ [o] ∧
        ((∃ e, o = .error e ∧ (visit b s spec).dir.get? (cellPath id) = s.dir.get? (cellPath id)) ∨
          ∃ r, o = .ok r ∧ r.cellId = id ∧
            (visit b s spec).dir.get? (cellPath id) = some (b.codec.dump r))) := by
  by_cases hid : spec.cellId = id
  · subst hid
    cases hl : JsonCellSink.load b.codec s.dir spec.cellId with
    | some r =>
      obtain ⟨hdir, hexec⟩ := visit_loaded b s spec hl spec.cellId
      exact Or.inl ⟨by rw [hdir], hexec⟩
    | none =>
      obtain ⟨hdir, hexec⟩ := visit_executed b s spec hl
      refine Or.inr ⟨rfl, _, hexec, ?_⟩
      rw [hdir]
      rcases execute_cases b s.log.length s.dir spec with ⟨e, he⟩ | ⟨r, hr, he⟩
      · exact Or.inl ⟨e, by rw [he], by rw [he]⟩
      · refine Or.inr ⟨r, by rw [he], hr, ?_⟩
        rw [he, ← hr]
        exact get?_write b.codec s.dir r
  · refine Or.inl ⟨?_, executions_visit b s spec id hid⟩
    exact visit_frame b s spec (fun he => hid (cellPath_injective he).symm) (cellPath_ne_tmpPath _ _)

/-- **A visit records once**, whatever was done before the process began. -/
theorem recorded_visit (b : Bench C) {old : Option C} {id : Text} (past : List (CellSpec × CellRun)) (s : Sweep C)
    (spec : CellSpec) (h : Recorded b.codec old id ⟨s.dir, past ++ s.log⟩) :
    Recorded b.codec old id ⟨(visit b s spec).dir, past ++ (visit b s spec).log⟩ := by
  unfold Recorded at h ⊢
  simp only [executions_append, results_append] at h ⊢
  rcases visit_cases b s spec id with ⟨hget, hexec⟩ | ⟨hload, o, hexec, hcases⟩
  · -- the file and the executions of the cell are as they were
    simp only [hget, hexec, results] at h ⊢
    exact h
  · -- the cell was executed, so its file did not parse
    have hnone : (s.dir.get? (cellPath id)).bind b.codec.parse = none := hload
    split at h
    · rename_i hparsed
      rw [h.2] at hnone
      rw [hnone] at hparsed
      cases hparsed
    · rename_i hunparsed
      have hold : (results id past ++ results id s.log = [] ∧ s.dir.get? (cellPath id) = old) := by
        rcases h with h | ⟨r, -, -, hget⟩
        · exact h
        · rw [hget, Option.bind_some, b.codec.roundTrip] at hnone
          cases hnone
      obtain ⟨hresults, hget⟩ := hold
      rw [if_neg hunparsed]
      have hmore : results id past ++ results id (visit b s spec).log = o.toOption.toList := by
        rw [results, results, hexec, List.filterMap_append, ← List.append_assoc]
        rw [results, results] at hresults
        rw [hresults]
        cases o <;> rfl
      rcases hcases with ⟨e, rfl, hsame⟩ | ⟨r, rfl, hid, hnew⟩
      · exact Or.inl ⟨hmore, hsame.trans hget⟩
      · exact Or.inr ⟨r, hmore, hid, hnew⟩

theorem recorded_session (b : Bench C) (cs : List CellSpec) {old : Option C} {id : Text} (s : Sweep C)
    (x : Session C) (h : Recorded b.codec old id s) : Recorded b.codec old id (session b cs s x) := by
  have hswept := Runs.run_invariant (fun t : Sweep C => Recorded b.codec old id ⟨t.dir, s.log ++ t.log⟩)
    ((cs.filter (fun c => !(existing b.codec s.dir).contains c.cellId)).take x.visits) ⟨s.dir, []⟩
    (fun t spec _ ht => recorded_visit { b with replay := x.replay } s.log t spec ht) (by
      rw [List.append_nil]
      exact h)
  unfold Recorded at hswept ⊢
  simp only [session, get?_tear] at hswept ⊢
  exact hswept

theorem recorded_sessions (b : Bench C) (cs : List CellSpec) (dir : Dir C) (history : List (Session C)) (id : Text) :
    Recorded b.codec (dir.get? (cellPath id)) id (sessions b cs dir history) := by
  refine Runs.run_invariant (Recorded b.codec (dir.get? (cellPath id)) id) history _
    (fun s x _ h => recorded_session b cs s x h) ?_
  unfold Recorded
  split
  · exact ⟨rfl, rfl⟩
  · exact Or.inl ⟨rfl, rfl⟩

/-- **A cell is recorded once, and never in part**, after any history of sessions: a file that parsed is untouched and its
cell is not executed again; any other is what it was, or the whole result of the one execution that came to its end. -/
theorem recorded_once (b : Bench C) (cs : List CellSpec) (dir : Dir C) (history : List (Session C)) (id : Text) :
    Recorded b.codec (dir.get? (cellPath id)) id (sessions b cs dir history) :=
  recorded_sessions b cs dir history id

/-! ## Like a sweep that was never interrupted -/

section Views

variable {τ : Type} (view : CellResult → τ) (b : Bench C)

/-- What a cell is measured to, as far as the view goes; `none` when it raises. -/
def outcome (c : CellSpec) : Option τ :=
  (buildTrace b.source c).bind (fun t => (b.replay 0 t).toOption.map (fun m => view (cellResult c m)))

/-- A replay measures every trace to what the bench's first does, as far as the view goes, whenever it is replayed. -/
def Repeats (replay : Nat → Trace → Except String Measurement) : Prop :=
  ∀ c n t, (replay n t).toOption.map (fun m => view (cellResult c m)) =
    (b.replay 0 t).toOption.map (fun m => view (cellResult c m))

/-- The file is the result of a measurement of the cell. -/
def Measured (c : CellSpec) (file : Option C) : Prop :=
  ∃ r, outcome view b c = some (view r) ∧ r.cellId = c.cellId ∧ file = some (b.codec.dump r)

/-- Where a cell's file may be on the way: as it was, or measured when it did not parse. -/
def Reached (c : CellSpec) (old file : Option C) : Prop :=
  file = old ∨ old.bind b.codec.parse = none ∧ Measured view b c file

/-- Where a cell's file is once the cell has been visited. -/
def Ended (c : CellSpec) (old file : Option C) : Prop :=
  (((old.bind b.codec.parse).isSome ∨ outcome view b c = none) ∧ file = old) ∨
    old.bind b.codec.parse = none ∧ Measured view b c file

/-- The two files are the same, or results of one cell that the view does not tell apart. -/
def SameFile (file file' : Option C) : Prop :=
  file = file' ∨ ∃ r r', view r = view r' ∧ r.cellId = r'.cellId ∧
    file = some (b.codec.dump r) ∧ file' = some (b.codec.dump r')

/-- The cells of `specs` with the identifier of `c` are `c`. -/
def OnlyOne (specs : List CellSpec) (c : CellSpec) : Prop := ∀ x ∈ specs, x.cellId = c.cellId → x = c

variable {view b}

theorem Ended.reached {c : CellSpec} {old file : Option C} (h : Ended view b c old file) : Reached view b c old file :=
  h.imp And.right id

theorem Ended.sameFile {c : CellSpec} {old file file' : Option C} (h : Ended view b c old file)
    (h' : Ended view b c old file') : SameFile view b file file' := by
  rcases h with ⟨hkept, rfl⟩ | ⟨hold, r, hr, hid, hfile⟩
  · rcases h' with ⟨-, rfl⟩ | ⟨hold, r', hr', -, -⟩
    · exact Or.inl rfl
    · rcases hkept with hsome | hnone
      · rw [hold] at hsome
        cases hsome
      · rw [hnone] at hr'
        cases hr'
  · rcases h' with ⟨hkept, -⟩ | ⟨-, r', hr', hid', hfile'⟩
    · rcases hkept with hsome | hnone
      · rw [hold] at hsome
        cases hsome
      · rw [hnone] at hr
        cases hr
    · rw [hr] at hr'
      exact Or.inr ⟨r, r', Option.some.inj hr', hid.trans hid'.symm, hfile, hfile'⟩

theorem execute_outcome {replay : Nat → Trace → Except String Measurement} (hb : Repeats view b replay) (n : Nat)
    (dir : Dir C) (c : CellSpec) :
    (outcome view b c = none ∧ ∃ e, execute { b with replay := replay } n dir c = (.error e, dir)) ∨
      ∃ r, outcome view b c = some (view r) ∧ r.cellId = c.cellId ∧
        execute { b with replay := replay } n dir c = (.ok r, JsonCellSink.write b.codec dir r) := by
  unfold outcome execute
  simp only
  cases buildTrace b.source c with
  | none => exact Or.inl ⟨rfl, _, rfl⟩
  | some t =>
    rw [Option.bind_some, ← hb c n t]
    simp only
    cases replay n t with
    | error e => exact Or.inl ⟨rfl, _, rfl⟩
    | ok m => exact Or.inr ⟨cellResult c m, rfl, rfl, rfl⟩

/-- **A visit of the cell ends it**, wherever its file was on the way. -/
theorem visit_ended {replay : Nat → Trace → Except String Measurement} (hb : Repeats view b replay) {old : Option C}
    (s : Sweep C) (c : CellSpec) (h : Reached view b c old (s.dir.get? (cellPath c.cellId))) :
    Ended view b c old ((visit { b with replay := replay } s c).dir.get? (cellPath c.cellId)) := by
  rcases h with h | ⟨hold, r, hr, hid, h⟩
  · cases hl : JsonCellSink.load b.codec s.dir c.cellId with
    | some r =>
      rw [(visit_loaded { b with replay := replay } s c hl c.cellId).1]
      rw [JsonCellSink.load, h] at hl
      exact Or.inl ⟨Or.inl (by rw [hl]; rfl), h⟩
    | none =>
      rw [(visit_executed { b with replay := replay } s c hl).1]
      rw [JsonCellSink.load, h] at hl
      rcases execute_outcome hb s.log.length s.dir c with ⟨hnone, e, he⟩ | ⟨r, hr, hid, he⟩
      · rw [he]
        exact Or.inl ⟨Or.inr hnone, h⟩
      · rw [he, ← hid]
        exact Or.inr ⟨hl, r, hr, hid, get?_write b.codec s.dir r⟩
  · -- measured on the way: the file parses, so the visit loads it
    have hl : JsonCellSink.load b.codec s.dir c.cellId = some r := by
      rw [JsonCellSink.load, h, Option.bind_some, b.codec.roundTrip]
    rw [(visit_loaded { b with replay := replay } s c hl c.cellId).1]
    exact Or.inr ⟨hold, r, hr, hid, h⟩

/-- The visits of a sweep keep the cell's file on its way, and end it when the cell is among the visited. -/
theorem run_ended {replay : Nat → Trace → Except String Measurement} (hb : Repeats view b replay) {old : Option C}
    {c : CellSpec} : ∀ (specs : List CellSpec) (s : Sweep C), OnlyOne specs c →
      Reached view b c old (s.dir.get? (cellPath c.cellId)) →
        Reached view b c old ((Runs.run (visit { b with replay := replay }) s specs).dir.get? (cellPath c.cellId)) ∧
          (c ∈ specs ∨ Ended view b c old (s.dir.get? (cellPath c.cellId)) →
            Ended view b c old ((Runs.run (visit { b with replay := replay }) s specs).dir.get? (cellPath c.cellId)))
  | [], s, _, h => ⟨h, fun hc => hc.elim (fun hc => by cases hc) id⟩
  | x :: specs, s, honly, h => by
    have hmore : OnlyOne specs c := fun y hy => honly y (List.mem_cons_of_mem x hy)
    rw [Runs.run_cons]
    by_cases hid : x.cellId = c.cellId
    · obtain rfl := honly x List.mem_cons_self hid
      have hended := visit_ended hb s x h
      obtain ⟨hreached, hrest⟩ := run_ended hb specs _ hmore hended.reached
      exact ⟨hreached, fun _ => hrest (Or.inr hended)⟩
    · have hget := visit_frame { b with replay := replay } s x (fun he => hid (cellPath_injective he).symm)
        (cellPath_ne_tmpPath c.cellId x.cellId)
      rw [← hget] at h
      obtain ⟨hreached, hrest⟩ := run_ended hb specs _ hmore h
      refine ⟨hreached, fun hc => hrest ?_⟩
      rw [hget]
      rcases hc with hc | hc
      · rcases List.mem_cons.1 hc with rfl | hc
        · exact absurd rfl hid
        · exact Or.inl hc
      · exact Or.inr hc

/-- A session keeps the cell's file on its way. -/
theorem session_reached {cs : List CellSpec} {c : CellSpec} (honly : OnlyOne cs c) {old : Option C} (s : Sweep C)
    (x : Session C) (hx : Repeats view b x.replay) (h : Reached view b c old (s.dir.get? (cellPath c.cellId))) :
    Reached view b c old ((session b cs s x).dir.get? (cellPath c.cellId)) := by
  simp only [session, get?_tear]
  exact (run_ended hx _ ⟨s.dir, []⟩ (fun y hy => honly y (List.mem_filter.1 (List.mem_of_mem_take hy)).1) h).1

/-- **A sweep that visits every pending cell ends every cell.** -/
theorem runPending_ended (hb : Repeats view b b.replay) {dir : Dir C} {m : MatrixSpec} {cs : List CellSpec}
    {s : Sweep C} (hm : m.cells = some cs) (hs : runPending b dir m false = some s) {c : CellSpec} (hc : c ∈ cs)
    {old : Option C} (h : Reached view b c old (dir.get? (cellPath c.cellId))) :
    Ended view b c old (s.dir.get? (cellPath c.cellId)) := by
  rw [runPending, pendingCellSpecs, hm, Option.map_some, Option.map_some, run_eq] at hs
  cases hs
  refine (run_ended hb _ ⟨dir, []⟩ (fun y hy he => eq_of_cellId hm (List.mem_filter.1 hy).1 hc he) h).2 ?_
  by_cases hpending : c ∈ cs.filter (fun c => !(existing b.codec dir).contains c.cellId)
  · exact Or.inl hpending
  · -- the cell is done: its file parses
    rw [mem_pending, not_and, not_not] at hpending
    obtain ⟨r, hl, -⟩ := hpending hc
    rcases h with h | h
    · refine Or.inr (Or.inl ⟨Or.inl ?_, h⟩)
      rw [← h, show (dir.get? (cellPath c.cellId)).bind b.codec.parse = some r from hl]
      rfl
    · exact Or.inr (Or.inr h)

theorem SameFile.done {c : CellSpec} {dir dir' : Dir C}
    (h : SameFile view b (dir.get? (cellPath c.cellId)) (dir'.get? (cellPath c.cellId))) :
    Done b.codec dir c ↔ Done b.codec dir' c := by
  unfold Done JsonCellSink.load
  rcases h with h | ⟨r, r', -, hid, h, h'⟩
  · rw [h]
  · simp [h, h', b.codec.roundTrip, hid]

end Views

/-- **A sweep resumed after any history of sessions that died ends like one that was never interrupted**: every cell of
the matrix has the same result, as far as replays repeat what they measure, and the same cells are left. -/
theorem resumed_like_uninterrupted {τ : Type} (view : CellResult → τ) (b : Bench C) (hb : Repeats view b b.replay)
    (dir : Dir C) (m : MatrixSpec) (cs : List CellSpec) (hm : m.cells = some cs) (history : List (Session C))
    (hhistory : ∀ x ∈ history, Repeats view b x.replay) (s s' : Sweep C) (hs : runPending b dir m false = some s)
    (hs' : runPending b (sessions b cs dir history).dir m false = some s') :
    (∀ c ∈ cs, SameFile view b (s'.dir.get? (cellPath c.cellId)) (s.dir.get? (cellPath c.cellId))) ∧
      pendingCellSpecs b.codec s'.dir m = pendingCellSpecs b.codec s.dir m := by
  have hfiles : ∀ c ∈ cs, SameFile view b (s'.dir.get? (cellPath c.cellId)) (s.dir.get? (cellPath c.cellId)) := by
    intro c hc
    have hreached := Runs.run_invariant
      (fun t : Sweep C => Reached view b c (dir.get? (cellPath c.cellId)) (t.dir.get? (cellPath c.cellId))) history
      ⟨dir, []⟩
      (fun t x hx => session_reached (fun y hy h => eq_of_cellId hm hy hc h) t x (hhistory x hx)) (Or.inl rfl)
    exact (runPending_ended hb hm hs' hc hreached).sameFile (runPending_ended hb hm hs hc (Or.inl rfl))
  refine ⟨hfiles, ?_⟩
  rw [pendingCellSpecs, pendingCellSpecs, hm, Option.map_some, Option.map_some]
  refine congrArg some (List.filter_congr (fun c hc => ?_))
  have hdone : c.cellId ∈ existing b.codec s'.dir ↔ c.cellId ∈ existing b.codec s.dir := by
    rw [mem_existing, mem_existing]
    exact (hfiles c hc).done
  simp [hdone]

theorem steadyBench_repeats : Repeats (fun r => r) steadyBench steadyBench.replay := fun _ _ _ => rfl

/-- The first process records a cell and dies writing the next one's result, the second visits nothing. -/
def tornAfterOne : List (Session (Option CellResult)) :=
  [⟨steadyBench.replay, 1, some none⟩, ⟨steadyBench.replay, 0, none⟩]

theorem torn_write_resumed :
    (results chatCell.cellId (sessions steadyBench [chatCell, chunkedCell] .empty tornAfterOne).log).length = 1 ∧
    ∃ s s', runPending steadyBench .empty pairMatrix false = some s ∧
      runPending steadyBench (sessions steadyBench [chatCell, chunkedCell] .empty tornAfterOne).dir pairMatrix false =
        some s' ∧
      (∀ c ∈ [chatCell, chunkedCell], SameFile (fun r => r) steadyBench (s'.dir.get? (cellPath c.cellId))
        (s.dir.get? (cellPath c.cellId))) ∧
      pendingCellSpecs steadyBench.codec s'.dir pairMatrix = pendingCellSpecs steadyBench.codec s.dir pairMatrix :=
  ⟨by decide +kernel, _, _, rfl, rfl, resumed_like_uninterrupted (fun r => r) steadyBench steadyBench_repeats .empty
    pairMatrix [chatCell, chunkedCell] pairMatrix_cells tornAfterOne
    (fun x hx => by
      rcases List.mem_cons.1 hx with rfl | hx
      · exact steadyBench_repeats
      · rw [List.mem_singleton.1 hx]
        exact steadyBench_repeats) _ _ rfl rfl⟩

end BenchMatrix
end GoodputLab
