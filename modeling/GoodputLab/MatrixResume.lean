import GoodputLab.Base.Runs
import GoodputLab.Matrix
/-!
# MatrixResume — what a sweep leaves of the results it finds

A visit loads the cell whose file parses and executes any other (`runCell_loaded`, `runCell_executed`), and touches no
file but the cell's own (`visit_frame`).  So a cell whose file parses is never executed (`kept_run`), and any other is
executed until one execution returns, whose result is then its file (`standing_run`).
-/
namespace GoodputLab
namespace BenchMatrix

open CellRunner (CellRun runCell execute cellResult)

variable {C : Type}

/-! ## The files of a cell -/

theorem cellPath_injective {a b : Text} (h : cellPath a = cellPath b) : a = b := List.append_cancel_right h

theorem cellPath_ne_tmpPath (a b : Text) : cellPath a ≠ tmpPath b := by
  intro h
  have hlast := congrArg List.getLast? h
  rw [cellPath, tmpPath, List.getLast?_append, List.getLast?_append] at hlast
  cases hlast

theorem get?_write (codec : CellCodec C) (dir : Dir C) (r : CellResult) :
    (JsonCellSink.write codec dir r).get? (cellPath r.cellId) = some (codec.dump r) :=
  OrdDict.get?_set_self _ _ _

theorem get?_write_of_ne (codec : CellCodec C) (dir : Dir C) (r : CellResult) {p : Text}
    (hc : p ≠ cellPath r.cellId) (ht : p ≠ tmpPath r.cellId) :
    (JsonCellSink.write codec dir r).get? p = dir.get? p := by
  rw [JsonCellSink.write, OrdDict.get?_set_of_ne _ _ hc, OrdDict.get?_erase, if_neg ht, OrdDict.get?_set_of_ne _ _ ht]

/-! ## One visit -/

/-- The cell's file parses, whatever cell the result is of. -/
def ValidOnDisk (codec : CellCodec C) (dir : Dir C) (c : CellSpec) : Prop :=
  ∃ r, JsonCellSink.load codec dir c.cellId = some r

theorem runCell_loaded (b : Bench C) (n : Nat) (dir : Dir C) (spec : CellSpec) (r : CellResult)
    (h : JsonCellSink.load b.codec dir spec.cellId = some r) : runCell b n dir spec = (.loaded r, dir) := by
  obtain ⟨content, hget, -⟩ := Option.bind_eq_some_iff.1 h
  have hex : JsonCellSink.exists dir spec.cellId = true := (OrdDict.contains_iff dir _).2 ⟨content, hget⟩
  rw [runCell, if_pos hex, h]

theorem runCell_executed (b : Bench C) (n : Nat) (dir : Dir C) (spec : CellSpec)
    (h : JsonCellSink.load b.codec dir spec.cellId = none) :
    runCell b n dir spec = (.executed (execute b n dir spec).1, (execute b n dir spec).2) := by
  rw [runCell]
  split
  · rw [h]
  · rfl

/-- An execution raises and leaves the directory, or returns a result of its cell and writes it. -/
theorem execute_cases (b : Bench C) (n : Nat) (dir : Dir C) (spec : CellSpec) :
    (∃ e, execute b n dir spec = (.error e, dir)) ∨
      ∃ r, r.cellId = spec.cellId ∧ execute b n dir spec = (.ok r, JsonCellSink.write b.codec dir r) := by
  unfold execute
  split
  · exact Or.inl ⟨_, rfl⟩
  · split
    · exact Or.inl ⟨_, rfl⟩
    · exact Or.inr ⟨_, rfl, rfl⟩

/-- **A visit touches the files of its own cell only.** -/
theorem visit_frame (b : Bench C) (s : Sweep C) (spec : CellSpec) {p : Text} (hc : p ≠ cellPath spec.cellId)
    (ht : p ≠ tmpPath spec.cellId) : (visit b s spec).dir.get? p = s.dir.get? p := by
  show (runCell b s.log.length s.dir spec).2.get? p = s.dir.get? p
  cases hl : JsonCellSink.load b.codec s.dir spec.cellId with
  | some r => rw [runCell_loaded b _ _ _ r hl]
  | none =>
    rw [runCell_executed b _ _ _ hl]
    rcases execute_cases b s.log.length s.dir spec with ⟨e, he⟩ | ⟨r, hid, he⟩
    · rw [he]
    · rw [he]
      exact get?_write_of_ne b.codec s.dir r (hid ▸ hc) (hid ▸ ht)

/-! ## The executions of a cell -/

/-- What the executions of a cell returned or raised, in order. -/
def executions (id : Text) (log : List (CellSpec × CellRun)) : List (Except String CellResult) :=
  log.filterMap (fun e => match e.2 with
    | .loaded _   => none
    | .executed o => if e.1.cellId = id then some o else none)

def visits (id : Text) (log : List (CellSpec × CellRun)) : Nat := log.countP (fun e => decide (e.1.cellId = id))

theorem executions_append (id : Text) (l m : List (CellSpec × CellRun)) :
    executions id (l ++ m) = executions id l ++ executions id m := List.filterMap_append

theorem executions_visit (b : Bench C) (s : Sweep C) (spec : CellSpec) (id : Text) (h : spec.cellId ≠ id) :
    executions id (visit b s spec).log = executions id s.log := by
  rw [visit, executions_append]
  have hnone : executions id [(spec, (runCell b s.log.length s.dir spec).1)] = [] := by
    unfold executions
    rw [List.filterMap_cons]
    cases (runCell b s.log.length s.dir spec).1 with
    | loaded r => rfl
    | executed o => simp [h]
  rw [hnone, List.append_nil]

/-- A visit that loads executes nothing and leaves the directory. -/
theorem visit_loaded (b : Bench C) (s : Sweep C) (spec : CellSpec) {r : CellResult}
    (h : JsonCellSink.load b.codec s.dir spec.cellId = some r) (id : Text) :
    (visit b s spec).dir = s.dir ∧ executions id (visit b s spec).log = executions id s.log := by
  rw [visit, runCell_loaded b _ _ _ r h, executions_append]
  exact ⟨rfl, List.append_nil _⟩

theorem visit_executed (b : Bench C) (s : Sweep C) (spec : CellSpec)
    (h : JsonCellSink.load b.codec s.dir spec.cellId = none) :
    (visit b s spec).dir = (execute b s.log.length s.dir spec).2 ∧
      executions spec.cellId (visit b s spec).log =
        executions spec.cellId s.log ++ [(execute b s.log.length s.dir spec).1] := by
  rw [visit, runCell_executed b _ _ _ h, executions_append]
  exact ⟨rfl, by simp [executions]⟩

theorem visits_visit (b : Bench C) (s : Sweep C) (spec : CellSpec) (id : Text) :
    visits id (visit b s spec).log = visits id s.log + if spec.cellId = id then 1 else 0 := by
  rw [visits, visit, List.countP_append, List.countP_cons, List.countP_nil]
  simp [visits]

def halts (b : Bench C) (stopOnUnreconciled : Bool) (s : Sweep C) (spec : CellSpec) : Bool :=
  stopsAt stopOnUnreconciled (runCell b s.log.length s.dir spec).1.outcome

theorem run_eq_runUntil (b : Bench C) (stopOnUnreconciled : Bool) : ∀ (specs : List CellSpec) (s : Sweep C),
    run b stopOnUnreconciled specs s = Runs.runUntil (visit b) (halts b stopOnUnreconciled) specs s
  | [], _ => rfl
  | spec :: specs, s => by
    rw [run, Runs.runUntil, run_eq_runUntil b stopOnUnreconciled specs]
    rfl

theorem halts_false (b : Bench C) (s : Sweep C) (spec : CellSpec) : halts b false s spec = false := by
  unfold halts stopsAt
  split <;> rfl

theorem run_eq (b : Bench C) (specs : List CellSpec) (s : Sweep C) :
    run b false specs s = Runs.run (visit b) s specs := by
  rw [run_eq_runUntil]
  exact Runs.runUntil_eq_run (halts_false b) specs s

theorem visits_run (b : Bench C) (id : Text) : ∀ (specs : List CellSpec) (s : Sweep C),
    visits id (Runs.run (visit b) s specs).log = visits id s.log + specs.countP (fun c => decide (c.cellId = id))
  | [], _ => rfl
  | spec :: specs, s => by
    rw [Runs.run_cons, visits_run b id specs, visits_visit, List.countP_cons]
    by_cases h : spec.cellId = id
    · simp only [h, if_true, decide_true]
      omega
    · simp [h]

/-! ## A cell whose file parses -/

/-- The cell's file is as it was and no execution of the cell happened. -/
def Kept (old : C) (id : Text) (s : Sweep C) : Prop :=
  executions id s.log = [] ∧ s.dir.get? (cellPath id) = some old

theorem kept_visit (b : Bench C) {old : C} {id : Text} {r : CellResult} (hp : b.codec.parse old = some r) (s : Sweep C)
    (spec : CellSpec) (h : Kept old id s) : Kept old id (visit b s spec) := by
  by_cases hid : spec.cellId = id
  · have hl : JsonCellSink.load b.codec s.dir spec.cellId = some r := by
      rw [JsonCellSink.load, hid, h.2, Option.bind_some, hp]
    obtain ⟨hdir, hexec⟩ := visit_loaded b s spec hl id
    rw [Kept, hdir, hexec]
    exact h
  · refine ⟨(executions_visit b s spec id hid).trans h.1, ?_⟩
    rw [visit_frame b s spec (fun he => hid (cellPath_injective he).symm) (cellPath_ne_tmpPath _ _)]
    exact h.2

/-- **A result that parses is never replaced.** -/
theorem kept_run (b : Bench C) {dir : Dir C} {old : C} {id : Text} {r : CellResult}
    (hold : dir.get? (cellPath id) = some old) (hp : b.codec.parse old = some r) (specs : List CellSpec) :
    Kept old id (Runs.run (visit b) ⟨dir, []⟩ specs) :=
  Runs.run_invariant (Kept old id) specs _ (fun s spec _ h => kept_visit b hp s spec h) ⟨rfl, hold⟩

/-! ## A cell whose file does not parse -/

/-- Every execution of the cell raised and its file is as it was, or the last one returned and its result is the file. -/
def Standing (codec : CellCodec C) (old : Option C) (id : Text) (s : Sweep C) : Prop :=
  ((∀ o ∈ executions id s.log, o.isOk = false) ∧ (executions id s.log).length = visits id s.log ∧
      s.dir.get? (cellPath id) = old) ∨
    ∃ failed r, executions id s.log = failed ++ [.ok r] ∧ (∀ o ∈ failed, o.isOk = false) ∧
      failed.length < visits id s.log ∧ r.cellId = id ∧ s.dir.get? (cellPath id) = some (codec.dump r)

/-- A cell without a result is executed: the execution raises and the file is as it was, or it returns the file. -/
theorem standing_execute (b : Bench C) {old : Option C} (s : Sweep C) (spec : CellSpec)
    (hl : JsonCellSink.load b.codec s.dir spec.cellId = none)
    (hall : ∀ o ∈ executions spec.cellId s.log, o.isOk = false)
    (hlen : (executions spec.cellId s.log).length = visits spec.cellId s.log)
    (hget : s.dir.get? (cellPath spec.cellId) = old) : Standing b.codec old spec.cellId (visit b s spec) := by
  have hvisits := visits_visit b s spec spec.cellId
  rw [if_pos rfl] at hvisits
  obtain ⟨hdir, hexec⟩ := visit_executed b s spec hl
  rcases execute_cases b s.log.length s.dir spec with ⟨e, he⟩ | ⟨r, hr, he⟩
  · rw [he] at hexec hdir
    refine Or.inl ⟨?_, ?_, ?_⟩
    · intro o ho
      rw [hexec] at ho
      rcases List.mem_append.1 ho with ho | ho
      · exact hall o ho
      · rw [List.mem_singleton.1 ho]
        rfl
    · rw [hexec, List.length_append, hlen, hvisits]
      rfl
    · rw [hdir]
      exact hget
  · rw [he] at hexec hdir
    refine Or.inr ⟨executions spec.cellId s.log, r, hexec, hall, by omega, hr, ?_⟩
    rw [hdir, ← hr]
    exact get?_write b.codec s.dir r

theorem standing_visit (b : Bench C) {old : Option C} {id : Text} (hp : old.bind b.codec.parse = none) (s : Sweep C)
    (spec : CellSpec) (h : Standing b.codec old id s) : Standing b.codec old id (visit b s spec) := by
  have hvisits := visits_visit b s spec id
  by_cases hid : spec.cellId = id
  · subst hid
    rcases h with ⟨hall, hlen, hget⟩ | ⟨failed, r, hex, hall, hlen, hr, hget⟩
    · -- not measured yet: the file still does not parse
      have hl : JsonCellSink.load b.codec s.dir spec.cellId = none := by rw [JsonCellSink.load, hget, hp]
      exact standing_execute b s spec hl hall hlen hget
    · -- measured already: the file is that result, which the visit loads
      have hl : JsonCellSink.load b.codec s.dir spec.cellId = some r := by
        rw [JsonCellSink.load, hget, Option.bind_some, b.codec.roundTrip]
      obtain ⟨hdir, hexec⟩ := visit_loaded b s spec hl spec.cellId
      refine Or.inr ⟨failed, r, hexec.trans hex, hall, by omega, hr, ?_⟩
      rw [hdir]
      exact hget
  · rw [if_neg hid, Nat.add_zero] at hvisits
    have hexec := executions_visit b s spec id hid
    have hget := visit_frame b s spec (fun he => hid (cellPath_injective he).symm) (cellPath_ne_tmpPath id spec.cellId)
    unfold Standing
    rw [hexec, hvisits, hget]
    exact h

/-- **A cell whose file does not parse is executed until an execution returns, and that result is its file.** -/
theorem standing_run (b : Bench C) {dir : Dir C} {id : Text} (hp : JsonCellSink.load b.codec dir id = none)
    (specs : List CellSpec) : Standing b.codec (dir.get? (cellPath id)) id (Runs.run (visit b) ⟨dir, []⟩ specs) :=
  Runs.run_invariant (Standing b.codec (dir.get? (cellPath id)) id) specs _
    (fun s spec _ h => standing_visit b hp s spec h) (Or.inl ⟨fun o ho => (by cases ho), rfl, rfl⟩)

end BenchMatrix
end GoodputLab
