import GoodputLab.Base.Runs
import GoodputLab.KvMeasure
/-!
# VllmDriver — token deltas from the engine's outputs (`bench/kv_scaling/measure.py`)

The driver turns the token lists of the engine's outputs into counts of new tokens.  It takes a list at least as long as
what it has seen of the request for the whole prefix, and a shorter one for the new tokens only.  So a cumulative stream is
always counted right, and a per-step one just when every later output of a request brings fewer tokens than the request
had before it (`countsExactly_iff`): one token a step is already miscounted.
-/
namespace GoodputLab

/-! ## The driver -/

structure CompletionOutput where
  tokenIds : Option (List Int)

structure RequestOutput where
  requestId : Text
  finished  : Bool
  outputs   : Option (List CompletionOutput)

/-- The tokens of the first completion that has any. -/
def RequestOutput.tokenIds (ro : RequestOutput) : List Int :=
  ((ro.outputs.getD []).findSome? (fun o => o.tokenIds.filter (fun tids => tids ≠ []))).getD []

structure VllmEngineDriver where
  seenLen     : OrdDict Text Nat
  shapeLogged : Bool
  log         : List Text

namespace VllmEngineDriver

def fresh : VllmEngineDriver := ⟨OrdDict.empty, false, []⟩

def seen (d : VllmEngineDriver) (rid : Text) : Nat := (d.seenLen.get? rid).getD 0

def shapeLine (len prev : Nat) : Text :=
  "request-output shape: token_ids len=".toList ++ Text.ofNat len ++ ", previously seen=".toList ++ Text.ofNat prev ++
    " (cumulative when len grows, per-step otherwise)".toList

/-- `token_ids` may be cumulative or per-step. -/
def newTokens (prev len : Nat) : Nat := if prev ≤ len then len - prev else len

def stepOne (d : VllmEngineDriver) (ro : RequestOutput) : StepOutput × VllmEngineDriver :=
  let prev := d.seen ro.requestId
  let len := ro.tokenIds.length
  (⟨ro.requestId, newTokens prev len, ro.finished⟩,
    { seenLen := d.seenLen.set ro.requestId (prev + newTokens prev len)
      shapeLogged := true
      log := if d.shapeLogged then d.log else d.log ++ [shapeLine len prev] })

def step (d : VllmEngineDriver) : List RequestOutput → List StepOutput × VllmEngineDriver
  | []        => ([], d)
  | ro :: ros =>
    let (out, d) := d.stepOne ro
    let (outs, d) := d.step ros
    (out :: outs, d)

end VllmEngineDriver

/-! ## Streams of the engine -/

inductive OutputMode
  | cumulative | perStep
deriving DecidableEq, Repr

/-- New tokens of one request. -/
structure Emission where
  requestId : Text
  fresh     : List Int
  finished  : Bool

/-- The tokens `past` has emitted for a request. -/
def emittedFor (rid : Text) (past : List Emission) : List Int :=
  (past.filter (fun e => e.requestId = rid)).flatMap Emission.fresh

/-- What the engine puts out for an emission after `past`: the whole prefix, or the new tokens. -/
def Emission.raw (mode : Text → OutputMode) (past : List Emission) (e : Emission) : RequestOutput :=
  let tokenIds := match mode e.requestId with
    | .cumulative => emittedFor e.requestId past ++ e.fresh
    | .perStep    => e.fresh
  ⟨e.requestId, e.finished, some [⟨some tokenIds⟩]⟩

/-- The outputs of an engine step that makes the emissions one after another. -/
def rawOutputs (mode : Text → OutputMode) : List Emission → List Emission → List RequestOutput
  | _, []         => []
  | past, e :: es => e.raw mode past :: rawOutputs mode (past ++ [e]) es

/-- The driver beside what the engine has emitted. -/
structure Feed where
  driver : VllmEngineDriver
  past   : List Emission

namespace Feed

def start : Feed := ⟨.fresh, []⟩

def step (mode : Text → OutputMode) (s : Feed) (es : List Emission) : Feed :=
  ⟨(s.driver.step (rawOutputs mode s.past es)).2, s.past ++ es⟩

def outputs (mode : Text → OutputMode) (s : Feed) (es : List Emission) : List StepOutput :=
  (s.driver.step (rawOutputs mode s.past es)).1

end Feed

def reportedFor (rid : Text) (outs : List StepOutput) : Int :=
  ((outs.filter (fun o => o.requestId = rid)).map StepOutput.newTokens).sum

/-- After every step of the engine, what the driver has reported of a request is what the engine has emitted for it. -/
def CountsExactly (mode : Text → OutputMode) (steps : List (List Emission)) : Prop :=
  ∀ p q, steps = p ++ q → ∀ rid,
    reportedFor rid (Runs.log (Feed.step mode) (Feed.outputs mode) Feed.start p) = (emittedFor rid p.flatten).length

/-- An emission of a per-step request is its first, or shorter than what the request had before it. -/
def Shrinking (mode : Text → OutputMode) (es : List Emission) : Prop :=
  ∀ p e q, es = p ++ e :: q → mode e.requestId = .perStep →
    emittedFor e.requestId p = [] ∨ e.fresh.length < (emittedFor e.requestId p).length

/-! ## One output -/

theorem emittedFor_append (rid : Text) (p q : List Emission) :
    emittedFor rid (p ++ q) = emittedFor rid p ++ emittedFor rid q := by
  simp [emittedFor]

theorem emittedFor_singleton (rid : Text) (e : Emission) :
    emittedFor rid [e] = if e.requestId = rid then e.fresh else [] := by
  by_cases h : e.requestId = rid <;> simp [emittedFor, h]

theorem reportedFor_append (rid : Text) (p q : List StepOutput) :
    reportedFor rid (p ++ q) = reportedFor rid p + reportedFor rid q := by
  simp [reportedFor]

theorem tokenIds_single (rid : Text) (finished : Bool) (tids : List Int) :
    (⟨rid, finished, some [⟨some tids⟩]⟩ : RequestOutput).tokenIds = tids := by
  cases tids <;> rfl

namespace VllmEngineDriver

theorem seen_stepOne (d : VllmEngineDriver) (ro : RequestOutput) (rid : Text) :
    (d.stepOne ro).2.seen rid =
      if rid = ro.requestId then d.seen rid + newTokens (d.seen rid) ro.tokenIds.length else d.seen rid := by
  unfold stepOne seen
  simp only
  rw [OrdDict.get?_set]
  by_cases h : rid = ro.requestId
  · subst h
    simp
  · simp [h]

/-- **What the driver has seen of a request is what it has reported of it.** -/
theorem seen_step (rid : Text) : ∀ (ros : List RequestOutput) (d : VllmEngineDriver),
    ((d.step ros).2.seen rid : Int) = d.seen rid + reportedFor rid (d.step ros).1
  | [], d => by simp [step, reportedFor]
  | ro :: ros, d => by
    have ih := seen_step rid ros (d.stepOne ro).2
    have hone := d.seen_stepOne ro rid
    have hcons : reportedFor rid (d.step (ro :: ros)).1 =
        reportedFor rid [(d.stepOne ro).1] + reportedFor rid ((d.stepOne ro).2.step ros).1 :=
      reportedFor_append rid [_] _
    rw [hcons, show (d.step (ro :: ros)).2 = ((d.stepOne ro).2.step ros).2 from rfl, ih, hone]
    by_cases h : rid = ro.requestId
    · subst h
      simp [reportedFor, stepOne, add_assoc]
    · have hskip : reportedFor rid [(d.stepOne ro).1] = 0 := by
        simp [reportedFor, stepOne, Ne.symm h]
      rw [if_neg h, hskip, zero_add]

end VllmEngineDriver

namespace Feed

/-! ## One emission -/

def one (mode : Text → OutputMode) (s : Feed) (e : Emission) : Feed :=
  ⟨(s.driver.stepOne (e.raw mode s.past)).2, s.past ++ [e]⟩

/-- An engine step is its emissions, one after another. -/
theorem step_eq_run (mode : Text → OutputMode) : ∀ (es : List Emission) (s : Feed),
    s.step mode es = Runs.run (one mode) s es
  | [], s => by simp [step, rawOutputs, VllmEngineDriver.step]
  | e :: es, s => by
    rw [Runs.run_cons, ← step_eq_run mode es]
    simp [step, one, rawOutputs, VllmEngineDriver.step]

theorem run_step_eq (mode : Text → OutputMode) : ∀ (steps : List (List Emission)) (s : Feed),
    Runs.run (step mode) s steps = Runs.run (one mode) s steps.flatten
  | [], _ => rfl
  | es :: steps, s => by
    rw [Runs.run_cons, run_step_eq mode steps, step_eq_run, List.flatten_cons, Runs.run_append]

theorem past_run_one (mode : Text → OutputMode) : ∀ (es : List Emission) (s : Feed),
    (Runs.run (one mode) s es).past = s.past ++ es
  | [], s => by simp
  | e :: es, s => by
    rw [Runs.run_cons, past_run_one mode es]
    simp [one]

/-- How many tokens of a request have been emitted and not reported. -/
def lag (s : Feed) (rid : Text) : Int := (emittedFor rid s.past).length - s.driver.seen rid

/-- No request is ahead of the engine, and a cumulative one is never behind it. -/
def Sound (mode : Text → OutputMode) (s : Feed) : Prop :=
  ∀ rid, 0 ≤ s.lag rid ∧ (mode rid = .cumulative → s.lag rid = 0)

theorem lag_one (mode : Text → OutputMode) (s : Feed) (e : Emission) (rid : Text) :
    (s.one mode e).lag rid =
      if rid = e.requestId then
        ((emittedFor rid s.past).length + e.fresh.length : Int) - (s.driver.seen rid +
          VllmEngineDriver.newTokens (s.driver.seen rid) (e.raw mode s.past).tokenIds.length : Nat)
      else s.lag rid := by
  have hseen := s.driver.seen_stepOne (e.raw mode s.past) rid
  unfold lag one
  rw [hseen, emittedFor_append, emittedFor_singleton, List.length_append]
  by_cases h : rid = e.requestId
  · subst h
    simp [Emission.raw]
  · simp [Emission.raw, h, Ne.symm h]

/-- A cumulative request stays caught up. -/
theorem lag_one_cumulative {mode : Text → OutputMode} {s : Feed} {e : Emission} (hmode : mode e.requestId = .cumulative)
    (hcaught : s.lag e.requestId = 0) : (s.one mode e).lag e.requestId = 0 := by
  have hlen : (e.raw mode s.past).tokenIds.length = (emittedFor e.requestId s.past).length + e.fresh.length := by
    unfold Emission.raw
    rw [tokenIds_single, hmode]
    simp
  rw [lag_one, if_pos rfl, hlen]
  unfold lag at hcaught
  have hle : s.driver.seen e.requestId ≤ (emittedFor e.requestId s.past).length + e.fresh.length := by omega
  unfold VllmEngineDriver.newTokens
  rw [if_pos hle]
  omega

/-- A per-step request falls back by its new tokens taken for old ones, if there are any. -/
theorem lag_one_perStep {mode : Text → OutputMode} {s : Feed} {e : Emission} (hmode : mode e.requestId = .perStep) :
    s.lag e.requestId ≤ (s.one mode e).lag e.requestId ∧
      (s.lag e.requestId = 0 → ((s.one mode e).lag e.requestId = 0 ↔
        emittedFor e.requestId s.past = [] ∨ e.fresh.length < (emittedFor e.requestId s.past).length)) := by
  have hlen : (e.raw mode s.past).tokenIds.length = e.fresh.length := by
    unfold Emission.raw
    rw [tokenIds_single, hmode]
  rw [lag_one, if_pos rfl, hlen, ← List.length_eq_zero_iff]
  unfold lag VllmEngineDriver.newTokens
  constructor
  · split <;> omega
  · intro hcaught
    split <;> omega

/-- **One emission**: no lag shrinks, and a request that was caught up stays so just when the driver takes the list for what
it is. -/
theorem one_spec (mode : Text → OutputMode) (s : Feed) (e : Emission) (h : s.Sound mode) :
    (s.one mode e).Sound mode ∧ (∀ rid, s.lag rid ≤ (s.one mode e).lag rid) ∧
      (s.lag e.requestId = 0 → ((s.one mode e).lag e.requestId = 0 ↔ (mode e.requestId = .perStep →
        emittedFor e.requestId s.past = [] ∨ e.fresh.length < (emittedFor e.requestId s.past).length))) := by
  have hother : ∀ rid, rid ≠ e.requestId → (s.one mode e).lag rid = s.lag rid := by
    intro rid hne
    rw [lag_one, if_neg hne]
  obtain ⟨hahead, hcum⟩ := h e.requestId
  have hmine : (mode e.requestId = .cumulative → (s.one mode e).lag e.requestId = 0) ∧
      s.lag e.requestId ≤ (s.one mode e).lag e.requestId ∧
      (s.lag e.requestId = 0 → ((s.one mode e).lag e.requestId = 0 ↔ (mode e.requestId = .perStep →
        emittedFor e.requestId s.past = [] ∨ e.fresh.length < (emittedFor e.requestId s.past).length))) := by
    cases hmode : mode e.requestId with
    | cumulative =>
      have hend := lag_one_cumulative hmode (hcum hmode)
      refine ⟨fun _ => hend, ?_, fun _ => ⟨fun _ hno => (by cases hno), fun _ => hend⟩⟩
      rw [hcum hmode, hend]
    | perStep =>
      obtain ⟨hgrow, hiff⟩ := lag_one_perStep hmode
      refine ⟨fun hno => (by cases hno), hgrow, fun hcaught => ?_⟩
      rw [hiff hcaught]
      simp only [true_imp_iff]
  refine ⟨fun rid => ?_, fun rid => ?_, hmine.2.2⟩
  · by_cases hr : rid = e.requestId
    · subst hr
      exact ⟨hahead.trans hmine.2.1, hmine.1⟩
    · rw [hother rid hr]
      exact h rid
  · by_cases hr : rid = e.requestId
    · subst hr
      exact hmine.2.1
    · exact (hother rid hr).ge

/-! ## Runs -/

theorem run_one_sound (mode : Text → OutputMode) : ∀ (es : List Emission) (s : Feed), s.Sound mode →
    (Runs.run (one mode) s es).Sound mode ∧ ∀ rid, s.lag rid ≤ (Runs.run (one mode) s es).lag rid
  | [], _, h => ⟨h, fun _ => le_refl _⟩
  | e :: es, s, h => by
    obtain ⟨hone, hgrow, -⟩ := one_spec mode s e h
    obtain ⟨hrun, hrest⟩ := run_one_sound mode es _ hone
    exact ⟨hrun, fun rid => (hgrow rid).trans (hrest rid)⟩

theorem start_sound (mode : Text → OutputMode) : start.Sound mode := fun _ => ⟨le_refl _, fun _ => rfl⟩

/-- **After any emissions every request is caught up just when none of them confused the driver.** -/
theorem caughtUp_iff (mode : Text → OutputMode) (es : List Emission) :
    (∀ rid, (Runs.run (one mode) start es).lag rid = 0) ↔ Shrinking mode es := by
  constructor
  · intro hend p e q hes hmode
    have hsplit : Runs.run (one mode) start es =
        Runs.run (one mode) (one mode (Runs.run (one mode) start p) e) q := by
      rw [hes, Runs.run_append, Runs.run_cons]
    obtain ⟨hp, -⟩ := run_one_sound mode p start (start_sound mode)
    obtain ⟨hpe, hgrow, hiff⟩ := one_spec mode _ e hp
    obtain ⟨-, hrest⟩ := run_one_sound mode q _ hpe
    have hlast : (one mode (Runs.run (one mode) start p) e).lag e.requestId = 0 := by
      have h := hrest e.requestId
      rw [← hsplit, hend] at h
      exact le_antisymm h (hpe e.requestId).1
    have hfirst : (Runs.run (one mode) start p).lag e.requestId = 0 := by
      have h := hgrow e.requestId
      rw [hlast] at h
      exact le_antisymm h (hp e.requestId).1
    have hpast : (Runs.run (one mode) start p).past = p := past_run_one mode p start
    rw [hpast] at hiff
    exact (hiff hfirst).1 hlast hmode
  · induction es using List.reverseRecOn with
    | nil => exact fun _ _ => rfl
    | append_singleton es e ih =>
      intro hshrink
      have hbefore := ih (Runs.forall_split_of_append hshrink)
      obtain ⟨hes, -⟩ := run_one_sound mode es start (start_sound mode)
      obtain ⟨-, -, hiff⟩ := one_spec mode _ e hes
      have hpast : (Runs.run (one mode) start es).past = es := past_run_one mode es start
      rw [hpast] at hiff
      have hconcat : Runs.run (one mode) start (es ++ [e]) = one mode (Runs.run (one mode) start es) e :=
        Runs.run_append _ _ es [e]
      intro rid
      rw [hconcat]
      by_cases hr : rid = e.requestId
      · subst hr
        exact (hiff (hbefore _)).2 (fun hmode => hshrink es e [] rfl hmode)
      · rw [lag_one, if_neg hr]
        exact hbefore rid

theorem seen_run (mode : Text → OutputMode) (rid : Text) : ∀ (steps : List (List Emission)) (s : Feed),
    ((Runs.run (step mode) s steps).driver.seen rid : Int) =
      s.driver.seen rid + reportedFor rid (Runs.log (step mode) (outputs mode) s steps)
  | [], s => by simp [Runs.log, reportedFor]
  | es :: steps, s => by
    have hone := VllmEngineDriver.seen_step rid (rawOutputs mode s.past es) s.driver
    rw [Runs.run_cons, seen_run mode rid steps, Runs.log, reportedFor_append]
    unfold step outputs at *
    simp only
    omega

end Feed

/-- **When the deltas are exact.**  Whatever each request's mode, the numbers of new tokens and the interleaving: after
every engine step the deltas reported of each request sum to what the engine has emitted for it, if and only if every
output of a per-step request but its first tokens is shorter than what was emitted of it before. -/
theorem countsExactly_iff (mode : Text → OutputMode) (steps : List (List Emission)) :
    CountsExactly mode steps ↔ Shrinking mode steps.flatten := by
  have hpoint : ∀ p rid, (reportedFor rid (Runs.log (Feed.step mode) (Feed.outputs mode) Feed.start p) =
      (emittedFor rid p.flatten).length) ↔ (Runs.run (Feed.one mode) Feed.start p.flatten).lag rid = 0 := by
    intro p rid
    have hseen := Feed.seen_run mode rid p Feed.start
    rw [Feed.run_step_eq] at hseen
    have hzero : Feed.start.driver.seen rid = 0 := rfl
    unfold Feed.lag
    rw [Feed.past_run_one, show Feed.start.past ++ p.flatten = p.flatten from rfl]
    omega
  constructor
  · intro h
    exact (Feed.caughtUp_iff mode _).1 (fun rid => (hpoint steps rid).1 (h steps [] (by simp) rid))
  · intro h p q hsteps rid
    rw [hsteps, List.flatten_append] at h
    exact (hpoint p rid).2 ((Feed.caughtUp_iff mode _).2 (Runs.forall_split_of_append h) rid)

def oneByOne : List (List Emission) := [[⟨"r".toList, [11], false⟩], [⟨"r".toList, [12], true⟩]]

/-- Two steps of one token each, put out as the new tokens: the second is reported as none. -/
theorem oneByOne_lost :
    (Runs.log (Feed.step fun _ => .perStep) (Feed.outputs fun _ => .perStep) Feed.start oneByOne).map
      StepOutput.newTokens = [1, 0] ∧
    (emittedFor "r".toList oneByOne.flatten).length = 2 ∧ ¬ CountsExactly (fun _ => .perStep) oneByOne := by
  refine ⟨by decide, by decide, fun h => ?_⟩
  exact absurd (h oneByOne [] (by simp) "r".toList) (by decide)

end GoodputLab
