import GoodputLab.Base.Act
import GoodputLab.Base.Collect
import GoodputLab.MetricsQueue
/-!
# MetricsScrape — the queue signal of a body that may be refused (`core/metrics.py`, `scripts/autoscaler_live.py`)

The exposition parser raises on a text it does not know, and `int` on a sum that is infinite or no number.  A signal is read
exactly from the legible bodies (`scrapedSignal_ok_iff`), and from the samples of a line-by-line parser it is their queue
signal (`scrapedSignal_body`).
-/
namespace GoodputLab

/-- A sample as it is exposed; without a value it is infinite or no number. -/
structure ScrapedSample where
  name   : Text
  labels : OrdDict Text Text
  value  : Option ℚ

/-- The key does not read the value. -/
def ScrapedSample.key (s : ScrapedSample) : Text := Sample.key ⟨s.name, s.labels, 0⟩

/-- The samples of a whole body, or what the exposition parser raises. -/
abbrev BodyParser := Text → Except String (List ScrapedSample)

/-- `parse_prometheus`, as it may end. -/
def parseBody (parser : BodyParser) (text : Text) : Except String (OrdDict Text (Option ℚ)) :=
  if Text.strip text = [] then .ok OrdDict.empty
  else (parser text).map (fun samples => samples.foldl (fun out s => out.set s.key s.value) OrdDict.empty)

/-- The values under the keys that begin with a gauge's name. -/
def gaugeValues (parsed : OrdDict Text (Option ℚ)) (name : Text) : List (Option ℚ) :=
  (parsed.items.filter (fun p => hasName name p.1)).map (fun p => p.2)

/-- `int(sum(...))`: a sum is finite when all its values are. -/
def intOfSum (values : List (Option ℚ)) : Except String Int :=
  match values.mapM id with
  | none        => .error "cannot convert float to integer"
  | some finite => .ok (truncate finite.sum)

/-- `queue_signal`, as it may end. -/
def scrapedSignal (parser : BodyParser) (metricsText : Text) : Except String (Int × Int) := do
  let parsed ← parseBody parser metricsText
  let waiting ← intOfSum (gaugeValues parsed vllmNumRequestsWaiting)
  let running ← intOfSum (gaugeValues parsed vllmNumRequestsRunning)
  pure (waiting, running)

/-- The parser knows the text, and every value of the two gauges is finite. -/
def Legible (parser : BodyParser) (metricsText : Text) : Prop :=
  ∃ parsed, parseBody parser metricsText = .ok parsed ∧ ∀ name ∈ gauges, none ∉ gaugeValues parsed name

theorem intOfSum_ok_iff (values : List (Option ℚ)) : (∃ n, intOfSum values = .ok n) ↔ none ∉ values := by
  unfold intOfSum
  constructor
  · rintro ⟨n, hn⟩ hnone
    cases hfinite : values.mapM id with
    | none =>
      rw [hfinite] at hn
      cases hn
    | some finite =>
      obtain ⟨x, -, hx⟩ := Collect.exists_of_mem hfinite hnone
      cases hx
  · intro hnone
    obtain ⟨finite, hfinite⟩ := Collect.exists_mapM (f := id) (l := values) (fun v hv => by
      cases v with
      | none => exact absurd hv hnone
      | some x => exact ⟨x, rfl⟩)
    rw [hfinite]
    exact ⟨_, rfl⟩

/-- **A signal is read exactly from the legible bodies.** -/
theorem scrapedSignal_ok_iff (parser : BodyParser) (metricsText : Text) :
    (∃ signal, scrapedSignal parser metricsText = .ok signal) ↔ Legible parser metricsText := by
  unfold scrapedSignal Legible
  cases parseBody parser metricsText with
  | error e => exact iff_of_false (fun ⟨_, h⟩ => by cases h) (fun ⟨_, h, _⟩ => by cases h)
  | ok parsed =>
    have hwaiting := intOfSum_ok_iff (gaugeValues parsed vllmNumRequestsWaiting)
    have hrunning := intOfSum_ok_iff (gaugeValues parsed vllmNumRequestsRunning)
    constructor
    · rintro ⟨signal, h⟩
      rw [Act.except_ok_bind] at h
      obtain ⟨waiting, hw, h⟩ := Act.except_bind_ok_iff.1 h
      obtain ⟨running, hr, -⟩ := Act.except_bind_ok_iff.1 h
      refine ⟨parsed, rfl, ?_⟩
      simp only [gauges, List.forall_mem_cons, List.not_mem_nil, false_implies, implies_true, and_true]
      exact ⟨hwaiting.1 ⟨waiting, hw⟩, hrunning.1 ⟨running, hr⟩⟩
    · rintro ⟨parsed', h, hfinite⟩
      obtain rfl := Except.ok.inj h
      obtain ⟨waiting, hw⟩ := hwaiting.2 (hfinite _ List.mem_cons_self)
      obtain ⟨running, hr⟩ := hrunning.2 (hfinite _ (List.mem_cons_of_mem _ List.mem_cons_self))
      refine ⟨(waiting, running), ?_⟩
      rw [Act.except_ok_bind]
      exact Act.except_bind_ok_iff.2 ⟨waiting, hw, Act.except_bind_ok_iff.2 ⟨running, hr, rfl⟩⟩

/-! ## A line-by-line parser -/

/-- A parser that knows every text and finds finite values. -/
def SampleParser.body (parser : SampleParser) : BodyParser :=
  fun text => .ok ((parser.samples text).map (fun s => ⟨s.name, s.labels, some s.value⟩))

theorem parseBody_body (parser : SampleParser) (text : Text) : ∃ parsed, parseBody parser.body text = .ok parsed ∧
    parsed.items = (parsePrometheus parser text).items.map (fun p => (p.1, some p.2)) := by
  unfold parseBody parsePrometheus SampleParser.body
  split
  · exact ⟨_, rfl, rfl⟩
  · refine ⟨_, rfl, ?_⟩
    simp only [List.foldl_map]
    -- both folds set the same keys
    have hfold : ∀ (samples : List Sample) (d : OrdDict Text ℚ) (e : OrdDict Text (Option ℚ)),
        e.items = d.items.map (fun p => (p.1, some p.2)) →
        (samples.foldl (fun out s => out.set s.key (some s.value)) e).items =
          (samples.foldl (fun out s => out.set s.key s.value) d).items.map (fun p => (p.1, some p.2)) := by
      intro samples
      induction samples with
      | nil => exact fun d e h => h
      | cons s samples ih =>
        intro d e h
        refine ih _ _ ?_
        show OrdDict.setItems s.key (some s.value) e.items = (OrdDict.setItems s.key s.value d.items).map _
        rw [OrdDict.map_setItems, h]
    exact hfold _ _ _ rfl

theorem intOfSum_some (values : List ℚ) : intOfSum (values.map some) = .ok (truncate values.sum) := by
  have hfinite : (values.map some).mapM id = some values :=
    (Collect.mapM_eq_some_iff _ _ _).2 (by simp [List.forall₂_map_left_iff, List.forall₂_same])
  unfold intOfSum
  rw [hfinite]

/-- **From a line-by-line parser the signal is the queue signal of its samples.** -/
theorem scrapedSignal_body (parser : SampleParser) (text : Text) :
    scrapedSignal parser.body text = .ok (queueSignal parser text) := by
  obtain ⟨parsed, hparsed, hitems⟩ := parseBody_body parser text
  have hvalues : ∀ name, gaugeValues parsed name =
      (((parsePrometheus parser text).items.filter (fun p => hasName name p.1)).map (fun p => p.2)).map some := by
    intro name
    rw [gaugeValues, hitems, List.filter_map, List.map_map, List.map_map]
    rfl
  unfold scrapedSignal
  rw [hparsed, Act.except_ok_bind, hvalues, hvalues, intOfSum_some, Act.except_ok_bind, intOfSum_some]
  rfl

theorem legible_body (parser : SampleParser) (text : Text) : Legible parser.body text :=
  (scrapedSignal_ok_iff _ _).1 ⟨_, scrapedSignal_body parser text⟩

end GoodputLab
