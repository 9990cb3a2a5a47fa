import GoodputLab.Base.JsonText
import GoodputLab.Base.Rounding
import GoodputLab.OrchestratorHits
import GoodputLab.Percentile
/-!
# MockVllm — the mock server and the client that reads it (`bench/mock_vllm.py`)

The mock reads `max_tokens` from the request's JSON and answers an event stream: the role, a chunk for each token, the
finish and `[DONE]`.  A written chunk is one line (`splitlines_gen`) and its line is read back as that chunk
(`readLine_chunk`), so the client that sent a request has exactly its tokens (`mock_exchange`), and a dry run against the
mock succeeds whatever the router decides (`dry_run_succeeds`).
-/
namespace GoodputLab

/-- The request's JSON.  The temperature is written as the integer it is. -/
def VllmHttpClient.buildPayload (model : Text) (spec : RequestSpec) : Json :=
  .obj [("model".toList, .str model),
    ("messages".toList, .arr [.obj [("role".toList, .str "user".toList), ("content".toList, .str spec.promptText)]]),
    ("max_tokens".toList, .num (spec.outputTokens : Int)), ("stream".toList, .bool true), ("temperature".toList, .num 0)]

namespace MockVllm

open VllmHttpClient (buildPayload streamTokens streamTokens_cons sendOne)

/-! ## The app -/

/-- `int(x)`. -/
def intOf : Json → Except PyError Int
  | .bool b         => .ok (if b then 1 else 0)
  | .num q          => .ok (truncate q)
  | .nonFinite .nan => .error .valueError
  | .nonFinite _    => .error .other
  | .str s          => match Text.parseInt s with
    | some n => .ok n
    | none   => .error .valueError
  | _               => .error .typeError

def chunk (choice : List (Text × Json)) : Json :=
  .obj [("id".toList, .str "cmpl-mock".toList), ("choices".toList, .arr [.obj choice])]

def roleChunk : Json :=
  chunk [("delta".toList, .obj [("role".toList, .str "assistant".toList)]), ("index".toList, .num 0)]

def tokenText (i : Nat) : Text := "tok".toList ++ Text.ofNat i

def tokenChunk (i : Nat) : Json :=
  chunk [("delta".toList, .obj [("content".toList, .str (tokenText i))]), ("index".toList, .num 0)]

def finishChunk : Json :=
  chunk [("delta".toList, .obj []), ("finish_reason".toList, .str "stop".toList), ("index".toList, .num 0)]

def doneText : Text := "[DONE]".toList

def event (payload : Text) : Text := Sse.dataPrefix ++ payload ++ "\n\n".toList

section
variable (float : ℚ → Text)

/-- The defaults of `json.dumps`, over the `repr` of a float. -/
def pythonStyle : Json.Style := ⟨none, true, true, float⟩

def dumpChunk (c : Json) : Text := Json.dumps (pythonStyle float) c

def payloads (maxTokens : Int) : List Text :=
  dumpChunk float roleChunk ::
    ((List.range maxTokens.toNat).map (fun i => dumpChunk float (tokenChunk i)) ++
      [dumpChunk float finishChunk, doneText])

def gen (maxTokens : Int) : List Text := (payloads float maxTokens).map event

def chatCompletions (request : Text) : Except PyError (List Text) := do
  let body ← Json.loads request
  let maxTokens ← body.get "max_tokens".toList (.num 5)
  let maxTokens ← intOf maxTokens
  pure (gen float maxTokens)

/-- The app behind the in-process transport: an exception of the handler is raised in the client, and an answer arrives
whole. -/
def answer (describe : PyError → Exc) (request : Text) : Server :=
  match chatCompletions float request with
  | .error e   => .unreachable (describe e)
  | .ok events => .responds 200 events.flatten (Text.splitlines events.flatten) .clean

end

/-! ## The request -/

theorem writable_zero (style : Json.Style) : Json.Writable style (.num 0) := Json.writable_int style 0

theorem writable_buildPayload (wire : Json.Style) (model : Text) (spec : RequestSpec) :
    Json.Writable wire (buildPayload model spec) := by
  refine .obj (by simp only [List.map]; decide) ?_
  simp only [List.forall_mem_cons]
  refine ⟨.str _, .arr ?_, Json.writable_int wire _, .bool true, writable_zero wire, fun p h => by cases h⟩
  simp only [List.forall_mem_cons]
  refine ⟨.obj (by simp only [List.map]; decide) ?_, fun x h => by cases h⟩
  simp only [List.forall_mem_cons]
  exact ⟨.str _, .str _, fun p h => by cases h⟩

theorem intOf_intCast (z : Int) : intOf (.num z) = .ok z := by
  have htruncate : truncate (z : ℚ) = z := by
    unfold truncate
    split
    · exact Int.floor_intCast z
    · exact Int.ceil_intCast z
  rw [intOf, htruncate]

/-- **The mock reads the number of tokens that the client asked for.** -/
theorem chatCompletions_request (float : ℚ → Text) (wire : Json.Style) (model : Text) (spec : RequestSpec) :
    chatCompletions float (Json.dumps wire (buildPayload model spec)) = .ok (gen float spec.outputTokens) := by
  have hget : (buildPayload model spec).get "max_tokens".toList (.num 5) = .ok (.num (spec.outputTokens : Int)) := rfl
  unfold chatCompletions
  simp only [Json.loads_dumps (writable_buildPayload wire model spec), hget, intOf_intCast, bind, Except.bind, pure,
    Except.pure]

/-! ## A chunk is one line -/

theorem writable_chunk {style : Json.Style} {choice : List (Text × Json)} (hnd : (choice.map Prod.fst).Nodup)
    (h : ∀ p ∈ choice, Json.Writable style p.2) : Json.Writable style (chunk choice) := by
  refine .obj (by simp only [List.map]; decide) ?_
  simp only [List.forall_mem_cons]
  refine ⟨.str _, .arr ?_, fun p hp => by cases hp⟩
  simp only [List.forall_mem_cons]
  exact ⟨.obj hnd h, fun x hx => by cases hx⟩

theorem writable_roleChunk (style : Json.Style) : Json.Writable style roleChunk := by
  refine writable_chunk (by simp only [List.map]; decide) ?_
  simp only [List.forall_mem_cons]
  refine ⟨.obj (by simp only [List.map]; decide) ?_, writable_zero style, fun p h => by cases h⟩
  simp only [List.forall_mem_cons]
  exact ⟨.str _, fun p h => by cases h⟩

theorem writable_tokenChunk (style : Json.Style) (i : Nat) : Json.Writable style (tokenChunk i) := by
  refine writable_chunk (by simp only [List.map]; decide) ?_
  simp only [List.forall_mem_cons]
  refine ⟨.obj (List.nodup_singleton _) ?_, writable_zero style, fun p h => by cases h⟩
  simp only [List.forall_mem_cons]
  exact ⟨.str _, fun p h => by cases h⟩

theorem writable_finishChunk (style : Json.Style) : Json.Writable style finishChunk := by
  refine writable_chunk (by simp only [List.map]; decide) ?_
  simp only [List.forall_mem_cons]
  exact ⟨.obj List.nodup_nil (fun p h => by cases h), .str _, writable_zero style, fun p h => by cases h⟩

theorem not_lineEnd {s : Text} (h : Json.Printable s) : ∀ c ∈ s, Text.isLineEnd c = false := by
  intro c hc
  obtain ⟨hlo, hhi⟩ := h c hc
  generalize hn : c.toNat = n at hlo hhi
  simp only [Text.isLineEnd, hn, Bool.or_eq_false_iff, Bool.and_eq_false_iff, decide_eq_false_iff_not]
  omega

/-- The lines of an event: its data and a blank one. -/
def eventLines (payload : Text) : List Text := [Sse.dataPrefix ++ payload, []]

theorem event_eq (payload : Text) : event payload = (eventLines payload).flatMap (fun line => line ++ ['\n']) := by
  rw [event, eventLines, List.flatMap_cons, List.flatMap_singleton, List.append_assoc _ ['\n']]
  rfl

section
variable (float : ℚ → Text)

theorem printable_dumpChunk {c : Json} (h : ∀ style, Json.Writable style c) : Json.Printable (dumpChunk float c) :=
  Json.printable_dumps rfl rfl (h _)

theorem printable_payloads (maxTokens : Int) : ∀ p ∈ payloads float maxTokens, Json.Printable p := by
  intro p hp
  rcases List.mem_cons.1 hp with rfl | hp
  · exact printable_dumpChunk float writable_roleChunk
  rcases List.mem_append.1 hp with hp | hp
  · obtain ⟨i, -, rfl⟩ := List.mem_map.1 hp
    exact printable_dumpChunk float (fun style => writable_tokenChunk style i)
  · rcases List.mem_cons.1 hp with rfl | hp
    · exact printable_dumpChunk float writable_finishChunk
    · rw [List.mem_singleton.1 hp]
      exact Json.printable_of_all rfl

/-- **The answer's lines are the events'.** -/
theorem splitlines_gen (maxTokens : Int) :
    Text.splitlines (gen float maxTokens).flatten = (payloads float maxTokens).flatMap eventLines := by
  have hbody : (gen float maxTokens).flatten =
      ((payloads float maxTokens).flatMap eventLines).flatMap (fun line => line ++ ['\n']) := by
    rw [gen, ← List.flatMap_def, List.flatMap_assoc]
    exact congrArg (List.flatMap · _) (funext event_eq)
  rw [hbody, Text.splitlines_terminated]
  intro line hline
  obtain ⟨p, hp, hline⟩ := List.mem_flatMap.1 hline
  rcases List.mem_cons.1 hline with rfl | hline
  · exact not_lineEnd (Json.printable_append.2 ⟨Json.printable_of_all rfl, printable_payloads float maxTokens p hp⟩)
  · rw [List.mem_singleton.1 hline]
    exact fun c hc => by cases hc

end

/-! ## A line is read back -/

variable {w : ClientWorld}

theorem readLine_data (w : SseWorld) {c d : Char} {mid : Text} (hc : Text.isSpace c = false)
    (hd : Text.isSpace d = false) :
    Sse.readLine w (Sse.dataPrefix ++ c :: (mid ++ [d])) =
      if c :: (mid ++ [d]) = doneText then .ok .done
      else match w.loads (c :: (mid ++ [d])) with
        | .error .jsonDecodeError => .ok .skip
        | .error e                => .error e
        | .ok payload             => .ok (.chunk payload) := by
  have hrstrip : Text.rstrip ['\r', '\n'] (Sse.dataPrefix ++ c :: (mid ++ [d])) = Sse.dataPrefix ++ c :: (mid ++ [d]) := by
    rw [← List.cons_append, ← List.append_assoc]
    refine Text.rstrip_of_end _ ?_
    by_contra hmem
    simp only [List.contains_cons, List.contains_nil, Bool.or_false, Bool.not_eq_false, Bool.or_eq_true, beq_iff_eq] at hmem
    rcases hmem with rfl | rfl <;> cases hd
  have hdrop : (Sse.dataPrefix ++ c :: (mid ++ [d])).drop Sse.dataPrefix.length = c :: (mid ++ [d]) := List.drop_left
  unfold Sse.readLine
  simp only [hrstrip, hdrop, Text.strip_of_ends mid hc hd]
  rfl

theorem effect_blank (pos : Nat) : Sse.effect w.toSseWorld pos [] = .nothing := rfl

theorem effect_done (pos : Nat) : Sse.effect w.toSseWorld pos (Sse.dataPrefix ++ doneText) = .ends := rfl

/-- An event is a line and a blank one, which carries nothing. -/
theorem streamTokens_event (pos : Nat) (payload : Text) (lines : List Text) :
    streamTokens w .clean pos (eventLines payload ++ lines) =
      match Sse.effect w.toSseWorld pos (Sse.dataPrefix ++ payload) with
      | .raises e => ⟨[], pos, some (w.describe e)⟩
      | .token ev =>
        ⟨ev :: (streamTokens w .clean (pos + 1) lines).events, (streamTokens w .clean (pos + 1) lines).pos,
          (streamTokens w .clean (pos + 1) lines).failure⟩
      | _         => streamTokens w .clean pos lines := by
  have hblank : ∀ pos, streamTokens w .clean pos ([] :: lines) = streamTokens w .clean pos lines := by
    intro pos
    rw [streamTokens_cons, effect_blank]
  have hcons : eventLines payload ++ lines = (Sse.dataPrefix ++ payload) :: [] :: lines := rfl
  rw [hcons, streamTokens_cons]
  cases Sse.effect w.toSseWorld pos (Sse.dataPrefix ++ payload) <;> simp only [hblank]

/-- What a token's line carries. -/
def tokenEvent (w : ClientWorld) (pos i : Nat) : TokenEvent := ⟨.str (tokenText i), w.clock pos, .null, false⟩

section
variable (hloads : w.loads = Json.loads) (float : ℚ → Text)

include hloads

/-- **The line of a chunk is read as that chunk.** -/
theorem readLine_chunk {choice : List (Text × Json)} (h : Json.Writable (pythonStyle float) (chunk choice)) :
    Sse.readLine w.toSseWorld (Sse.dataPrefix ++ dumpChunk float (chunk choice)) = .ok (.chunk (chunk choice)) := by
  obtain ⟨mid, hmid⟩ : ∃ mid, dumpChunk float (chunk choice) = '{' :: (mid ++ ['}']) := Json.dumps_obj_ends _ _
  have hload : Json.loads (dumpChunk float (chunk choice)) = .ok (chunk choice) := Json.loads_dumps h
  rw [hmid] at hload ⊢
  rw [readLine_data w.toSseWorld (by decide) (by decide), if_neg (fun hdone => by cases hdone), hloads, hload]

theorem effect_role (pos : Nat) :
    Sse.effect w.toSseWorld pos (Sse.dataPrefix ++ dumpChunk float roleChunk) = .nothing := by
  have hline : Sse.readLine w.toSseWorld (Sse.dataPrefix ++ dumpChunk float roleChunk) = .ok (.chunk roleChunk) :=
    readLine_chunk hloads float (writable_roleChunk _)
  rw [Sse.effect, hline]
  rfl

theorem effect_token (pos i : Nat) :
    Sse.effect w.toSseWorld pos (Sse.dataPrefix ++ dumpChunk float (tokenChunk i)) = .token (tokenEvent w pos i) := by
  have hline : Sse.readLine w.toSseWorld (Sse.dataPrefix ++ dumpChunk float (tokenChunk i)) =
      .ok (.chunk (tokenChunk i)) := readLine_chunk hloads float (writable_tokenChunk _ i)
  rw [Sse.effect, hline]
  rfl

theorem effect_finish (pos : Nat) :
    Sse.effect w.toSseWorld pos (Sse.dataPrefix ++ dumpChunk float finishChunk) = .nothing := by
  have hline : Sse.readLine w.toSseWorld (Sse.dataPrefix ++ dumpChunk float finishChunk) = .ok (.chunk finishChunk) :=
    readLine_chunk hloads float (writable_finishChunk _)
  rw [Sse.effect, hline]
  rfl

/-! ## The stream -/

/-- **The tokens of a stream from `start` on**, when what stands behind them carries none. -/
theorem streamTokens_tokens {lines : List Text}
    (hlines : ∀ pos, streamTokens w .clean pos lines = ⟨[], pos, none⟩) (pos : Nat) : ∀ n start,
    streamTokens w .clean (pos + start)
        (((List.range' start n).map (fun i => dumpChunk float (tokenChunk i))).flatMap eventLines ++ lines) =
      ⟨(List.range' start n).map (fun i => tokenEvent w (pos + i) i), pos + start + n, none⟩
  | 0, start => hlines (pos + start)
  | n + 1, start => by
    have hrest := streamTokens_tokens hlines pos n (start + 1)
    have hpos : pos + start + 1 + n = pos + start + (n + 1) := by omega
    rw [← Nat.add_assoc, hpos] at hrest
    rw [List.range'_succ, List.map_cons, List.flatMap_cons, List.append_assoc, streamTokens_event,
      effect_token hloads]
    simp only [hrest, List.map_cons]

/-- **The stream is read as its tokens**, in order and stamped by successive readings of the clock. -/
theorem streamTokens_gen (pos : Nat) (maxTokens : Int) :
    streamTokens w .clean pos (Text.splitlines (gen float maxTokens).flatten) =
      ⟨(List.range maxTokens.toNat).map (fun i => tokenEvent w (pos + i) i), pos + maxTokens.toNat, none⟩ := by
  have htail : ∀ p, streamTokens w .clean p ([dumpChunk float finishChunk, doneText].flatMap eventLines) = ⟨[], p, none⟩ := by
    intro p
    rw [List.flatMap_cons, streamTokens_event, effect_finish hloads, List.flatMap_cons, streamTokens_event, effect_done]
    rfl
  have htokens := streamTokens_tokens hloads float htail pos maxTokens.toNat 0
  rw [splitlines_gen, payloads, List.flatMap_cons, streamTokens_event, effect_role hloads, List.flatMap_append,
    List.range_eq_range']
  exact htokens

end

/-! ## One request -/

def clientWorld (clock : Nat → Nat) (describe : PyError → Exc) : ClientWorld := ⟨⟨Json.loads, clock⟩, describe⟩

/-- The request as it is sent, in any style of writing JSON. -/
def requestText (wire : Json.Style) (model : Text) (spec : RequestSpec) : Text :=
  Json.dumps wire (buildPayload model spec)

/-- A request answered in full: one timestamp for each token asked for, successive clock readings all of them. -/
structure Served (clock : Nat → Nat) (spec : RequestSpec) (tel : RequestTelemetry) : Prop where
  statusCode     : tel.statusCode = 200
  error          : tel.error = none
  ttftMs         : tel.ttftMs = some ((((clock 2 : Int) - clock 1 : Int) : ℚ) / 1000000)
  perTokenTsNs   : tel.perTokenTsNs = (List.range spec.outputTokens).map (fun i => clock (2 + i))
  completionTsNs : tel.completionTsNs = some (clock (2 + spec.outputTokens))

section
variable (float : ℚ → Text) (wire : Json.Style) (describe : PyError → Exc) (model : Text)

theorem answer_request (spec : RequestSpec) :
    answer float describe (requestText wire model spec) =
      .responds 200 (gen float spec.outputTokens).flatten
        (Text.splitlines (gen float spec.outputTokens).flatten) .clean := by
  rw [answer, requestText, chatCompletions_request]

/-- A stream read to its end is a telemetry's. -/
theorem sendOne_streamed {w : ClientWorld} {lines : List Text} {events : List TokenEvent} {pos : Nat}
    (h : streamTokens w .clean 2 lines = ⟨events, pos, none⟩) (body : Text) (spec : RequestSpec)
    (routedPool : Option Text) :
    sendOne w (.responds 200 body lines .clean) spec routedPool =
      VllmHttpClient.telemetry spec (w.clock 1) events (some (w.clock pos)) 200 none routedPool := by
  unfold sendOne
  simp only [h]
  rfl

theorem telemetry_served {clock : Nat → Nat} (hclock : Monotone clock) (describe : PyError → Exc) (spec : RequestSpec)
    (routedPool : Option Text) :
    ∃ tel, VllmHttpClient.telemetry spec (clock 1)
        ((List.range spec.outputTokens).map (fun i => tokenEvent (clientWorld clock describe) (2 + i) i))
        (some (clock (2 + spec.outputTokens))) 200 none routedPool = some tel ∧ Served clock spec tel := by
  have htimes : ((List.range spec.outputTokens).map
      (fun i => tokenEvent (clientWorld clock describe) (2 + i) i)).map (fun ev => ev.tsNs) =
      (List.range spec.outputTokens).map (fun i => clock (2 + i)) := by
    rw [List.map_map]
    rfl
  have hsorted : ((List.range spec.outputTokens).map (fun i => clock (2 + i))).Pairwise (· ≤ ·) :=
    List.pairwise_map.2 (List.pairwise_lt_range.imp (fun hlt => hclock (by omega)))
  have hhead : (List.range spec.outputTokens).head? = some 0 := by
    obtain ⟨n, hn⟩ : ∃ n, spec.outputTokens = n + 1 := ⟨spec.outputTokens - 1, by have := spec.outputBounds; omega⟩
    rw [hn, List.range_succ_eq_map]
    rfl
  have hstatus : 100 ≤ 200 ∧ 200 ≤ 599 := by decide
  unfold VllmHttpClient.telemetry
  simp only [htimes]
  rw [dif_pos ⟨hstatus, hsorted⟩]
  refine ⟨_, rfl, rfl, rfl, ?_, rfl, rfl⟩
  simp only [List.head?_map, hhead]
  rfl

/-- **A client's request to the mock is served in full.** -/
theorem sendOne_answer {clock : Nat → Nat} (hclock : Monotone clock) (spec : RequestSpec) (routedPool : Option Text) :
    ∃ tel, sendOne (clientWorld clock describe) (answer float describe (requestText wire model spec)) spec routedPool =
        some tel ∧ Served clock spec tel := by
  have hstream := streamTokens_gen (w := clientWorld clock describe) rfl float 2 spec.outputTokens
  rw [Int.toNat_natCast] at hstream
  obtain ⟨tel, htel, hserved⟩ := telemetry_served hclock describe spec routedPool
  rw [answer_request]
  exact ⟨tel, (sendOne_streamed hstream _ spec routedPool).trans htel, hserved⟩

/-- **What a client asks the mock for it is sent, and reads.**  In whatever style the request's JSON is written, the mock
answers 200, the client reads the tokens `tok0`, `tok1`, … up to the number in its request, and its telemetry has them
all. -/
theorem mock_exchange {clock : Nat → Nat} (hclock : Monotone clock) (spec : RequestSpec) (routedPool : Option Text) :
    ∃ body lines tel, answer float describe (requestText wire model spec) = .responds 200 body lines .clean ∧
      (streamTokens (clientWorld clock describe) .clean 2 lines).events =
        (List.range spec.outputTokens).map (fun i => tokenEvent (clientWorld clock describe) (2 + i) i) ∧
      sendOne (clientWorld clock describe) (answer float describe (requestText wire model spec)) spec routedPool =
        some tel ∧
      Served clock spec tel := by
  have hstream := streamTokens_gen (w := clientWorld clock describe) rfl float 2 spec.outputTokens
  rw [Int.toNat_natCast] at hstream
  obtain ⟨tel, hsend, hserved⟩ := sendOne_answer float wire describe model hclock spec routedPool
  exact ⟨_, _, tel, answer_request float wire describe model spec, by rw [hstream], hsend, hserved⟩

end

/-! ## A report -/

theorem meanOrZero_nonneg {values : List ℚ} (h : ∀ v ∈ values, 0 ≤ v) : 0 ≤ meanOrZero values := by
  unfold meanOrZero
  split
  · exact le_refl 0
  · exact div_nonneg (List.sum_nonneg h) (Nat.cast_nonneg _)

theorem percentile_nonneg {values : List ℚ} (h : ∀ v ∈ values, 0 ≤ v) {pct : ℚ} (h0 : 0 ≤ pct) (h1 : pct ≤ 1) :
    0 ≤ percentile values pct := by
  by_cases hne : values = []
  · rw [hne]
    exact le_refl 0
  · obtain ⟨⟨x, hx, hle⟩, -⟩ := OrderStatistics.quantile_mem hne h0
    rw [percentile_eq_quantile hne h0 h1]
    exact (h x hx).trans hle

theorem itlValues_nonneg : ∀ {ts : List Nat}, ts.Pairwise (· ≤ ·) → ∀ v ∈ itlValues ts, 0 ≤ v
  | [], _, v, hv => by cases hv
  | [_], _, v, hv => by cases hv
  | a :: b :: ts, h, v, hv => by
    obtain ⟨hfirst, hrest⟩ := List.pairwise_cons.1 h
    rcases List.mem_cons.1 hv with rfl | hv
    · have hle : (a : ℚ) ≤ b := by exact_mod_cast hfirst b List.mem_cons_self
      exact div_nonneg (sub_nonneg.2 hle) (by norm_num)
    · exact itlValues_nonneg hrest v hv

/-- **A report is built from telemetries whose first token is not before they were sent.** -/
theorem report_of_nonneg {telemetries : List RequestTelemetry} (h : ∀ t ∈ telemetries, ∀ v ∈ t.ttftMs, 0 ≤ v)
    (topology : Orchestrator.Topology) (reconcilePasses : Bool) (notes : List Text) :
    ∃ report, Orchestrator.CampaignReport.make? topology (Orchestrator.summary telemetries).nRequests
        (Orchestrator.summary telemetries).successRate (Orchestrator.summary telemetries).meanTtftMs
        (Orchestrator.summary telemetries).p95TtftMs (Orchestrator.summary telemetries).meanItlMs
        (Orchestrator.summary telemetries).cacheHitRate reconcilePasses notes = some report ∧
      report.topology = topology ∧ report.nRequests = telemetries.length ∧
      report.successRate = rateOf (fun t => t.statusCode = 200) telemetries ∧
      report.reconcilePasses = reconcilePasses ∧ report.notes = notes := by
  have httft : ∀ v ∈ (telemetries.filter (fun t => t.statusCode = 200)).filterMap (fun t => t.ttftMs), 0 ≤ v := by
    intro v hv
    obtain ⟨t, ht, hv⟩ := List.mem_filterMap.1 hv
    exact h t (List.mem_of_mem_filter ht) v hv
  have hitl : ∀ v ∈ (telemetries.filter (fun t => t.statusCode = 200)).flatMap (fun t => itlValues t.perTokenTsNs),
      0 ≤ v := by
    intro v hv
    obtain ⟨t, -, hv⟩ := List.mem_flatMap.1 hv
    exact itlValues_nonneg t.monotonic v hv
  have hrate : 0 ≤ (Orchestrator.summary telemetries).cacheHitRate ∧
      (Orchestrator.summary telemetries).cacheHitRate ≤ 1 := by
    rw [Orchestrator.summary_cacheHitRate]
    split <;> norm_num
  unfold Orchestrator.CampaignReport.make?
  rw [dif_pos ⟨rateOf_bounds _ telemetries, ⟨meanOrZero_nonneg httft,
    percentile_nonneg httft (by norm_num) (by norm_num), meanOrZero_nonneg hitl⟩, hrate⟩]
  exact ⟨_, rfl, rfl, rfl, rfl, rfl, rfl⟩

theorem rateOf_all {α : Type} {p : α → Bool} {l : List α} (h : ∀ a ∈ l, p a = true) :
    rateOf p l = if l = [] then 0 else 1 := by
  rw [rateOf, List.filter_eq_self.2 h]
  cases l with
  | nil => rfl
  | cons a l => exact div_self (Nat.cast_ne_zero.2 (Nat.succ_ne_zero l.length))

/-! ## A dry run -/

section
variable (float : ℚ → Text) (wire : Json.Style) (describe : PyError → Exc)

def benchModel : Text := "bench-model".toList

/-- The mock behind the orchestrator's client: at each place it answers the request sent there. -/
def mockVllmServer (label : Text) (clock : Nat → Nat → Nat) (specs : List RequestSpec) :
    Orchestrator.MockVllmServer where
  label := label
  world := fun i => clientWorld (clock i) describe
  server := fun i => answer float describe ((specs[i]?.map (requestText wire benchModel)).getD [])

variable {F : Type} [FloatArith F]

/-- **Every request of a replay is served**, to whatever pool it is routed. -/
theorem replay_served (sha256Hex : List UInt8 → Text) (label : Text) {clock : Nat → Nat → Nat}
    (hclock : ∀ i, Monotone (clock i)) (router : Router F) (specs : List RequestSpec) :
    ∃ telemetries,
      Orchestrator.replay sha256Hex (mockVllmServer float wire describe label clock specs) router specs =
        some telemetries ∧
      List.Forall₂ (fun p tel => Served (clock p.2) p.1 tel) specs.zipIdx telemetries := by
  have hlen := router.length_decisions sha256Hex specs
  have hfst : (specs.zip (Orchestrator.routeDecisions sha256Hex router specs)).map Prod.fst = specs :=
    List.map_fst_zip hlen.ge
  have hserved : ∀ p ∈ (specs.zip (Orchestrator.routeDecisions sha256Hex router specs)).zipIdx, ∃ tel,
      sendOne ((mockVllmServer float wire describe label clock specs).world p.2)
        ((mockVllmServer float wire describe label clock specs).server p.2) p.1.1
        (some (Orchestrator.routedPool p.1.2)) = some tel ∧ Served (clock p.2) p.1.1 tel := by
    intro p hp
    have hplace : specs[p.2]? = some p.1.1 := by
      have hzip := List.mem_zipIdx_iff_getElem?.1 hp
      rw [← hfst, List.getElem?_map, hzip]
      rfl
    obtain ⟨-, -, tel, -, -, hsend, htel⟩ := mock_exchange float wire describe benchModel (hclock p.2) p.1.1
      (some (Orchestrator.routedPool p.1.2))
    refine ⟨tel, ?_, htel⟩
    simp only [mockVllmServer, hplace, Option.map_some, Option.getD_some]
    exact hsend
  obtain ⟨telemetries, hreplay, hall⟩ := Collect.exists_mapM_forall₂ hserved
  refine ⟨telemetries, hreplay, ?_⟩
  rw [← congrArg List.zipIdx hfst, List.zipIdx_map, List.forall₂_map_left_iff]
  exact hall

/-- What the report of a dry run says: every scheduled request was served, and the gate passes unless there was none. -/
structure DryRun (label : Text) (topology : Orchestrator.Topology) (s : OpenLoopScheduler)
    (report : Orchestrator.CampaignReport) : Prop where
  topology        : report.topology = topology
  nRequests       : report.nRequests = s.nScheduled
  successRate     : report.successRate = if s.nScheduled = 0 then 0 else 1
  reconcilePasses : report.reconcilePasses = decide (s.nScheduled ≠ 0)
  cacheHitRate    : report.cacheHitRate = if s.nScheduled = 0 then 0 else 1
  notes           : report.notes = [Orchestrator.dryRunTag, "mock_vllm_label=".toList ++ label]

variable (sha256Hex : List UInt8 → Text) (label : Text)

theorem runTopology_mock {clock : Nat → Nat → Nat} (hclock : ∀ i, Monotone (clock i)) (t0Ns : Int) {draws : Nat → ℚ}
    {fuel : Nat} (topology : Orchestrator.Topology) {trace : Trace} (router : Router F) {s : OpenLoopScheduler}
    (hs : OpenLoopScheduler.make? draws fuel trace = some s) :
    ∃ report, Orchestrator.runTopology sha256Hex
        (mockVllmServer float wire describe label clock (s.specs t0Ns)) t0Ns draws fuel topology trace router =
        some report ∧ DryRun label topology s report := by
  obtain ⟨telemetries, hreplay, hall⟩ := replay_served float wire describe sha256Hex label hclock router (s.specs t0Ns)
  have hlen : telemetries.length = s.nScheduled := by
    rw [← hall.length_eq, List.length_zipIdx, OpenLoopScheduler.specs, List.length_map,
      OpenLoopScheduler.length_items]
  have htel : ∀ t ∈ telemetries, ∃ (i : Nat) (spec : RequestSpec), Served (clock i) spec t := by
    intro t ht
    obtain ⟨p, -, hp⟩ := Collect.forall₂_mem_right hall ht
    exact ⟨p.2, p.1, hp⟩
  have hnonneg : ∀ t ∈ telemetries, ∀ v ∈ t.ttftMs, 0 ≤ v := by
    intro t ht v hv
    obtain ⟨i, spec, hserved⟩ := htel t ht
    rw [hserved.ttftMs, Option.mem_some_iff] at hv
    rw [← hv]
    have hle : (clock i 1 : Int) ≤ clock i 2 := by exact_mod_cast hclock i (Nat.le_succ 1)
    exact div_nonneg (by exact_mod_cast sub_nonneg.2 hle) (by norm_num)
  have hall200 : ∀ t ∈ telemetries, decide (t.statusCode = 200) = true := by
    intro t ht
    obtain ⟨i, spec, hserved⟩ := htel t ht
    exact decide_eq_true hserved.statusCode
  have hempty : telemetries = [] ↔ s.nScheduled = 0 := by rw [← hlen, List.length_eq_zero_iff]
  obtain ⟨report, hmake, htopology, hn, hsuccess, hpasses, hnotes⟩ := report_of_nonneg hnonneg topology
    (decide (99 / 100 ≤ (Orchestrator.summary telemetries).successRate))
    [Orchestrator.dryRunTag, "mock_vllm_label=".toList ++ label]
  have hrun : Orchestrator.runTopology sha256Hex (mockVllmServer float wire describe label clock (s.specs t0Ns)) t0Ns
      draws fuel topology trace router = some report := by
    unfold Orchestrator.runTopology
    rw [hs, Option.bind_eq_bind, Option.bind_some, hreplay]
    exact hmake
  have hrate : (Orchestrator.summary telemetries).successRate = if s.nScheduled = 0 then 0 else 1 := by
    show rateOf (fun t : RequestTelemetry => decide (t.statusCode = 200)) telemetries = _
    rw [rateOf_all hall200]
    simp only [hempty]
  refine ⟨report, hrun, htopology, hn.trans hlen, hsuccess.trans hrate, ?_, ?_, hnotes⟩
  · rw [hpasses, hrate]
    by_cases hzero : s.nScheduled = 0
    · norm_num [hzero]
    · norm_num [hzero]
  · rw [(Orchestrator.runTopology_cacheHitRate hs hrun).2, hn, hlen]

/-- **A dry run of a campaign succeeds.**  Against the mock there is one report for each trace, in the order of the traces:
every scheduled request is served, whatever the router decides, and the gate passes unless nothing was scheduled. -/
theorem dry_run_succeeds (clock : Orchestrator.Topology → Nat → Nat → Nat) (hclock : ∀ t i, Monotone (clock t i))
    (t0Ns : Orchestrator.Topology → Int) {draws : Orchestrator.Topology → Nat → ℚ} {fuel : Nat}
    {traces : List (Orchestrator.Topology × Trace)} (routerFactory : Orchestrator.Topology → Router F)
    (scheduler : Orchestrator.Topology → OpenLoopScheduler)
    (hs : ∀ p ∈ traces, OpenLoopScheduler.make? (draws p.1) fuel p.2 = some (scheduler p.1)) :
    ∃ reports, Orchestrator.runCampaign sha256Hex
        (fun t => mockVllmServer float wire describe label (clock t) ((scheduler t).specs (t0Ns t))) t0Ns draws fuel
        traces routerFactory = some reports ∧
      List.Forall₂ (fun p report => DryRun label p.1 (scheduler p.1) report) traces reports :=
  Collect.exists_mapM_forall₂ (fun p hp =>
    runTopology_mock float wire describe sha256Hex label (hclock p.1) (t0Ns p.1) p.1 (routerFactory p.1) (hs p hp))

end

/-! ## Two topologies -/

open VllmHttpClient (tickingWorld tickingWorld_mono helloSpec helloTrace)

/-- The digits of a float, of which there are none here. -/
def halves (_ : ℚ) : Text := "0.5".toList

theorem hello_exchange :
    ∃ body lines tel,
      answer halves tickingWorld.describe (requestText (pythonStyle halves) benchModel helloSpec) =
        .responds 200 body lines .clean ∧
      (streamTokens (clientWorld tickingWorld.clock tickingWorld.describe) .clean 2 lines).events =
        (List.range 8).map
          (fun i => tokenEvent (clientWorld tickingWorld.clock tickingWorld.describe) (2 + i) i) ∧
      sendOne (clientWorld tickingWorld.clock tickingWorld.describe)
        (answer halves tickingWorld.describe (requestText (pythonStyle halves) benchModel helloSpec)) helloSpec none =
        some tel ∧
      Served tickingWorld.clock helloSpec tel :=
  mock_exchange halves (pythonStyle halves) tickingWorld.describe benchModel tickingWorld_mono helloSpec none

def twoTopologies : List (Orchestrator.Topology × Trace) := [(.colocated, helloTrace), (.disagg, helloTrace)]

theorem two_topologies_succeed :
    ∃ reports, Orchestrator.runCampaign Router.helloHash
        (fun _ => mockVllmServer halves (pythonStyle halves) tickingWorld.describe "mock-vllm".toList
          (fun _ => tickingWorld.clock) (VllmHttpClient.helloScheduler.specs 0)) (fun _ => 0) (fun _ _ => 1) 0 twoTopologies
        (fun _ => Orchestrator.coldRouter) = some reports ∧
      List.Forall₂ (fun p report => DryRun "mock-vllm".toList p.1 VllmHttpClient.helloScheduler report) twoTopologies
        reports := by
  refine dry_run_succeeds halves (pythonStyle halves) tickingWorld.describe Router.helloHash "mock-vllm".toList
    (fun _ _ => tickingWorld.clock) (fun _ _ => tickingWorld_mono) (fun _ => 0)
    (fun _ => Orchestrator.coldRouter) (fun _ => VllmHttpClient.helloScheduler) ?_
  intro p hp
  rcases List.mem_cons.1 hp with rfl | hp
  · exact Orchestrator.helloScheduler_eq
  · rw [List.mem_singleton.1 hp]
    exact Orchestrator.helloScheduler_eq

end MockVllm
end GoodputLab
