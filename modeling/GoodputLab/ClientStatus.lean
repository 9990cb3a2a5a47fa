import GoodputLab.Client
import GoodputLab.SseLines
/-!
# ClientStatus — which requests count as successes

The telemetry of an answered request has the answer's status, whatever becomes of the stream (`sendOne_status`): a
protocol error ends it like a clean end, and any other exception keeps the status already read.  So a telemetry with
status 200 is a success exactly when the server does not break a stream it has answered 200 to (`success_iff`).
-/
namespace GoodputLab
namespace VllmHttpClient

/-! ## The stream -/

def LineRaises (w : ClientWorld) (line : Text) : Prop := ∃ e, Sse.parseSseLines w.toSseWorld 0 [line] = .error e

theorem lineRaises_iff (w : ClientWorld) (line : Text) (pos : Nat) :
    LineRaises w line ↔ ∃ e, Sse.effect w.toSseWorld pos line = .raises e := by
  rw [LineRaises, Sse.parseSseLines_cons, Sse.effect_at w.toSseWorld pos]
  cases Sse.effect w.toSseWorld 0 line with
  | raises e => simp [Sse.Effect.at]
  | ends => simp [Sse.Effect.at]
  | nothing => simp [Sse.Effect.at, Sse.parseSseLines]
  | token ev => simp [Sse.Effect.at, Sse.parseSseLines, Except.map]

/-- **The stream takes a line and goes on**, after the parser has ended too. -/
theorem streamTokens_cons (w : ClientWorld) (ending : Ending) (pos : Nat) (line : Text) (lines : List Text) :
    streamTokens w ending pos (line :: lines) =
      match Sse.effect w.toSseWorld pos line with
      | .raises e => ⟨[], pos, some (w.describe e)⟩
      | .token ev =>
        ⟨ev :: (streamTokens w ending (pos + 1) lines).events, (streamTokens w ending (pos + 1) lines).pos,
          (streamTokens w ending (pos + 1) lines).failure⟩
      | _         => streamTokens w ending pos lines := by
  rw [streamTokens, Sse.parseSseLines_cons]
  cases Sse.effect w.toSseWorld pos line <;> rfl

/-- **A stream delivers no exception when the parser raises on no line and the transport did not fail, a protocol error
apart.** -/
theorem streamTokens_failure (w : ClientWorld) (ending : Ending) : ∀ (lines : List Text) (pos : Nat),
    (streamTokens w ending pos lines).failure = none ↔
      (∀ line ∈ lines, ¬ LineRaises w line) ∧ ∀ exc, ending ≠ .fails exc
  | [], pos => by
    cases ending <;> simp [streamTokens]
  | line :: lines, pos => by
    rw [List.forall_mem_cons, lineRaises_iff w line pos, streamTokens_cons]
    cases Sse.effect w.toSseWorld pos line with
    | raises e => simp
    | ends => simp [streamTokens_failure w ending lines pos]
    | nothing => simp [streamTokens_failure w ending lines pos]
    | token ev => simp [streamTokens_failure w ending lines (pos + 1)]

/-! ## The telemetry -/

theorem telemetry_some {spec : RequestSpec} {enqueueTs : Nat} {events : List TokenEvent} {completionTs : Option Nat}
    {status : Nat} {error : Option Text} {routedPool : Option Text} {tel : RequestTelemetry}
    (h : telemetry spec enqueueTs events completionTs status error routedPool = some tel) :
    tel.statusCode = status ∧ tel.error = error ∧ tel.completionTsNs = completionTs ∧
      tel.perTokenTsNs = events.map (fun ev => ev.tsNs) := by
  unfold telemetry at h
  simp only at h
  split at h
  · cases h
    exact ⟨rfl, rfl, rfl, rfl⟩
  · cases h

theorem statusOr599_of_pos {status : Nat} (h : status ≠ 0) : statusOr599 status = status := if_neg h

/-- **An answered request has the answer's status.** -/
theorem sendOne_status {w : ClientWorld} {spec : RequestSpec} {routedPool : Option Text} {tel : RequestTelemetry}
    {status : Nat} {body : Text} {lines : List Text} {ending : Ending} (hs : status ≠ 0)
    (h : sendOne w (.responds status body lines ending) spec routedPool = some tel) : tel.statusCode = status := by
  unfold sendOne at h
  simp only at h
  split at h
  · split at h
    · exact (telemetry_some h).1
    · exact (telemetry_some h).1.trans (statusOr599_of_pos hs)
    · exact (telemetry_some h).1.trans (statusOr599_of_pos hs)
  · split at h
    · exact (telemetry_some h).1
    · exact (telemetry_some h).1.trans (statusOr599_of_pos hs)

theorem responds_of_status {w : ClientWorld} {server : Server} {spec : RequestSpec} {routedPool : Option Text}
    {tel : RequestTelemetry} (h : sendOne w server spec routedPool = some tel) (hst : tel.statusCode = 200) :
    ∃ body lines ending, server = .responds 200 body lines ending := by
  cases server with
  | unreachable exc =>
    have htel : telemetry spec (w.clock 1) [] none 599 (some exc.text) routedPool = some tel := h
    rw [(telemetry_some htel).1] at hst
    cases hst
  | responds status body lines ending =>
    by_cases hs : status = 0
    · -- a zero status is replaced by 599, or does not validate
      subst hs
      exfalso
      unfold sendOne at h
      simp only at h
      split at h
      · rename_i hle
        omega
      · split at h
        · rw [(telemetry_some h).1] at hst
          cases hst
        · rw [(telemetry_some h).1] at hst
          cases hst
    · rw [sendOne_status hs h] at hst
      subst hst
      exact ⟨body, lines, ending, rfl⟩

theorem sendOne_clean {w : ClientWorld} {spec : RequestSpec} {routedPool : Option Text} {tel : RequestTelemetry}
    {body : Text} {lines : List Text} (hlines : ∀ line ∈ lines, ¬ LineRaises w line)
    (h : sendOne w (.responds 200 body lines .clean) spec routedPool = some tel) :
    tel.error = none ∧ tel.completionTsNs = some (w.clock (streamTokens w .clean 2 lines).pos) := by
  have hnone : (streamTokens w .clean 2 lines).failure = none :=
    (streamTokens_failure w .clean lines 2).2 ⟨hlines, fun exc he => by cases he⟩
  unfold sendOne at h
  simp only at h
  split at h
  · rename_i hle
    omega
  · rw [hnone] at h
    exact ⟨(telemetry_some h).2.1, (telemetry_some h).2.2.1⟩

/-- A stream that ended without a transport or parsing error. -/
def EndedCleanly (w : ClientWorld) (lines : List Text) (ending : Ending) : Prop :=
  ending = .clean ∧ ∀ line ∈ lines, ¬ LineRaises w line

/-- What a success is: the response was 200, its stream ended cleanly, there is no error, and the completion time was
read after the last line. -/
def Success (w : ClientWorld) (server : Server) (tel : RequestTelemetry) : Prop :=
  ∃ body lines, server = .responds 200 body lines .clean ∧ EndedCleanly w lines .clean ∧ tel.error = none ∧
    tel.completionTsNs = some (w.clock (streamTokens w .clean 2 lines).pos)

/-- **Status 200 means success exactly when the server does not break a stream it answered 200 to.** -/
theorem success_iff (w : ClientWorld) (server : Server) (spec : RequestSpec) (routedPool : Option Text)
    (tel : RequestTelemetry) (h : sendOne w server spec routedPool = some tel) :
    (tel.statusCode = 200 → Success w server tel) ↔
      ∀ body lines ending, server = .responds 200 body lines ending → EndedCleanly w lines ending := by
  constructor
  · rintro hsuccess body lines ending rfl
    obtain ⟨body', lines', heq, hclean, -⟩ := hsuccess (sendOne_status (by decide) h)
    cases heq
    exact hclean
  · intro hclean hst
    obtain ⟨body, lines, ending, rfl⟩ := responds_of_status h hst
    obtain ⟨rfl, hlines⟩ := hclean body lines ending rfl
    obtain ⟨herror, hcompletion⟩ := sendOne_clean hlines h
    exact ⟨body, lines, rfl, ⟨rfl, hlines⟩, herror, hcompletion⟩

/-! ## A stream cut short -/

def tokenChunk : Text := "chunk".toList

def tickingWorld : ClientWorld where
  loads := fun t =>
    if t = tokenChunk then
      .ok (.obj [("choices".toList, .arr [.obj [("delta".toList, .obj [("content".toList, .str "hi".toList)])]])])
    else .error .jsonDecodeError
  clock := fun n => 1000000 * n
  describe := fun _ => ⟨"AttributeError".toList, []⟩

def helloSpec : RequestSpec where
  requestId := "chat-00000".toList
  sloClass := .interactive
  workload := .chat
  promptTokens := 3
  outputTokens := 8
  promptText := "hello".toList
  idNonempty := by decide
  promptBounds := by decide
  outputBounds := by decide

/-- One token of eight, then the peer closes the connection in the middle of the chunked body. -/
def cutShort : Server :=
  .responds 200 [] ["data: ".toList ++ tokenChunk]
    (.remoteProtocolError ⟨"RemoteProtocolError".toList, "peer closed connection".toList⟩)

def cleanEnd : Server := .responds 200 [] ["data: ".toList ++ tokenChunk, "data: [DONE]".toList] .clean

theorem success_iff_clean_end :
    ∃ tel, sendOne tickingWorld cleanEnd helloSpec none = some tel ∧
      ((tel.statusCode = 200 → Success tickingWorld cleanEnd tel) ↔
        ∀ body lines ending, cleanEnd = .responds 200 body lines ending → EndedCleanly tickingWorld lines ending) :=
  ⟨_, rfl, success_iff tickingWorld cleanEnd helloSpec none _ rfl⟩

/-- **A stream cut short counts as a success.** -/
theorem cut_short_counts :
    ∃ tel, sendOne tickingWorld cutShort helloSpec none = some tel ∧ tel.statusCode = 200 ∧ tel.error = none ∧
      tel.perTokenTsNs.length = 1 ∧ ¬ Success tickingWorld cutShort tel := by
  refine ⟨_, rfl, rfl, rfl, rfl, ?_⟩
  rintro ⟨body, lines, heq, -⟩
  cases heq

end VllmHttpClient
end GoodputLab
