import GoodputLab.Proxy
/-!
# ProxyStatus — the status a proxied completion has

An error of the prefill stage is passed on, and so is whatever the decode stage answers to a client that does not stream
and whose handler does not raise.  A client that streams is always answered 200 and an exception is always a 500
(`respond_statusCode`), so the status is preserved exactly when these happen to be the decode stage's own
(`status_preserved_iff`).
-/
namespace GoodputLab
namespace Proxy

/-- The status the client should see: the prefill stage's error, or else what the decode stage answered. -/
def upstreamStatus (w : World) : Nat := if 400 ≤ w.prefill.statusCode then w.prefill.statusCode else w.decode.statusCode

def Route.isChat : Route → Bool
  | .chatCompletions => true
  | .completions     => false

/-! ## The inputs of a handler -/

/-- The body is JSON that a dictionary can be made of. -/
def Readable (w : World) (rawBody : Text) (body : Json) (fields : Body) : Prop :=
  w.loads rawBody = .ok body ∧ body.dict = some fields

def Streams (body : Json) : Prop := ∃ v, body.get "stream".toList .null = .ok v ∧ v.truthy = true

/-- The decode stage's body cannot be built: the prefill response is JSON but no object, or the client's body is none. -/
def DecodeBodyRaises (w : World) (body : Json) : Prop :=
  (∃ e, kvParams w.loads w.prefill.content = .error e) ∨ ∃ e, body.get "stream".toList .null = .error e

/-- The sentinel meets a response of another shape than it expects. -/
def SentinelRaises (w : World) (route : Route) : Prop :=
  ∃ e, maybeAssertFirstToken w.loads w.assertFirstToken route.isChat w.decode.content = .error e

/-! ## The response without the sends -/

def decodeAnswer (w : World) (route : Route) (body : Json) (fields : Body) (requestId : Text) :
    Except PyError ProxyResponse := do
  let _ ← decodeBody w.loads fields w.prefill.content
  let stream ← body.get "stream".toList .null
  if stream.truthy then pure ⟨200, w.decode.content, some "text/event-stream".toList, some requestId⟩
  else do
    let _ ← maybeAssertFirstToken w.loads w.assertFirstToken route.isChat w.decode.content
    pure (toResponse w.decode requestId)

def answer (w : World) (route : Route) (rawBody requestId : Text) : Except PyError ProxyResponse := do
  let body ← w.loads rawBody
  let fields ← body.dict.elim (.error .typeError) .ok
  if 400 ≤ w.prefill.statusCode then pure (toResponse w.prefill requestId)
  else decodeAnswer w route body fields requestId

theorem post_bind {α : Type} (stage : Stage) (path : Text) (body : Body) (requestId : Text) (resp : UpstreamResponse)
    (f : UpstreamResponse → Handler α) (sent : List Sent) :
    (post stage path body requestId resp >>= f) sent = f resp (sent ++ [⟨stage, path, body, requestId⟩]) := rfl

theorem runDecode_fst (w : World) (route : Route) (path : Text) (body : Json) (fields : Body) (requestId : Text)
    (sent : List Sent) :
    (runDecode w route.isChat path body fields w.prefill.content requestId sent).1 =
      decodeAnswer w route body fields requestId := by
  unfold runDecode decodeAnswer
  cases decodeBody w.loads fields w.prefill.content with
  | error e => rfl
  | ok fields' =>
    cases body.get "stream".toList .null with
    | error e => rfl
    | ok v =>
      rw [Act.lift_ok_bind, Act.lift_ok_bind, Act.except_ok_bind, Act.except_ok_bind]
      split
      · rfl
      · rw [post_bind]
        cases maybeAssertFirstToken w.loads w.assertFirstToken route.isChat w.decode.content with
        | error e => rfl
        | ok u => rfl

/-- **The sends do not touch the response.** -/
theorem handler_fst (w : World) (route : Route) (rawBody requestId : Text) :
    (route.handler w rawBody requestId []).1 = answer w route rawBody requestId := by
  have hcomplete : ∀ path, (complete w route.isChat path rawBody requestId []).1 = answer w route rawBody requestId := by
    intro path
    unfold complete answer
    cases w.loads rawBody with
    | error e => rfl
    | ok body =>
      rw [Act.lift_ok_bind, Act.except_ok_bind]
      cases body.dict with
      | none => rfl
      | some fields =>
        rw [Option.elim_some, Act.lift_ok_bind, Act.except_ok_bind, post_bind]
        split
        · rfl
        · exact runDecode_fst w route path body fields requestId _
  cases route with
  | chatCompletions => exact hcomplete _
  | completions => exact hcomplete _

/-! ## The status -/

def statusOf : Except PyError ProxyResponse → Nat
  | .ok r    => r.statusCode
  | .error _ => 500

theorem respond_statusCode (w : World) (route : Route) (rawBody requestId : Text) :
    (respond w route rawBody requestId).statusCode = statusOf (answer w route rawBody requestId) := by
  rw [respond, handler_fst]
  cases answer w route rawBody requestId <;> rfl

theorem answer_unreadable (w : World) (route : Route) (rawBody requestId : Text)
    (h : ¬ ∃ body fields, Readable w rawBody body fields) : statusOf (answer w route rawBody requestId) = 500 := by
  unfold answer
  cases hl : w.loads rawBody with
  | error e => rfl
  | ok body =>
    rw [Act.except_ok_bind]
    cases hd : body.dict with
    | none => rfl
    | some fields => exact absurd ⟨body, fields, hl, hd⟩ h

theorem answer_readable (w : World) (route : Route) (rawBody requestId : Text) {body : Json} {fields : Body}
    (h : Readable w rawBody body fields) :
    answer w route rawBody requestId =
      if 400 ≤ w.prefill.statusCode then .ok (toResponse w.prefill requestId)
      else decodeAnswer w route body fields requestId := by
  rw [answer, h.1, Act.except_ok_bind, h.2, Option.elim_some, Act.except_ok_bind]
  rfl

theorem decodeBody_ok {loads : Text → Except PyError Json} {text : Text} {kv : Json}
    (h : kvParams loads text = .ok kv) (body : Body) : ∃ fields, decodeBody loads body text = .ok fields := by
  rw [decodeBody, h]
  exact ⟨_, rfl⟩

theorem decodeAnswer_raises (w : World) (route : Route) (body : Json) (fields : Body) (requestId : Text)
    (h : DecodeBodyRaises w body) : statusOf (decodeAnswer w route body fields requestId) = 500 := by
  unfold decodeAnswer
  cases hkv : kvParams w.loads w.prefill.content with
  | error e =>
    rw [decodeBody, hkv]
    rfl
  | ok kv =>
    obtain ⟨fields', hf⟩ := decodeBody_ok hkv fields
    rcases h with ⟨e, he⟩ | ⟨e, he⟩
    · rw [hkv] at he
      cases he
    · rw [hf, he]
      rfl

theorem decodeAnswer_of_not_raises (w : World) (route : Route) (body : Json) (fields : Body) (requestId : Text)
    (h : ¬ DecodeBodyRaises w body) :
    (Streams body → statusOf (decodeAnswer w route body fields requestId) = 200) ∧
      (¬ Streams body → SentinelRaises w route → statusOf (decodeAnswer w route body fields requestId) = 500) ∧
      (¬ Streams body → ¬ SentinelRaises w route →
        statusOf (decodeAnswer w route body fields requestId) = w.decode.statusCode) := by
  unfold decodeAnswer
  cases hkv : kvParams w.loads w.prefill.content with
  | error e => exact absurd (Or.inl ⟨e, hkv⟩) h
  | ok kv =>
    obtain ⟨fields', hf⟩ := decodeBody_ok hkv fields
    cases hget : body.get "stream".toList .null with
    | error e => exact absurd (Or.inr ⟨e, hget⟩) h
    | ok v =>
      rw [hf, Act.except_ok_bind, Act.except_ok_bind]
      have hstreams : Streams body ↔ v.truthy = true := by
        constructor
        · rintro ⟨v', hv', ht⟩
          rw [hget] at hv'
          cases hv'
          exact ht
        · intro ht
          exact ⟨v, hget, ht⟩
      rw [hstreams]
      by_cases hv : v.truthy = true
      · rw [if_pos hv]
        exact ⟨fun _ => rfl, fun hno => absurd hv hno, fun hno => absurd hv hno⟩
      · rw [if_neg hv]
        refine ⟨fun hyes => absurd hyes hv, fun _ hs => ?_, fun _ hs => ?_⟩
        · obtain ⟨e, he⟩ := hs
          rw [he]
          rfl
        · cases hm : maybeAssertFirstToken w.loads w.assertFirstToken route.isChat w.decode.content with
          | error e => exact absurd ⟨e, hm⟩ hs
          | ok u => rfl

/-- When the proxy's status is the upstreams': with a body it can read, the prefill stage failed, or else the decode
stage answered what the proxy answers by itself, 500 when the handler raises and 200 when the client streams; with a
body it cannot read, the upstreams' status is the proxy's 500. -/
def Preserves (w : World) (route : Route) (rawBody : Text) : Prop :=
  ((¬ ∃ body fields, Readable w rawBody body fields) → upstreamStatus w = 500) ∧
    ∀ body fields, Readable w rawBody body fields → w.prefill.statusCode < 400 →
      (DecodeBodyRaises w body → w.decode.statusCode = 500) ∧
      (¬ DecodeBodyRaises w body → Streams body → w.decode.statusCode = 200) ∧
      (¬ DecodeBodyRaises w body → ¬ Streams body → SentinelRaises w route → w.decode.statusCode = 500)

theorem decodeAnswer_status_iff (w : World) (route : Route) (body : Json) (fields : Body) (requestId : Text) :
    statusOf (decodeAnswer w route body fields requestId) = w.decode.statusCode ↔
      (DecodeBodyRaises w body → w.decode.statusCode = 500) ∧
      (¬ DecodeBodyRaises w body → Streams body → w.decode.statusCode = 200) ∧
      (¬ DecodeBodyRaises w body → ¬ Streams body → SentinelRaises w route → w.decode.statusCode = 500) := by
  by_cases hr : DecodeBodyRaises w body
  · rw [decodeAnswer_raises w route body fields requestId hr]
    constructor
    · intro h
      exact ⟨fun _ => h.symm, fun hno => absurd hr hno, fun hno => absurd hr hno⟩
    · intro h
      exact (h.1 hr).symm
  · obtain ⟨hstream, hsentinel, hplain⟩ := decodeAnswer_of_not_raises w route body fields requestId hr
    constructor
    · intro h
      refine ⟨fun hyes => absurd hyes hr, fun _ hs => ?_, fun _ hs he => ?_⟩
      · rw [← h, hstream hs]
      · rw [← h, hsentinel hs he]
    · rintro ⟨-, h200, h500⟩
      by_cases hs : Streams body
      · rw [hstream hs, h200 hr hs]
      · by_cases he : SentinelRaises w route
        · rw [hsentinel hs he, h500 hr hs he]
        · exact hplain hs he

theorem Readable.unique {w : World} {rawBody : Text} {body body' : Json} {fields fields' : Body}
    (h : Readable w rawBody body fields) (h' : Readable w rawBody body' fields') : body' = body := by
  have hsame := h'.1.symm.trans h.1
  cases hsame
  rfl

/-- **The status is preserved exactly when the proxy's own status for a stream or an exception happens to be the decode
stage's.** -/
theorem status_preserved_iff (w : World) (route : Route) (rawBody requestId : Text) :
    (respond w route rawBody requestId).statusCode = upstreamStatus w ↔ Preserves w route rawBody := by
  rw [respond_statusCode]
  unfold Preserves
  by_cases hread : ∃ body fields, Readable w rawBody body fields
  · obtain ⟨body, fields, hbf⟩ := hread
    rw [answer_readable w route rawBody requestId hbf, upstreamStatus]
    by_cases hp : 400 ≤ w.prefill.statusCode
    · rw [if_pos hp, if_pos hp]
      refine ⟨fun _ => ⟨fun hno => absurd ⟨body, fields, hbf⟩ hno, fun _ _ _ hlt => ?_⟩, fun _ => rfl⟩
      exact absurd hp (not_le.2 hlt)
    · rw [if_neg hp, if_neg hp, decodeAnswer_status_iff]
      constructor
      · intro h
        refine ⟨fun hno => absurd ⟨body, fields, hbf⟩ hno, fun body' fields' hbf' _ => ?_⟩
        rw [hbf.unique hbf']
        exact h
      · intro h
        exact h.2 body fields hbf (not_le.1 hp)
  · rw [answer_unreadable w route rawBody requestId hread]
    constructor
    · intro h
      exact ⟨fun _ => h.symm, fun body fields hbf => absurd ⟨body, fields, hbf⟩ hread⟩
    · intro h
      exact (h.1 hread).symm

/-! ## A failed decode stage behind a stream -/

def streamingText : Text := "\x7b\"stream\": true\x7d".toList

def decodeDown : World where
  assertFirstToken := []
  loads := fun t =>
    if t = streamingText then .ok (.obj [("stream".toList, .bool true)])
    else if t = "\x7b\x7d".toList then .ok (.obj []) else .error .valueError
  prefill := ⟨200, "\x7b\x7d".toList, some "application/json".toList⟩
  decode := ⟨503, "no capacity".toList, some "text/plain".toList⟩

/-- **A decode stage's 503 reaches a streaming client as a 200.** -/
theorem stream_hides_decode_error :
    (respond decodeDown .chatCompletions streamingText "gl-1".toList).statusCode = 200 ∧
      upstreamStatus decodeDown = 503 := by
  decide

end Proxy
end GoodputLab
