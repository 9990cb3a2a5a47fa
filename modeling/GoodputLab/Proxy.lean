import GoodputLab.Base.Act
import GoodputLab.Base.Json
/-!
# Proxy — the disaggregated front door (`scripts/disagg_proxy.py`)

A completion request goes to the prefill stage capped at one token, then, with the KV handle of the prefill response, to
the decode stage.  What the upstreams answer and what the JSON decoder makes of a text are parameters; the requests sent
to the upstreams are the state, so they outlive an exception.
-/
namespace GoodputLab
namespace Proxy

inductive Stage
  | prefill | decode
deriving DecidableEq, Repr

structure UpstreamResponse where
  statusCode  : Nat
  content     : Text
  contentType : Option Text
deriving DecidableEq

structure ProxyResponse where
  statusCode : Nat
  content    : Text
  mediaType  : Option Text
  requestId  : Option Text
deriving DecidableEq

abbrev Body := List (Json × Json)

structure Sent where
  stage     : Stage
  path      : Text
  body      : Body
  requestId : Text

/-- What the handler is given from outside: the sentinel option, the JSON decoder and the answer of each stage. -/
structure World where
  assertFirstToken : Text
  loads            : Text → Except PyError Json
  prefill          : UpstreamResponse
  decode           : UpstreamResponse

abbrev Handler (α : Type) := Act PyError (List Sent) α

def post (stage : Stage) (path : Text) (body : Body) (requestId : Text) (resp : UpstreamResponse) :
    Handler UpstreamResponse :=
  fun sent => (.ok resp, sent ++ [⟨stage, path, body, requestId⟩])

/-! ## The two request bodies -/

def prefillBody (body : Body) : Body :=
  let body := setKey "max_tokens".toList (.num 1) body
  let body := if hasKey "max_completion_tokens".toList body then setKey "max_completion_tokens".toList (.num 1) body else body
  let body := setKey "stream".toList (.bool false) body
  let body := popKey "stream_options".toList body
  setKey "kv_transfer_params".toList
    (.obj [("do_remote_decode".toList, .bool true), ("do_remote_prefill".toList, .bool false),
      ("remote_engine_id".toList, .null), ("remote_block_ids".toList, .null), ("remote_host".toList, .null),
      ("remote_port".toList, .null)]) body

/-- The KV handle of a prefill response: nothing when its text is not JSON. -/
def kvParams (loads : Text → Except PyError Json) (prefillText : Text) : Except PyError Json :=
  match (loads prefillText).bind (fun payload => payload.get "kv_transfer_params".toList .null) with
  | .error e => if e.isValueError then .ok .null else .error e
  | .ok kv   => .ok kv

def decodeBody (loads : Text → Except PyError Json) (body : Body) (prefillText : Text) : Except PyError Body := do
  let kv ← kvParams loads prefillText
  pure (if kv.truthy then setKey "kv_transfer_params".toList kv body else body)

/-! ## The sentinel -/

/-- The comparison with the expected first token, which only logs. -/
def compareFirstToken (loads : Text → Except PyError Json) (expected : Text) (chat : Bool) (text : Text) :
    Except PyError Unit := do
  let payload ← loads text
  let choices ← payload.get "choices".toList .null
  let choices := choices.or (.arr [])
  if !choices.truthy then pure ()
  else
    let firstChoice ← choices.first
    let firstToken ←
      if chat then do
        let message ← firstChoice.get "message".toList (.obj [])
        message.get "content".toList (.str [])
      else firstChoice.get "text".toList (.str [])
    let firstToken := firstToken.or (.str [])
    if firstToken.truthy then do
      let _ ← firstToken.startsWith expected
      pure ()
    else pure ()

def maybeAssertFirstToken (loads : Text → Except PyError Json) (expected : Text) (chat : Bool) (text : Text) :
    Except PyError Unit :=
  if expected = [] then .ok ()
  else match compareFirstToken loads expected chat text with
    | .error e => if e.isValueError || e = .keyError || e = .indexError then .ok () else .error e
    | .ok u    => .ok u

/-! ## The completion routes -/

def toResponse (resp : UpstreamResponse) (requestId : Text) : ProxyResponse :=
  ⟨resp.statusCode, resp.content, resp.contentType, some requestId⟩

/-- The decode stage: relayed as it comes when the client streams, in one piece when not. -/
def runDecode (w : World) (chat : Bool) (path : Text) (body : Json) (fields : Body) (prefillText requestId : Text) :
    Handler ProxyResponse := do
  let decodeBody ← Act.lift (decodeBody w.loads fields prefillText)
  let stream ← Act.lift (body.get "stream".toList .null)
  if stream.truthy then
    -- the response is built before the upstream has answered: its status is the default
    let resp ← post .decode path decodeBody requestId w.decode
    pure ⟨200, resp.content, some "text/event-stream".toList, some requestId⟩
  else
    let resp ← post .decode path decodeBody requestId w.decode
    Act.lift (maybeAssertFirstToken w.loads w.assertFirstToken chat resp.content)
    pure (toResponse resp requestId)

def complete (w : World) (chat : Bool) (path : Text) (rawBody requestId : Text) : Handler ProxyResponse := do
  let body ← Act.lift (w.loads rawBody)
  let fields ← Act.lift (body.dict.elim (.error .typeError) .ok)
  let prefillResp ← post .prefill path (prefillBody fields) requestId w.prefill
  if 400 ≤ prefillResp.statusCode then pure (toResponse prefillResp requestId)
  else runDecode w chat path body fields prefillResp.content requestId

inductive Route
  | chatCompletions | completions
deriving DecidableEq, Repr

def chatCompletions (w : World) : Text → Text → Handler ProxyResponse := complete w true "/v1/chat/completions".toList

def completions (w : World) : Text → Text → Handler ProxyResponse := complete w false "/v1/completions".toList

def Route.handler (w : World) : Route → Text → Text → Handler ProxyResponse
  | .chatCompletions => Proxy.chatCompletions w
  | .completions     => Proxy.completions w

/-- What the client gets: the handler's response, or the server's 500 for an exception. -/
def respond (w : World) (route : Route) (rawBody requestId : Text) : ProxyResponse :=
  match (route.handler w rawBody requestId []).1 with
  | .ok resp => resp
  | .error _ => ⟨500, "Internal Server Error".toList, some "text/plain".toList, none⟩

/-! ## The metrics route -/

/-- One upstream's exposition under a comment that names it; `error` is a transport failure and its text. -/
def fetchMetrics (label : Text) : Except Text UpstreamResponse → Text
  | .error exc => "# [".toList ++ label ++ "] upstream error: ".toList ++ exc ++ ['\n']
  | .ok r      =>
    if r.statusCode ≠ 200 then
      "# [".toList ++ label ++ "] upstream error status=".toList ++ Text.ofNat r.statusCode ++ ['\n']
    else "# === [".toList ++ label ++ "] ===\n".toList ++ r.content

def metrics (prefill decode : Except Text UpstreamResponse) : Text :=
  fetchMetrics "prefill".toList prefill ++ ['\n'] ++ fetchMetrics "decode".toList decode

end Proxy
end GoodputLab
