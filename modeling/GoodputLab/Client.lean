import GoodputLab.Sse
import GoodputLab.Trace
/-!
# Client — one streaming request (`loadgen/client.py`)

The server is whatever `Server` says: it fails before its status line, or answers a status and lines and then ends the
stream or breaks it.  The line reader takes a protocol error for the end of the stream; every other exception ends in
the request's telemetry, under the status already read or else 599.
-/
namespace GoodputLab

structure Exc where
  typeName : Text
  message  : Text

def Exc.text (e : Exc) : Text := e.typeName ++ ": ".toList ++ e.message

inductive Ending
  | clean
  | remoteProtocolError (exc : Exc)
  | fails (exc : Exc)

inductive Server
  | unreachable (exc : Exc)
  | responds (status : Nat) (body : Text) (lines : List Text) (ending : Ending)

structure ClientWorld extends SseWorld where
  describe : PyError → Exc

namespace VllmHttpClient

structure Streamed where
  events  : List TokenEvent
  pos     : Nat
  failure : Option Exc

/-- Each line is parsed on its own as it arrives. -/
def streamTokens (w : ClientWorld) (ending : Ending) : Nat → List Text → Streamed
  | pos, []            =>
    match ending with
    | .clean                 => ⟨[], pos, none⟩
    | .remoteProtocolError _ => ⟨[], pos, none⟩
    | .fails exc             => ⟨[], pos, some exc⟩
  | pos, line :: lines =>
    match Sse.parseSseLines w.toSseWorld pos [line] with
    | .error e => ⟨[], pos, some (w.describe e)⟩
    | .ok r    =>
      let rest := streamTokens w ending r.2 lines
      ⟨r.1 ++ rest.events, rest.pos, rest.failure⟩

/-- The telemetry constructor; `none` when a status or the order of the timestamps does not validate. -/
def telemetry (spec : RequestSpec) (enqueueTs : Nat) (events : List TokenEvent) (completionTs : Option Nat) (status : Nat)
    (error : Option Text) (routedPool : Option Text) : Option RequestTelemetry :=
  let perToken := events.map (fun ev => ev.tsNs)
  let ttft := events.head?.map (fun ev => (((ev.tsNs : Int) - enqueueTs : Int) : ℚ) / 1000000)
  if h : (100 ≤ status ∧ status ≤ 599) ∧ perToken.Pairwise (· ≤ ·) then
    some ⟨spec.requestId, spec.promptTokens, enqueueTs, ttft, perToken, completionTs, status, error, routedPool,
      spec.promptBounds, h.1, h.2⟩
  else none

def statusOr599 (status : Nat) : Nat := if status = 0 then 599 else status

/-- Send one request; clock position 0 is the arrival wait, 1 the enqueue time. -/
def sendOne (w : ClientWorld) (server : Server) (spec : RequestSpec) (routedPool : Option Text) :
    Option RequestTelemetry :=
  let enqueueTs := w.clock 1
  match server with
  | .unreachable exc => telemetry spec enqueueTs [] none 599 (some exc.text) routedPool
  | .responds status body lines ending =>
    if 400 ≤ status then
      match ending with
      | .clean =>
        telemetry spec enqueueTs [] none status
          (some ("HTTP ".toList ++ Text.ofNat status ++ ": ".toList ++ body.take 200)) routedPool
      | .remoteProtocolError exc => telemetry spec enqueueTs [] none (statusOr599 status) (some exc.text) routedPool
      | .fails exc => telemetry spec enqueueTs [] none (statusOr599 status) (some exc.text) routedPool
    else
      let s := streamTokens w ending 2 lines
      match s.failure with
      | none     => telemetry spec enqueueTs s.events (some (w.clock s.pos)) status none routedPool
      | some exc => telemetry spec enqueueTs s.events none (statusOr599 status) (some exc.text) routedPool

end VllmHttpClient
end GoodputLab
