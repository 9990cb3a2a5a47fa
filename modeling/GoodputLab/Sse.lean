import GoodputLab.Base.Json
/-!
# Sse — the event-stream parser (`loadgen/sse.py`)

Each data line carries a JSON chunk; a chunk with text becomes a token event stamped with the next clock reading.
Comments, other lines and lines that are not JSON are skipped; a chunk of another shape than expected raises.
-/
namespace GoodputLab

structure TokenEvent where
  content      : Json
  tsNs         : Nat
  finishReason : Json
  reasoning    : Bool

/-- The JSON decoder, and the readings of the monotonic clock. -/
structure SseWorld where
  loads : Text → Except PyError Json
  clock : Nat → Nat

namespace Sse

def dataPrefix : Text := "data: ".toList

/-- The text of a chunk's first choice, and whether it is reasoning; `none` when there is none. -/
def chunkText (choice : Json) : Except PyError (Option (Json × Bool)) := do
  let delta ← choice.get "delta".toList .null
  let delta := delta.or (.obj [])
  let content ← delta.get "content".toList .null
  let reasoningContent ← delta.get "reasoning_content".toList .null
  let reasoningText ← delta.get "reasoning".toList .null
  if content.truthy then pure (some (content, false))
  else if reasoningContent.truthy || reasoningText.truthy then pure (some (reasoningContent.or reasoningText, true))
  else pure none

def chunkEvent (w : SseWorld) (pos : Nat) (payload : Json) : Except PyError (Option TokenEvent) := do
  let choices ← payload.get "choices".toList .null
  let choices := choices.or (.arr [])
  if !choices.truthy then pure none
  else
    let choice ← choices.first
    let text ← chunkText choice
    match text with
    | none => pure none
    | some t =>
      let finishReason ← choice.get "finish_reason".toList .null
      pure (some ⟨t.1, w.clock pos, finishReason, t.2⟩)

inductive Line
  | skip
  | done
  | chunk (payload : Json)

def readLine (w : SseWorld) (raw : Text) : Except PyError Line :=
  let line := Text.rstrip ['\r', '\n'] raw
  if line.isEmpty || line.startsWith [':'] then .ok .skip
  else if !line.startsWith dataPrefix then .ok .skip
  else
    let payloadStr := Text.strip (line.drop dataPrefix.length)
    if payloadStr = "[DONE]".toList then .ok .done
    else match w.loads payloadStr with
      | .error .jsonDecodeError => .ok .skip
      | .error e                => .error e
      | .ok payload             => .ok (.chunk payload)

/-- The events of some lines and the next clock position; the lines after `[DONE]` are not read. -/
def parseSseLines (w : SseWorld) : Nat → List Text → Except PyError (List TokenEvent × Nat)
  | pos, []           => .ok ([], pos)
  | pos, raw :: lines => do
    let line ← readLine w raw
    match line with
    | .done          => pure ([], pos)
    | .skip          => parseSseLines w pos lines
    | .chunk payload =>
      let event ← chunkEvent w pos payload
      match event with
      | none    => parseSseLines w pos lines
      | some ev =>
        let rest ← parseSseLines w (pos + 1) lines
        pure (ev :: rest.1, rest.2)

end Sse
end GoodputLab
