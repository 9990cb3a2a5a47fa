import GoodputLab.ClientStatus
/-!
# ClientStream — parsing line by line against parsing the stream

The client gives every line a parser of its own, so what ended the parser at `[DONE]` ends it for that line only: the
stream goes on with the next one.  The tokens of the stream are those of one parser run over all its lines exactly when no
line after `[DONE]` carries a token, up to the first on which the parser raises (`stream_events_iff`).
-/
namespace GoodputLab
namespace VllmHttpClient

open Sse (Effect effect effect_at yields)

/-- No line carries a token, up to the first on which the parser raises. -/
def Quiet (w : SseWorld) : List Text → Prop
  | []            => True
  | line :: lines =>
    match effect w 0 line with
    | .raises _ => True
    | .token _  => False
    | _         => Quiet w lines

/-- The lines after the first one that ends the parser are quiet; none need be when the parser raises before it. -/
def QuietAfterDone (w : SseWorld) : List Text → Prop
  | []            => True
  | line :: lines =>
    match effect w 0 line with
    | .raises _ => True
    | .ends     => Quiet w lines
    | _         => QuietAfterDone w lines

theorem stream_nil_iff (w : ClientWorld) (ending : Ending) : ∀ (lines : List Text) (pos : Nat),
    (streamTokens w ending pos lines).events = [] ↔ Quiet w.toSseWorld lines
  | [], pos => by
    cases ending <;> simp [streamTokens, Quiet]
  | line :: lines, pos => by
    rw [streamTokens_cons, effect_at, Quiet]
    cases effect w.toSseWorld 0 line with
    | raises e => simp [Effect.at]
    | token ev => simp [Effect.at]
    | ends => exact stream_nil_iff w ending lines pos
    | nothing => exact stream_nil_iff w ending lines pos

/-- **The stream yields the tokens of one parser run exactly when it is quiet after `[DONE]`.** -/
theorem stream_events_iff (w : ClientWorld) (ending : Ending) : ∀ (lines : List Text) (pos : Nat),
    (streamTokens w ending pos lines).events = (yields w.toSseWorld pos lines).events ↔
      QuietAfterDone w.toSseWorld lines
  | [], pos => by
    cases ending <;> simp [streamTokens, yields, QuietAfterDone]
  | line :: lines, pos => by
    rw [streamTokens_cons, yields, QuietAfterDone, effect_at]
    cases effect w.toSseWorld 0 line with
    | raises e => simp [Effect.at]
    | ends => exact stream_nil_iff w ending lines pos
    | nothing => exact stream_events_iff w ending lines pos
    | token ev =>
      have ih := stream_events_iff w ending lines (pos + 1)
      simp only [Effect.at, List.cons.injEq, true_and]
      exact ih

/-- **A token after `[DONE]` is counted.** -/
theorem token_after_done_counts :
    let lines := ["data: [DONE]".toList, "data: ".toList ++ tokenChunk]
    ((streamTokens tickingWorld .clean 2 lines).events.map (fun ev => ev.tsNs)) = [2000000] ∧
      (yields tickingWorld.toSseWorld 2 lines).events = [] ∧
      (streamTokens tickingWorld .clean 2 lines).events ≠ (yields tickingWorld.toSseWorld 2 lines).events := by
  refine ⟨rfl, rfl, fun h => ?_⟩
  have hnone : (yields tickingWorld.toSseWorld 2 ["data: [DONE]".toList, "data: ".toList ++ tokenChunk]).events = [] := rfl
  rw [hnone] at h
  cases h

end VllmHttpClient
end GoodputLab
