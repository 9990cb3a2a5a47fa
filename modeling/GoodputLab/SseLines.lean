import GoodputLab.Sse
/-!
# SseLines — the event-stream parser line by line

What a line does to the parser does not depend on the lines around it, and the clock only stamps it (`effect_at`).  The
parser is a generator: it has yielded the events of the lines before it ends, also when it ends in an exception
(`yields`, and `parseSseLines_eq` for the value of the whole).
-/
namespace GoodputLab
namespace Sse

/-- What one line does: it raises, ends the parser, is passed over, or carries a token. -/
inductive Effect
  | raises (e : PyError)
  | ends
  | nothing
  | token (ev : TokenEvent)

def Effect.at (ts : Nat) : Effect → Effect
  | .token ev => .token { ev with tsNs := ts }
  | effect    => effect

def effect (w : SseWorld) (pos : Nat) (raw : Text) : Effect :=
  match readLine w raw with
  | .error e        => .raises e
  | .ok .done       => .ends
  | .ok .skip       => .nothing
  | .ok (.chunk payload) =>
    match chunkEvent w pos payload with
    | .error e      => .raises e
    | .ok none      => .nothing
    | .ok (some ev) => .token ev

theorem chunkEvent_at (w : SseWorld) (pos : Nat) (payload : Json) :
    chunkEvent w pos payload =
      (chunkEvent w 0 payload).map (Option.map (fun ev => { ev with tsNs := w.clock pos })) := by
  unfold chunkEvent
  cases payload.get "choices".toList .null with
  | error e => rfl
  | ok choices =>
    simp only [bind, Except.bind]
    split
    · rfl
    · cases (choices.or (.arr [])).first with
      | error e => rfl
      | ok choice =>
        simp only
        cases chunkText choice with
        | error e => rfl
        | ok text =>
          cases text with
          | none => rfl
          | some t =>
            simp only
            cases choice.get "finish_reason".toList .null <;> rfl

/-- **The clock only stamps the token of a line.** -/
theorem effect_at (w : SseWorld) (pos : Nat) (raw : Text) : effect w pos raw = (effect w 0 raw).at (w.clock pos) := by
  unfold effect
  cases readLine w raw with
  | error e => rfl
  | ok line =>
    cases line with
    | skip => rfl
    | done => rfl
    | chunk payload =>
      simp only
      rw [chunkEvent_at w pos payload]
      cases chunkEvent w 0 payload with
      | error e => rfl
      | ok event => cases event <;> rfl

theorem effect_tsNs {w : SseWorld} {pos : Nat} {raw : Text} {ev : TokenEvent} (h : effect w pos raw = .token ev) :
    ev.tsNs = w.clock pos := by
  rw [effect_at] at h
  cases he : effect w 0 raw with
  | token ev' =>
    rw [he] at h
    cases h
    rfl
  | raises e => rw [he] at h; cases h
  | ends => rw [he] at h; cases h
  | nothing => rw [he] at h; cases h

/-- **The parser takes a line and goes on.** -/
theorem parseSseLines_cons (w : SseWorld) (pos : Nat) (raw : Text) (lines : List Text) :
    parseSseLines w pos (raw :: lines) =
      match effect w pos raw with
      | .raises e => .error e
      | .ends     => .ok ([], pos)
      | .nothing  => parseSseLines w pos lines
      | .token ev => (parseSseLines w (pos + 1) lines).map (fun rest => (ev :: rest.1, rest.2)) := by
  rw [parseSseLines, effect]
  cases readLine w raw with
  | error e => rfl
  | ok line =>
    cases line with
    | skip => rfl
    | done => rfl
    | chunk payload =>
      simp only [bind, Except.bind]
      cases chunkEvent w pos payload with
      | error e => rfl
      | ok event =>
        cases event with
        | none => rfl
        | some ev => cases parseSseLines w (pos + 1) lines <;> rfl

/-! ## The generator -/

/-- What a generator has yielded when it ends, where it left the clock, and the exception it ends with, if any. -/
structure Yielded where
  events : List TokenEvent
  pos    : Nat
  raised : Option PyError

def yields (w : SseWorld) : Nat → List Text → Yielded
  | pos, []           => ⟨[], pos, none⟩
  | pos, raw :: lines =>
    match effect w pos raw with
    | .raises e => ⟨[], pos, some e⟩
    | .ends     => ⟨[], pos, none⟩
    | .nothing  => yields w pos lines
    | .token ev =>
      let rest := yields w (pos + 1) lines
      ⟨ev :: rest.events, rest.pos, rest.raised⟩

/-- **The value of the whole** is all that was yielded, or the exception. -/
theorem parseSseLines_eq (w : SseWorld) : ∀ (lines : List Text) (pos : Nat),
    parseSseLines w pos lines =
      match (yields w pos lines).raised with
      | some e => .error e
      | none   => .ok ((yields w pos lines).events, (yields w pos lines).pos)
  | [], pos => rfl
  | raw :: lines, pos => by
    rw [parseSseLines_cons, yields]
    cases effect w pos raw with
    | raises e => rfl
    | ends => rfl
    | nothing => exact parseSseLines_eq w lines pos
    | token ev =>
      simp only
      rw [parseSseLines_eq w lines (pos + 1)]
      cases (yields w (pos + 1) lines).raised <;> rfl

end Sse
end GoodputLab
