import GoodputLab.SseLines
/-!
# SseTotal — which streams the parser takes to the end (`loadgen/sse.py`)

Only lines that do not decode are skipped.  A payload that decodes is read with `.get` and `[0]` as it stands, so the
parser ends without an exception, with texts only, just when every payload it reads has the expected shape
(`WellShaped`, `parse_total_iff`).  The timestamps are then the next readings of the clock, in order.
-/
namespace GoodputLab
namespace Sse

/-! ## Shapes -/

/-- What `.get` reads of an object. -/
def field (fields : List (Text × Json)) (key : Text) : Json := (fields.lookup key).getD .null

/-- The text of a delta: its content, else its reasoning. -/
def deltaText (delta : List (Text × Json)) : Json :=
  (field delta "content".toList).or
    ((field delta "reasoning_content".toList).or (field delta "reasoning".toList))

def TextShaped (delta : List (Text × Json)) : Prop :=
  (deltaText delta).truthy = true → ∃ s, deltaText delta = .str s

def DeltaShaped (choice : List (Text × Json)) : Prop :=
  (field choice "delta".toList).truthy = true → ∃ delta, field choice "delta".toList = .obj delta ∧ TextShaped delta

def ChoicesShaped (payload : List (Text × Json)) : Prop :=
  (field payload "choices".toList).truthy = true →
    ∃ choice rest, field payload "choices".toList = .arr (.obj choice :: rest) ∧ DeltaShaped choice

/-- The shape the parser expects: an object whose `choices`, if any, begin with an object, whose `delta`, if any, is an
object, whose text, if any, is a string. -/
def WellShaped (payload : Json) : Prop := ∃ fields, payload = .obj fields ∧ ChoicesShaped fields

/-- The line is read without an exception, and what it carries has the expected shape. -/
def LineShaped (w : SseWorld) (raw : Text) : Prop :=
  ∃ line, readLine w raw = .ok line ∧ ∀ payload, line = .chunk payload → WellShaped payload

def endsStream (w : SseWorld) (raw : Text) : Bool :=
  match readLine w raw with
  | .ok .done => true
  | _         => false

/-- The lines before the first `[DONE]`. -/
def linesRead (w : SseWorld) (lines : List Text) : List Text := lines.takeWhile (fun raw => !endsStream w raw)

/-! ## One chunk -/

/-- A non-empty string. -/
def IsText (x : Json) : Prop := ∃ s, s ≠ [] ∧ x = .str s

/-- The result is no text, or a text that is a non-empty string. -/
def TextOnly {α : Type} (text : α → Json) (r : Except PyError (Option α)) : Prop :=
  ∃ o, r = .ok o ∧ ∀ a, o = some a → IsText (text a)

theorem textOnly_none {α : Type} (text : α → Json) : TextOnly text (.ok none) := ⟨none, rfl, fun _ h => (by cases h)⟩

theorem textOnly_some {α : Type} {text : α → Json} {a : α} : TextOnly text (.ok (some a)) ↔ IsText (text a) := by
  constructor
  · rintro ⟨o, ho, h⟩
    cases ho
    exact h a rfl
  · intro h
    refine ⟨some a, rfl, fun b hb => ?_⟩
    cases hb
    exact h

theorem textOnly_error {α : Type} {text : α → Json} {e : PyError} : ¬ TextOnly text (.error e) := by
  rintro ⟨o, ho, -⟩
  cases ho

theorem isText_iff {x : Json} (h : x.truthy = true) : IsText x ↔ ∃ s, x = .str s := by
  constructor
  · rintro ⟨s, -, hs⟩
    exact ⟨s, hs⟩
  · rintro ⟨s, rfl⟩
    refine ⟨s, ?_, rfl⟩
    rintro rfl
    cases h

theorem or_eq {x y : Json} : x.or y = if x.truthy then x else y := rfl

/-- The channels of a delta, the first with a text being read. -/
theorem channels_eq (content reasoningContent reasoningText : Json) :
    (if content.truthy then (pure (some (content, false)) : Except PyError (Option (Json × Bool)))
      else if reasoningContent.truthy || reasoningText.truthy then pure (some (reasoningContent.or reasoningText, true))
      else pure none) =
    .ok (if (content.or (reasoningContent.or reasoningText)).truthy
      then some (content.or (reasoningContent.or reasoningText), !content.truthy) else none) := by
  simp only [or_eq]
  by_cases hc : content.truthy = true
  · simp [hc, pure, Except.pure]
  · by_cases hr : reasoningContent.truthy = true
    · simp [hc, hr, pure, Except.pure]
    · by_cases ht : reasoningText.truthy = true <;> simp [hc, hr, ht, pure, Except.pure]

/-- The text read of a delta that is an object. -/
theorem chunkText_obj {choice delta : List (Text × Json)} (h : field choice "delta".toList = .obj delta) :
    chunkText (.obj choice) = .ok
      (if (deltaText delta).truthy then some (deltaText delta, !(field delta "content".toList).truthy) else none) := by
  have hdelta : (Json.obj delta).or (.obj []) = .obj delta := by
    cases delta <;> rfl
  unfold chunkText
  simp only [Json.get]
  rw [show (choice.lookup "delta".toList).getD .null = .obj delta from h]
  simp only [bind, Except.bind, hdelta]
  exact channels_eq _ _ _

theorem chunkText_falsy {choice : List (Text × Json)} (h : (field choice "delta".toList).truthy = false) :
    chunkText (.obj choice) = .ok none := by
  unfold chunkText
  simp only [Json.get]
  rw [show (choice.lookup "delta".toList).getD .null = field choice "delta".toList from rfl]
  simp only [bind, Except.bind, or_eq, h]
  rfl

theorem chunkText_not_obj {choice : List (Text × Json)} (ht : (field choice "delta".toList).truthy = true)
    (h : ∀ delta, field choice "delta".toList ≠ .obj delta) : ∃ e, chunkText (.obj choice) = .error e := by
  unfold chunkText
  simp only [Json.get]
  rw [show (choice.lookup "delta".toList).getD .null = field choice "delta".toList from rfl]
  simp only [bind, Except.bind, or_eq, ht, if_true]
  cases hd : field choice "delta".toList with
  | obj delta => exact absurd hd (h delta)
  | _ => exact ⟨_, rfl⟩

/-- **The text of a choice is read just when its delta has the shape.** -/
theorem chunkText_iff (choice : List (Text × Json)) : TextOnly Prod.fst (chunkText (.obj choice)) ↔ DeltaShaped choice := by
  unfold DeltaShaped
  cases ht : (field choice "delta".toList).truthy with
  | false =>
    rw [chunkText_falsy ht]
    exact iff_of_true (textOnly_none _) (fun h => by cases h)
  | true =>
    by_cases hobj : ∃ delta, field choice "delta".toList = .obj delta
    · obtain ⟨delta, hdelta⟩ := hobj
      have hshape : (∃ delta', field choice "delta".toList = .obj delta' ∧ TextShaped delta') ↔ TextShaped delta := by
        constructor
        · rintro ⟨delta', hdelta', h⟩
          rw [hdelta] at hdelta'
          cases hdelta'
          exact h
        · intro h
          exact ⟨delta, hdelta, h⟩
      rw [chunkText_obj hdelta, hshape, forall_prop_of_true rfl]
      unfold TextShaped
      cases htext : (deltaText delta).truthy with
      | false => exact iff_of_true (textOnly_none _) (fun h => by cases h)
      | true =>
        rw [if_pos rfl, textOnly_some, isText_iff htext, forall_prop_of_true rfl]
    · obtain ⟨e, he⟩ := chunkText_not_obj ht (fun delta h => hobj ⟨delta, h⟩)
      rw [he]
      refine iff_of_false textOnly_error (fun h => ?_)
      obtain ⟨delta, hdelta, -⟩ := h rfl
      exact hobj ⟨delta, hdelta⟩

/-! ## One line -/

/-- The event of a chunk whose choices begin with an object. -/
theorem chunkEvent_cons (w : SseWorld) (pos : Nat) {payload choice : List (Text × Json)} {rest : List Json}
    (h : field payload "choices".toList = .arr (.obj choice :: rest)) :
    chunkEvent w pos (.obj payload) = (chunkText (.obj choice)).map
      (Option.map (fun t => ⟨t.1, w.clock pos, field choice "finish_reason".toList, t.2⟩)) := by
  unfold chunkEvent
  simp only [Json.get]
  rw [show (payload.lookup "choices".toList).getD .null = _ from h]
  simp only [bind, Except.bind, or_eq, Json.truthy, List.isEmpty_cons, Bool.not_false, if_true, Bool.not_true,
    Bool.false_eq_true, if_false, Json.first]
  cases chunkText (.obj choice) with
  | error e => rfl
  | ok text => cases text <;> rfl

theorem chunkEvent_falsy (w : SseWorld) (pos : Nat) {payload : List (Text × Json)}
    (h : (field payload "choices".toList).truthy = false) : chunkEvent w pos (.obj payload) = .ok none := by
  unfold chunkEvent
  simp only [Json.get]
  rw [show (payload.lookup "choices".toList).getD .null = field payload "choices".toList from rfl]
  simp only [bind, Except.bind, or_eq, h]
  rfl

theorem chunkText_raises {choice : Json} (h : ∀ fields, choice ≠ .obj fields) : ∃ e, chunkText choice = .error e := by
  cases choice with
  | obj fields => exact absurd rfl (h fields)
  | _ => exact ⟨_, rfl⟩

theorem chunkEvent_raises (w : SseWorld) (pos : Nat) {payload : List (Text × Json)}
    (ht : (field payload "choices".toList).truthy = true)
    (h : ∀ choice rest, field payload "choices".toList ≠ .arr (.obj choice :: rest)) :
    ∃ e, chunkEvent w pos (.obj payload) = .error e := by
  unfold chunkEvent
  simp only [Json.get]
  rw [show (payload.lookup "choices".toList).getD .null = field payload "choices".toList from rfl]
  simp only [bind, Except.bind, or_eq, ht, if_true, Bool.not_true, Bool.false_eq_true, if_false]
  cases hfirst : (field payload "choices".toList).first with
  | error e => exact ⟨e, rfl⟩
  | ok choice =>
    have hnot : ∀ fields, choice ≠ .obj fields := by
      rintro fields rfl
      cases hc : field payload "choices".toList with
      | arr l =>
        rw [hc] at hfirst
        cases l with
        | nil => cases hfirst
        | cons a rest =>
          cases hfirst
          exact h fields rest hc
      | str s =>
        rw [hc] at hfirst
        cases s <;> cases hfirst
      | _ =>
        rw [hc] at hfirst
        cases hfirst
    obtain ⟨e, he⟩ := chunkText_raises hnot
    simp only [he]
    exact ⟨e, rfl⟩

/-- **A chunk is read just when it has the shape.** -/
theorem chunkEvent_iff (w : SseWorld) (pos : Nat) (payload : Json) :
    TextOnly TokenEvent.content (chunkEvent w pos payload) ↔ WellShaped payload := by
  by_cases hobj : ∃ fields, payload = .obj fields
  · obtain ⟨fields, rfl⟩ := hobj
    have hshape : WellShaped (.obj fields) ↔ ChoicesShaped fields := by
      constructor
      · rintro ⟨fields', h, hc⟩
        cases h
        exact hc
      · intro h
        exact ⟨fields, rfl, h⟩
    rw [hshape]
    unfold ChoicesShaped
    cases ht : (field fields "choices".toList).truthy with
    | false =>
      rw [chunkEvent_falsy w pos ht]
      exact iff_of_true (textOnly_none _) (fun h => by cases h)
    | true =>
      rw [forall_prop_of_true rfl]
      by_cases hcons : ∃ choice rest, field fields "choices".toList = .arr (.obj choice :: rest)
      · obtain ⟨choice, rest, hc⟩ := hcons
        have hdelta : (∃ choice' rest', field fields "choices".toList = .arr (.obj choice' :: rest') ∧ DeltaShaped choice') ↔
            DeltaShaped choice := by
          constructor
          · rintro ⟨choice', rest', hc', h⟩
            rw [hc] at hc'
            cases hc'
            exact h
          · intro h
            exact ⟨choice, rest, hc, h⟩
        rw [chunkEvent_cons w pos hc, hdelta, ← chunkText_iff]
        cases chunkText (.obj choice) with
        | error e => exact iff_of_false textOnly_error textOnly_error
        | ok text =>
          cases text with
          | none => exact iff_of_true (textOnly_none _) (textOnly_none _)
          | some t =>
            have htext : TextOnly Prod.fst (.ok (some t)) ↔ IsText t.1 := textOnly_some
            rw [htext]
            exact textOnly_some
      · obtain ⟨e, he⟩ := chunkEvent_raises w pos ht (fun choice rest h => hcons ⟨choice, rest, h⟩)
        rw [he]
        refine iff_of_false textOnly_error ?_
        rintro ⟨choice, rest, hc, -⟩
        exact hcons ⟨choice, rest, hc⟩
  · have hraise : ∃ e, chunkEvent w pos payload = .error e := by
      cases payload with
      | obj fields => exact absurd ⟨fields, rfl⟩ hobj
      | _ => exact ⟨_, rfl⟩
    obtain ⟨e, he⟩ := hraise
    rw [he]
    refine iff_of_false textOnly_error ?_
    rintro ⟨fields, h, -⟩
    exact hobj ⟨fields, h⟩

/-! ## Streams -/

/-- The parser ends without an exception, having taken one clock reading for each event, and every event is a non-empty
string with its reading. -/
def Total (w : SseWorld) (pos : Nat) (lines : List Text) : Prop :=
  ∃ events, parseSseLines w pos lines = .ok (events, pos + events.length) ∧
    (∀ ev ∈ events, IsText ev.content) ∧
    events.map TokenEvent.tsNs = (List.range events.length).map (fun i => w.clock (pos + i))

theorem total_nil (w : SseWorld) (pos : Nat) : Total w pos [] := ⟨[], rfl, fun _ h => (by cases h), rfl⟩

/-- The clock readings from a position on are the first and those from the next. -/
theorem readings_succ (w : SseWorld) (pos n : Nat) : (List.range (n + 1)).map (fun i => w.clock (pos + i)) =
    w.clock pos :: (List.range n).map (fun i => w.clock (pos + 1 + i)) := by
  rw [List.range_succ_eq_map, List.map_cons, List.map_map]
  apply congrArg
  apply List.map_congr_left
  intro i _
  rw [Function.comp_apply, Nat.succ_eq_add_one, Nat.add_assoc, Nat.add_comm 1 i]

/-- What a line that carries a token adds. -/
theorem total_token {w : SseWorld} {pos : Nat} {raw : Text} {lines : List Text} {ev : TokenEvent}
    (h : effect w pos raw = .token ev) :
    Total w pos (raw :: lines) ↔ IsText ev.content ∧ Total w (pos + 1) lines := by
  have hstamp := effect_tsNs h
  have hcons := parseSseLines_cons w pos raw lines
  rw [h] at hcons
  simp only at hcons
  constructor
  · rintro ⟨events, hok, htexts, hstamps⟩
    rw [hok] at hcons
    cases hrest : parseSseLines w (pos + 1) lines with
    | error e =>
      rw [hrest] at hcons
      cases hcons
    | ok r =>
      rw [hrest] at hcons
      obtain ⟨rest, pos'⟩ := r
      simp only [Except.map, Except.ok.injEq, Prod.mk.injEq] at hcons
      obtain ⟨rfl, hpos⟩ := hcons
      have hpos' : pos' = pos + 1 + rest.length := by
        rw [← hpos, List.length_cons]
        omega
      refine ⟨htexts ev List.mem_cons_self, rest, by rw [hrest, hpos'], fun e he => htexts e (List.mem_cons_of_mem _ he), ?_⟩
      rw [List.length_cons, readings_succ, List.map_cons] at hstamps
      exact (List.cons_eq_cons.1 hstamps).2
  · rintro ⟨htext, rest, hok, htexts, hstamps⟩
    rw [hok] at hcons
    refine ⟨ev :: rest, ?_, ?_, ?_⟩
    · rw [hcons, List.length_cons, Nat.add_right_comm]
      rfl
    · intro e he
      rcases List.mem_cons.1 he with rfl | he
      · exact htext
      · exact htexts e he
    · rw [List.length_cons, readings_succ, List.map_cons, hstamp, hstamps]

/-- A line has the shape just when it does not raise, and its token, if it carries one, is a text. -/
theorem lineShaped_iff (w : SseWorld) (pos : Nat) (raw : Text) :
    LineShaped w raw ↔
      (∀ e, effect w pos raw ≠ .raises e) ∧ ∀ ev, effect w pos raw = .token ev → IsText ev.content := by
  unfold LineShaped effect
  cases readLine w raw with
  | error e =>
    refine iff_of_false ?_ (fun h => h.1 e rfl)
    rintro ⟨line, hline, -⟩
    cases hline
  | ok line =>
    have hline : (∃ l, (Except.ok line : Except PyError Line) = .ok l ∧ ∀ payload, l = .chunk payload → WellShaped payload) ↔
        ∀ payload, line = .chunk payload → WellShaped payload := by
      constructor
      · rintro ⟨l, hl, h⟩
        cases hl
        exact h
      · intro h
        exact ⟨line, rfl, h⟩
    rw [hline]
    cases line with
    | skip => exact iff_of_true (fun _ h => by cases h) ⟨fun _ h => (by cases h), fun _ h => (by cases h)⟩
    | done => exact iff_of_true (fun _ h => by cases h) ⟨fun _ h => (by cases h), fun _ h => (by cases h)⟩
    | chunk payload =>
      have hchunk : (∀ p, Line.chunk payload = .chunk p → WellShaped p) ↔ WellShaped payload := by
        constructor
        · intro h
          exact h payload rfl
        · rintro h p hp
          cases hp
          exact h
      rw [hchunk, ← chunkEvent_iff w pos]
      simp only
      cases chunkEvent w pos payload with
      | error e => exact iff_of_false textOnly_error (fun h => h.1 e rfl)
      | ok event =>
        cases event with
        | none => exact iff_of_true (textOnly_none _) ⟨fun _ h => (by cases h), fun _ h => (by cases h)⟩
        | some ev =>
          rw [textOnly_some]
          constructor
          · intro h
            refine ⟨fun e he => (by cases he), fun ev' hev => ?_⟩
            cases hev
            exact h
          · intro h
            exact h.2 ev rfl

theorem endsStream_iff (w : SseWorld) (pos : Nat) (raw : Text) : endsStream w raw = true ↔ effect w pos raw = .ends := by
  unfold endsStream effect
  cases readLine w raw with
  | error e => simp
  | ok line =>
    cases line with
    | skip => simp
    | done => simp
    | chunk payload =>
      simp only [Bool.false_eq_true, false_iff]
      cases chunkEvent w pos payload with
      | error e => simp
      | ok event => cases event <;> simp

theorem linesRead_cons (w : SseWorld) (raw : Text) (lines : List Text) :
    linesRead w (raw :: lines) = if endsStream w raw then [] else raw :: linesRead w lines := by
  rw [linesRead, linesRead, List.takeWhile_cons]
  cases endsStream w raw <;> rfl

/-- **The parser is total just on streams of the expected shape**: every line before the first `[DONE]` is read, and its
payload, if it decodes, is an object whose choices, delta and text are what they should be. -/
theorem parse_total_iff (w : SseWorld) : ∀ (lines : List Text) (pos : Nat),
    Total w pos lines ↔ ∀ raw ∈ linesRead w lines, LineShaped w raw
  | [], pos => iff_of_true (total_nil w pos) (fun _ h => by cases h)
  | raw :: lines, pos => by
    have hshaped := lineShaped_iff w pos raw
    have hends := endsStream_iff w pos raw
    have hcons := parseSseLines_cons w pos raw lines
    rw [linesRead_cons]
    cases heffect : effect w pos raw with
    | raises e =>
      rw [heffect] at hshaped hends hcons
      have hgoes : endsStream w raw = false := by simpa using hends
      rw [hgoes, if_neg Bool.false_ne_true]
      refine iff_of_false ?_ (fun h => (hshaped.1 (h raw List.mem_cons_self)).1 e rfl)
      rintro ⟨events, hok, -⟩
      rw [hok] at hcons
      cases hcons
    | ends =>
      rw [heffect] at hends hcons
      rw [hends.2 rfl, if_pos rfl]
      exact iff_of_true ⟨[], hcons, fun _ h => (by cases h), rfl⟩ (fun _ h => by cases h)
    | nothing =>
      rw [heffect] at hshaped hends hcons
      have hgoes : endsStream w raw = false := by simpa using hends
      have hskip : Total w pos (raw :: lines) ↔ Total w pos lines := by
        unfold Total
        rw [hcons]
      have hline : LineShaped w raw := hshaped.2 ⟨fun _ h => (by cases h), fun _ h => (by cases h)⟩
      rw [hskip, parse_total_iff w lines pos, hgoes, if_neg Bool.false_ne_true, List.forall_mem_cons]
      exact ⟨fun h => ⟨hline, h⟩, fun h => h.2⟩
    | token ev =>
      rw [heffect] at hshaped hends
      have hgoes : endsStream w raw = false := by simpa using hends
      have hline : LineShaped w raw ↔ IsText ev.content := by
        rw [hshaped]
        constructor
        · intro h
          exact h.2 ev rfl
        · intro h
          refine ⟨fun _ he => (by cases he), fun ev' hev => ?_⟩
          cases hev
          exact h
      rw [total_token heffect, parse_total_iff w lines (pos + 1), hgoes, if_neg Bool.false_ne_true, List.forall_mem_cons,
        hline]

/-- A decoder that takes the payload `5` for a number, and a clock that counts. -/
def numberWorld : SseWorld where
  loads s := if s = "5".toList then .ok (.num 5) else .error .jsonDecodeError
  clock i := i

/-- **A payload that is a number is not skipped**: it has no `.get`. -/
theorem number_payload_raises :
    parseSseLines numberWorld 0 ["data: 5".toList] = .error .attributeError ∧ ¬ Total numberWorld 0 ["data: 5".toList] := by
  have hraises : parseSseLines numberWorld 0 ["data: 5".toList] = .error .attributeError := rfl
  refine ⟨hraises, ?_⟩
  rintro ⟨events, hok, -⟩
  rw [hraises] at hok
  cases hok

end Sse
end GoodputLab
