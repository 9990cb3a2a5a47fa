import GoodputLab.ProxyHandle
/-!
# ProxyServes — when a served completion reaches the client

After the decode stage has answered, the sentinel looks into the answer, and before it is asked, the handle is looked for
in the prefill response.  Both expect objects where JSON may hold anything else, and only some exceptions are caught: an
answer reaches the client exactly when neither meets such a shape (`completion_served_iff`).
-/
namespace GoodputLab
namespace Proxy

/-- The exceptions the sentinel catches. -/
def caught (e : PyError) : Bool := e.isValueError || e = .keyError || e = .indexError

/-! ## The shapes the sentinel reads -/

/-- A first token: nothing, or a string. -/
def TokenReads (token : Json) : Prop := token.truthy = true → ∃ s, token = .str s

def ChoiceReads (chat : Bool) (choice : Json) : Prop :=
  ∃ fs, choice = .obj fs ∧
    if chat then
      ∃ ms, (fs.lookup "message".toList).getD (.obj []) = .obj ms ∧ TokenReads ((ms.lookup "content".toList).getD (.str []))
    else TokenReads ((fs.lookup "text".toList).getD (.str []))

/-- No choices, an object in their place (its missing key 0 is caught), or a first choice that reads. -/
def ChoicesRead (chat : Bool) (choices : Json) : Prop :=
  choices.truthy = false ∨ (∃ fs, choices = .obj fs) ∨ ∃ choice rest, choices = .arr (choice :: rest) ∧ ChoiceReads chat choice

/-- The sentinel is off, the answer is no JSON, or it is an object with choices that read. -/
def SentinelReads (loads : Text → Except PyError Json) (expected : Text) (chat : Bool) (text : Text) : Prop :=
  expected = [] ∨ (∃ e, loads text = .error e ∧ caught e = true) ∨
    ∃ fs, loads text = .ok (.obj fs) ∧ ChoicesRead chat ((fs.lookup "choices".toList).getD .null)

/-! ## The sentinel -/

/-- The comparison of a first token, once it is found. -/
def compareToken (expected : Text) (token : Json) : Except PyError Unit :=
  let token := token.or (.str [])
  if token.truthy then do
    let _ ← token.startsWith expected
    pure ()
  else pure ()

def tokenOf (chat : Bool) (choice : Json) : Except PyError Json :=
  if chat then do
    let message ← choice.get "message".toList (.obj [])
    message.get "content".toList (.str [])
  else choice.get "text".toList (.str [])

/-- What the comparison does once the choices are there. -/
def compareChoices (expected : Text) (chat : Bool) (choices : Json) : Except PyError Unit :=
  if !choices.truthy then pure ()
  else do
    let choice ← choices.first
    let token ← tokenOf chat choice
    compareToken expected token

theorem compareFirstToken_object {loads : Text → Except PyError Json} {text : Text} {fs : List (Text × Json)}
    (h : loads text = .ok (.obj fs)) (expected : Text) (chat : Bool) :
    compareFirstToken loads expected chat text =
      compareChoices expected chat (((fs.lookup "choices".toList).getD .null).or (.arr [])) := by
  rw [compareFirstToken, h]
  show (if !(((fs.lookup "choices".toList).getD .null).or (.arr [])).truthy then _ else _) = _
  rw [compareChoices]
  split
  · rfl
  · cases (((fs.lookup "choices".toList).getD .null).or (.arr [])).first with
    | error e => rfl
    | ok choice =>
      cases chat with
      | false => rfl
      | true =>
        cases hm : choice.get "message".toList (.obj []) with
        | error e =>
          simp only [tokenOf, if_true, Act.except_ok_bind, hm]
          rfl
        | ok message =>
          simp only [tokenOf, if_true, Act.except_ok_bind, hm]
          rfl

/-- It ends without an exception, or with one that is caught. -/
def Passes (r : Except PyError Unit) : Prop := ∀ e, r = .error e → caught e = true

theorem passes_ok (u : Unit) : Passes (.ok u) := fun e h => by cases h

theorem passes_error_iff (e : PyError) : Passes (.error e) ↔ caught e = true :=
  ⟨fun h => h e rfl, fun h e' he => by cases he; exact h⟩

theorem or_falsy {x y : Json} (h : x.truthy = false) : x.or y = y := by simp [Json.or, h]

theorem or_truthy {x y : Json} (h : x.truthy = true) : x.or y = x := by simp [Json.or, h]

theorem compareToken_passes_iff (expected : Text) (token : Json) :
    Passes (compareToken expected token) ↔ TokenReads token := by
  cases ht : token.truthy with
  | false =>
    rw [compareToken, or_falsy ht]
    exact iff_of_true (passes_ok ()) (fun h => by rw [ht] at h; cases h)
  | true =>
    rw [compareToken, or_truthy ht, if_pos ht]
    cases token with
    | str s => exact iff_of_true (passes_ok ()) (fun _ => ⟨s, rfl⟩)
    | _ =>
      refine iff_of_false (fun h => absurd (h .attributeError rfl) (by decide)) (fun h => ?_)
      obtain ⟨s, hs⟩ := h ht
      cases hs

theorem compareChoice_passes_iff (expected : Text) (chat : Bool) (choice : Json) :
    Passes (tokenOf chat choice >>= compareToken expected) ↔ ChoiceReads chat choice := by
  have hno : ¬ Passes (.error .attributeError) := fun h => absurd (h .attributeError rfl) (by decide)
  cases choice with
  | obj fs =>
    cases chat with
    | false =>
      rw [show (tokenOf false (.obj fs) >>= compareToken expected) =
        compareToken expected ((fs.lookup "text".toList).getD (.str [])) from rfl, compareToken_passes_iff]
      exact ⟨fun h => ⟨fs, rfl, h⟩, fun ⟨fs', he, h⟩ => by cases he; exact h⟩
    | true =>
      rw [show (tokenOf true (.obj fs) >>= compareToken expected) =
        (((fs.lookup "message".toList).getD (.obj [])).get "content".toList (.str []) >>= compareToken expected) from rfl]
      cases hm : (fs.lookup "message".toList).getD (.obj []) with
      | obj ms =>
        rw [show ((Json.obj ms).get "content".toList (.str []) >>= compareToken expected) =
          compareToken expected ((ms.lookup "content".toList).getD (.str [])) from rfl, compareToken_passes_iff]
        constructor
        · exact fun h => ⟨fs, rfl, ms, hm, h⟩
        · rintro ⟨fs', he, ms', hm', h⟩
          cases he
          rw [hm] at hm'
          cases hm'
          exact h
      | _ =>
        refine iff_of_false hno ?_
        rintro ⟨fs', he, ms', hm', -⟩
        cases he
        rw [hm] at hm'
        cases hm'
  | _ =>
    refine iff_of_false ?_ (fun ⟨fs, he, _⟩ => by cases he)
    cases chat <;> exact hno

theorem not_choicesRead {chat : Bool} {choices : Json} (ht : choices.truthy = true) (hobj : ∀ fs, choices ≠ .obj fs)
    (harr : ∀ l, choices ≠ .arr l) : ¬ ChoicesRead chat choices := by
  rintro (hfalse | ⟨fs, h⟩ | ⟨choice, rest, h, -⟩)
  · rw [ht] at hfalse
    cases hfalse
  · exact hobj fs h
  · exact harr _ h

theorem compareChoices_passes_iff (expected : Text) (chat : Bool) (choices : Json) :
    Passes (compareChoices expected chat (choices.or (.arr []))) ↔ ChoicesRead chat choices := by
  cases ht : choices.truthy with
  | false =>
    rw [or_falsy ht]
    exact iff_of_true (passes_ok ()) (.inl ht)
  | true =>
    have hrun : compareChoices expected chat choices =
        choices.first >>= fun choice => tokenOf chat choice >>= compareToken expected := by
      rw [compareChoices, ht]
      rfl
    rw [or_truthy ht, hrun]
    cases choices with
    | arr l =>
      cases l with
      | nil => cases ht
      | cons choice rest =>
        rw [show (Json.arr (choice :: rest)).first = .ok choice from rfl, Act.except_ok_bind, compareChoice_passes_iff]
        constructor
        · exact fun h => .inr (.inr ⟨choice, rest, rfl, h⟩)
        · intro h
          obtain ⟨fs, he⟩ | ⟨choice', rest', he, hchoice⟩ := h.resolve_left (fun hfalse => by rw [ht] at hfalse; cases hfalse)
          · cases he
          · cases he
            exact hchoice
    | obj fs => exact iff_of_true ((passes_error_iff .keyError).2 rfl) (.inr (.inl ⟨fs, rfl⟩))
    | str s =>
      cases s with
      | nil => cases ht
      | cons c s =>
        -- the first character has no attributes of a choice
        refine iff_of_false (fun h => ?_) (not_choicesRead rfl (fun _ => nofun) (fun _ => nofun))
        rw [show (Json.str (c :: s)).first = .ok (.str [c]) from rfl, Act.except_ok_bind, compareChoice_passes_iff] at h
        obtain ⟨fs, he, -⟩ := h
        cases he
    | _ =>
      refine iff_of_false (fun h => absurd (h .typeError rfl) (by decide)) ?_
      exact not_choicesRead ht (fun _ => nofun) (fun _ => nofun)

theorem compareFirstToken_passes_iff (loads : Text → Except PyError Json) (expected : Text) (chat : Bool) (text : Text) :
    Passes (compareFirstToken loads expected chat text) ↔ (∃ e, loads text = .error e ∧ caught e = true) ∨
      ∃ fs, loads text = .ok (.obj fs) ∧ ChoicesRead chat ((fs.lookup "choices".toList).getD .null) := by
  cases hl : loads text with
  | error e =>
    have hraises : compareFirstToken loads expected chat text = .error e := by
      rw [compareFirstToken, hl]
      rfl
    rw [hraises, passes_error_iff]
    constructor
    · exact fun h => .inl ⟨e, rfl, h⟩
    · rintro (⟨e', he, h⟩ | ⟨fs, he, -⟩)
      · cases he
        exact h
      · cases he
  | ok payload =>
    cases payload with
    | obj fs =>
      rw [compareFirstToken_object hl, compareChoices_passes_iff]
      constructor
      · exact fun h => .inr ⟨fs, rfl, h⟩
      · rintro (⟨e', he, -⟩ | ⟨fs', he, h⟩)
        · cases he
        · cases he
          exact h
    | _ =>
      refine iff_of_false (fun h => ?_) ?_
      · rw [compareFirstToken, hl] at h
        exact absurd (h .attributeError rfl) (by decide)
      · rintro (⟨e', he, -⟩ | ⟨fs', he, -⟩)
        · cases he
        · cases he

/-- **The sentinel raises nothing exactly on the shapes it reads.** -/
theorem sentinel_iff (loads : Text → Except PyError Json) (expected : Text) (chat : Bool) (text : Text) :
    maybeAssertFirstToken loads expected chat text = .ok () ↔ SentinelReads loads expected chat text := by
  by_cases hoff : expected = []
  · exact iff_of_true (if_pos hoff) (.inl hoff)
  · rw [SentinelReads, or_iff_right hoff, ← compareFirstToken_passes_iff loads expected, maybeAssertFirstToken, if_neg hoff]
    cases compareFirstToken loads expected chat text with
    | ok u => exact iff_of_true rfl (passes_ok u)
    | error e =>
      rw [passes_error_iff]
      show (if caught e = true then _ else _) = _ ↔ _
      by_cases hc : caught e = true
      · exact iff_of_true (if_pos hc) hc
      · refine iff_of_false (fun h => ?_) hc
        rw [if_neg hc] at h
        cases h

/-! ## The completion -/

/-- The handler raises nothing, and the client gets the decode stage's content and status. -/
def Served (w : World) (route : Route) (rawBody requestId : Text) : Prop :=
  ∃ resp, (route.handler w rawBody requestId []).1 = .ok resp ∧ resp.content = w.decode.content ∧
    resp.statusCode = w.decode.statusCode

/-- What the handler returns for an object and a prefill response it can read. -/
theorem answer_object (w : World) (route : Route) (rawBody requestId : Text) {fs : List (Text × Json)}
    (hstatus : w.prefill.statusCode < 400) (hstream : ∀ body, w.loads rawBody = .ok body → ¬ Streams body)
    (hloads : w.loads rawBody = .ok (.obj fs)) (hreads : PrefillReads w.loads w.prefill.content) :
    answer w route rawBody requestId =
      (maybeAssertFirstToken w.loads w.assertFirstToken route.isChat w.decode.content).map
        (fun _ => toResponse w.decode requestId) := by
  have hread : Readable w rawBody (.obj fs) (fs.map (fun f => (.str f.1, f.2))) := ⟨hloads, rfl⟩
  have hget : (Json.obj fs).get "stream".toList .null = .ok ((fs.lookup "stream".toList).getD .null) := rfl
  have hoff : ¬ ((fs.lookup "stream".toList).getD .null).truthy = true := fun h => hstream _ hloads ⟨_, hget, h⟩
  rw [answer_readable w route rawBody requestId hread, if_neg (not_le.2 hstatus), decodeAnswer, decodeBody_of_reads hreads,
    Act.except_ok_bind, hget, Act.except_ok_bind, if_neg hoff]
  cases maybeAssertFirstToken w.loads w.assertFirstToken route.isChat w.decode.content <;> rfl

/-- The handler returns only for an object and a prefill response it can read. -/
theorem reads_of_answer {w : World} {route : Route} {rawBody requestId : Text} {resp : ProxyResponse}
    (hstatus : w.prefill.statusCode < 400) (h : answer w route rawBody requestId = .ok resp) :
    (∃ fs, w.loads rawBody = .ok (.obj fs)) ∧ PrefillReads w.loads w.prefill.content := by
  cases hl : w.loads rawBody with
  | error e =>
    rw [answer, hl] at h
    cases h
  | ok body =>
    cases hd : body.dict with
    | none =>
      rw [answer, hl, Act.except_ok_bind, hd] at h
      cases h
    | some fields =>
      rw [answer_readable w route rawBody requestId ⟨hl, hd⟩, if_neg (not_le.2 hstatus), decodeAnswer] at h
      have hreads : PrefillReads w.loads w.prefill.content := by
        by_contra hno
        obtain ⟨e, he⟩ := decodeBody_of_not_reads hno fields
        rw [he] at h
        cases h
      rw [decodeBody_of_reads hreads, Act.except_ok_bind] at h
      cases body with
      | obj fs => exact ⟨⟨fs, rfl⟩, hreads⟩
      | _ => cases h

/-- **A served completion reaches the client** exactly when the client's body is an object, the prefill response is an
object or no JSON, and the sentinel can read the answer. -/
theorem completion_served_iff (w : World) (route : Route) (rawBody requestId : Text)
    (hstatus : w.prefill.statusCode < 400) (hstream : ∀ body, w.loads rawBody = .ok body → ¬ Streams body) :
    Served w route rawBody requestId ↔
      (∃ fs, w.loads rawBody = .ok (.obj fs)) ∧ PrefillReads w.loads w.prefill.content ∧
        SentinelReads w.loads w.assertFirstToken route.isChat w.decode.content := by
  rw [Served, handler_fst, ← sentinel_iff]
  constructor
  · rintro ⟨resp, hresp, -, -⟩
    obtain ⟨⟨fs, hloads⟩, hreads⟩ := reads_of_answer hstatus hresp
    rw [answer_object w route rawBody requestId hstatus hstream hloads hreads] at hresp
    refine ⟨⟨fs, hloads⟩, hreads, ?_⟩
    cases hm : maybeAssertFirstToken w.loads w.assertFirstToken route.isChat w.decode.content with
    | error e =>
      rw [hm] at hresp
      cases hresp
    | ok u => rfl
  · rintro ⟨⟨fs, hloads⟩, hreads, hsentinel⟩
    rw [answer_object w route rawBody requestId hstatus hstream hloads hreads, hsentinel]
    exact ⟨_, rfl, rfl, rfl⟩

/-! ## Answers the sentinel cannot read -/

def nullMessageText : Text := "\x7b\"choices\": [\x7b\"message\": null\x7d]\x7d".toList

def loadsMessage (t : Text) : Except PyError Json :=
  if t = emptyText then .ok (.obj [])
  else if t = nullMessageText then
    .ok (.obj [("choices".toList, .arr [.obj [("message".toList, .null)]])])
  else .error .jsonDecodeError

/-- An answer with no message in its first choice, and the sentinel on. -/
def nullMessage : World where
  assertFirstToken := "The".toList
  loads := loadsMessage
  prefill := ⟨200, emptyText, some "application/json".toList⟩
  decode := ⟨200, nullMessageText, some "application/json".toList⟩

theorem nullMessage_not_streams : ∀ body, nullMessage.loads emptyText = .ok body → ¬ Streams body := by
  rintro body hbody ⟨v, hv, ht⟩
  cases hbody
  cases hv
  cases ht

theorem served_without_sentinel :
    nullMessage.prefill.statusCode < 400 ∧
      (Served { nullMessage with assertFirstToken := [] } .chatCompletions emptyText "gl-1".toList ↔
        (∃ fs, nullMessage.loads emptyText = .ok (.obj fs)) ∧ PrefillReads nullMessage.loads emptyText ∧
          SentinelReads nullMessage.loads [] true nullMessageText) :=
  ⟨by decide,
    completion_served_iff { nullMessage with assertFirstToken := [] } .chatCompletions emptyText "gl-1".toList (by decide)
      nullMessage_not_streams⟩

/-- **A served completion becomes an internal error** when its first message is null. -/
theorem null_message_raises :
    nullMessage.prefill.statusCode < 400 ∧ (∀ body, nullMessage.loads emptyText = .ok body → ¬ Streams body) ∧
      (Route.chatCompletions.handler nullMessage emptyText "gl-1".toList []).1 = .error .attributeError ∧
      ¬ Served nullMessage .chatCompletions emptyText "gl-1".toList := by
  have hraises : (Route.chatCompletions.handler nullMessage emptyText "gl-1".toList []).1 = .error .attributeError := rfl
  refine ⟨by decide, nullMessage_not_streams, hraises, ?_⟩
  rintro ⟨resp, hresp, -, -⟩
  rw [hraises] at hresp
  cases hresp

end Proxy
end GoodputLab
