import GoodputLab.ProxyStatus
/-!
# ProxyHandle — the bodies a proxied completion sends

The prefill stage gets the client's body with its own handshake, one token and no stream (`prefillBody_request`).  The
decode stage gets the client's body under the prefill stage's handle; without such a handle the client's own stays in
place, so the handle forwarded is the prefill's exactly when there is one or the client sent none
(`handle_forwarded_iff`).
-/
namespace GoodputLab
namespace Proxy

def kvKey : Text := "kv_transfer_params".toList

/-- The keys the prefill stage's body has values of its own for, or lacks. -/
def prefillKeys : List Text :=
  ["max_tokens".toList, "max_completion_tokens".toList, "stream".toList, "stream_options".toList, kvKey]

/-- One token, no stream and a handle kept for a remote decode; everything else is the client's. -/
structure PrefillRequest (fields sent : Body) : Prop where
  handle : ∃ kv, valueOf kvKey sent = some (.obj kv) ∧ kv.lookup "do_remote_decode".toList = some (.bool true)
  stream : valueOf "stream".toList sent = some (.bool false)
  tokens : valueOf "max_tokens".toList sent = some (.num 1)
  capped : ∀ v, valueOf "max_completion_tokens".toList sent = some v → v = .num 1
  rest   : withoutKeys prefillKeys sent = withoutKeys prefillKeys fields

/-- The client's body on every other key, under exactly the handle. -/
structure DecodeRequest (handle : Option Json) (fields sent : Body) : Prop where
  handle : valueOf kvKey sent = handle
  rest   : withoutKeys [kvKey] sent = withoutKeys [kvKey] fields

/-- The handle of a prefill response, when it has one that is not empty. -/
def prefillHandle (loads : Text → Except PyError Json) (prefillText : Text) : Option Json :=
  match loads prefillText with
  | .ok (.obj fs) => (fs.lookup kvKey).filter Json.truthy
  | _             => none

def Route.path : Route → Text
  | .chatCompletions => "/v1/chat/completions".toList
  | .completions     => "/v1/completions".toList

/-- Exactly two requests are sent, each what its stage is due. -/
def HandleForwarded (w : World) (route : Route) (rawBody requestId : Text) : Prop :=
  ∃ body fields toPrefill toDecode, Readable w rawBody body fields ∧
    (route.handler w rawBody requestId []).2 =
      [⟨.prefill, route.path, toPrefill, requestId⟩, ⟨.decode, route.path, toDecode, requestId⟩] ∧
    PrefillRequest fields toPrefill ∧ DecodeRequest (prefillHandle w.loads w.prefill.content) fields toDecode

/-! ## The prefill stage's body -/

theorem prefillBody_request (fields : Body) : PrefillRequest fields (prefillBody fields) := by
  have hcap : ∀ d : Body, withoutKeys prefillKeys (if hasKey "max_completion_tokens".toList d then
      setKey "max_completion_tokens".toList (.num 1) d else d) = withoutKeys prefillKeys d := by
    intro d
    split
    · exact withoutKeys_setKey (by decide) _ d
    · rfl
  refine ⟨⟨_, valueOf_setKey kvKey _ _, rfl⟩, ?_, ?_, ?_, ?_⟩
  · rw [prefillBody, valueOf_setKey_of_ne (by decide), valueOf_popKey_of_ne (by decide), valueOf_setKey]
  · rw [prefillBody, valueOf_setKey_of_ne (by decide), valueOf_popKey_of_ne (by decide),
      valueOf_setKey_of_ne (by decide)]
    split
    · rw [valueOf_setKey_of_ne (by decide), valueOf_setKey]
    · rw [valueOf_setKey]
  · intro v
    rw [prefillBody, valueOf_setKey_of_ne (by decide), valueOf_popKey_of_ne (by decide),
      valueOf_setKey_of_ne (by decide)]
    split
    · rw [valueOf_setKey, Option.some_inj]
      exact Eq.symm
    · rename_i hkey
      rw [hasKey_eq, Bool.not_eq_true, Option.isSome_eq_false_iff, Option.isNone_iff_eq_none] at hkey
      rw [hkey]
      exact fun h => by cases h
  · rw [prefillBody, withoutKeys_setKey (by decide), withoutKeys_popKey (by decide), withoutKeys_setKey (by decide), hcap,
      withoutKeys_setKey (by decide)]

/-! ## The decode stage's body -/

/-- A prefill response the handle can be looked for in: no JSON at all, or an object. -/
def PrefillReads (loads : Text → Except PyError Json) (prefillText : Text) : Prop :=
  (∃ e, loads prefillText = .error e ∧ e.isValueError = true) ∨ ∃ fs, loads prefillText = .ok (.obj fs)

theorem decodeBody_of_reads {loads : Text → Except PyError Json} {prefillText : Text} (h : PrefillReads loads prefillText)
    (body : Body) :
    decodeBody loads body prefillText =
      .ok ((prefillHandle loads prefillText).elim body (fun kv => setKey kvKey kv body)) := by
  rcases h with ⟨e, he, hvalue⟩ | ⟨fs, hfs⟩
  · rw [decodeBody, kvParams, prefillHandle, he]
    simp only [Except.bind, hvalue, if_true]
    rfl
  · have hkv : kvParams loads prefillText = .ok ((fs.lookup kvKey).getD .null) := by
      rw [kvParams, hfs]
      rfl
    have hhandle : prefillHandle loads prefillText = (fs.lookup kvKey).filter Json.truthy := by rw [prefillHandle, hfs]
    rw [decodeBody, hkv, Act.except_ok_bind, hhandle]
    cases fs.lookup kvKey with
    | none => rfl
    | some kv =>
      rw [Option.getD_some, Option.filter_some]
      cases kv.truthy <;> rfl

theorem decodeBody_of_not_reads {loads : Text → Except PyError Json} {prefillText : Text}
    (h : ¬ PrefillReads loads prefillText) (body : Body) : ∃ e, decodeBody loads body prefillText = .error e := by
  have hkv : ∃ e, kvParams loads prefillText = .error e := by
    unfold kvParams
    cases hl : loads prefillText with
    | error e =>
      have hvalue : e.isValueError = false := Bool.eq_false_iff.2 (fun hv => h (.inl ⟨e, hl, hv⟩))
      simp [Except.bind, hvalue]
    | ok payload =>
      cases payload with
      | obj fs => exact absurd (.inr ⟨fs, hl⟩) h
      | _ => exact ⟨_, rfl⟩
  obtain ⟨e, he⟩ := hkv
  rw [decodeBody, he]
  exact ⟨e, rfl⟩

/-- **The decode stage's body** is due the handle exactly when there is one or the client sent none. -/
theorem decodeRequest_iff (handle : Option Json) (fields : Body) :
    DecodeRequest handle fields (handle.elim fields (fun kv => setKey kvKey kv fields)) ↔
      handle ≠ none ∨ valueOf kvKey fields = none := by
  cases handle with
  | none =>
    simp only [ne_eq, not_true_eq_false, false_or]
    exact ⟨fun h => h.handle, fun h => ⟨h, rfl⟩⟩
  | some kv =>
    refine iff_of_true ⟨valueOf_setKey kvKey kv fields, withoutKeys_setKey List.mem_cons_self kv fields⟩ (.inl ?_)
    exact Option.some_ne_none kv

/-! ## The requests sent -/

theorem runDecode_sends (w : World) (chat : Bool) (path : Text) (body : Json) (fields : Body) (prefillText requestId : Text)
    (sent : List Sent) {toDecode : Body} {stream : Json} (hbody : decodeBody w.loads fields prefillText = .ok toDecode)
    (hstream : body.get "stream".toList .null = .ok stream) :
    (runDecode w chat path body fields prefillText requestId sent).2 = sent ++ [⟨.decode, path, toDecode, requestId⟩] := by
  rw [runDecode, hbody, Act.lift_ok_bind, hstream, Act.lift_ok_bind]
  split
  · rfl
  · rw [post_bind]
    cases maybeAssertFirstToken w.loads w.assertFirstToken chat w.decode.content <;> rfl

/-- The handle replaces what the client sent: a readable prefill response, with a handle or for a body without one. -/
def HandleReplaces (w : World) (rawBody : Text) : Prop :=
  ∃ fs, w.loads rawBody = .ok (.obj fs) ∧ PrefillReads w.loads w.prefill.content ∧
    (prefillHandle w.loads w.prefill.content ≠ none ∨ fs.lookup kvKey = none)

theorem valueOf_object (key : Text) : ∀ fs : List (Text × Json),
    valueOf key (fs.map (fun f => (.str f.1, f.2))) = fs.lookup key
  | []      => rfl
  | f :: fs => by
    rw [List.map_cons, valueOf_cons, valueOf_object key fs, List.lookup_cons, Json.isStr]
    by_cases h : f.1 = key
    · simp [h]
    · rw [beq_eq_false_iff_ne.2 (Ne.symm h)]
      simp [h]

theorem handler_sends (w : World) (route : Route) (rawBody requestId : Text) {body : Json} {fields : Body}
    (h : Readable w rawBody body fields) (hstatus : w.prefill.statusCode < 400) :
    (route.handler w rawBody requestId []).2 =
      (runDecode w route.isChat route.path body fields w.prefill.content requestId
        [⟨.prefill, route.path, prefillBody fields, requestId⟩]).2 := by
  have hcomplete : (complete w route.isChat route.path rawBody requestId []).2 =
      (runDecode w route.isChat route.path body fields w.prefill.content requestId
        [⟨.prefill, route.path, prefillBody fields, requestId⟩]).2 := by
    rw [complete, h.1, Act.lift_ok_bind, h.2, Option.elim_some, Act.lift_ok_bind, post_bind, if_neg (not_le.2 hstatus)]
    rfl
  cases route with
  | chatCompletions => exact hcomplete
  | completions => exact hcomplete

/-- **The handle on the decode request is the prefill's** exactly when it replaces what the client sent. -/
theorem handle_forwarded_iff (w : World) (route : Route) (rawBody requestId : Text) (hstatus : w.prefill.statusCode < 400) :
    HandleForwarded w route rawBody requestId ↔ HandleReplaces w rawBody := by
  constructor
  · rintro ⟨body, fields, toPrefill, toDecode, hread, hsent, -, hdecode⟩
    rw [handler_sends w route rawBody requestId hread hstatus] at hsent
    have hreads : PrefillReads w.loads w.prefill.content := by
      by_contra hno
      obtain ⟨e, he⟩ := decodeBody_of_not_reads hno fields
      rw [runDecode, he] at hsent
      cases hsent
    have hbody := decodeBody_of_reads hreads fields
    cases hstream : body.get "stream".toList .null with
    | error e =>
      rw [runDecode, hbody, Act.lift_ok_bind, hstream] at hsent
      cases hsent
    | ok v =>
      rw [runDecode_sends w _ _ body fields _ requestId _ hbody hstream] at hsent
      cases body with
      | obj fs =>
        obtain rfl : fs.map (fun f => (Json.str f.1, f.2)) = fields := Option.some.inj hread.2
        obtain ⟨-, hsecond⟩ := List.cons.inj hsent
        obtain rfl : _ = toDecode := congrArg Sent.body (List.cons.inj hsecond).1
        rw [decodeRequest_iff, valueOf_object] at hdecode
        exact ⟨fs, hread.1, hreads, hdecode⟩
      | _ => cases hstream
  · rintro ⟨fs, hloads, hreads, hreplaces⟩
    have hread : Readable w rawBody (.obj fs) (fs.map (fun f => (.str f.1, f.2))) := ⟨hloads, rfl⟩
    have hstream : (Json.obj fs).get "stream".toList .null = .ok ((fs.lookup "stream".toList).getD .null) := rfl
    refine ⟨_, _, _, _, hread, ?_, prefillBody_request _, (decodeRequest_iff _ _).2 ?_⟩
    · rw [handler_sends w route rawBody requestId hread hstatus,
        runDecode_sends w _ _ _ _ _ requestId _ (decodeBody_of_reads hreads _) hstream]
      rfl
    · rwa [valueOf_object]

/-! ## A handle of the client's own -/

def handleText : Text := "\x7b\"kv_transfer_params\": \x7b\"remote_engine_id\": \"e7\"\x7d\x7d".toList

def foreignHandle : Json := .obj [("remote_engine_id".toList, .str "e7".toList)]

def emptyText : Text := "\x7b\x7d".toList

def loadsHandle (t : Text) : Except PyError Json :=
  if t = handleText then .ok (.obj [(kvKey, foreignHandle)]) else if t = emptyText then .ok (.obj []) else .error .valueError

/-- A prefill stage that keeps no blocks. -/
def noHandle : World where
  assertFirstToken := []
  loads := loadsHandle
  prefill := ⟨200, emptyText, some "application/json".toList⟩
  decode := ⟨200, emptyText, some "application/json".toList⟩

theorem handle_forwarded_from_prefill :
    ({ noHandle with prefill := ⟨200, handleText, none⟩ } : World).prefill.statusCode < 400 ∧
      (HandleForwarded { noHandle with prefill := ⟨200, handleText, none⟩ } .chatCompletions handleText "gl-1".toList ↔
        HandleReplaces { noHandle with prefill := ⟨200, handleText, none⟩ } handleText) :=
  ⟨by decide, handle_forwarded_iff _ _ _ _ (by decide)⟩

/-- **The client's own handle** reaches the decode stage when the prefill response has none. -/
theorem foreign_handle_forwarded :
    noHandle.prefill.statusCode < 400 ∧ prefillHandle noHandle.loads noHandle.prefill.content = none ∧
      ((Route.chatCompletions.handler noHandle handleText "gl-1".toList []).2.map (fun s => valueOf kvKey s.body)).getLast? =
        some (some foreignHandle) ∧
      ¬ HandleForwarded noHandle .chatCompletions handleText "gl-1".toList := by
  have hnone : prefillHandle noHandle.loads noHandle.prefill.content = none := rfl
  have hlast : ((Route.chatCompletions.handler noHandle handleText "gl-1".toList []).2.map
      (fun s => valueOf kvKey s.body)).getLast? = some (some foreignHandle) := rfl
  refine ⟨by decide, hnone, hlast, ?_⟩
  rintro ⟨body, fields, toPrefill, toDecode, -, hsent, -, hdecode⟩
  rw [hsent] at hlast
  have hkept : valueOf kvKey toDecode = some foreignHandle := Option.some.inj hlast
  rw [hdecode.handle, hnone] at hkept
  cases hkept

end Proxy
end GoodputLab
