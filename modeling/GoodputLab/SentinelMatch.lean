import GoodputLab.Base.Act
import GoodputLab.Sentinel
/-!
# SentinelMatch — what a passing sentinel has seen

Both comparisons stop where the shorter side ends, a logprob that is null is taken for 0, a token that is no string for its
`str`, and a difference that is not a number is not above the tolerance.  A check therefore passes on any beginning of the
fixture, the empty one included (`verdict_eq_zero_iff`), and what it vouches for is the response as it was sent exactly when
that is no such partial match (`sentinel_vouches_iff`).  The gauge shows no drift before the first probe, too.
-/
namespace GoodputLab
namespace Sentinel

/-! ## The comparison -/

/-- The difference is above the tolerance: an ordered comparison, false of no number. -/
def Drifts (epsilon x y : Float) : Prop := epsilon < (x - y).abs

def Within (epsilon x y : Float) : Prop := (x - y).abs ≤ epsilon

theorem drifts_eq_false_iff (epsilon : Float) : ∀ live recorded : List Float,
    drifts epsilon live recorded = false ↔ ∀ p ∈ live.zip recorded, ¬ Drifts epsilon p.1 p.2
  | [], recorded             => by simp [drifts]
  | x :: live, []            => by simp [drifts]
  | x :: live, y :: recorded => by
    simp [drifts, Drifts, drifts_eq_false_iff epsilon live recorded]

/-- **A comparison passes** on a beginning of the recorded tokens with no drift in the logprobs both sides have. -/
theorem verdict_eq_zero_iff (a : CheckArgs) (fixture : SentinelFixture) (tokens : List Text) (leading : List Float) :
    verdict a fixture tokens leading = 0 ↔
      tokens <+: fixture.tokens ∧ ∀ p ∈ leading.zip fixture.logprobsFirstN, ¬ Drifts a.logprobEpsilon p.1 p.2 := by
  rw [verdict, ← drifts_eq_false_iff, List.prefix_iff_eq_take]
  by_cases ht : tokens = fixture.tokens.take tokens.length
  · rw [if_neg (not_not.2 ht)]
    cases drifts a.logprobEpsilon leading fixture.logprobsFirstN <;> simp [← ht]
  · rw [if_pos ht]
    simp [ht]

/-! ## The live answer -/

theorem postCompletion_answered {w : World} {a : CheckArgs} {text : Text} {fs : List (Text × Json)}
    (hpost : ∀ url payload timeout, w.post url payload timeout = .responds 200 text)
    (hloads : w.loads text = .ok (.obj fs)) (hchoices : (fs.lookup "choices".toList).elim false Json.truthy = true) :
    postCompletion w a = .ok (.obj fs) := by
  unfold postCompletion
  simp only [hpost, hloads, hchoices]
  rfl

def members : Json → List (Text × Json)
  | .obj fs => fs
  | _       => []

def entries : Json → List Json
  | .arr l => l
  | _      => []

def member (key : Text) (x : Json) : Json := ((members x).lookup key).getD .null

/-- The list under a key of the first choice's logprobs, as the response has it; nothing where it has none. -/
def responseList (key : Text) (body : Json) : List Json :=
  entries (member key (member "logprobs".toList ((entries (member "choices".toList body)).headD .null)))

/-- The tokens a response is asked for. -/
def liveTokens (a : CheckArgs) (body : Json) : List Json := upTo a.maxTokens (responseList "tokens".toList body)

def isText : Json → Bool
  | .str _ => true
  | _      => false

def isNumber : Json → Bool
  | .num _ | .nonFinite _ => true
  | _                     => false

/-- The fixture a check is made against: the first of the served model's, by name. -/
def Selected (w : World) (a : CheckArgs) (fixture : SentinelFixture) : Prop :=
  ∃ entries entry rest, w.dir a.fixtureDir = some entries ∧ fixturesFor a.servedModelName entries = entry :: rest ∧
    loadFixture w entry.2 = .ok fixture

/-- The response has a number at the place of a recorded logprob, within the tolerance of it: null is no number. -/
def Counterpart (w : World) (a : CheckArgs) (body : Json) (i : Nat) (recorded : Float) : Prop :=
  ∃ v x, (responseList "token_logprobs".toList body)[i]? = some v ∧ isNumber v = true ∧ w.toFloat v = .ok x ∧
    Within a.logprobEpsilon x recorded

/-- The response's tokens are the recorded ones, and every recorded logprob has its counterpart. -/
def FullMatch (w : World) (a : CheckArgs) (fixture : SentinelFixture) : Prop :=
  ∃ body, postCompletion w a = .ok body ∧ liveTokens a body = fixture.tokens.map .str ∧
    ∀ i (h : i < fixture.logprobsFirstN.length), Counterpart w a body i fixture.logprobsFirstN[i]

/-- Fewer tokens than recorded, one that is no string, or a recorded logprob without its counterpart. -/
def FallsShort (w : World) (a : CheckArgs) (fixture : SentinelFixture) (body : Json) : Prop :=
  (liveTokens a body).length < fixture.tokens.length ∨ (∃ t ∈ liveTokens a body, isText t = false) ∨
    ∃ i, ∃ h : i < fixture.logprobsFirstN.length, ¬ Counterpart w a body i fixture.logprobsFirstN[i]

/-- For the prompt the fixture was recorded with, a response that is read as a beginning of the fixture and drifts nowhere
where the two are compared, yet falls short of it. -/
def PartialMatch (w : World) (a : CheckArgs) (fixture : SentinelFixture) : Prop :=
  fixture.promptSha256 = promptSha256 w knownPrefix ∧ ∃ body tokens leading, postCompletion w a = .ok body ∧
    extractTokensAndLogprobs w body a.maxTokens = .ok (tokens, leading) ∧ tokens <+: fixture.tokens ∧
    (∀ p ∈ leading.zip fixture.logprobsFirstN, ¬ Drifts a.logprobEpsilon p.1 p.2) ∧ FallsShort w a fixture body

/-- **A check passes** when the prompt is the recorded one and the answer passes the comparison. -/
theorem checkMode_eq_zero_iff {w : World} {a : CheckArgs} {fixture : SentinelFixture} (h : Selected w a fixture) :
    checkMode w a = .ok 0 ↔ fixture.promptSha256 = promptSha256 w knownPrefix ∧ ∃ body tokens leading,
      postCompletion w a = .ok body ∧ extractTokensAndLogprobs w body a.maxTokens = .ok (tokens, leading) ∧
        verdict a fixture tokens leading = 0 := by
  obtain ⟨entries, entry, rest, hdir, hfor, hload⟩ := h
  have hrun : checkMode w a = checkAgainst w a fixture := by
    rw [checkMode, hdir]
    simp only [hfor, hload]
  rw [hrun, checkAgainst]
  by_cases hsha : fixture.promptSha256 = promptSha256 w knownPrefix
  · rw [if_neg (not_not.2 hsha)]
    cases postCompletion w a with
    | error e =>
      refine iff_of_false ?_ (fun ⟨_, body, _, _, hbody, _⟩ => by cases hbody)
      cases e with
      | requestException => exact fun he => by cases he
      | py e => cases hv : e.isValueError <;> simp [hv]
    | ok body =>
      simp only
      cases hextract : extractTokensAndLogprobs w body a.maxTokens with
      | error e =>
        refine iff_of_false (fun he => by cases he) ?_
        rintro ⟨-, body', tokens, leading, hbody, hlive, -⟩
        cases hbody
        cases hextract.symm.trans hlive
      | ok r =>
        constructor
        · exact fun he => ⟨hsha, body, r.1, r.2, rfl, hextract, Except.ok.inj he⟩
        · rintro ⟨-, body', tokens, leading, hbody, hlive, hverdict⟩
          cases hbody
          cases hextract.symm.trans hlive
          exact congrArg Except.ok hverdict
  · rw [if_pos hsha]
    exact iff_of_false (fun he => by cases he) (fun h => hsha h.1)

/-- A check that passes was made against a fixture. -/
theorem exists_selected {w : World} {a : CheckArgs} (h : checkMode w a = .ok 0) : ∃ fixture, Selected w a fixture := by
  unfold checkMode at h
  cases hdir : w.dir a.fixtureDir with
  | none =>
    rw [hdir] at h
    cases h
  | some entries =>
    rw [hdir] at h
    simp only at h
    cases hfor : fixturesFor a.servedModelName entries with
    | nil =>
      rw [hfor] at h
      cases h
    | cons entry rest =>
      rw [hfor] at h
      simp only at h
      cases hload : loadFixture w entry.2 with
      | error e =>
        rw [hload] at h
        cases hv : e.isValueError <;> simp [hv] at h
      | ok fixture => exact ⟨fixture, entries, entry, rest, hdir, hfor, hload⟩

/-! ## What the extraction reads -/

theorem entries_of_get {x y : Json} {key : Text} (h : x.get key .null = .ok y) : y = member key x := by
  cases x with
  | obj fs => exact (Except.ok.inj h).symm
  | _ => cases h

theorem entries_of_item {x y : Json} {key : Text} (h : item x key = .ok y) : y = member key x := by
  cases x with
  | obj fs =>
    have hlookup : (fs.lookup key).elim (.error PyError.keyError) Except.ok = Except.ok y := h
    show y = (fs.lookup key).getD .null
    cases hfound : fs.lookup key with
    | none =>
      rw [hfound] at hlookup
      cases hlookup
    | some z =>
      rw [hfound] at hlookup
      exact (Except.ok.inj hlookup).symm
  | _ => cases h

/-- An `or` with nothing changes no list and no members. -/
theorem members_or (x : Json) : members (x.or (.obj [])) = members x := by
  cases x with
  | obj fs => cases fs <;> rfl
  | _ =>
    unfold Json.or
    split <;> rfl

theorem entries_or (x : Json) : entries (x.or (.arr [])) = entries x := by
  cases x with
  | arr l => cases l <;> rfl
  | _ =>
    unfold Json.or
    split <;> rfl

theorem upTo_map {α β : Type} (n : Int) (f : α → β) (l : List α) : upTo n (l.map f) = (upTo n l).map f := by
  unfold upTo
  split
  · exact List.map_take.symm
  · rw [List.length_map]
    exact List.map_take.symm

/-- **The tokens compared are the response's**, each as `str` makes it. -/
theorem extract_tokens {w : World} {a : CheckArgs} {body : Json} {tokens : List Text} {leading : List Float}
    (h : extractTokensAndLogprobs w body a.maxTokens = .ok (tokens, leading)) :
    tokens = (liveTokens a body).map w.toStr := by
  unfold extractTokensAndLogprobs at h
  obtain ⟨choices, hchoices, h⟩ := Act.except_bind_ok_iff.1 h
  obtain ⟨choice, hchoice, h⟩ := Act.except_bind_ok_iff.1 h
  obtain ⟨logprobs, hlogprobs, h⟩ := Act.except_bind_ok_iff.1 h
  obtain ⟨tokensField, htokens, h⟩ := Act.except_bind_ok_iff.1 h
  obtain ⟨logprobsField, -, h⟩ := Act.except_bind_ok_iff.1 h
  have hbody : choices = member "choices".toList body := entries_of_item hchoices
  have hfirst : choice = (entries choices).headD .null := by
    cases choices with
    | arr l =>
      cases l with
      | nil => cases hchoice
      | cons c l => exact (Except.ok.inj hchoice).symm
    | str t =>
      cases t with
      | nil => cases hchoice
      | cons c t =>
        -- a letter has no attribute `get`
        obtain rfl := Except.ok.inj hchoice
        cases hlogprobs
    | _ => cases hchoice
  have hlist : entries (tokensField.or (.arr [])) = responseList "tokens".toList body := by
    rw [entries_or, entries_of_get htokens, member, members_or, entries_of_get hlogprobs, hfirst, hbody]
    rfl
  split at h
  · rename_i ts ls hts hls
    obtain ⟨found, -, h⟩ := Act.except_bind_ok_iff.1 h
    rw [hts] at hlist
    rw [liveTokens, ← hlist, ← upTo_map]
    exact (congrArg Prod.fst (Except.ok.inj h)).symm
  · cases h

/-! ## The whole fixture -/

theorem eq_map_str : ∀ {l : List Json}, (∀ t ∈ l, isText t = true) → ∃ ts : List Text, l = ts.map Json.str
  | [], _     => ⟨[], rfl⟩
  | t :: l, h => by
    obtain ⟨ts, rfl⟩ := eq_map_str (fun t' ht' => h t' (List.mem_cons_of_mem t ht'))
    have htext := h t List.mem_cons_self
    cases t with
    | str s => exact ⟨s :: ts, rfl⟩
    | _ => cases htext

/-- A response that is read as a beginning of the fixture matches it in full, or else falls short. -/
theorem fullMatch_iff_not_fallsShort {w : World} {a : CheckArgs} {fixture : SentinelFixture} {body : Json}
    (hbody : postCompletion w a = .ok body) (hbegins : (liveTokens a body).map w.toStr <+: fixture.tokens) :
    FullMatch w a fixture ↔ ¬ FallsShort w a fixture body := by
  constructor
  · rintro ⟨body', hbody', htokens, hlogprobs⟩ hshort
    obtain rfl := Except.ok.inj (hbody.symm.trans hbody')
    rcases hshort with hfewer | ⟨t, ht, htext⟩ | ⟨i, hi, hnone⟩
    · rw [htokens, List.length_map] at hfewer
      exact lt_irrefl _ hfewer
    · rw [htokens] at ht
      obtain ⟨s, -, rfl⟩ := List.mem_map.1 ht
      cases htext
    · exact hnone (hlogprobs i hi)
  · intro hnot
    unfold FallsShort at hnot
    push Not at hnot
    obtain ⟨hall, htext, hlogprobs⟩ := hnot
    obtain ⟨ts, hts⟩ : ∃ ts : List Text, liveTokens a body = ts.map .str :=
      eq_map_str (fun t ht => Bool.eq_true_of_not_eq_false (htext t ht))
    have hstr : (liveTokens a body).map w.toStr = ts := by
      rw [hts, List.map_map]
      exact (List.map_congr_left (fun s _ => w.toStr_str s)).trans (List.map_id ts)
    rw [hstr] at hbegins
    rw [hts, List.length_map] at hall
    exact ⟨body, hbody, by rw [hts, hbegins.eq_of_length_le hall], hlogprobs⟩

/-- **A passing check has seen a full match exactly when it was no partial one.** -/
theorem vouches_iff {w : World} {a : CheckArgs} {fixture : SentinelFixture} (h : Selected w a fixture) :
    (checkMode w a = .ok 0 → FullMatch w a fixture) ↔ ¬ PartialMatch w a fixture := by
  constructor
  · rintro hvouch ⟨hsha, body, tokens, leading, hbody, hlive, hbegins, hdrift, hshort⟩
    have hpass := (checkMode_eq_zero_iff h).2
      ⟨hsha, body, tokens, leading, hbody, hlive, (verdict_eq_zero_iff _ _ _ _).2 ⟨hbegins, hdrift⟩⟩
    rw [extract_tokens hlive] at hbegins
    exact (fullMatch_iff_not_fallsShort hbody hbegins).1 (hvouch hpass) hshort
  · intro hnot hpass
    obtain ⟨hsha, body, tokens, leading, hbody, hlive, hverdict⟩ := (checkMode_eq_zero_iff h).1 hpass
    obtain ⟨hbegins, hdrift⟩ := (verdict_eq_zero_iff a fixture tokens leading).1 hverdict
    have hread := hbegins
    rw [extract_tokens hlive] at hread
    exact (fullMatch_iff_not_fallsShort hbody hread).2
      (fun hshort => hnot ⟨hsha, body, tokens, leading, hbody, hlive, hbegins, hdrift, hshort⟩)

/-- The check was made against a fixture, and the response matches it in full. -/
def Vouched (w : World) (a : CheckArgs) : Prop := ∃ fixture, Selected w a fixture ∧ FullMatch w a fixture

theorem selected_unique {w : World} {a : CheckArgs} {fixture fixture' : SentinelFixture} (h : Selected w a fixture)
    (h' : Selected w a fixture') : fixture = fixture' := by
  obtain ⟨entries, entry, rest, hdir, hfor, hload⟩ := h
  obtain ⟨entries', entry', rest', hdir', hfor', hload'⟩ := h'
  obtain rfl := Option.some.inj (hdir.symm.trans hdir')
  obtain ⟨rfl, -⟩ := List.cons.inj (hfor.symm.trans hfor')
  exact Except.ok.inj (hload.symm.trans hload')

theorem vouched_iff (w : World) (a : CheckArgs) :
    (checkMode w a = .ok 0 → Vouched w a) ↔ ∀ fixture, Selected w a fixture → ¬ PartialMatch w a fixture := by
  constructor
  · intro hvouch fixture hsel
    refine (vouches_iff hsel).1 (fun hpass => ?_)
    obtain ⟨fixture', hsel', hfull⟩ := hvouch hpass
    rwa [selected_unique hsel hsel']
  · intro hnot hpass
    obtain ⟨fixture, hsel⟩ := exists_selected hpass
    exact ⟨fixture, hsel, (vouches_iff hsel).2 (hnot fixture hsel) hpass⟩

/-! ## The gauge -/

theorem sentinelDrift_concat (earlier : List Int) (rc : Int) : sentinelDrift (earlier ++ [rc]) = 0 ↔ rc = 0 := by
  rw [sentinelDrift, List.foldl_append]
  by_cases hrc : rc = 0 <;> simp [hrc]

theorem exitCode_eq_zero_iff (r : Except PyError Nat) : exitCode r = 0 ↔ r = .ok 0 := by
  cases r with
  | error e => simp [exitCode]
  | ok rc => simp [exitCode]

theorem runSentinelCheck_eq_zero_iff (w : World) (ending : Ending) (baseUrl servedModelName fixtureDir : Text) :
    runSentinelCheck w ending baseUrl servedModelName fixtureDir = 0 ↔
      ending = .finished ∧
        checkMode w { baseUrl := baseUrl, servedModelName := servedModelName, fixtureDir := fixtureDir } = .ok 0 := by
  cases ending with
  | timeoutExpired => simp [runSentinelCheck]
  | failed rc nonzero => simp [runSentinelCheck, nonzero]
  | finished => simp [runSentinelCheck, exitCode_eq_zero_iff]

/-- One turn of the daemon: what the check finds, and how its subprocess ends. -/
structure Probe where
  world  : World
  ending : Ending

/-- The gauge after the probes of a daemon; before the first it is what a gauge starts with. -/
def gauge (baseUrl servedModelName fixtureDir : Text) (probes : List Probe) : Nat :=
  sentinelDrift (probes.map (fun p => runSentinelCheck p.world p.ending baseUrl servedModelName fixtureDir))

/-- What the daemon runs a check with. -/
def probeArgs (baseUrl servedModelName fixtureDir : Text) : CheckArgs :=
  { baseUrl := baseUrl, servedModelName := servedModelName, fixtureDir := fixtureDir }

theorem gauge_vouches_iff (baseUrl servedModelName fixtureDir : Text) (probes : List Probe) :
    (gauge baseUrl servedModelName fixtureDir probes = 0 →
        ∃ p ∈ probes.getLast?, Vouched p.world (probeArgs baseUrl servedModelName fixtureDir)) ↔
      ∃ p ∈ probes.getLast?, p.ending = .finished →
        ∀ fixture, Selected p.world (probeArgs baseUrl servedModelName fixtureDir) fixture →
          ¬ PartialMatch p.world (probeArgs baseUrl servedModelName fixtureDir) fixture := by
  rcases List.eq_nil_or_concat' probes with rfl | ⟨earlier, p, rfl⟩
  · refine iff_of_false (fun h => ?_) (fun ⟨p, hp, _⟩ => by cases hp)
    obtain ⟨p, hp, -⟩ := h rfl
    cases hp
  · have hlast : ∀ P : Probe → Prop, (∃ q ∈ (earlier ++ [p]).getLast?, P q) ↔ P p := by
      intro P
      rw [List.getLast?_concat]
      exact ⟨fun ⟨q, hq, hP⟩ => Option.some.inj hq ▸ hP, fun hP => ⟨p, rfl, hP⟩⟩
    rw [hlast, hlast, gauge, List.map_append, List.map_singleton, sentinelDrift_concat, runSentinelCheck_eq_zero_iff,
      ← probeArgs, and_imp]
    exact imp_congr_right (fun _ => vouched_iff p.world _)

/-- **A pass vouches for the whole fixture exactly when the response is no partial match of it**; and a gauge at 0 vouches
for the last response exactly when there has been one, and it was no partial match if its check finished. -/
theorem sentinel_vouches_iff (w : World) (a : CheckArgs) (baseUrl servedModelName fixtureDir : Text)
    (probes : List Probe) :
    ((checkMode w a = .ok 0 → Vouched w a) ↔ ∀ fixture, Selected w a fixture → ¬ PartialMatch w a fixture) ∧
      ((gauge baseUrl servedModelName fixtureDir probes = 0 →
          ∃ p ∈ probes.getLast?, Vouched p.world (probeArgs baseUrl servedModelName fixtureDir)) ↔
        ∃ p ∈ probes.getLast?, p.ending = .finished →
          ∀ fixture, Selected p.world (probeArgs baseUrl servedModelName fixtureDir) fixture →
            ¬ PartialMatch p.world (probeArgs baseUrl servedModelName fixtureDir) fixture) :=
  ⟨vouched_iff w a, gauge_vouches_iff baseUrl servedModelName fixtureDir probes⟩

/-! ## An answer without logprobs -/

def knownHash : Text := "0a93658d0b21d69af3d77b9a33bde7d849826fe0b26620fe4045a87bd8fa10f5".toList

def fixtureText : Text :=
  "\x7b\"model_id\": \"goodputlab-model\", \"served_model_name\": \"goodputlab-model\", ".toList ++
    "\"vllm_version\": \"0.11.2\", \"prompt_sha256\": \"0a93658d0b21d69a\", \"prompt_chars\": 9950, ".toList ++
    "\"recorded_at\": \"2026-01-01T00:00:00Z\", \"max_tokens\": 50, \"tokens\": [\"The\", \" quick\"], ".toList ++
    "\"logprobs_first_n\": [0, -1]\x7d".toList

def answerText : Text := "\x7b\"choices\": [\x7b\"text\": \"The quick\"\x7d]\x7d".toList

def fixtureJson : Json :=
  .obj [("model_id".toList, .str defaultServedModelName), ("served_model_name".toList, .str defaultServedModelName),
    ("vllm_version".toList, .str "0.11.2".toList), ("prompt_sha256".toList, .str (knownHash.take 16)),
    ("prompt_chars".toList, .num 9950), ("recorded_at".toList, .str "2026-01-01T00:00:00Z".toList),
    ("max_tokens".toList, .num 50), ("tokens".toList, .arr [.str "The".toList, .str " quick".toList]),
    ("logprobs_first_n".toList, .arr [.num 0, .num (-1)])]

def answerJson : Json := .obj [("choices".toList, .arr [.obj [("text".toList, .str "The quick".toList)]])]

def recordedFixture : SentinelFixture where
  modelId := defaultServedModelName
  servedModelName := defaultServedModelName
  vllmVersion := "0.11.2".toList
  promptSha256 := knownHash.take 16
  promptChars := 9950
  recordedAt := "2026-01-01T00:00:00Z".toList
  maxTokens := 50
  tokens := ["The".toList, " quick".toList]
  logprobsFirstN := [Float.ofInt 0, Float.ofInt (-1)]

def loadsOne (t : Text) : Except PyError Json :=
  if t = fixtureText then .ok fixtureJson else if t = answerText then .ok answerJson else .error .jsonDecodeError

def floatOfInt : Json → Except PyError Float
  | .num q => .ok (Float.ofInt q.num)
  | _      => .error .typeError

def intOfNum : Json → Except PyError Int
  | .num q => .ok q.num
  | _      => .error .typeError

def strOfStr : Json → Text
  | .str s => s
  | _      => []

/-- One fixture, and an endpoint that answers without logprobs. -/
def noLogprobs : World where
  loads := loadsOne
  toFloat := floatOfInt
  toInt := intOfNum
  toStr := strOfStr
  sha256Hex := fun _ => knownHash
  dir := fun _ => some [("sentinel_goodputlab_model_0_11_2.json".toList, .ok fixtureText)]
  post := fun _ _ _ => .responds 200 answerText
  toStr_str := fun _ => rfl

def defaultArgs : CheckArgs :=
  { baseUrl := "http://localhost:19100/v1".toList, servedModelName := defaultServedModelName,
    fixtureDir := defaultFixtureDir }

theorem noLogprobs_loads : noLogprobs.loads = loadsOne := rfl

theorem fixtureFile_matches : isFixtureOf defaultServedModelName "sentinel_goodputlab_model_0_11_2.json".toList = true := by
  decide +kernel

theorem keySet_fixtureJson : keySet fixtureJson = .ok (required.map Json.str) := rfl

theorem required_in_fixtureJson :
    ¬ required.any (fun k => !(required.map Json.str).any (fun x => x.isStr k)) = true := by
  decide +kernel

theorem selected_recordedFixture : Selected noLogprobs defaultArgs recordedFixture := by
  have hload : loadFixture noLogprobs (.ok fixtureText) = .ok recordedFixture := by
    have hloads : noLogprobs.loads fixtureText = .ok fixtureJson := by rw [noLogprobs_loads, loadsOne, if_pos rfl]
    rw [loadFixture, Act.except_ok_bind, hloads, Act.except_ok_bind, fromJson, keySet_fixtureJson, Act.except_ok_bind,
      if_neg required_in_fixtureJson]
    rfl
  refine ⟨_, ("sentinel_goodputlab_model_0_11_2.json".toList, .ok fixtureText), [], rfl, ?_, hload⟩
  show (List.filter _ _).insertionSort _ = _
  rw [List.filter_cons_of_pos (by exact fixtureFile_matches)]
  rfl

theorem loads_answer : noLogprobs.loads answerText = .ok answerJson := by
  have hne : answerText ≠ fixtureText := by decide +kernel
  rw [noLogprobs_loads, loadsOne, if_neg hne, if_pos rfl]

theorem post_noLogprobs : postCompletion noLogprobs defaultArgs = .ok answerJson :=
  postCompletion_answered (fun _ _ _ => rfl) loads_answer rfl

/-- **An answer without any token passes**, and leaves the gauge at 0, where it was before the first probe. -/
theorem empty_answer_passes :
    Selected noLogprobs defaultArgs recordedFixture ∧ recordedFixture.tokens ≠ [] ∧
      defaultArgs.maxTokens = recordedFixture.maxTokens ∧ checkMode noLogprobs defaultArgs = .ok 0 ∧
      gauge defaultArgs.baseUrl defaultServedModelName defaultFixtureDir [] = 0 ∧
      gauge defaultArgs.baseUrl defaultServedModelName defaultFixtureDir [⟨noLogprobs, .finished⟩] = 0 ∧
      ¬ FullMatch noLogprobs defaultArgs recordedFixture ∧ ¬ Vouched noLogprobs defaultArgs := by
  have hpass : checkMode noLogprobs defaultArgs = .ok 0 :=
    (checkMode_eq_zero_iff selected_recordedFixture).2 ⟨rfl, answerJson, [], [], post_noLogprobs, rfl, rfl⟩
  have hnot : ¬ FullMatch noLogprobs defaultArgs recordedFixture := by
    rintro ⟨body, hbody, htokens, -⟩
    obtain rfl := Except.ok.inj (post_noLogprobs.symm.trans hbody)
    cases htokens
  refine ⟨selected_recordedFixture, List.cons_ne_nil _ _, rfl, hpass, rfl, ?_, hnot, ?_⟩
  · rw [gauge, List.map_singleton, ← List.nil_append [_], sentinelDrift_concat]
    exact (runSentinelCheck_eq_zero_iff _ _ _ _ _).2 ⟨rfl, hpass⟩
  · rintro ⟨fixture, hsel, hfull⟩
    rw [selected_unique hsel selected_recordedFixture] at hfull
    exact hnot hfull

end Sentinel
end GoodputLab
