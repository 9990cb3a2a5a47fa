import GoodputLab.Base.Json
/-!
# Sentinel — the known-prefix probe and its gauge (`tests/sentinel.py`, `scripts/sentinel_daemon.py`)

A check loads the fixture recorded for the served model, asks the endpoint for the same completion and compares tokens
and leading logprobs; the daemon turns its exit code into a gauge.  The files, the endpoint, the JSON decoder and the
language's conversions are parameters.  Floats are binary64.
-/
namespace GoodputLab
namespace Sentinel

def knownPrefix : Text :=
  (List.replicate 50 ("The quick brown fox jumps over the lazy dog. ".toList ++
    "Sphinx of black quartz, judge my vow. ".toList ++ "Pack my box with five dozen liquor jugs. ".toList ++
    "How vexingly quick daft zebras jump. ".toList ++ "The five boxing wizards jump quickly. ".toList)).flatten

def defaultServedModelName : Text := "goodputlab-model".toList

def defaultFixtureDir : Text := "tests/_fixtures".toList

def defaultMaxTokens : Int := 50

def defaultLogprobEpsilon : Float := 0.001

def defaultTimeoutSeconds : Float := 60

def logprobSampleSize : Nat := 5

/-! ## What the check is given -/

inductive Posted
  | requestException
  | raises (e : PyError)
  | responds (status : Nat) (text : Text)

/-- What the check is given from outside.  A directory is its files' names and what reading each yields; a conversion
says what `float`, `int` and `str` make of a value. -/
structure World where
  loads     : Text → Except PyError Json
  toFloat   : Json → Except PyError Float
  toInt     : Json → Except PyError Int
  toStr     : Json → Text
  sha256Hex : List UInt8 → Text
  dir       : Text → Option (List (Text × Except PyError Text))
  post      : Text → List (Text × Json) → Float → Posted
  toStr_str : ∀ s : Text, toStr (.str s) = s

structure CheckArgs where
  baseUrl         : Text
  servedModelName : Text  := defaultServedModelName
  fixtureDir      : Text  := defaultFixtureDir
  maxTokens       : Int   := defaultMaxTokens
  logprobEpsilon  : Float := defaultLogprobEpsilon
  timeout         : Float := defaultTimeoutSeconds

/-! ## Fixtures -/

def promptSha256 (w : World) (prompt : Text) : Text := (w.sha256Hex (Text.utf8 prompt)).take 16

/-- `c.lower()`, as far as ASCII letters come of it. -/
def lower (c : Char) : Text :=
  if c.toNat = 0x212a then ['k']
  else if c.toNat = 0x130 then ['i', Char.ofNat 0x307]
  else [c.toLower]

def isPlain (c : Char) : Bool := ('a' ≤ c && c ≤ 'z') || ('0' ≤ c && c ≤ '9')

/-- Every run of other characters becomes one underscore; `inRun` says whether the run's is written already. -/
def underscored : Bool → Text → Text
  | _, []          => []
  | inRun, c :: cs =>
    if isPlain c then c :: underscored false cs
    else if inRun then underscored true cs
    else '_' :: underscored true cs

def safeFilenameFragment (s : Text) : Text :=
  let s := underscored false (s.strip.flatMap lower)
  let s := (s.dropWhile (· = '_')).rdropWhile (· = '_')
  if s = [] then "unknown".toList else s

structure SentinelFixture where
  modelId         : Text
  servedModelName : Text
  vllmVersion     : Text
  promptSha256    : Text
  promptChars     : Int
  recordedAt      : Text
  maxTokens       : Int
  tokens          : List Text
  logprobsFirstN  : List Float

def required : List Text :=
  ["model_id".toList, "served_model_name".toList, "vllm_version".toList, "prompt_sha256".toList, "prompt_chars".toList,
    "recorded_at".toList, "max_tokens".toList, "tokens".toList, "logprobs_first_n".toList]

/-- `set(data)`: only what can be iterated over, and holds no list or dictionary. -/
def keySet : Json → Except PyError (List Json)
  | .obj fs => .ok (fs.map (fun f => .str f.1))
  | .str s  => .ok (s.map (fun c => .str [c]))
  | .arr l  => if l.any (fun x => match x with | .arr _ | .obj _ => true | _ => false) then .error .typeError else .ok l
  | _       => .error .typeError

/-- `data[key]`. -/
def item (data : Json) (key : Text) : Except PyError Json :=
  match data with
  | .obj fs => (fs.lookup key).elim (.error .keyError) .ok
  | _       => .error .typeError

/-- `for x in v`. -/
def elements : Json → Except PyError (List Json)
  | .arr l  => .ok l
  | .str s  => .ok (s.map (fun c => .str [c]))
  | .obj fs => .ok (fs.map (fun f => .str f.1))
  | _       => .error .typeError

def fromJson (w : World) (data : Json) : Except PyError SentinelFixture := do
  let keys ← keySet data
  if required.any (fun k => !keys.any (fun x => x.isStr k)) then .error .valueError
  else do
    let modelId ← item data "model_id".toList
    let servedModelName ← item data "served_model_name".toList
    let vllmVersion ← item data "vllm_version".toList
    let sha ← item data "prompt_sha256".toList
    let promptChars ← (item data "prompt_chars".toList).bind w.toInt
    let recordedAt ← item data "recorded_at".toList
    let maxTokens ← (item data "max_tokens".toList).bind w.toInt
    let tokens ← (item data "tokens".toList).bind elements
    let logprobs ← (item data "logprobs_first_n".toList).bind elements
    let logprobsFirstN ← logprobs.mapM w.toFloat
    pure ⟨w.toStr modelId, w.toStr servedModelName, w.toStr vllmVersion, w.toStr sha, promptChars, w.toStr recordedAt,
      maxTokens, tokens.map w.toStr, logprobsFirstN⟩

/-- The names the glob pattern matches: the star stands between an underscore and a dot. -/
def isFixtureOf (servedModelName name : Text) : Bool :=
  name.startsWith ("sentinel_".toList ++ safeFilenameFragment servedModelName ++ ['_']) && name.endsWith ".json".toList

def fixturesFor (servedModelName : Text) (entries : List (Text × Except PyError Text)) :
    List (Text × Except PyError Text) :=
  (entries.filter (fun e => isFixtureOf servedModelName e.1)).insertionSort (fun a b => a.1 ≤ b.1)

def loadFixture (w : World) (file : Except PyError Text) : Except PyError SentinelFixture := do
  let text ← file
  let data ← w.loads text
  fromJson w data

/-! ## The live call -/

inductive ProbeError
  | requestException
  | py (e : PyError)

def postCompletion (w : World) (a : CheckArgs) : Except ProbeError Json :=
  let url := Text.rstrip ['/'] a.baseUrl ++ "/completions".toList
  let payload : List (Text × Json) :=
    [("model".toList, .str a.servedModelName), ("prompt".toList, .str knownPrefix), ("max_tokens".toList, .num a.maxTokens),
      ("temperature".toList, .num 0), ("stream".toList, .bool false), ("logprobs".toList, .num logprobSampleSize)]
  match w.post url payload a.timeout with
  | .requestException     => .error .requestException
  | .raises e             => .error (.py e)
  | .responds status text =>
    if 400 ≤ status ∧ status < 600 then .error .requestException
    else match w.loads text with
      | .error e       => .error (.py e)
      | .ok (.obj fs)  =>
        if ((fs.lookup "choices".toList).elim false Json.truthy) then .ok (.obj fs) else .error (.py .valueError)
      | .ok _          => .error (.py .valueError)

/-- `l[:n]`. -/
def upTo {α : Type} (n : Int) (l : List α) : List α :=
  if 0 ≤ n then l.take n.toNat else l.take (l.length - n.natAbs)

def logprobOf (w : World) : Json → Except PyError Float
  | .null => .ok 0
  | v     => w.toFloat v

def extractTokensAndLogprobs (w : World) (body : Json) (maxTokens : Int) : Except PyError (List Text × List Float) := do
  let choices ← item body "choices".toList
  let choice ← choices.first
  let logprobs ← choice.get "logprobs".toList .null
  let logprobsObj := logprobs.or (.obj [])
  let tokens ← logprobsObj.get "tokens".toList .null
  let tokenLogprobs ← logprobsObj.get "token_logprobs".toList .null
  match tokens.or (.arr []), tokenLogprobs.or (.arr []) with
  | .arr tokens, .arr tokenLogprobs => do
    let leading ← (tokenLogprobs.take (logprobSampleSize + 1)).mapM (logprobOf w)
    pure (upTo maxTokens (tokens.map w.toStr), leading.take logprobSampleSize)
  | _, _ => .error .valueError

/-! ## The check -/

/-- The loop over the leading logprobs both sides have. -/
def drifts (epsilon : Float) : List Float → List Float → Bool
  | x :: live, y :: recorded => decide (epsilon < (x - y).abs) || drifts epsilon live recorded
  | _, _                     => false

/-- The comparison of a live answer with a fixture: the exit code. -/
def verdict (a : CheckArgs) (fixture : SentinelFixture) (tokens : List Text) (leading : List Float) : Nat :=
  if tokens ≠ fixture.tokens.take tokens.length then 1
  else if drifts a.logprobEpsilon leading fixture.logprobsFirstN then 1
  else 0

/-- The check against a loaded fixture; an exception the extraction raises is not caught. -/
def checkAgainst (w : World) (a : CheckArgs) (fixture : SentinelFixture) : Except PyError Nat :=
  if fixture.promptSha256 ≠ promptSha256 w knownPrefix then .ok 1
  else match postCompletion w a with
    | .error .requestException => .ok 1
    | .error (.py e)           => if e.isValueError then .ok 1 else .error e
    | .ok body                 => do
      let (tokens, leading) ← extractTokensAndLogprobs w body a.maxTokens
      pure (verdict a fixture tokens leading)

/-- The exit code of a check, or the exception that leaves it. -/
def checkMode (w : World) (a : CheckArgs) : Except PyError Nat :=
  match w.dir a.fixtureDir with
  | none         => .ok 1
  | some entries =>
    match fixturesFor a.servedModelName entries with
    | []         => .ok 1
    | entry :: _ =>
      match loadFixture w entry.2 with
      | .error e    => if e.isValueError then .ok 1 else .error e
      | .ok fixture => checkAgainst w a fixture

/-! ## The daemon -/

/-- How the subprocess ends; `failed` is a signal, or a command line that is rejected before the check. -/
inductive Ending
  | timeoutExpired
  | failed (rc : Int) (nonzero : rc ≠ 0)
  | finished

/-- The interpreter's exit code: 1 for an exception that reaches the top. -/
def exitCode : Except PyError Nat → Int
  | .ok rc   => rc
  | .error _ => 1

def runSentinelCheck (w : World) (ending : Ending) (baseUrl servedModelName fixtureDir : Text) : Int :=
  match ending with
  | .timeoutExpired => 124
  | .failed rc _    => rc
  | .finished       =>
    exitCode (checkMode w { baseUrl := baseUrl, servedModelName := servedModelName, fixtureDir := fixtureDir })

/-- The gauge after the probes' exit codes. -/
def sentinelDrift (rcs : List Int) : Nat := rcs.foldl (fun _ rc => if rc ≠ 0 then 1 else 0) 0

end Sentinel
end GoodputLab
