import GoodputLab.Base.Rounding
import GoodputLab.SynthText
import GoodputLab.Trace
/-!
# Workloads — the trace generators (`loadgen/chat.py`, `loadgen/rag.py`, `loadgen/agentic.py`)

Each generator is a program over the draws of `random.Random(seed)`: the per-request draws in the source's order, the
prompt text, and the request record with its validated bounds.
-/
namespace GoodputLab

/-! ## Chat -/

structure ChatWorkloadConfig where
  nRequests         : Nat := 100
  seed              : Int := 42
  promptTokensRange : Int × Int := (500, 2000)
  outputTokensRange : Int × Int := (50, 500)
  nTurnsRange       : Int × Int := (1, 5)
  systemPrompt      : Text :=
    ("You are a helpful, concise assistant.  Answer the user's question ".toList ++
      "directly.  If you do not know the answer, say so.".toList)
  ratePerSec        : ℚ := 1
  durationS         : ℚ := 60
  sloClass          : SloClass := .interactive
  nRequestsPos      : 0 < nRequests
  promptRangeOk     : 1 ≤ promptTokensRange.1 ∧ promptTokensRange.1 ≤ promptTokensRange.2 := by decide
  outputRangeOk     : 1 ≤ outputTokensRange.1 ∧ outputTokensRange.1 ≤ outputTokensRange.2 := by decide
  turnsRangeOk      : 1 ≤ nTurnsRange.1 ∧ nTurnsRange.1 ≤ nTurnsRange.2 := by decide

def chatTurns (perTurn : Int) : Nat → Gen (List Text)
  | 0     => pure []
  | n + 1 => do
    let turn ← synthParagraph perTurn
    let turns ← chatTurns perTurn n
    pure (turn :: turns)

def chatRequest (cfg : ChatWorkloadConfig) (i : Nat) : Gen RequestSpec := do
  let nTurns ← Gen.randint cfg.nTurnsRange.1 cfg.nTurnsRange.2
  let targetPrompt ← Gen.randint cfg.promptTokensRange.1 cfg.promptTokensRange.2
  let targetOutput ← Gen.randint cfg.outputTokensRange.1 cfg.outputTokensRange.2
  let userBudget := max 1 (targetPrompt - synthTokenCount cfg.systemPrompt)
  let perTurn := max 1 (userBudget / nTurns)
  let turns ← chatTurns perTurn nTurns.toNat
  let userBlock := Text.join ['\n'] (turns.map (fun t => "User: ".toList ++ t))
  let prompt := "System: ".toList ++ cfg.systemPrompt ++ ['\n'] ++ userBlock ++ "\nAssistant:".toList
  Gen.ofOption (RequestSpec.make? ("chat-".toList ++ Text.zfill 5 i) cfg.sloClass .chat targetPrompt targetOutput prompt)

def requestsFrom (request : Nat → Gen RequestSpec) : Nat → Nat → Gen (List RequestSpec)
  | 0, _     => pure []
  | n + 1, i => do
    let r ← request i
    let rs ← requestsFrom request n (i + 1)
    pure (r :: rs)

def chatGenerate (cfg : ChatWorkloadConfig) : Gen Trace := do
  let requests ← requestsFrom (chatRequest cfg) cfg.nRequests 0
  let arrival ← Gen.ofOption (ArrivalConfig.make? .poisson cfg.ratePerSec cfg.seed none none)
  Gen.ofOption (Trace.make? .chat cfg.seed cfg.durationS arrival requests)

/-! ## RAG -/

structure RagWorkloadConfig where
  nRequests         : Nat := 50
  seed              : Int := 42
  nCorpusDocs       : Nat := 8
  docTokensRange    : Int × Int := (1000, 4000)
  includeFraction   : ℚ := 4 / 5
  queryTokensRange  : Int × Int := (50, 200)
  outputTokensRange : Int × Int := (50, 200)
  systemPrompt      : Text :=
    ("You are a retrieval-augmented assistant.  Use the provided documents ".toList ++
      "to answer the user's question.  If the answer is not in the documents, ".toList ++
      "say 'I do not know'.".toList)
  ratePerSec        : ℚ := 1 / 2
  durationS         : ℚ := 120
  sloClass          : SloClass := .interactive
  nRequestsPos      : 0 < nRequests
  includeOk         : 0 < includeFraction ∧ includeFraction ≤ 1 := by decide +kernel
  corpusOk          : 1 ≤ nCorpusDocs := by decide
  docRangeOk        : 100 ≤ docTokensRange.1 ∧ docTokensRange.1 ≤ docTokensRange.2 := by decide

def ragCorpus (cfg : RagWorkloadConfig) : Nat → Gen (List Text)
  | 0     => pure []
  | n + 1 => do
    let size ← Gen.randint cfg.docTokensRange.1 cfg.docTokensRange.2
    let doc ← synthDocument size
    let docs ← ragCorpus cfg n
    pure (doc :: docs)

def ragSharedPrefix (cfg : RagWorkloadConfig) (corpus : List Text) : Text :=
  let nInclude := (max 1 (roundHalfEven (cfg.includeFraction * corpus.length))).toNat
  let docsBlock := Text.join "\n\n---\n\n".toList (corpus.take nInclude)
  "System: ".toList ++ cfg.systemPrompt ++ "\n\nDocuments:\n".toList ++ docsBlock ++ "\n\nUser: ".toList

def ragRequest (cfg : RagWorkloadConfig) (sharedPrefix : Text) (i : Nat) : Gen RequestSpec := do
  let querySize ← Gen.randint cfg.queryTokensRange.1 cfg.queryTokensRange.2
  let query ← synthQuery querySize
  let prompt := sharedPrefix ++ query ++ "\n\nAssistant:".toList
  let targetOutput ← Gen.randint cfg.outputTokensRange.1 cfg.outputTokensRange.2
  Gen.ofOption (RequestSpec.make? ("rag-".toList ++ Text.zfill 5 i) cfg.sloClass .rag (synthTokenCount prompt)
    targetOutput prompt)

def ragGenerate (cfg : RagWorkloadConfig) : Gen Trace := do
  let corpus ← ragCorpus cfg cfg.nCorpusDocs
  let requests ← requestsFrom (ragRequest cfg (ragSharedPrefix cfg corpus)) cfg.nRequests 0
  let arrival ← Gen.ofOption (ArrivalConfig.make? .poisson cfg.ratePerSec cfg.seed none none)
  Gen.ofOption (Trace.make? .rag cfg.seed cfg.durationS arrival requests)

/-! ## Agentic -/

structure AgenticWorkloadConfig where
  nRequests              : Nat := 60
  seed                   : Int := 42
  historyTokensRange     : Int × Int := (500, 4000)
  observationTokensRange : Int × Int := (50, 500)
  outputTokensRange      : Int × Int := (100, 1000)
  systemPrompt           : Text :=
    ("You are an autonomous agent.  You have access to tools.  Think step ".toList ++
      "by step.  When you have enough information, call the finish tool.".toList)
  toolDefs               : Text :=
    ("Tools:\n".toList ++
      "  - search(query: str) -> str: search the corpus for relevant passages\n".toList ++
      "  - read(path: str) -> str: read a file by path\n".toList ++
      "  - write(path: str, content: str) -> bool: write a file\n".toList ++
      "  - finish(answer: str) -> None: end the loop and return the answer\n".toList)
  onDurationS            : ℚ := 3 / 2
  offDurationS           : ℚ := 3 / 10
  ratePerSec             : ℚ := 20
  durationS              : ℚ := 60
  sloClass               : SloClass := .interactive
  nRequestsPos           : 0 < nRequests
  onOffPos               : 0 < onDurationS ∧ 0 < offDurationS := by decide +kernel

def agenticPrompt (cfg : AgenticWorkloadConfig) (historyBlocks : List Text) : Text :=
  "System: ".toList ++ cfg.systemPrompt ++ "\n\n".toList ++ cfg.toolDefs ++ "\n\n".toList ++ "History:\n".toList ++
    Text.join ['\n'] historyBlocks ++ "\n\n".toList ++ "What is the next action?".toList

def agenticRequests (cfg : AgenticWorkloadConfig) : Nat → Nat → List Text → Gen (List RequestSpec)
  | 0, _, _           => pure []
  | n + 1, i, history => do
    let obsTokens ← Gen.randint cfg.observationTokensRange.1 cfg.observationTokensRange.2
    let observation ← synthParagraph obsTokens
    let block := "Step ".toList ++ Text.ofNat i ++ ": tool_result(".toList ++ Text.ofNat i ++ ") = ".toList ++ observation
    let history := history ++ [block]
    let prompt := agenticPrompt cfg history
    let targetOutput ← Gen.randint cfg.outputTokensRange.1 cfg.outputTokensRange.2
    let r ← Gen.ofOption (RequestSpec.make? ("agent-".toList ++ Text.zfill 5 i) cfg.sloClass .agentic
      (synthTokenCount prompt) targetOutput prompt)
    let rs ← agenticRequests cfg n (i + 1) history
    pure (r :: rs)

def agenticGenerate (cfg : AgenticWorkloadConfig) : Gen Trace := do
  let requests ← agenticRequests cfg cfg.nRequests 0 []
  let arrival ← Gen.ofOption
    (ArrivalConfig.make? .onOff cfg.ratePerSec cfg.seed (some cfg.onDurationS) (some cfg.offDurationS))
  Gen.ofOption (Trace.make? .agentic cfg.seed cfg.durationS arrival requests)

end GoodputLab
