import GoodputLab.RagSticky
import GoodputLab.SynthTextCount
/-!
# RagPrompts — the size of a RAG prompt

A prompt has the tokens of its frame, its query and the documents included, with a rule between each two of them
(`ragPrompt_count`).  The corpus and the queries have the sizes drawn for them (`returnsOn_ragCorpus`,
`returnsOn_ragRequest`).
-/
namespace GoodputLab

open Gen (ReturnsOn returnsOn_pure returnsOn_bind returnsOn_ofOption)

variable {source : Nat → Nat → Nat}

/-! ## The documents included -/

def ragIncluded (cfg : RagWorkloadConfig) (corpus : List Text) : List Text :=
  corpus.take (max 1 (roundHalfEven (cfg.includeFraction * corpus.length))).toNat

/-- How many documents of a corpus of the configured size are included. -/
def ragIncludedCount (cfg : RagWorkloadConfig) : Nat :=
  (max 1 (roundHalfEven (cfg.includeFraction * cfg.nCorpusDocs))).toNat

/-- No more are included than there are. -/
theorem length_ragIncluded (cfg : RagWorkloadConfig) {corpus : List Text} (h : corpus.length = cfg.nCorpusDocs) :
    (ragIncluded cfg corpus).length = ragIncludedCount cfg := by
  have hdocs := cfg.corpusOk
  have hround : roundHalfEven (cfg.includeFraction * cfg.nCorpusDocs) ≤ (cfg.nCorpusDocs : Int) := by
    apply roundHalfEven_le
    push_cast
    exact mul_le_of_le_one_left (Nat.cast_nonneg _) cfg.includeOk.2
  rw [ragIncluded, List.length_take, h]
  apply min_eq_left
  omega

theorem ragIncludedCount_pos (cfg : RagWorkloadConfig) : 0 < ragIncludedCount cfg := by
  unfold ragIncludedCount
  omega

/-- A rule of one token stands between each two documents. -/
theorem docsBlock_count {docs : List Text} (hne : docs ≠ []) :
    synthTokenCount (Text.join "\n\n---\n\n".toList docs) + 1 = (docs.map (fun doc => synthTokenCount doc + 1)).sum := by
  have hrule : ∀ s t, Text.split (s ++ ("\n\n---\n\n".toList ++ t)) = Text.split s ++ (["---".toList] ++ Text.split t) := by
    intro s t
    have hword : Text.IsWord "---".toList := Text.isWord_of_all (List.cons_ne_nil _ _) (by decide +kernel)
    rw [show "\n\n---\n\n".toList ++ t = ['\n', '\n'] ++ ("---".toList ++ (['\n', '\n'] ++ t)) from rfl,
      Text.split_append_spaces (List.cons_ne_nil _ _) blankLine_spaces,
      Text.split_append_spaces (List.cons_ne_nil _ _) blankLine_spaces, hword.split]
  rw [synthTokenCount, Text.split_join hrule, Text.length_intercalate_singleton _ (by simpa using hne), List.map_map]
  rfl

/-- The tokens of a prompt are those of its frame, of the documents included and of its query. -/
theorem ragPrompt_count (cfg : RagWorkloadConfig) {corpus : List Text} (h : corpus.length = cfg.nCorpusDocs)
    (query : Text) : synthTokenCount (ragSharedPrefix cfg corpus ++ query ++ "\n\nAssistant:".toList) =
      3 + synthTokenCount cfg.systemPrompt + ((ragIncluded cfg corpus).map (fun doc => synthTokenCount doc + 1)).sum +
        synthTokenCount query := by
  have hne : ragIncluded cfg corpus ≠ [] := by
    apply List.ne_nil_of_length_pos
    rw [length_ragIncluded cfg h]
    exact ragIncludedCount_pos cfg
  have hdocs := docsBlock_count hne
  have hframe : ragSharedPrefix cfg corpus ++ query ++ "\n\nAssistant:".toList =
      "System:".toList ++ ' ' :: (cfg.systemPrompt ++ ("\n\n".toList ++ ("Documents:".toList ++ '\n' ::
        (Text.join "\n\n---\n\n".toList (ragIncluded cfg corpus) ++ ("\n\n".toList ++ ("User:".toList ++ ' ' ::
          (query ++ ("\n\n".toList ++ "Assistant:".toList)))))))) := by
    have hshared : ragSharedPrefix cfg corpus = "System: ".toList ++ cfg.systemPrompt ++ "\n\nDocuments:\n".toList ++
      Text.join "\n\n---\n\n".toList (ragIncluded cfg corpus) ++ "\n\nUser: ".toList := rfl
    rw [hshared, show "System: ".toList = "System:".toList ++ [' '] from rfl,
      show "\n\nDocuments:\n".toList = "\n\n".toList ++ ("Documents:".toList ++ ['\n']) from rfl,
      show "\n\nUser: ".toList = "\n\n".toList ++ ("User:".toList ++ [' ']) from rfl,
      show "\n\nAssistant:".toList = "\n\n".toList ++ "Assistant:".toList from rfl]
    simp only [List.append_assoc, List.cons_append, List.nil_append]
  rw [hframe, synthTokenCount_append (c := ' ') rfl, synthTokenCount_blankLine, synthTokenCount_append (c := '\n') rfl,
    synthTokenCount_blankLine, synthTokenCount_append (c := ' ') rfl, synthTokenCount_blankLine, systemLabel_count,
    show synthTokenCount "Documents:".toList = 1 from by decide +kernel, userLabel_count, assistantLabel_count]
  omega

/-! ## The corpus and the requests -/

/-- **A corpus on a stream**, for any property of the sizes drawn. -/
theorem returnsOn_ragCorpus (cfg : RagWorkloadConfig) {Q : Int → Prop}
    (hdoc : ReturnsOn source (Gen.randint cfg.docTokensRange.1 cfg.docTokensRange.2) Q) : ∀ n,
      ReturnsOn source (ragCorpus cfg n)
        (fun docs => docs.length = n ∧ ∀ doc ∈ docs, ∃ v, Q v ∧ synthTokenCount doc = v.toNat)
  | 0 => returnsOn_pure ⟨rfl, fun doc h => by cases h⟩
  | n + 1 => by
    unfold ragCorpus
    refine returnsOn_bind hdoc (fun size hq => ?_)
    refine returnsOn_bind (returnsOn_synthDocument size) (fun doc hcount => ?_)
    refine returnsOn_bind (returnsOn_ragCorpus cfg hdoc n) (fun docs hdocs => returnsOn_pure ⟨?_, fun x hx => ?_⟩)
    · rw [List.length_cons, hdocs.1]
    · rcases List.mem_cons.1 hx with rfl | hx
      · exact ⟨size, hq, hcount⟩
      · exact hdocs.2 x hx

/-- What a request after the documents `docs` has: its identifier, the tokens of its prompt and an output size with `R`. -/
structure RagAt (cfg : RagWorkloadConfig) (Q R : Int → Prop) (docs : List Text) (i : Nat) (r : RequestSpec) : Prop where
  requestId    : r.requestId = "rag-".toList ++ Text.zfill 5 i
  promptTokens : ∃ v, Q v ∧ r.promptTokens = 3 + synthTokenCount cfg.systemPrompt +
    (docs.map (fun doc => synthTokenCount doc + 1)).sum + queryTokens v
  outputTokens : R r.outputTokens

/-- **A request on a stream**, for any property of the sizes drawn. -/
theorem returnsOn_ragRequest (cfg : RagWorkloadConfig) {Q R : Int → Prop}
    (hquery : ReturnsOn source (Gen.randint cfg.queryTokensRange.1 cfg.queryTokensRange.2) Q)
    (hout : ReturnsOn source (Gen.randint cfg.outputTokensRange.1 cfg.outputTokensRange.2) R) {corpus : List Text}
    (h : corpus.length = cfg.nCorpusDocs) (i : Nat) :
    ReturnsOn source (ragRequest cfg (ragSharedPrefix cfg corpus) i) (RagAt cfg Q R (ragIncluded cfg corpus) i) := by
  unfold ragRequest
  refine returnsOn_bind hquery (fun querySize hq => ?_)
  refine returnsOn_bind (returnsOn_synthQuery querySize) (fun query hcount => ?_)
  refine returnsOn_bind hout (fun targetOutput hr => returnsOn_ofOption (fun r hmade => ?_))
  obtain ⟨hid, -, -, htokens, houtput, -⟩ := RequestSpec.make?_eq hmade
  refine ⟨hid, ⟨querySize, hq, ?_⟩, ?_⟩
  · have hcast := Int.ofNat.inj htokens
    rw [hcast, ragPrompt_count cfg h, hcount]
  · rw [houtput]
    exact hr

end GoodputLab
