import GoodputLab.Base.Draws
import GoodputLab.Base.Text
/-!
# SynthText — text with a token budget (`loadgen/synth_text.py`)

Paragraphs, documents and queries drawn from an inline word list; a token is a whitespace-separated word.
-/
namespace GoodputLab

def words : List Text :=
  ["the", "of", "and", "to", "in", "that", "have", "it", "for", "not", "on", "with", "he", "as", "you", "do", "at",
    "this", "but", "his", "by", "from", "they", "we", "say", "her", "she", "or", "an", "will", "my", "one", "all",
    "would", "there", "their", "what", "so", "up", "out", "if", "about", "who", "get", "which", "go", "me", "when",
    "make", "can", "like", "time", "no", "just", "him", "know", "take", "people", "into", "year", "your", "good",
    "some", "could", "them", "see", "other", "than", "then", "now", "look", "only", "come", "its", "over", "think",
    "also", "back", "after", "use", "two", "how", "our", "work", "first", "well", "way", "even", "new", "want",
    "because", "any", "these", "give", "day", "most", "us", "system", "model", "data", "process", "compute",
    "function", "value", "result", "input", "output", "request", "response", "token", "prompt", "context", "query",
    "search", "document", "vector", "index", "cache", "memory", "buffer", "queue", "batch", "stream", "frame",
    "window", "layer", "node", "graph", "tree", "hash", "key", "store", "fetch", "load", "save", "update", "delete",
    "merge", "split", "join", "filter", "sort", "rank", "score", "weight", "bias", "gradient", "loss", "epoch",
    "step", "rate", "limit", "count", "size", "length", "depth", "width", "height", "scale", "ratio", "delta",
    "shift", "drift", "trend", "phase", "state", "event", "signal", "channel", "wire", "path", "route", "hop",
    "edge", "vertex", "trace", "log", "metric", "stat", "summary", "report", "agent", "tool", "call", "return",
    "error", "warning", "info", "debug", "user", "admin", "owner", "guest", "session", "token", "scope", "role",
    "policy", "rule", "config", "schema", "model", "field", "row", "column", "table", "database", "transaction",
    "commit", "rollback", "checkpoint", "snapshot", "version", "release", "build", "deploy", "restart", "scale",
    "health", "ready", "warm", "cold", "hit", "miss", "evict", "promote"].map String.toList

theorem words_ne_nil : words ≠ [] := List.cons_ne_nil _ _

def synthTokenCount (text : Text) : Nat := (Text.split text).length

def upperFirst : Text → Text
  | []      => []
  | c :: cs => c.toUpper :: cs

def capitalize : Text → Text
  | []      => []
  | c :: cs => c.toUpper :: cs.map Char.toLower

def closeSentence (ws : List Text) : List Text :=
  match ws.getLast? with
  | none      => []
  | some last => ws.dropLast ++ [capitalize last ++ ['.']]

def chooseWords : Nat → Gen (List Text)
  | 0     => pure []
  | n + 1 => do
    let w ← Gen.choice words words_ne_nil
    let ws ← chooseWords n
    pure (w :: ws)

def paragraphWords (remaining : Nat) : Gen (List Text) :=
  if _h : remaining = 0 then pure []
  else do
    let n := min 20 remaining
    let run ← chooseWords n
    let run := if n < remaining then closeSentence run else run
    let rest ← paragraphWords (remaining - n)
    pure (run ++ rest)
termination_by remaining
decreasing_by omega

def synthParagraph (targetTokens : Int) : Gen Text :=
  if targetTokens ≤ 0 then pure []
  else do
    let ws ← paragraphWords targetTokens.toNat
    pure (upperFirst (Text.join [' '] ws))

def documentParagraphs : Nat → Int → Gen (List Text)
  | 0, _             => pure []
  | n + 1, remaining => do
    let size := if n = 0 then remaining else 200
    let para ← synthParagraph size
    if remaining - size ≤ 0 then pure [para]
    else
      let rest ← documentParagraphs n (remaining - size)
      pure (para :: rest)

def synthDocument (targetTokens : Int) : Gen Text :=
  if targetTokens ≤ 0 then pure []
  else do
    let paras ← documentParagraphs (max 1 (targetTokens / 200)).toNat targetTokens
    pure (Text.join ['\n', '\n'] paras)

def synthQuery (targetTokens : Int) : Gen Text :=
  if targetTokens ≤ 0 then pure []
  else do
    let body ← synthParagraph (max 1 (targetTokens - 6))
    pure ("Question: ".toList ++ body ++ " Please answer concisely.".toList)

end GoodputLab
