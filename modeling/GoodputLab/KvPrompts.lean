import GoodputLab.Base.Text
/-!
# KvPrompts — prompts of an exact length (`bench/kv_scaling/measure.py`)

The ids of a base text are doubled until they are more than enough, re-encoded, cut and checked.  A prompt that is returned
has its length whatever the tokenizer (`build_ok_length`).  The doubling has fuel, and `none` is a loop still running: it
ends just when the base text has ids at all (`build_terminates_iff`).
-/
namespace GoodputLab

structure TokenizerLike where
  encode : Text → List Int
  decode : List Int → Text

namespace KvPrompts

def tileSlack : Int := 64

def base : Text := (List.replicate 64 "The quick brown fox jumps over the lazy dog. ".toList).flatten

def tile (need : Int) : Nat → List Int → Option (List Int)
  | 0, _          => none
  | fuel + 1, ids => if ids.length < need then tile need fuel (ids ++ ids) else some ids

def seqLenError (seqLen : Int) : Text := "seq_len must be > 0, got ".toList ++ Text.ofInt seqLen

def tiledError (got : Nat) (seqLen : Int) : Text :=
  "tiled text re-encoded to ".toList ++ Text.ofNat got ++ " tokens, need ".toList ++ Text.ofInt seqLen ++
    "; tiling loses too many tokens at tile boundaries".toList

def roundTripError (got : Nat) (seqLen : Int) : Text :=
  "prompt round trip gave ".toList ++ Text.ofNat got ++ " tokens, expected ".toList ++ Text.ofInt seqLen ++
    "; this tokenizer cannot build exact-length prompts".toList

/-- An error is the text of a `ValueError`. -/
def buildExactLengthPrompts (tokenizer : TokenizerLike) (seqLen : Int) (fuel : Nat) : Option (Except Text Text) :=
  if seqLen ≤ 0 then some (.error (seqLenError seqLen))
  else
    match tile (seqLen + tileSlack) fuel (tokenizer.encode base) with
    | none     => none
    | some ids =>
      let trueIds := tokenizer.encode (tokenizer.decode ids)
      if trueIds.length < seqLen then some (.error (tiledError trueIds.length seqLen))
      else
        let prompt := tokenizer.decode (trueIds.take seqLen.toNat)
        let actual := (tokenizer.encode prompt).length
        if (actual : Int) ≠ seqLen then some (.error (roundTripError actual seqLen)) else some (.ok prompt)

/-! ## The doubling -/

/-- Nothing doubled is nothing. -/
theorem tile_nil {need : Int} (hneed : 0 < need) : ∀ fuel, tile need fuel [] = none
  | 0        => rfl
  | fuel + 1 => by
    rw [tile, List.length_nil, if_pos (by simpa using hneed)]
    exact tile_nil hneed fuel

/-- **Ids that there are grow with every doubling**, so the loop ends. -/
theorem tile_ends {need : Int} : ∀ (fuel : Nat) (ids : List Int), ids ≠ [] → need ≤ ids.length + fuel →
    ∃ tiled, tile need (fuel + 1) ids = some tiled ∧ need ≤ tiled.length
  | 0, ids, _, hfuel => by
    have hdone : need ≤ ids.length := by simpa using hfuel
    rw [tile, if_neg (not_lt.2 hdone)]
    exact ⟨ids, rfl, hdone⟩
  | fuel + 1, ids, hids, hfuel => by
    have hpos := List.length_pos_iff.2 hids
    rw [tile]
    split
    · apply tile_ends fuel (ids ++ ids)
      · simpa using hids
      · rw [List.length_append]
        push_cast at hfuel ⊢
        omega
    · rename_i hnot
      exact ⟨ids, rfl, not_lt.1 hnot⟩

theorem tile_returns {need : Int} {ids : List Int} (hids : ids ≠ []) :
    ∀ fuel, need.toNat < fuel → ∃ tiled, tile need fuel ids = some tiled := by
  intro fuel hfuel
  obtain ⟨k, rfl⟩ := Nat.exists_eq_add_of_le' (Nat.succ_le_of_lt (Nat.zero_lt_of_lt hfuel))
  have hle : need ≤ ids.length + k := by omega
  obtain ⟨tiled, htile, -⟩ := tile_ends k ids hids hle
  exact ⟨tiled, htile⟩

/-! ## The prompt -/

section Build

variable {tokenizer : TokenizerLike} {seqLen : Int}

/-- What is built once the doubling has ended. -/
theorem build_eq (hseq : 0 < seqLen) (fuel : Nat) : buildExactLengthPrompts tokenizer seqLen fuel =
    (tile (seqLen + tileSlack) fuel (tokenizer.encode base)).map (fun ids =>
      let trueIds := tokenizer.encode (tokenizer.decode ids)
      if trueIds.length < seqLen then .error (tiledError trueIds.length seqLen)
      else
        let prompt := tokenizer.decode (trueIds.take seqLen.toNat)
        let actual := (tokenizer.encode prompt).length
        if (actual : Int) ≠ seqLen then .error (roundTripError actual seqLen) else .ok prompt) := by
  rw [buildExactLengthPrompts, if_neg (not_le.2 hseq)]
  cases tile (seqLen + tileSlack) fuel (tokenizer.encode base) with
  | none => rfl
  | some ids =>
    simp only [Option.map_some]
    split
    · rfl
    · split <;> rfl

/-- **A prompt that is returned has its length.** -/
theorem build_ok_length {fuel : Nat} {prompt : Text}
    (h : buildExactLengthPrompts tokenizer seqLen fuel = some (.ok prompt)) :
    ((tokenizer.encode prompt).length : Int) = seqLen := by
  unfold buildExactLengthPrompts at h
  split at h
  · cases h
  · split at h
    · cases h
    · simp only at h
      split at h
      · cases h
      · split at h
        · cases h
        · rename_i hlength
          cases h
          exact not_not.1 hlength

end Build

/-- **The build ends just when the base text has ids**, with a prompt of its length or a `ValueError`. -/
theorem build_terminates_iff (tokenizer : TokenizerLike) (seqLen : Int) (hseq : 0 < seqLen) :
    (∃ enough, ∀ fuel, enough ≤ fuel → ∃ result, buildExactLengthPrompts tokenizer seqLen fuel = some result ∧
      ∀ prompt, result = .ok prompt → ((tokenizer.encode prompt).length : Int) = seqLen) ↔
    tokenizer.encode base ≠ [] := by
  constructor
  · rintro ⟨enough, henough⟩ hnone
    obtain ⟨result, hresult, -⟩ := henough enough (le_refl _)
    have hneed : 0 < seqLen + tileSlack := by
      unfold tileSlack
      omega
    rw [build_eq hseq, hnone, tile_nil hneed] at hresult
    cases hresult
  · intro hids
    refine ⟨(seqLen + tileSlack).toNat + 1, fun fuel hfuel => ?_⟩
    obtain ⟨tiled, htile⟩ := tile_returns hids fuel hfuel
    have hbuild : buildExactLengthPrompts tokenizer seqLen fuel = _ := build_eq hseq fuel
    rw [htile, Option.map_some] at hbuild
    refine ⟨_, hbuild, fun prompt hprompt => ?_⟩
    rw [hprompt] at hbuild
    exact build_ok_length hbuild

/-- A character is a token. -/
def charTokenizer : TokenizerLike where
  encode text := text.map (fun c => (c.toNat : Int))
  decode ids  := ids.map (fun i => Char.ofNat i.toNat)

theorem three_chars_build :
    (∃ enough, ∀ fuel, enough ≤ fuel → ∃ result, buildExactLengthPrompts charTokenizer 3 fuel = some result ∧
      ∀ prompt, result = .ok prompt → ((charTokenizer.encode prompt).length : Int) = 3) ↔
    charTokenizer.encode base ≠ [] :=
  build_terminates_iff charTokenizer 3 (by decide)

/-- A tokenizer that knows none of the words. -/
def emptyVocabulary : TokenizerLike where
  encode _ := []
  decode _ := []

/-- **Without a single id the doubling never ends.** -/
theorem emptyVocabulary_never_ends : ¬ ∃ fuel result, buildExactLengthPrompts emptyVocabulary 1 fuel = some result := by
  rintro ⟨fuel, result, h⟩
  rw [build_eq (by decide), show emptyVocabulary.encode base = [] from rfl, tile_nil (by decide)] at h
  cases h

end KvPrompts
end GoodputLab
