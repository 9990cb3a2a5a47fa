import GoodputLab.KvResume
/-!
# KvCellFile — the cell files of a sweep that is killed (`bench/kv_scaling/results.py`, `bench/kv_scaling/measure.py`)

A cell is written straight to its file, so a process that is killed leaves any beginning of the text there.  What a later
run accepts was measured nevertheless (`accepted_measured`), and the run that ends at last has measured cells only and
leaves nothing to measure (`resumed_after_kills`).

A text is cut between two of its characters.
-/
namespace GoodputLab

/-! ## Sweeps that are killed -/

variable {σ : Type}

/-- A run, how many of its points it gets through, and how much of the next cell's text is in its file when the run is
killed, `none` if it has not opened the file. -/
structure Killed (σ : Type) where
  run    : SweepRun σ
  points : Nat
  torn   : Option Nat

namespace SweepRun

def tear (codec : KvCellCodec Text) (dir : CampaignDir Text) (point : Int × Int) (cell : KvScalingCell) :
    Option Nat → CampaignDir Text
  | none   => dir
  | some k => dir.set (kvCellPath point) ((codec.dump cell).take k)

def killedAt (codec : KvCellCodec Text) (r : SweepRun σ) :
    List (Int × Int) → σ → CampaignDir Text → Nat → Option Nat → CampaignDir Text
  | [], _, dir, _, _                 => dir
  | point :: points, s, dir, n, torn =>
    match r.read codec dir point with
    | some _ =>
      match n with
      | 0     => dir
      | n + 1 => killedAt codec r points s dir n torn
    | none   =>
      match r.measure point s with
      | none            => dir
      | some (cell, s') =>
        match n with
        | 0     => tear codec dir point cell torn
        | n + 1 => killedAt codec r points s' (writeCellJson codec dir point cell) n torn

/-- What a killed run leaves in the directory. -/
def killed (codec : KvCellCodec Text) (dir : CampaignDir Text) (x : Killed σ) : CampaignDir Text :=
  x.run.killedAt codec x.run.points x.run.engine dir x.points x.torn

/-- A run killed between two cells is an interrupted one. -/
theorem killedAt_none (codec : KvCellCodec Text) (r : SweepRun σ) : ∀ (points : List (Int × Int)) (s : σ)
    (dir : CampaignDir Text) (n : Nat), r.killedAt codec points s dir n none = (r.cellsOf codec (points.take n) s dir).2
  | [], _, _, n => by rw [List.take_nil]; rfl
  | point :: points, s, dir, 0 => by
    rw [killedAt]
    cases r.read codec dir point with
    | some _ => rfl
    | none =>
      cases r.measure point s with
      | none   => rfl
      | some _ => rfl
  | point :: points, s, dir, n + 1 => by
    rw [killedAt, List.take_succ_cons, cellsOf]
    cases r.read codec dir point with
    | some _ => exact killedAt_none codec r points s dir n
    | none =>
      cases r.measure point s with
      | none   => rfl
      | some m => exact killedAt_none codec r points m.2 _ n

/-- A killed run writes beginnings of the texts of measured cells, each where it read none. -/
theorem killedAt_invariant (codec : KvCellCodec Text) {r : SweepRun σ} (inv : CampaignDir Text → Prop)
    (hwrite : ∀ dir point cell s s' content, inv dir → r.read codec dir point = none →
      r.measure point s = some (cell, s') → content <+: codec.dump cell → inv (dir.set (kvCellPath point) content)) :
    ∀ (points : List (Int × Int)) (s : σ) (dir : CampaignDir Text) (n : Nat) (torn : Option Nat), inv dir →
      inv (r.killedAt codec points s dir n torn)
  | [], _, _, _, _, h => h
  | point :: points, s, dir, n, torn, h => by
    unfold killedAt
    cases hread : r.read codec dir point with
    | some _ =>
      cases n with
      | zero   => exact h
      | succ n => exact killedAt_invariant codec inv hwrite points s dir n torn h
    | none =>
      cases hmeasure : r.measure point s with
      | none => exact h
      | some m =>
        obtain ⟨cell, s'⟩ := m
        cases n with
        | zero =>
          cases torn with
          | none   => exact h
          | some k => exact hwrite dir point cell s s' _ h hread hmeasure (List.take_prefix k _)
        | succ n =>
          exact killedAt_invariant codec inv hwrite points s' _ n torn
            (hwrite dir point cell s s' _ h hread hmeasure (List.prefix_refl _))

/-! ## What is accepted -/

section
variable (p : Coercions)

/-- What is read behind the beginning of a cell's text is that cell at its point, or what was read before. -/
theorem read_torn {dir : CampaignDir Text} {point other : Int × Int} {cell found : KvScalingCell} {content : Text}
    {nSamples : Int} {modelId : Text} (hpos : Positive point) (hcontent : content <+: cell.fileText)
    (h : readCellJson (cellFileCodec p) (dir.set (kvCellPath point) content) other nSamples modelId = some found) :
    (found = cell ∧ cell.nSamples = nSamples ∧ cell.modelId = modelId) ∨
      readCellJson (cellFileCodec p) dir other nSamples modelId = some found := by
  by_cases hother : other = point
  · subst hother
    obtain ⟨hparse, -, -, hn, hm⟩ := (readCellJson_eq_some (cellFileCodec p)).1 h
    rw [OrdDict.get?_set_self, Option.bind_some] at hparse
    rcases KvScalingCell.validate_torn p cell hcontent with hwhole | hrefused
    · obtain rfl : cell = found := Option.some.inj (hwhole.symm.trans hparse)
      exact Or.inl ⟨rfl, hn, hm⟩
    · cases hrefused.symm.trans hparse
  · exact Or.inr ((read_set_of_ne (cellFileCodec p) content hother hpos found).1 h)

/-- Every cell that a run would accept was measured by a run of the history, for its model and number of samples. -/
def AcceptsMeasured (history : List (Killed σ)) (dir : CampaignDir Text) : Prop :=
  ∀ point nSamples modelId c, readCellJson (cellFileCodec p) dir point nSamples modelId = some c →
    ∃ x ∈ history, x.run.MeasuredBy c ∧ x.run.modelId = modelId ∧ x.run.nSamples = nSamples

theorem acceptsMeasured_killed {history : List (Killed σ)} {x : Killed σ} (hx : x ∈ history) {dir : CampaignDir Text}
    (h : AcceptsMeasured p history dir) : AcceptsMeasured p history (killed (cellFileCodec p) dir x) := by
  refine killedAt_invariant (cellFileCodec p) (AcceptsMeasured p history) ?_ _ _ dir _ _ h
  intro dir point cell s s' content h _ hmeasure hcontent other nSamples modelId c hread
  obtain ⟨⟨-, -, hn, hm⟩, hmeasured⟩ := measure_spec hmeasure
  rcases read_torn p (positive_of_measure hmeasure) hcontent hread with ⟨rfl, hn', hm'⟩ | hbefore
  · exact ⟨x, hx, hmeasured, hm.symm.trans hm', hn.symm.trans hn'⟩
  · exact h other nSamples modelId c hbefore

/-- **What is accepted was measured**, after any runs killed anywhere. -/
theorem accepted_measured (history : List (Killed σ)) :
    AcceptsMeasured p history (Runs.run (killed (cellFileCodec p)) .empty history) := by
  refine Runs.run_invariant (AcceptsMeasured p history) history .empty
    (fun dir x hx hdir => acceptsMeasured_killed p hx hdir) ?_
  intro point nSamples modelId c hread
  obtain ⟨hparse, -⟩ := (readCellJson_eq_some (cellFileCodec p)).1 hread
  cases hparse

/-! ## The run that ends -/

/-- What a run accepts stays as it is while runs for the same model and number of samples are killed. -/
theorem read_killedAt {q r : SweepRun σ} (hmodel : q.modelId = r.modelId) (hn : q.nSamples = r.nSamples)
    {point : Int × Int} {c : KvScalingCell} {points : List (Int × Int)} {s : σ} {dir : CampaignDir Text} {n : Nat}
    {torn : Option Nat} (h : r.read (cellFileCodec p) dir point = some c) :
    r.read (cellFileCodec p) (q.killedAt (cellFileCodec p) points s dir n torn) point = some c := by
  refine killedAt_invariant (cellFileCodec p) (fun dir => r.read (cellFileCodec p) dir point = some c) ?_ _ _ _ _ _ h
  intro dir other cell s s' content h hnone hmeasure _
  have hne : point ≠ other := by
    rintro rfl
    rw [read, hmodel, hn] at hnone
    rw [read, hnone] at h
    cases h
  exact (read_set_of_ne (cellFileCodec p) content hne (positive_of_measure hmeasure) c).2 h

theorem read_cellsOf {r : SweepRun σ} {point : Int × Int} {c : KvScalingCell} {points : List (Int × Int)} {s : σ}
    {dir : CampaignDir Text} (h : r.read (cellFileCodec p) dir point = some c) :
    r.read (cellFileCodec p) (r.cellsOf (cellFileCodec p) points s dir).2 point = some c := by
  have hcells := killedAt_none (cellFileCodec p) r points s dir points.length
  rw [List.take_length] at hcells
  rw [← hcells]
  exact read_killedAt p rfl rfl h

/-- **Every cell of a run stands in its file.** -/
theorem reads_cellsOf (r : SweepRun σ) : ∀ {points : List (Int × Int)} {s : σ} {dir dir' : CampaignDir Text}
    {cells : List KvScalingCell}, r.cellsOf (cellFileCodec p) points s dir = (some cells, dir') →
      List.Forall₂ (fun point c => r.read (cellFileCodec p) dir' point = some c) points cells
  | [], _, _, _, _, h => by
    cases h
    exact .nil
  | point :: points, s, dir, dir', cells, h => by
    have hcells : (r.cellsOf (cellFileCodec p) (point :: points) s dir).1 = some cells := by rw [h]
    have hdir : (r.cellsOf (cellFileCodec p) (point :: points) s dir).2 = dir' := by rw [h]
    obtain ⟨cell, rest, rfl, ⟨hread, hrest⟩ | ⟨hnone, s', hmeasure, hrest⟩⟩ := cellsOf_cons (cellFileCodec p) r hcells
    · rw [cellsOf, hread] at hdir
      simp only at hdir
      refine .cons ?_ (reads_cellsOf r (Prod.ext hrest hdir))
      rw [← hdir]
      exact read_cellsOf p hread
    · rw [cellsOf, hnone, hmeasure] at hdir
      simp only at hdir
      refine .cons ?_ (reads_cellsOf r (Prod.ext hrest hdir))
      rw [← hdir]
      exact read_cellsOf p (read_write_measured (cellFileCodec p) hmeasure)

/-- A run whose files are all there measures nothing. -/
theorem cellsOf_of_reads (codec : KvCellCodec Text) {r : SweepRun σ} {points : List (Int × Int)}
    {cells : List KvScalingCell} {dir : CampaignDir Text}
    (h : List.Forall₂ (fun point c => r.read codec dir point = some c) points cells) (s : σ) :
    r.cellsOf codec points s dir = (some cells, dir) := by
  induction h with
  | nil => rfl
  | cons hread _ ih => rw [cellsOf, hread, ih]; rfl

/-- **A sweep resumed after any kills is whole.**  When every earlier run for its model and number of samples had its
settings, all its cells were measured under them, torn files or not; and the next run accepts all of them, whatever
engine it has. -/
theorem resumed_after_kills (history : List (Killed σ)) (r : SweepRun σ)
    (hsame : ∀ x ∈ history, x.run.modelId = r.modelId → x.run.nSamples = r.nSamples → SameSettings x.run r)
    {cells : List KvScalingCell} {dir : CampaignDir Text}
    (hcells : r.cellsOf (cellFileCodec p) r.points r.engine (Runs.run (killed (cellFileCodec p)) .empty history) =
      (some cells, dir)) :
    (∀ c ∈ cells, r.MeasuredBy c) ∧ ∀ s, r.cellsOf (cellFileCodec p) r.points s dir = (some cells, dir) := by
  refine ⟨fun c hc => ?_, cellsOf_of_reads (cellFileCodec p) (reads_cellsOf p r hcells)⟩
  have hfrom := (cellsOf_spec (cellFileCodec p) r r.points r.engine _ cells (by rw [hcells])).1 c hc
  rcases hfrom with ⟨point, -, hread⟩ | hmeasured
  · obtain ⟨x, hx, hmeasured, hmodel, hn⟩ := accepted_measured p history point _ _ c hread
    obtain ⟨hgpu, hversion, hmethod, hoverhead⟩ := hsame x hx hmodel hn
    exact ⟨hmeasured.gpu.trans hgpu, hmeasured.vllmVersion.trans hversion, hmeasured.method.trans hmethod,
      hmeasured.baselineBytes.trans hoverhead⟩
  · exact hmeasured

end

/-- A run killed ten characters into its first file. -/
def tornRun : Killed FakeState := ⟨onA40, 0, some 10⟩

theorem tornRun_resumed :
    ((onA40.cellsOf (cellFileCodec strictCoercions) onA40.points onA40.engine
      (Runs.run (killed (cellFileCodec strictCoercions)) .empty [tornRun])).1.map (fun cells =>
        cells.map (fun c => c.baselineBytes))) = some [1000, 1000] := by
  decide +kernel

theorem resumed_after_tear : ∃ cells dir,
    onA40.cellsOf (cellFileCodec strictCoercions) onA40.points onA40.engine
      (Runs.run (killed (cellFileCodec strictCoercions)) .empty [tornRun]) = (some cells, dir) ∧
    (∀ c ∈ cells, onA40.MeasuredBy c) ∧
      ∀ s, onA40.cellsOf (cellFileCodec strictCoercions) onA40.points s dir = (some cells, dir) := by
  obtain ⟨cells, hcells, -⟩ := Option.map_eq_some_iff.1 tornRun_resumed
  refine ⟨cells, _, Prod.ext hcells rfl, ?_⟩
  refine resumed_after_kills strictCoercions [tornRun] onA40 (fun x hx _ _ => ?_) (Prod.ext hcells rfl)
  rw [List.mem_singleton.1 hx]
  exact ⟨rfl, rfl, rfl, rfl⟩

end SweepRun
end GoodputLab
