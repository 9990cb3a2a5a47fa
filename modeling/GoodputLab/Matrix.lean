import GoodputLab.CellRunner
/-!
# Matrix — the resumable sweep (`bench/runpod_matrix.py`)

A sweep drives the cells of a matrix one after another over one result directory; a cell that raises is counted and
passed over.  `runPending` visits the cells whose result file is missing, corrupt or another cell's; `runAll` visits all
of them.
-/
namespace GoodputLab

open CellRunner (CellRun runCell)

structure MatrixSpec where
  topologies : List Topology
  models     : List Model
  ratesRps   : List Int
  mixes      : List Mix
  nWarmup    : Int
  nMeasure   : Int

def MatrixSpec.points (m : MatrixSpec) : List (Topology × Model × Int × Mix) :=
  m.topologies.flatMap (fun t => m.models.flatMap (fun mo => m.ratesRps.flatMap (fun r => m.mixes.map (fun x =>
    (t, mo, r, x)))))

/-- The cells of the matrix; `none` when the constructor of one raises. -/
def MatrixSpec.cells (m : MatrixSpec) : Option (List CellSpec) :=
  m.points.mapM (fun p => CellSpec.make? p.1 p.2.1 p.2.2.1 p.2.2.2 m.nWarmup m.nMeasure 0)

namespace BenchMatrix

variable {C : Type}

/-- Where a sweep stands: the directory, and what was done for each cell visited. -/
structure Sweep (C : Type) where
  dir : Dir C
  log : List (CellSpec × CellRun)

def visit (b : Bench C) (s : Sweep C) (spec : CellSpec) : Sweep C :=
  ⟨(runCell b s.log.length s.dir spec).2, s.log ++ [(spec, (runCell b s.log.length s.dir spec).1)]⟩

/-- The sweep ends early, if asked to, at a cell that raised or did not reconcile. -/
def stopsAt (stopOnUnreconciled : Bool) : Except String CellResult → Bool
  | .error _ => stopOnUnreconciled
  | .ok r    => stopOnUnreconciled && !r.reconcilePasses

def run (b : Bench C) (stopOnUnreconciled : Bool) : List CellSpec → Sweep C → Sweep C
  | [], s            => s
  | spec :: specs, s =>
    if stopsAt stopOnUnreconciled (runCell b s.log.length s.dir spec).1.outcome then visit b s spec
    else run b stopOnUnreconciled specs (visit b s spec)

def nCompleted (s : Sweep C) : Nat := s.log.countP (fun x => x.2.outcome.isOk)

def nFailed (s : Sweep C) : Nat := s.log.countP (fun x => !x.2.outcome.isOk)

/-! ## Discovery -/

def sidecars : List Text := ["summary.json".toList, "preflight.json".toList]

/-- `Path.stem` of a `*.json` name; a name that is all suffix is its own stem. -/
def stem (name : Text) : Text :=
  if name = jsonSuffix then name else name.take (name.length - jsonSuffix.length)

/-- The identifiers of the cells a directory holds a valid, name-matching result for. -/
def existing (codec : CellCodec C) (dir : Dir C) : List Text :=
  dir.items.filterMap (fun f =>
    if !Text.endsWith f.1 jsonSuffix then none
    else if sidecars.contains f.1 then none
    else match codec.parse f.2 with
      | none   => none
      | some r => if r.cellId = stem f.1 then some r.cellId else none)

def pendingCellSpecs (codec : CellCodec C) (dir : Dir C) (m : MatrixSpec) : Option (List CellSpec) :=
  m.cells.map (fun cs => cs.filter (fun c => !(existing codec dir).contains c.cellId))

/-! ## Execution -/

def runAll (b : Bench C) (dir : Dir C) (m : MatrixSpec) (stopOnUnreconciled : Bool) : Option (Sweep C) :=
  m.cells.map (fun cs => run b stopOnUnreconciled cs ⟨dir, []⟩)

def runPending (b : Bench C) (dir : Dir C) (m : MatrixSpec) (stopOnUnreconciled : Bool) : Option (Sweep C) :=
  (pendingCellSpecs b.codec dir m).map (fun cs => run b stopOnUnreconciled cs ⟨dir, []⟩)

end BenchMatrix
end GoodputLab
