import SolidClash.Detection
import SolidClash.Report.Format
import SolidClash.Rules.Format

/-! A job runs on a worker, which shares two cells with whoever spawned it: the state, and how far
it is in percent, -1 before the first report. -/

namespace SolidClash

open Json Json.Decoder

structure Request where
  model1 : UInt64
  model2 : UInt64
  rules : String
deriving DecidableEq, Repr

namespace Request

def schema : List Field := [.of "model1" true word, .of "model2" true word, .of "rules" true string]

def ofJson : Decoder Request := fun j => do
  let r ← Record.ofJson schema false j
  return ⟨← r.get "model1" word, ← r.get "model2" word, ← r.get "rules" string⟩

def toJson (r : Request) : Json :=
  .ofFields [("model1", .ofNat r.model1.toNat), ("model2", .ofNat r.model2.toNat),
    ("rules", .string r.rules)]

end Request

namespace Job

inductive State where
  | started
  | running
  | finished
  | cancelled
  | errored
deriving DecidableEq, Repr

inductive LoadError where
  | notFound (id : UInt64)
  | unreadable (reason : String)
deriving DecidableEq, Repr

def LoadError.message : LoadError → String
  | notFound id => "Model " ++ toString id.toNat ++ " not found"
  | unreadable reason => "Geometry source error: " ++ reason

inductive Error where
  | rules (e : Rules.TextError)
  | load (e : LoadError)
  | detection (e : Detection.Error)
  | panicked

def panicMessage : String := "Clash job worker panicked"

/-- What stops the work of a job early: an error, or a panic of the source. -/
inductive Stop where
  | error (e : Error)
  | panic

def caught {γ : Type} : Except Stop γ → Except Error γ
  | .ok x => .ok x
  | .error (.error e) => .error e
  | .error .panic => .error .panicked

abbrev Source := UInt64 → Except Stop Model

def Source.ofModels (ms : List Model) : Source := fun id =>
  match ms.reverse.find? fun m => m.id == id with
  | some m => .ok m
  | none => .error (.error (.load (.notFound id)))

structure Cells where
  progress : Int := -1
  state : State := .started
deriving DecidableEq, Repr

inductive Write where
  | state (s : State)
  | progress (current total : Nat)
deriving DecidableEq, Repr

def Cells.write (c : Cells) : Write → Cells
  | .state s => { c with state := s }
  | .progress current total => { c with progress := percent current total }

/-- The answer of a job, and what its worker wrote into the cells, in order. -/
structure Outcome where
  report : Except Error (Report Float)
  writes : List Write

namespace Outcome

def shown (o : Outcome) : List Cells := o.writes.scanl Cells.write {}

def cells (o : Outcome) : Cells := o.writes.foldl Cells.write {}

def state (o : Outcome) : State := o.cells.state

def progress (o : Outcome) : List Int := o.shown.map Cells.progress

def lastProgress (o : Outcome) : Int := o.cells.progress

end Outcome

def detection? (source : Source) (r : Request) (options : Options) (solver : Detection.Solver) :
    Except Stop Detection := do
  let rules ← (Rules.ofText r.rules).mapError fun e => .error (.rules e)
  let first ← source r.model1
  let second ← if r.model2 = r.model1 then pure first else source r.model2
  return { first, second, rules, options, solver }

def work (source : Source) (r : Request) (options : Options) (solver : Detection.Solver)
    (signals : Signals) : Except Stop (Report Float) × List (Nat × Nat) :=
  match detection? source r options solver with
  | .error e => (.error e, [])
  | .ok d =>
    match d.run signals with
    | .error e => (.error (.error (.detection e)), [])
    | .ok o => (.ok (.ofResults options.reportWeldEpsilon o.results), o.reports)

def endState : Except Error (Report Float) → State
  | .ok r => if r.metrics.state = .cancelled then .cancelled else .finished
  | .error _ => .errored

def run (source : Source) (r : Request) (options : Options) (solver : Detection.Solver)
    (signals : Signals) : Outcome :=
  let (result, reports) := work source r options solver signals
  let report := caught result
  { report
    writes := .state .running :: reports.map (fun (c, t) => .progress c t) ++
      [.state (endState report)] }

end Job

end SolidClash
