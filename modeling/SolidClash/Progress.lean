/-! Between two reports of a run lies at least an interval; at every report it may be cancelled. -/

namespace SolidClash

/-- How far `current` is on the way to `total`, in percent; 0 if there is nothing to do. -/
def percent (current total : Nat) : Nat := if total = 0 then 0 else min current total * 100 / total

theorem percent_le (current total : Nat) : percent current total ≤ 100 := by
  unfold percent
  split
  · omega
  · exact Nat.div_le_of_le_mul (by omega)

/-- What a run sees of the world: the clock, in milliseconds, at its readings, and the answers to
its questions whether it is cancelled. -/
structure Signals where
  clock : Nat → Nat
  cancelled : Nat → Bool

def Signals.constant (cancelled : Bool) : Signals := ⟨fun _ => 0, fun _ => cancelled⟩

structure Throttle where
  interval : Nat
  last : Option Nat := none
deriving Repr

def Throttle.isReady (t : Throttle) (now : Nat) : Bool :=
  match t.last with
  | none => true
  | some last => t.interval ≤ now - last

structure Monitor where
  throttle : Throttle
  readings : Nat := 0
  questions : Nat := 0
  reports : List (Nat × Nat) := []
  cancelled : Bool := false
deriving Repr

namespace Monitor

def new (interval : Nat) : Monitor := { throttle := ⟨interval, none⟩ }

def report (m : Monitor) (current total : Nat) : Monitor :=
  { m with reports := (current, total) :: m.reports }

def poll (s : Signals) (current total : Nat) (m : Monitor) : Monitor :=
  let now := s.clock m.readings
  let m := { m with readings := m.readings + 1 }
  if m.throttle.isReady now then
    { m with
      throttle := { m.throttle with last := some now }
      questions := m.questions + 1
      reports := (current, total) :: m.reports
      cancelled := s.cancelled m.questions }
  else m

end Monitor

def defaultProgressInterval : Nat := 1000

end SolidClash
