import Statechart.Decimal.Binary
import Statechart.Engine.Fault
import Statechart.Graph.Basic

/-!
# Selection of transitions

- `Selected`           : a transition, perhaps taken for its else target
- `eligible`           : the transitions that may be taken
- `selectTransition`   : the one transition that may be taken, if there is not more than one
- `Timeout.period`     : the delay of a timer
-/

namespace Statechart

/-! ## Transitions -/

structure Selected where
  transition : Transition
  /-- The guards do not hold, and the transition leads to its else target. -/
  isElse : Bool

def Selected.target? (s : Selected) : Option String := s.transition.targetFor s.isElse

/-- A guard that fails to evaluate does not hold. -/
def Transition.holds (t : Transition) (find : Lookup) : Bool :=
  match t.passes find with
  | .ok holds => holds
  | .error _ => false

/-- The transitions whose guards hold or that have an else target. -/
def eligible (candidates : List Transition) (find : Lookup) : List Selected :=
  candidates.filterMap fun t =>
    if t.holds find then some ⟨t, false⟩
    else if t.hasElse then some ⟨t, true⟩
    else none

/-- What goes wrong while the guards are evaluated. -/
def guardFaults (candidates : List Transition) (find : Lookup) : List ModelFault :=
  candidates.filterMap fun t =>
    match t.passes find with
    | .ok _ => none
    | .error fault => some fault

def selectTransition (state trigger : String) (candidates : List Transition) (find : Lookup) :
    Except EngineFault (Option Selected) :=
  match eligible candidates find with
  | [] => .ok none
  | [selected] => .ok (some selected)
  | several => .error (.nonDeterminism state trigger several.length)

/-! ## Delays -/

/-- Nanoseconds in a second. -/
def secondNanos : Nat := 1000000000

/-- Nanoseconds in a millisecond. -/
def milliNanos : Nat := 1000000

/-- A delay in nanoseconds, rounded to the nearest one from the number of milliseconds. -/
def delayNanos (name : String) (delay : Value) : Except EngineFault Nat :=
  match delay with
  | .number n =>
      let millis := n.toFloat
      if !millis.isFinite || decide (millis < 0.0) then
        .error (.invalidTimer name (.outOfRange millis))
      else
        let nanos := (Decimal.Binary.ofFloat (millis / 1000.0)).roundScaled secondNanos
        if nanos < wordLimit * secondNanos then .ok nanos else .error (.endlessDelay name)
  | delay => .error (.invalidTimer name (.notANumber delay))

def Timeout.period (t : Timeout) (find : Lookup) : Except EngineFault Nat := do
  let delay ← (t.delay.evaluate find).mapError .model
  delayNanos t.name delay

end Statechart
