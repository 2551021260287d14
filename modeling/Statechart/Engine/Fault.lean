import Statechart.Json.Writer
import Statechart.Fault

/-!
# Faults of the engine

- `TimerFault`  : why a timer cannot run
- `EngineFault` : every way in which an action, a transition or a request fails
-/

namespace Statechart

/-! ## Timers -/

inductive TimerFault where
  | notARaise (kind : String)
  | zeroDelay
  | notANumber (delay : Value)
  /-- In milliseconds. -/
  | outOfRange (delay : Float)

def TimerFault.message : TimerFault → String
  | .notARaise kind => "expected a raise action, got " ++ kind
  | .zeroDelay => "delay must be positive"
  | .notANumber delay => "delay " ++ delay.compact ++ " is not a number"
  | .outOfRange delay => "delay " ++ Decimal.plainLayout.render delay ++ " is out of range"

/-! ## The engine -/

inductive EngineFault where
  | model (fault : ModelFault)
  | nonDeterminism (state trigger : String) (count : Nat)
  | stateNotFound (state : String)
  | noActiveState
  | duplicateTimer (name : String)
  | timerNotFound (name : String)
  | invalidTimer (name : String) (fault : TimerFault)
  | serviceNotFound (type : String)
  | serviceFailed (service reason : String)
  /-- An internal event never leaves its instance through the bus. -/
  | internalEvent (name : String)
  | shutDown
  /-- The delay is longer than any time that the clock can show. -/
  | endlessDelay (name : String)

namespace EngineFault

def message : EngineFault → String
  | .model fault => "core error: " ++ fault.message
  | .nonDeterminism state trigger count =>
      "non-determinism detected in state '" ++ state ++ "' for " ++ trigger ++ ": " ++
        toString count ++ " transitions selected"
  | .stateNotFound state => "state not found: " ++ state
  | .noActiveState => "instance has no active state"
  | .duplicateTimer name => "timer already running: " ++ name
  | .timerNotFound name => "timer not found: " ++ name
  | .invalidTimer name fault => "invalid timer '" ++ name ++ "': " ++ fault.message
  | .serviceNotFound type => "no implementation for service type '" ++ type ++ "'"
  | .serviceFailed service reason => "service '" ++ service ++ "' failed: " ++ reason
  | .internalEvent name =>
      "event delivery failed: internal event " ++ name ++
        " cannot be sent through the event handler"
  | .shutDown => "runtime is shut down"
  | .endlessDelay name => "timer '" ++ name ++ "' never ends"

/-- Whether the fault ends an instance when it arises between states. -/
def isFatal : EngineFault → Bool
  | .model (.context (.notFound _)) => false
  | .model (.context (.exists _)) => false
  | .model _ => true
  | .nonDeterminism _ _ _ => true
  | .stateNotFound _ => true
  | .noActiveState => true
  | .duplicateTimer _ => true
  | .invalidTimer _ _ => true
  | .endlessDelay _ => true
  | .timerNotFound _ => false
  | .serviceNotFound _ => false
  | .serviceFailed _ _ => false
  | .internalEvent _ => false
  | .shutDown => false

def code : EngineFault → String
  | .model fault => fault.code
  | .nonDeterminism _ _ _ => "NON_DETERMINISM"
  | .stateNotFound _ => "STATE_NOT_FOUND"
  | .noActiveState => "NO_ACTIVE_STATE"
  | .duplicateTimer _ => "DUPLICATE_TIMER"
  | .timerNotFound _ => "TIMER_NOT_FOUND"
  | .invalidTimer _ _ => "INVALID_TIMER"
  | .serviceNotFound _ => "SERVICE_NOT_FOUND"
  | .serviceFailed _ _ => "SERVICE_FAILED"
  | .internalEvent _ => "DELIVERY_FAILED"
  | .shutDown => "SHUT_DOWN"
  | .endlessDelay _ => "ENDLESS_DELAY"

end EngineFault

end Statechart
