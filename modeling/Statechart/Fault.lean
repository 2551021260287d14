import Statechart.Expression.Fault

/-!
# Faults of the model

- `DefinitionFault` : what makes a description invalid
- `ModelFault`      : every way in which building or evaluating a description fails
-/

namespace Statechart

inductive DefinitionFault where
  | unnamedVariable
  | unnamedEvent
  | unnamedTimeout
  | timeoutWithoutRaise (name kind : String)
  | unnamedCollaboration
  | unnamedGraph
  | noStates (graph : String)
  | duplicateState (state graph : String)
  | noInitialState (graph : String)
  | severalInitialStates (graph : String) (count : Nat)
  | afterWithoutTimeout (state kind : String)
  | duplicateTimeout (timeout state : String)
  | unnamedTrigger (state : String)
  | duplicateTransition (state event : String)
  | unknownTarget (target : String)
  | duplicateGraph (name : String)
  deriving DecidableEq, Repr

namespace DefinitionFault

def message : DefinitionFault → String
  | .unnamedVariable => "variable name must not be empty"
  | .unnamedEvent => "event name must not be empty"
  | .unnamedTimeout => "timeout action requires a name"
  | .timeoutWithoutRaise name kind =>
      "timeout '" ++ name ++ "' must wrap a raise action, got '" ++ kind ++ "'"
  | .unnamedCollaboration => "collaborative state machine name must not be empty"
  | .unnamedGraph => "state machine name must not be empty"
  | .noStates graph => "state machine '" ++ graph ++ "' has no states"
  | .duplicateState state graph =>
      "duplicate state '" ++ state ++ "' in state machine '" ++ graph ++ "'"
  | .noInitialState graph => "state machine '" ++ graph ++ "' has no initial state"
  | .severalInitialStates graph count =>
      "state machine '" ++ graph ++ "' has " ++ toString count ++ " initial states"
  | .afterWithoutTimeout state kind =>
      "state '" ++ state ++ "' has a '" ++ kind ++
        "' action in 'after'; only timeout actions are allowed"
  | .duplicateTimeout timeout state =>
      "duplicate timeout '" ++ timeout ++ "' in state '" ++ state ++ "'"
  | .unnamedTrigger state => "state '" ++ state ++ "' has a transition with an empty event"
  | .duplicateTransition state event =>
      "duplicate transition from '" ++ state ++ "' on event '" ++ event ++ "'"
  | .unknownTarget target => "transition target '" ++ target ++ "' not in states list"
  | .duplicateGraph name => "duplicate state machine name '" ++ name ++ "'"

end DefinitionFault

inductive ModelFault where
  | definition (fault : DefinitionFault)
  | expression (source : String) (fault : SyntaxFault)
  | evaluation (source : String) (fault : EvaluationFault)
  | context (fault : ContextFault)
  /-- The description does not have the shape of a description. -/
  | shape
  deriving DecidableEq, Repr

namespace ModelFault

def message : ModelFault → String
  | .definition fault => "invalid state machine description: " ++ fault.message
  | .expression source fault => "invalid expression '" ++ source ++ "': " ++ fault.message
  | .evaluation source fault => "failed to evaluate '" ++ source ++ "': " ++ fault.message
  | .context fault => fault.message
  | .shape => "JSON error"

/-- Whether the fault was found while building a description, not while running one. -/
def isStructural : ModelFault → Bool
  | .definition _ => true
  | .expression _ _ => true
  | .shape => true
  | .evaluation _ _ => false
  | .context _ => false

def code : ModelFault → String
  | .definition _ => "INVALID_DEFINITION"
  | .expression _ _ => "INVALID_EXPRESSION"
  | .evaluation _ _ => "EVALUATION_FAILED"
  | .context (.notFound _) => "VARIABLE_NOT_FOUND"
  | .context (.exists _) => "VARIABLE_EXISTS"
  | .context (.backend _) => "CONTEXT_BACKEND"
  | .shape => "BAD_REQUEST"

end ModelFault

end Statechart
