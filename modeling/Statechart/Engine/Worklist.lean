import Statechart.Engine.Party
import Statechart.Engine.Selection
import Statechart.Text.Hidden

/-!
# Worklists

A machine moves from state to state by commands on a worklist. What a command gives rise to is
done before the commands after it.

- `Command`         : an action at a site, or a step between states
- `Actor`           : the operations that actions are made of
- `Actor.drain`     : a worklist without a machine to move, where only actions are done
- `Machine`         : the operations that steps between states are made of
- `Machine.execute` : what a command does, and the commands it gives rise to
- `Machine.advance` : the next command of a worklist
- `Machine.drain`   : a whole worklist
-/

namespace Statechart

/-! ## Commands -/

/-- A step between states. -/
inductive Move where
  | enterInitial (state : State)
  /-- Does the entry actions and those during the state, then changes to it. -/
  | enter (state : State)
  /-- Stops the timers and tasks of the active state and does the exit actions. -/
  | exit (state : State)
  /-- Starts the timers, makes the state active, and follows a transition that waits for nothing. -/
  | change (state : State)
  | transit (selected : Selected)

inductive Command where
  | act (site : Site) (action : Action)
  | move (move : Move)

def actions (site : Site) (actions : List Action) : List Command := actions.map (.act site)

namespace Move

/-- A character as it is shown in the log. -/
def shownChar (c : Char) : List Char :=
  if c = '"' || c = '\\' then ['\\', c]
  else if c = '\n' then ['\\', 'n']
  else if c = '\r' then ['\\', 'r']
  else if c = '\t' then ['\\', 't']
  else if c = '\x00' then ['\\', '0']
  else if Text.isHidden c then
    ['\\', 'u', '{'] ++ Nat.toDigits 16 c.toNat ++ ['}']
  else [c]

/-- A text between quotes, as it is shown in the log. -/
def shown (s : String) : String :=
  "\"" ++ String.ofList (s.toList.flatMap shownChar) ++ "\""

def label : Move → String
  | .enterInitial s => "TransitionInitial(" ++ s.name ++ ")"
  | .enter s => "StateEnter(" ++ s.name ++ ")"
  | .exit s => "StateExit(" ++ s.name ++ ")"
  | .change s => "StateChange(" ++ s.name ++ ")"
  | .transit t =>
      "Transition(" ++
        (match t.target? with
          | some target => "Some(" ++ shown target ++ ")"
          | none => "None") ++
        ", else=" ++ (if t.isElse then "true" else "false") ++ ")"

end Move

def Command.label : Command → String
  | .act site action => action.kind ++ " in " ++ site.scope.text
  | .move step => step.label

/-! ## Actors -/

/-- What can be done to configurations in `σ` without a machine. -/
structure Actor (σ : Type) where
  /-- Does an action and returns those it gives rise to. -/
  perform : σ → Site → Action → σ × Except EngineFault (List Action)
  remark : σ → Remark → σ

namespace Actor

/-- What is said about an action that fails. -/
def failure (site : Site) (action : Action) (fault : EngineFault) : Remark :=
  ⟨.error, some site.owner,
    "failed to execute " ++ action.kind ++ " action in " ++ site.scope.text ++ ": " ++
      fault.message⟩

/-- An action that fails is passed over. -/
def execute (a : Actor σ) (s : σ) (site : Site) (action : Action) : σ × List Command :=
  match a.perform s site action with
  | (s, .ok next) => (s, actions site next)
  | (s, .error fault) => (a.remark s (failure site action fault), [])

/-- What is said about a step where there is no machine to move. -/
def dropped (step : Move) : Remark :=
  ⟨.warning, none, "Dropping " ++ step.label ++ " outside of an instance worker"⟩

/-- Executes the first command of a worklist; steps between states are dropped. -/
def advance (a : Actor σ) (s : σ) (c : Command) (rest : List Command) : σ × List Command :=
  match c with
  | .act site action =>
      let (s, next) := a.execute s site action
      (s, next ++ rest)
  | .move step => (a.remark s (dropped step), rest)

/-- Drains a worklist; `none` if the fuel does not suffice. -/
def drain (a : Actor σ) : Nat → σ → List Command → Option σ
  | _, s, [] => some s
  | 0, _, _ :: _ => none
  | fuel + 1, s, c :: rest =>
      let (s, work) := a.advance s c rest
      a.drain fuel s work

end Actor

/-! ## Machines -/

/-- What can be done to configurations in `σ` with a machine in them. -/
structure Machine (σ : Type) extends Actor σ where
  active? : σ → Option State
  state? : σ → String → Option State
  /-- Where the actions of transitions are done. -/
  machineSite : σ → Site
  /-- Where entry and exit actions are done. -/
  stateSite : σ → State → Site
  /-- Where the actions during a state are done. -/
  duringSite : σ → State → Site
  startTimers : σ → State → σ × Except EngineFault Unit
  stopTimers : σ → σ
  cancelTasks : σ → σ
  setActive : σ → State → σ
  /-- The transition of a state that waits for nothing. -/
  selectAlways : σ → State → σ × Except EngineFault (Option Selected)

namespace Machine

def executeMove (m : Machine σ) (s : σ) : Move → σ × Except EngineFault (List Command)
  | .enterInitial state => (s, .ok [.move (.enter state)])
  | .enter state =>
      (s, .ok (actions (m.stateSite s state) state.entry ++
        actions (m.duringSite s state) state.during ++ [.move (.change state)]))
  | .exit state =>
      let s := m.cancelTasks (m.stopTimers s)
      (s, .ok (actions (m.stateSite s state) state.exit))
  | .change state =>
      match m.startTimers s state with
      | (s, .error fault) => (s, .error fault)
      | (s, .ok ()) =>
          match m.selectAlways (m.setActive s state) state with
          | (s, .error fault) => (s, .error fault)
          | (s, .ok none) => (s, .ok [])
          | (s, .ok (some selected)) => (s, .ok [.move (.transit selected)])
  | .transit selected =>
      let effects :=
        if selected.isElse then [] else actions (m.machineSite s) selected.transition.actions
      match selected.target? with
      -- without a target the active state is not left
      | none => (s, .ok effects)
      | some target =>
          match m.state? s target with
          | none => (s, .error (.stateNotFound target))
          | some next =>
              match m.active? s with
              | none => (s, .error .noActiveState)
              | some current =>
                  (s, .ok (.move (.exit current) :: effects ++ [.move (.enter next)]))

def execute (m : Machine σ) (s : σ) : Command → σ × Except EngineFault (List Command)
  | .act site action =>
      let (s, next) := m.toActor.execute s site action
      (s, .ok next)
  | .move step => m.executeMove s step

/-- Executes a command and puts what it gives rise to in front of the rest. -/
def advance (m : Machine σ) (s : σ) (c : Command) (rest : List Command) :
    σ × Except EngineFault (List Command) :=
  match m.execute s c with
  | (s, .ok next) => (s, .ok (next ++ rest))
  | (s, .error fault) => (s, .error fault)

end Machine

/-- What draining a worklist comes to. -/
structure Drained (σ : Type) where
  final : σ
  /-- The commands after a step that fails. -/
  left : List Command
  outcome : Except EngineFault Unit

/-- Drains a worklist up to the first step that fails; `none` if the fuel does not suffice. -/
def Machine.drain (m : Machine σ) : Nat → σ → List Command → Option (Drained σ)
  | _, s, [] => some ⟨s, [], .ok ()⟩
  | 0, _, _ :: _ => none
  | fuel + 1, s, c :: rest =>
      match m.advance s c rest with
      | (s, .ok work) => m.drain fuel s work
      | (s, .error fault) => some ⟨s, rest, .error fault⟩

end Statechart
