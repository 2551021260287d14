import Mathlib.Data.List.Nodup
import Statechart.Proofs.Engine.Run

/-!
# Where an instance stands

Of an instance only this matters for its timers and faults: its graph and how far it is in it, its
timers, and the steps between states that are left of its worklist. Actions can do nothing to these
but stop a timer.

- `RunState`                : what matters
- `RunState.Step`           : how it changes in one step of the engine
- `TimerLog`                : what a history tells about the timers of an instance
- `RunState.Sound`          : what holds at all times
- `RunState.Sound.step`     : it holds on
- `RunState.Sound.mayMeet_of_step` : the faults that remain
-/

namespace Statechart

/-! ## Run states -/

/-- A timer without its state. -/
structure TimerKey where
  id : Nat
  owner : Party
  name : String
  deriving DecidableEq

def Timer.key (t : Timer) : TimerKey := ⟨t.id, t.owner, t.name⟩

def Command.move? : Command → Option Move
  | .move step => some step
  | .act _ _ => none

structure RunState where
  graph : Graph
  active : Option State
  phase : Phase
  timers : List TimerKey
  /-- What is left of the worklist, without actions. -/
  moves : List Move

namespace RunState

/-- The run state of an instance that has not begun. -/
structure IsNew (s : RunState) : Prop where
  active : s.active = none
  phase : s.phase = .created
  timers : s.timers = []
  moves : s.moves = []

/-- A step between states that succeeds. The moves are those that it gives rise to. -/
inductive Moves (s : RunState) : Move → RunState → Prop where
  | enterInitial (state : State) :
      Moves s (.enterInitial state) { s with moves := [.enter state] }
  | enter (state : State) : Moves s (.enter state) { s with moves := [.change state] }
  | exit (state : State) : Moves s (.exit state) { s with timers := [], moves := [] }
  | change {state : State} {started : List TimerKey} {follow : Option Selected} :
      started.map (·.name) = state.after.map (·.name) →
        (∀ t, follow = some t → t.transition ∈ state.always) →
        Moves s (.change state)
          { s with
            active := some state
            timers := s.timers ++ started
            moves := (follow.map Move.transit).toList }
  | inside {t : Selected} : t.target? = none → Moves s (.transit t) { s with moves := [] }
  | across {t : Selected} {target : String} {next current : State} :
      t.target? = some target → s.graph.state? target = some next → s.active = some current →
        Moves s (.transit t) { s with moves := [.exit current, .enter next] }

end RunState

/-- How the timer of a timeout can fail to start, if there is none of its name. -/
inductive Timeout.Faults (t : Timeout) : EngineFault → Prop where
  | invalid (fault : TimerFault) : Faults t (.invalidTimer t.name fault)
  | evaluation (fault : EvaluationFault) : Faults t (.model (.evaluation t.delay.source fault))
  /-- Nobody is told of this one: the instance is left where it is. -/
  | endless : Faults t (.endlessDelay t.name)

theorem Timeout.Faults.isFatal {t : Timeout} {fault : EngineFault} (h : t.Faults fault) :
    fault.isFatal = true := by
  cases h <;> rfl

/-- A fault that an instance of a graph may meet between states: several transitions to follow, or
a timer of a state that cannot start. -/
inductive Graph.MayMeet (g : Graph) : EngineFault → Prop where
  | nonDeterminism {state : State} {trigger : String} {count : Nat} :
      state ∈ g.states → 2 ≤ count →
        (trigger = "always" ∧ count ≤ state.always.length ∨
          count ≤ (state.onEvent trigger).length) →
        MayMeet g (.nonDeterminism state.name trigger count)
  | timer {state : State} {timeout : Timeout} {fault : EngineFault} :
      state ∈ g.states → timeout ∈ state.after → timeout.Faults fault → MayMeet g fault

namespace Graph.MayMeet

variable {g : Graph} {fault : EngineFault}

theorem isFatal (h : g.MayMeet fault) : fault.isFatal = true := by
  cases h with
  | nonDeterminism _ _ _ => rfl
  | timer _ _ hfaults => exact hfaults.isFatal

theorem ne (h : g.MayMeet fault) :
    (∀ name, fault ≠ .stateNotFound name) ∧ fault ≠ .noActiveState ∧
      ∀ name, fault ≠ .duplicateTimer name := by
  cases h with
  | nonDeterminism _ _ _ => simp
  | timer _ _ hfaults => cases hfaults <;> simp

/-- Strictness leaves several transitions only where no event is waited for. -/
theorem trigger_eq {state trigger : String} {count : Nat}
    (h : g.MayMeet (.nonDeterminism state trigger count)) (hstrict : g.IsBuilt true) :
    trigger = "always" := by
  generalize hfault : EngineFault.nonDeterminism state trigger count = fault at h
  cases h with
  | nonDeterminism hstate hmany hcount =>
      cases hfault
      rcases hcount with ⟨rfl, -⟩ | hcount
      · rfl
      · have hone := hstrict.length_onEvent_le hstate trigger
        omega
  | timer _ _ hfaults =>
      subst hfault
      cases hfaults

end Graph.MayMeet

namespace RunState

/-- A step between states that fails. -/
inductive Faults (s : RunState) : Move → EngineFault → Prop where
  | stateNotFound {t : Selected} {target : String} :
      t.target? = some target → s.graph.state? target = none →
        Faults s (.transit t) (.stateNotFound target)
  | noActiveState {t : Selected} : s.active = none → Faults s (.transit t) .noActiveState
  | duplicateTimer {state : State} {name : String} :
      ¬ (s.timers.map (·.name) ++ state.after.map (·.name)).Nodup →
        Faults s (.change state) (.duplicateTimer name)
  | timer {state : State} {timeout : Timeout} {fault : EngineFault} :
      timeout ∈ state.after → timeout.Faults fault → Faults s (.change state) fault
  | nonDeterminism {state : State} {count : Nat} :
      2 ≤ count → count ≤ state.always.length →
        Faults s (.change state) (.nonDeterminism state.name "always" count)

theorem Faults.isFatal {s : RunState} {step : Move} {fault : EngineFault}
    (h : s.Faults step fault) : fault.isFatal = true := by
  cases h with
  | timer _ hfaults => exact hfaults.isFatal
  | _ => rfl

/-- What follows a fault: the end, or with a delay without end no end at all. -/
inductive Stops (s : RunState) (fault : EngineFault) : RunState → Prop where
  | ends (active : Option State) :
      fault.isFatal = true → (∀ name, fault ≠ .endlessDelay name) →
        Stops s fault { s with active, phase := .ended, timers := [], moves := [] }
  | strands (name : String) (active : Option State) (timers : List TimerKey) :
      fault = .endlessDelay name →
        Stops s fault { s with active, phase := .stuck, timers, moves := [] }

/-- How the run state of the instance of a number changes, and what happens to it. -/
inductive Step (n : Nat) : RunState → Option Happening → RunState → Prop where
  /-- Nothing happens to this instance. -/
  | stay {s : RunState} {label : Option Happening} :
      (∀ h, label = some h → h.number? ≠ some n) → Step n s label s
  | begin {s : RunState} :
      s.phase = .created → s.moves = [] →
        Step n s none { s with phase := .running, moves := [.enterInitial s.graph.initial] }
  | act {s : RunState} {site : Site} {action : Action} {outcome : Except EngineFault Unit} :
      s.phase = .running → (∀ name, action = .resetTimeout name → outcome ≠ .ok ()) →
        Step n s (some (.did n (.act site action) outcome)) s
  | reset {s : RunState} {site : Site} {timer : TimerKey} :
      s.phase = .running → timer ∈ s.timers →
        Step n s (some (.did n (.act site (.resetTimeout timer.name)) (.ok ())))
          { s with timers := s.timers.filter fun t => t ≠ timer }
  | move {s s' : RunState} {step : Move} {rest : List Move} :
      s.phase = .running → s.moves = step :: rest → s.Moves step s' →
        Step n s (some (.did n (.move step) (.ok ()))) { s' with moves := s'.moves ++ rest }
  | fault {s s' : RunState} {step : Move} {rest : List Move} {fault : EngineFault} :
      s.phase = .running → s.moves = step :: rest → s.Faults step fault → s.Stops fault s' →
        Step n s (some (.did n (.move step) (.error fault))) s'
  | take {s : RunState} {current : State} {e : Event} {follow : Option Selected} :
      s.phase = .running → s.moves = [] → s.active = some current →
        (∀ t, follow = some t → t.transition ∈ current.onEvent e.name) →
        Step n s (some (.took n e (.ok ()))) { s with moves := (follow.map Move.transit).toList }
  | refuse {s s' : RunState} {current : State} {e : Event} {count : Nat} :
      s.phase = .running → s.moves = [] → s.active = some current → 2 ≤ count →
        count ≤ (current.onEvent e.name).length →
        s.Stops (.nonDeterminism current.name e.name count) s' →
        Step n s (some (.took n e (.error (.nonDeterminism current.name e.name count)))) s'
  | lost {s s' : RunState} {e : Event} :
      s.phase = .running → s.moves = [] → s.active = none → s.Stops .noActiveState s' →
        Step n s (some (.took n e (.error .noActiveState))) s'
  | finish {s : RunState} :
      s.phase = .running → s.moves = [] →
        Step n s none { s with phase := .ended, timers := [], moves := [] }

end RunState

/-! ## What a history tells -/

/-- What a history tells about the timers of an instance. -/
structure TimerLog where
  /-- The timers that were reset since a state was last entered. -/
  lost : List String
  /-- Whether a state was left, and no change to a state came after it. -/
  isOut : Bool

namespace TimerLog

/-- What the commands of an instance add. -/
def note (l : TimerLog) : Command → Except EngineFault Unit → TimerLog
  | .act _ (.resetTimeout name), .ok _ => { l with lost := name :: l.lost }
  | .act _ _, _ => l
  | .move (.enter _), _ => { l with lost := [] }
  | .move (.exit _), _ => { l with isOut := true }
  | .move (.change _), _ => { l with isOut := false }
  | .move _, _ => l

def add (n : Nat) (l : TimerLog) : Happening → TimerLog
  | .did m c outcome => if m = n then l.note c outcome else l
  | _ => l

/-- What a history tells about an instance. -/
def of (n : Nat) : List Happening → TimerLog
  | [] => ⟨[], false⟩
  | h :: older => (of n older).add n h

/-- What one step adds. -/
def after (n : Nat) (l : TimerLog) : Option Happening → TimerLog
  | some h => l.add n h
  | none => l

theorem of_toList_append (n : Nat) (label : Option Happening) (hs : List Happening) :
    of n (label.toList ++ hs) = (of n hs).after n label := by
  cases label <;> rfl

theorem after_of_ne {n : Nat} {label : Option Happening} (l : TimerLog)
    (hother : ∀ h, label = some h → h.number? ≠ some n) : l.after n label = l := by
  cases label with
  | none => rfl
  | some h =>
      cases h with
      | did m c outcome =>
          have hmn : m ≠ n := fun heq => hother _ rfl (congrArg some heq)
          simp [after, add, hmn]
      | _ => rfl

end TimerLog

/-! ## What holds at all times -/

namespace RunState

/-- How far an instance is on its way between states. No timer runs but where a state is active
that is not left yet; there the timers are those of the state that were not reset. -/
inductive Stage (l : TimerLog) (s : RunState) : Prop where
  | new : s.IsNew → Stage l s
  | starting : s.phase = .running → s.timers = [] →
      s.moves = [.enterInitial s.graph.initial] → Stage l s
  | entering {state : State} : s.phase = .running → s.timers = [] → state ∈ s.graph.states →
      s.moves = [.enter state] → Stage l s
  | changing {state : State} : s.phase = .running → s.timers = [] → state ∈ s.graph.states →
      l.lost = [] → s.moves = [.change state] → Stage l s
  | active {state : State} : s.phase = .running → s.active = some state →
      state ∈ s.graph.states → l.isOut = false →
      s.timers.map (·.name) = (state.after.map (·.name)).filter (fun name => name ∉ l.lost) →
      (s.moves = [] ∨
        (∃ t : Selected, s.moves = [.transit t] ∧
          t.transition.LeadsInto (s.graph.states.map (·.name))) ∨
        ∃ next ∈ s.graph.states, s.moves = [.exit state, .enter next]) → Stage l s
  | ended : s.phase = .ended → s.timers = [] → s.moves = [] → Stage l s
  | stuck : s.phase = .stuck → l.isOut = false → s.moves = [] → Stage l s

/-- What holds of an instance at all times. -/
structure Sound (l : TimerLog) (s : RunState) : Prop where
  isBuilt : ∃ strict, s.graph.IsBuilt strict
  stage : s.Stage l

namespace Sound

variable {l : TimerLog} {s s' : RunState}

theorem isCoherent (h : s.Sound l) : s.graph.IsCoherent := by
  obtain ⟨strict, hbuilt⟩ := h.isBuilt
  exact hbuilt.isCoherent

/-- Where a transition leads that starts in a state of a graph. -/
theorem mem_states {t : Selected} {target : String} {next : State} {g : Graph}
    (hinto : t.transition.LeadsInto (g.states.map (·.name)))
    (htarget : t.target? = some target) (hnext : g.state? target = some next) :
    next ∈ g.states := by
  obtain ⟨found, hfound, hstate⟩ := Graph.exists_state?_of_mem (hinto t.isElse target htarget)
  rw [hnext] at hstate
  exact Option.some.inj hstate ▸ hfound

/-- The timers of a state without one of them. -/
theorem names_filter {timers : List TimerKey} {timer : TimerKey} {names lost : List String}
    (hnodup : names.Nodup) (htimers : timers.map (·.name) = names.filter fun name => name ∉ lost)
    (htimer : timer ∈ timers) :
    (timers.filter fun t => t ≠ timer).map (·.name) =
      names.filter fun name => name ∉ timer.name :: lost := by
  have hdistinct : (timers.map (·.name)).Nodup := htimers ▸ hnodup.sublist List.filter_sublist
  -- since names differ, leaving out a timer is leaving out its name
  have hname : ∀ t ∈ timers, (t ≠ timer ↔ t.name ≠ timer.name) := fun t ht =>
    ⟨fun hne heq => hne (List.inj_on_of_nodup_map hdistinct ht htimer heq), fun hne heq =>
      hne (heq ▸ rfl)⟩
  have hfilter : (timers.filter fun t => t ≠ timer) =
      timers.filter ((fun name => decide (name ≠ timer.name)) ∘ (·.name)) :=
    List.filter_congr fun t ht => by simp [hname t ht]
  rw [hfilter, ← List.filter_map, htimers, List.filter_filter]
  refine List.filter_congr fun name _ => ?_
  simp [List.mem_cons]

/-- Between two events an instance is in a state with its timers. -/
theorem active_of_moves_eq_nil (h : s.Sound l) (hphase : s.phase = .running)
    (hmoves : s.moves = []) :
    ∃ state ∈ s.graph.states, s.active = some state ∧ l.isOut = false ∧
      s.timers.map (·.name) =
        (state.after.map (·.name)).filter (fun name => name ∉ l.lost) := by
  cases h.stage with
  | new hnew => rw [hnew.phase] at hphase; cases hphase
  | starting _ _ hsome => rw [hmoves] at hsome; cases hsome
  | entering _ _ _ hsome => rw [hmoves] at hsome; cases hsome
  | changing _ _ _ _ hsome => rw [hmoves] at hsome; cases hsome
  | active _ hactive hstate hout hnames _ => exact ⟨_, hstate, hactive, hout, hnames⟩
  | ended hended => rw [hphase] at hended; cases hended
  | stuck hstuck => rw [hphase] at hstuck; cases hstuck

/-- No timer runs between leaving a state and changing to one, nor after the end. -/
theorem timers_eq_nil (h : s.Sound l) (hout : l.isOut = true ∨ s.phase = .ended) :
    s.timers = [] := by
  cases h.stage with
  | new hnew => exact hnew.timers
  | starting _ hnone => exact hnone
  | entering _ hnone => exact hnone
  | changing _ hnone => exact hnone
  | active hphase _ _ hin => simp [hphase, hin] at hout
  | ended _ hnone => exact hnone
  | stuck hphase hin => simp [hphase, hin] at hout

/-- A step between states fails with a timer or with several transitions to follow. -/
theorem faults_cases {step : Move} {rest : List Move} {fault : EngineFault} (h : s.Sound l)
    (hphase : s.phase = .running) (hmoves : s.moves = step :: rest)
    (hfault : s.Faults step fault) :
    ∃ state ∈ s.graph.states, step = .change state ∧
      ((∃ timeout ∈ state.after, timeout.Faults fault) ∨
        ∃ count, 2 ≤ count ∧ count ≤ state.always.length ∧
          fault = .nonDeterminism state.name "always" count) := by
  have hcoherent := h.isCoherent
  -- at every stage at most one step is next; in a change there are no timers that could be in
  -- the way, and a transition leads to a state of the graph
  cases h.stage with
  | new hnew => rw [hnew.phase] at hphase; cases hphase
  | ended hended => rw [hphase] at hended; cases hended
  | stuck hstuck => rw [hphase] at hstuck; cases hstuck
  | starting _ _ hthis => rw [hthis] at hmoves; cases hmoves; cases hfault
  | entering _ _ _ hthis => rw [hthis] at hmoves; cases hmoves; cases hfault
  | changing _ htimers hstate _ hthis =>
      rw [hthis] at hmoves
      cases hmoves
      cases hfault with
      | duplicateTimer hnodup =>
          rw [htimers] at hnodup
          exact absurd (hcoherent.states _ hstate).after hnodup
      | timer htimeout hfaults => exact ⟨_, hstate, rfl, .inl ⟨_, htimeout, hfaults⟩⟩
      | nonDeterminism hmany hcount => exact ⟨_, hstate, rfl, .inr ⟨_, hmany, hcount, rfl⟩⟩
  | active _ hactive hstate _ _ hthis =>
      rcases hthis with hnone | ⟨t, ht, hinto⟩ | ⟨next, hnext, hleaving⟩
      · rw [hnone] at hmoves
        cases hmoves
      · rw [ht] at hmoves
        cases hmoves
        cases hfault with
        | stateNotFound htarget hstate =>
            obtain ⟨found, -, hfound⟩ := Graph.exists_state?_of_mem (hinto t.isElse _ htarget)
            rw [hstate] at hfound
            cases hfound
        | noActiveState hnone =>
            rw [hactive] at hnone
            cases hnone
      · rw [hleaving] at hmoves
        cases hmoves
        cases hfault

/-- An instance that is stopped. -/
theorem of_stops {fault : EngineFault} (h : s.Sound l) {l' : TimerLog} (hstops : s.Stops fault s')
    (hout : ∀ name, fault = .endlessDelay name → l'.isOut = false) : s'.Sound l' := by
  cases hstops with
  | ends active _ _ => exact ⟨h.isBuilt, .ended rfl rfl rfl⟩
  | strands name active timers hfault => exact ⟨h.isBuilt, .stuck rfl (hout name hfault) rfl⟩

/-- What holds of an instance holds on after a step between states that succeeds. -/
theorem move {step : Move} {rest : List Move} (h : s.Sound l) (hphase : s.phase = .running)
    (hmoves : s.moves = step :: rest) (hstep : s.Moves step s') :
    Sound (l.note (.move step) (.ok ())) { s' with moves := s'.moves ++ rest } := by
  have hcoherent := h.isCoherent
  refine ⟨?_, ?_⟩
  · cases hstep <;> exact h.isBuilt
  · -- enter the initial state, enter, change, then leave and enter again
    cases h.stage with
    | new hnew => rw [hnew.moves] at hmoves; cases hmoves
    | ended _ _ hnone => rw [hnone] at hmoves; cases hmoves
    | stuck _ _ hnone => rw [hnone] at hmoves; cases hmoves
    | starting _ htimers hthis =>
        rw [hthis] at hmoves
        cases hmoves
        cases hstep with
        | enterInitial => exact .entering hphase htimers hcoherent.initial rfl
    | entering _ htimers hstate hthis =>
        rw [hthis] at hmoves
        cases hmoves
        cases hstep with
        | enter => exact .changing hphase htimers hstate rfl rfl
    | changing _ htimers hstate hlost hthis =>
        rw [hthis] at hmoves
        cases hmoves
        cases hstep with
        | @change state started follow hnames hfollow =>
            refine .active hphase rfl hstate rfl ?_ ?_
            · rw [htimers, List.nil_append, hnames]
              simp [TimerLog.note, hlost]
            · cases follow with
              | none => exact .inl rfl
              | some t =>
                  exact .inr (.inl ⟨t, rfl, (hcoherent.states _ hstate).always _ (hfollow t rfl)⟩)
    | @active state _ hactive hstate hout hnames hthis =>
        rcases hthis with hnone | ⟨t, ht, hinto⟩ | ⟨next, hnext, hleaving⟩
        · rw [hnone] at hmoves
          cases hmoves
        · rw [ht] at hmoves
          cases hmoves
          cases hstep with
          | inside _ => exact .active hphase hactive hstate hout hnames (.inl rfl)
          | @across _ target next current htarget hnext hcurrent =>
              obtain rfl : state = current := Option.some.inj (hactive.symm.trans hcurrent)
              exact .active hphase hactive hstate hout hnames
                (.inr (.inr ⟨next, mem_states hinto htarget hnext, rfl⟩))
        · rw [hleaving] at hmoves
          cases hmoves
          cases hstep with
          | exit => exact .entering hphase rfl hnext rfl

/-- What holds of an instance at one time holds on after any step of the engine. -/
theorem step {n : Nat} {label : Option Happening} (h : s.Sound l) (hstep : Step n s label s') :
    s'.Sound (l.after n label) := by
  cases hstep with
  | stay hother => rw [TimerLog.after_of_ne l hother]; exact h
  | begin hphase hmoves =>
      refine ⟨h.isBuilt, .starting rfl ?_ rfl⟩
      cases h.stage with
      | new hnew => exact hnew.timers
      | starting hrunning => rw [hphase] at hrunning; cases hrunning
      | entering hrunning => rw [hphase] at hrunning; cases hrunning
      | changing hrunning => rw [hphase] at hrunning; cases hrunning
      | active hrunning => rw [hphase] at hrunning; cases hrunning
      | ended hended => rw [hphase] at hended; cases hended
      | stuck hstuck => rw [hphase] at hstuck; cases hstuck
  | @act site action outcome hphase hreset =>
      -- only a reset that succeeds is noted
      have hsame : l.note (.act site action) outcome = l := by
        cases action with
        | resetTimeout name =>
            cases outcome with
            | ok _ => exact absurd rfl (hreset name rfl)
            | error _ => rfl
        | _ => rfl
      simpa [TimerLog.after, TimerLog.add, hsame] using h
  | @reset site timer hphase htimer =>
      refine ⟨h.isBuilt, ?_⟩
      simp only [TimerLog.after, TimerLog.add, if_pos, TimerLog.note]
      cases h.stage with
      | new hnew => rw [hnew.timers] at htimer; cases htimer
      | starting _ hnone => rw [hnone] at htimer; cases htimer
      | entering _ hnone => rw [hnone] at htimer; cases htimer
      | changing _ hnone => rw [hnone] at htimer; cases htimer
      | ended hended => rw [hphase] at hended; cases hended
      | stuck hstuck => rw [hphase] at hstuck; cases hstuck
      | active _ hactive hstate hout hnames hmoves =>
          exact .active hphase hactive hstate hout
            (names_filter (h.isCoherent.states _ hstate).after hnames htimer) hmoves
  | move hphase hmoves hmove =>
      simpa [TimerLog.after, TimerLog.add] using h.move hphase hmoves hmove
  | fault hphase hmoves hfault hstops =>
      refine h.of_stops hstops fun name heq => ?_
      subst heq
      -- only a timer that starts can have a delay without end
      cases hfault with
      | timer _ _ => simp [TimerLog.after, TimerLog.add, TimerLog.note]
  | @take _ e follow hphase hmoves hcurrent hfollow =>
      obtain ⟨state, hstate, hactive, hout, hnames⟩ := h.active_of_moves_eq_nil hphase hmoves
      obtain rfl : state = _ := Option.some.inj (hactive.symm.trans hcurrent)
      -- an event changes neither state nor timers until its transition is executed
      refine ⟨h.isBuilt, .active hphase hactive hstate hout hnames ?_⟩
      cases follow with
      | none => exact .inl rfl
      | some t =>
          have hon : t.transition ∈ state.on := List.mem_of_mem_filter (hfollow t rfl)
          exact .inr (.inl ⟨t, rfl, (h.isCoherent.states state hstate).on _ hon⟩)
  | refuse hphase hmoves hcurrent _ _ hstops =>
      exact h.of_stops hstops fun name heq => by cases heq
  | lost _ _ _ hstops => exact h.of_stops hstops fun name heq => by cases heq
  | finish hphase hmoves => exact ⟨h.isBuilt, .ended rfl rfl rfl⟩

end Sound

/-! ## Faults and what comes after them -/

/-- Whether all turns of an instance are over. -/
def IsOver (s : RunState) : Prop := s.phase = .ended ∨ s.phase = .stuck

theorem Stops.phase {s s' : RunState} {fault : EngineFault} (h : s.Stops fault s') :
    s'.phase = .ended ∨ s'.phase = .stuck ∧ ∃ name, fault = .endlessDelay name := by
  cases h with
  | ends _ _ _ => exact .inl rfl
  | strands name _ _ hfault => exact .inr ⟨rfl, name, hfault⟩

theorem Stops.isOver {s s' : RunState} {fault : EngineFault} (h : s.Stops fault s') :
    s'.IsOver := by
  cases h with
  | ends _ _ _ => exact .inl rfl
  | strands _ _ _ _ => exact .inr rfl

theorem Stops.graph_eq {s s' : RunState} {fault : EngineFault} (h : s.Stops fault s') :
    s'.graph = s.graph := by
  cases h <;> rfl

/-- Nothing happens to an instance any more whose turns are over. -/
theorem Step.of_isOver {n : Nat} {s s' : RunState} {label : Option Happening}
    (hstep : Step n s label s') (hover : s.IsOver) :
    s' = s ∧ ∀ h, label = some h → h.number? ≠ some n := by
  have hrunning : s.phase ≠ .running := by
    rcases hover with h | h <;> rw [h] <;> exact fun h => nomatch h
  cases hstep with
  | stay hother => exact ⟨rfl, hother⟩
  | begin hphase _ => rcases hover with h | h <;> rw [hphase] at h <;> cases h
  | act hphase _ => exact absurd hphase hrunning
  | reset hphase _ => exact absurd hphase hrunning
  | move hphase _ _ => exact absurd hphase hrunning
  | fault hphase _ _ _ => exact absurd hphase hrunning
  | take hphase _ _ _ => exact absurd hphase hrunning
  | refuse hphase _ _ _ _ _ => exact absurd hphase hrunning
  | lost hphase _ _ _ => exact absurd hphase hrunning
  | finish hphase _ => exact absurd hphase hrunning

/-- The faults between states are those that the machine may meet, and the instance stops. -/
theorem Sound.mayMeet_of_step {n : Nat} {l : TimerLog} {s s' : RunState} {h : Happening}
    {fault : EngineFault} (hsound : s.Sound l) (hstep : Step n s (some h) s')
    (hnumber : h.number? = some n) (hfault : h.fault? = some fault) :
    s.graph.MayMeet fault ∧ s.Stops fault s' := by
  cases hstep with
  | stay hother => exact absurd hnumber (hother h rfl)
  | act _ _ => cases hfault
  | reset _ _ => cases hfault
  | move _ _ _ => cases hfault
  | take _ _ _ _ => cases hfault
  | fault hphase hmoves hfaults hstops =>
      cases hfault
      obtain ⟨state, hstate, rfl, htimer | ⟨count, hmany, hcount, rfl⟩⟩ :=
        hsound.faults_cases hphase hmoves hfaults
      · obtain ⟨timeout, htimeout, hfaults⟩ := htimer
        exact ⟨.timer hstate htimeout hfaults, hstops⟩
      · exact ⟨.nonDeterminism hstate hmany (.inl ⟨rfl, hcount⟩), hstops⟩
  | refuse hphase hmoves hcurrent hmany hcount hstops =>
      cases hfault
      obtain ⟨state, hstate, hactive, -⟩ := hsound.active_of_moves_eq_nil hphase hmoves
      obtain rfl : state = _ := Option.some.inj (hactive.symm.trans hcurrent)
      exact ⟨.nonDeterminism hstate hmany (.inr hcount), hstops⟩
  | lost hphase hmoves hnone _ =>
      obtain ⟨state, -, hactive, -⟩ := hsound.active_of_moves_eq_nil hphase hmoves
      rw [hnone] at hactive
      cases hactive

end RunState

end Statechart
