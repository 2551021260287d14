import Statechart.Proofs.Engine.Delays
import Statechart.Proofs.Engine.Invocations
import Statechart.Proofs.Engine.LostTimers

/-!
# Entering a state with timers

Where an instance changes to a state, the timers of the state start in their order. Each has one of
a few fates, by the value of its delay; the first that is refused ends the instance. Only a delay
that the clock cannot show is not refused: it leaves the instance where it is. A timer that has
started waits for its delay from its first step on, unless that would end past all moments.

- `Timeout.Fate`            : the period of a timeout, or why it has none
- `Timeout.Runs`            : a timer that a timeout started
- `World.startTimers_fates` : timers start up to one that is refused
- `World.Enters`            : what comes of the timers of a state
- `World.enters_of_change`  : in every run, of every state that is changed to
-/

namespace Statechart

/-! ## What becomes of a timeout -/

/-- The period of a timeout, or why it has none. -/
inductive Timeout.Fate (t : Timeout) (find : Lookup) : Except EngineFault Nat → Prop where
  /-- The timer starts with the delay, up to rounding. -/
  | starts {n : Number} {period : Nat} : t.delay.evaluate find = .ok (.number n) →
      0 ≤ n.value → n.value < endlessMillis → 0 < period →
      |(period : ℚ) - 10 ^ 6 * n.value| ≤ 1 / 2 + 10 ^ 6 * n.value / 2 ^ 50 →
      Fate t find (.ok period)
  | unknown {fault : EvaluationFault} :
      t.delay.evaluate find = .error (.evaluation t.delay.source fault) →
      Fate t find (.error (.model (.evaluation t.delay.source fault)))
  | notANumber {v : Value} : t.delay.evaluate find = .ok v → (∀ n, v ≠ .number n) →
      Fate t find (.error (.invalidTimer t.name (.notANumber v)))
  | negative {n : Number} : t.delay.evaluate find = .ok (.number n) → n.value < 0 →
      Fate t find (.error (.invalidTimer t.name (.outOfRange n.toFloat)))
  /-- The delay is rounded to nothing. -/
  | nothing {n : Number} : t.delay.evaluate find = .ok (.number n) → 0 ≤ n.value →
      10 ^ 6 * n.value < 1 → Fate t find (.error (.invalidTimer t.name .zeroDelay))
  /-- The delay is beyond what the clock can show. -/
  | endless {x : Float} {hx : x.isFinite = true} :
      t.delay.evaluate find = .ok (.number (.real x hx)) →
      endlessMillis ≤ (Number.real x hx).value →
      Fate t find (.error (.endlessDelay t.name))

namespace Timeout

variable {t : Timeout} {find : Lookup}

theorem fate_of_period_error {fault : EngineFault} (h : t.period find = .error fault) :
    t.Fate find (.error fault) := by
  unfold Timeout.period at h
  cases hvalue : t.delay.evaluate find with
  | error fault' =>
      rw [hvalue] at h
      cases h
      have hsource := hvalue
      unfold Expression.evaluate at hsource
      split at hsource
      · cases hsource
      · cases hsource
        exact .unknown hvalue
  | ok v =>
      rw [hvalue] at h
      replace h : delayNanos t.name v = .error fault := h
      cases v with
      | number n =>
          rw [delayNanos_number] at h
          split at h
          · cases h
            exact .negative hvalue ‹_›
          · split at h
            · cases h
            · cases h
              have hlong := not_lt.1 ‹¬ n.value < endlessMillis›
              cases n with
              | real x hx => exact .endless hvalue hlong
              | whole k hk => exact absurd (Number.value_whole_lt_endless hk) (not_lt.2 hlong)
      | _ =>
          cases h
          exact .notANumber hvalue fun n => by simp

/-- A period that is nothing does not let a timer start. -/
theorem fate_of_period {period : Nat} (h : t.period find = .ok period) :
    t.Fate find (if period = 0 then .error (.invalidTimer t.name .zeroDelay) else .ok period) := by
  unfold Timeout.period at h
  cases hvalue : t.delay.evaluate find with
  | error fault' =>
      rw [hvalue] at h
      cases h
  | ok v =>
      rw [hvalue] at h
      replace h : delayNanos t.name v = .ok period := h
      cases v with
      | number n =>
          rw [delayNanos_number] at h
          split at h
          · cases h
          · split at h
            · cases h
              have hn := not_lt.1 ‹¬ n.value < 0›
              have hclose := (n.abs_period_sub_le hn ‹_›).2
              split
              · rename_i hzero
                refine .nothing hvalue hn ?_
                rw [hzero] at hclose
                have := (abs_le.1 hclose).1
                push_cast at this
                linarith
              · exact .starts hvalue hn ‹_› (Nat.pos_of_ne_zero ‹_›) hclose
            · cases h
      | _ => cases h

end Timeout

/-! ## Starting timers -/

/-- A timer that a timeout started; its first step is still to come. -/
structure Timeout.Runs (t : Timeout) (owner : Party) (find : Lookup) (timer : Timer) : Prop where
  owner : timer.owner = owner
  name : timer.name = t.name
  event : timer.event = t.event
  stage : timer.stage = .fresh
  fate : t.Fate find (.ok timer.period)

namespace World

/-- The timeout after those in front is refused. -/
def RefusedAfter (find : Lookup) (timeouts front : List Timeout) (fault : EngineFault) : Prop :=
  ∃ t back, timeouts = front ++ t :: back ∧
    (t.Fate find (.error fault) ∨ fault = .duplicateTimer t.name)

theorem RefusedAfter.cons {find : Lookup} {timeouts front : List Timeout} {fault : EngineFault}
    (h : RefusedAfter find timeouts front fault) (t : Timeout) :
    RefusedAfter find (t :: timeouts) (t :: front) fault := by
  obtain ⟨refused, back, rfl, hwhy⟩ := h
  exact ⟨refused, back, rfl, hwhy⟩

/-- Timers of a state start in their order, up to one that does not; their tasks are queued. -/
theorem startTimers_fates {site : Site} {w v : World} {timeouts : List Timeout}
    {outcome : Except EngineFault Unit} (h : startTimers site w timeouts = (v, outcome)) :
    ∃ front started, v.timers = w.timers ++ started ∧
      v.ready = w.ready ++ started.map (fun timer => .timer timer.id) ∧
      List.Forall₂ (fun t timer => t.Runs site.owner (site.extent.lookup w.memory) timer)
        front started ∧
      (front = timeouts ∧ outcome = .ok () ∨
        ∃ fault, outcome = .error fault ∧
          RefusedAfter (site.extent.lookup w.memory) timeouts front fault) := by
  induction timeouts generalizing w with
  | nil =>
      cases h
      exact ⟨[], [], by simp, by simp, .nil, .inl ⟨rfl, rfl⟩⟩
  | cons t rest ih =>
      have hnone : w.timers = w.timers ++ [] := (List.append_nil _).symm
      have hidle : w.ready = w.ready ++ [] := (List.append_nil _).symm
      simp only [startTimers] at h
      cases hperiod : t.period (site.extent.lookup w.memory) with
      | error fault =>
          rw [hperiod] at h
          cases h
          exact ⟨[], [], hnone, hidle, .nil,
            .inr ⟨fault, rfl, t, rest, rfl, .inl (Timeout.fate_of_period_error hperiod)⟩⟩
      | ok period =>
          have hfate := Timeout.fate_of_period hperiod
          rw [hperiod] at h
          simp only [startTimer_raise] at h
          split at hfate
          · rename_i hzero
            rw [if_pos hzero] at h
            cases h
            exact ⟨[], [], hnone, hidle, .nil, .inr ⟨_, rfl, t, rest, rfl, .inl hfate⟩⟩
          · rename_i hpos
            rw [if_neg hpos] at h
            by_cases hrunning : (w.timer? site.owner t.name).isSome = true
            · rw [if_pos hrunning] at h
              cases h
              exact ⟨[], [], hnone, hidle, .nil, .inr ⟨_, rfl, t, rest, rfl, .inr rfl⟩⟩
            · rw [if_neg hrunning] at h
              obtain ⟨front, started, htimers, hready, hruns, hend⟩ := ih h
              refine ⟨t :: front, w.newTimer site t.name period t.event :: started, ?_, ?_,
                .cons ⟨rfl, rfl, rfl, rfl, hfate⟩ hruns, ?_⟩
              · rw [htimers]
                simp
              · rw [hready]
                simp [newTimer]
              · rcases hend with ⟨rfl, hok⟩ | ⟨fault, herror, hrefused⟩
                · exact .inl ⟨rfl, hok⟩
                · exact .inr ⟨fault, herror, hrefused.cons t⟩

/-- The timers of an instance. -/
def timersOf (w : World) (n : Nat) : List Timer := w.timers.filter fun t => t.owner == .numbered n

theorem timersOf_eq_nil_iff {w : World} {n : Nat} :
    w.timersOf n = [] ↔ w.status.keysOf (.numbered n) = [] := by
  have hkeys : w.status.keysOf (.numbered n) = (w.timersOf n).map Timer.key := by
    simp only [Status.keysOf, status, timersOf, List.filter_map]
    rfl
  rw [hkeys, List.map_eq_nil_iff]

/-- A change to a state: its timers first, and then the transition that follows. -/
theorem change_cases {w v : World} {n : Nat} {state : State} {outcome : Except EngineFault Unit}
    (h : Step w (some (.did n (.move (.change state)) outcome)) v) :
    ∃ front started,
      List.Forall₂ (fun t timer =>
        t.Runs (.numbered n) ((w.stateExtent n state).lookup w.memory) timer) front started ∧
      (front = state.after ∧
          (outcome = .ok () ∧ v.timers = w.timers ++ started ∧
              v.ready = w.ready ++ started.map (fun timer => .timer timer.id) ∨
            ∃ count, outcome = .error (.nonDeterminism state.name "always" count)) ∨
        ∃ fault, outcome = .error fault ∧
          RefusedAfter ((w.stateExtent n state).lookup w.memory) state.after front fault) := by
  obtain ⟨t, rest, -, rfl, hwork, rfl, rfl⟩ := did_cases h
  cases hstart : startTimers (w.stateSite t.number state) w state.after with
  | mk u started =>
      have hmachine : (instanceMachine t.number).startTimers w state = (u, started) := hstart
      obtain ⟨front, timers, htimers, hready, hruns, hend⟩ := startTimers_fates hstart
      refine ⟨front, timers, hruns, ?_⟩
      rcases hend with ⟨hfront, rfl⟩ | ⟨fault, rfl, hrefused⟩
      · refine .inl ⟨hfront, ?_⟩
        cases hselect : (instanceMachine t.number).selectAlways
            ((instanceMachine t.number).setActive u state) state with
        | mk x result =>
            obtain ⟨hx, hresult⟩ := Prod.mk.inj hselect
            cases result with
            | error fault =>
                obtain ⟨count, -, -, rfl⟩ := selectTransition_error hresult
                refine .inr ⟨count, ?_⟩
                simp only [World.outcome, Machine.executeMove, hmachine, hselect]
                rfl
            | ok follow =>
                -- making a state active and choosing what follows leave the timers alone
                have hsame : x.timers = u.timers ∧ x.ready = u.ready := by
                  rw [← hx]
                  exact ⟨rfl, rfl⟩
                refine .inl ?_
                cases follow <;>
                  simp only [World.outcome, resume, hwork, Machine.advance, Machine.execute,
                    Machine.executeMove, hmachine, hselect] <;>
                  exact ⟨rfl, hsame.1.trans htimers, hsame.2.trans hready⟩
      · refine .inr ⟨fault, ?_, hrefused⟩
        simp only [World.outcome, Machine.executeMove, hmachine]
        rfl

/-! ## Entering a state -/

/-- What comes of the timers of a state that an instance changes to. -/
inductive Enters (find : Lookup) (n : Nat) (state : State) (i : Instance) (w' : World) :
    Except EngineFault Unit → Prop where
  /-- The timers of the state run, and no others of the instance. Their tasks are queued. -/
  | running : i.phase = .running →
      List.Forall₂ (fun t timer => t.Runs (.numbered n) find timer) state.after (w'.timersOf n) →
      (∀ timer ∈ w'.timersOf n, .timer timer.id ∈ w'.ready) →
      Enters find n state i w' (.ok ())
  /-- All timers start, but several transitions may follow; that ends the instance. -/
  | several {count : Nat} : i.phase = .ended → w'.timersOf n = [] →
      (∀ t ∈ state.after, ∃ period, t.Fate find (.ok period)) →
      Enters find n state i w' (.error (.nonDeterminism state.name "always" count))
  /-- A timer is refused after those before it; that ends the instance. -/
  | refused {front back : List Timeout} {t : Timeout} {fault : EngineFault} : i.phase = .ended →
      w'.timersOf n = [] → state.after = front ++ t :: back →
      (∀ s ∈ front, ∃ period, s.Fate find (.ok period)) → t.Fate find (.error fault) →
      (∀ name, fault ≠ .endlessDelay name) → Enters find n state i w' (.error fault)
  /-- A delay is beyond what the clock can show; that leaves the instance where it is. -/
  | stranded {front back : List Timeout} {t : Timeout} : i.phase = .stuck →
      state.after = front ++ t :: back → (∀ s ∈ front, ∃ period, s.Fate find (.ok period)) →
      t.Fate find (.error (.endlessDelay t.name)) →
      Enters find n state i w' (.error (.endlessDelay t.name))

section Runs

variable {n : Nat} {find : Lookup} {front : List Timeout} {started : List Timer}

theorem exists_fate_of_runs
    (h : List.Forall₂ (fun t timer => t.Runs (.numbered n) find timer) front started) :
    ∀ s ∈ front, ∃ period, s.Fate find (.ok period) := by
  induction h with
  | nil => exact fun s hs => absurd hs List.not_mem_nil
  | cons hruns _ ih =>
      intro s hs
      rcases List.mem_cons.1 hs with rfl | hs
      · exact ⟨_, hruns.fate⟩
      · exact ih s hs

theorem owner_of_runs
    (h : List.Forall₂ (fun t timer => t.Runs (.numbered n) find timer) front started) :
    ∀ timer ∈ started, timer.owner = .numbered n := by
  induction h with
  | nil => exact fun timer htimer => absurd htimer List.not_mem_nil
  | cons hruns _ ih =>
      intro timer htimer
      rcases List.mem_cons.1 htimer with rfl | htimer
      · exact hruns.owner
      · exact ih timer htimer

theorem timersOf_of_runs {w w' : World} (hnone : w.timersOf n = [])
    (htimers : w'.timers = w.timers ++ started)
    (h : List.Forall₂ (fun t timer => t.Runs (.numbered n) find timer) front started) :
    w'.timersOf n = started := by
  rw [timersOf, htimers, List.filter_append, ← timersOf, hnone, List.nil_append,
    List.filter_eq_self]
  exact fun timer htimer => beq_iff_eq.2 (owner_of_runs h timer htimer)

end Runs

/-- Where an instance stands its timers are those that it has. -/
theorem timersOf_eq_nil_of_runState {w : World} {n : Nat} {a : RunState}
    (ha : w.status.runState? n = some a) (hnone : a.timers = []) : w.timersOf n = [] := by
  obtain ⟨c, -, rfl⟩ := Option.map_eq_some_iff.1 ha
  exact timersOf_eq_nil_iff.2 hnone

end World

/-- A change to a state is next only while no timer of the instance runs. -/
theorem RunState.Sound.timers_of_change {l : TimerLog} {s : RunState} {state : State}
    {rest : List Move} (h : s.Sound l) (hmoves : s.moves = .change state :: rest) :
    s.timers = [] := by
  cases h.stage with
  | new hnew => exact hnew.timers
  | starting _ hnone => exact hnone
  | entering _ hnone => exact hnone
  | changing _ hnone => exact hnone
  | ended _ hnone => exact hnone
  | stuck _ _ hnone => rw [hnone] at hmoves; cases hmoves
  | active _ _ _ _ _ hthis =>
      rcases hthis with hnone | ⟨t, ht, -⟩ | ⟨next, -, hleaving⟩
      · rw [hnone] at hmoves; cases hmoves
      · rw [ht] at hmoves; cases hmoves
      · rw [hleaving] at hmoves; cases hmoves

namespace World

/-- The timers of a state, and what becomes of the instance. -/
theorem exists_enters {w₀ w w' : World} {hs : List Happening} {n : Nat} {state : State}
    {outcome : Except EngineFault Unit} (hnew : w₀.IsNew)
    (hbuilt : ∀ r, .asked r ∈ hs → r.IsBuilt) (hrun : Run w₀ hs w)
    (hstep : Step w (some (.did n (.move (.change state)) outcome)) w') :
    ∃ i, w'.instance? n = some i ∧
      Enters ((w.stateExtent n state).lookup w.memory) n state i w' outcome := by
  have hadvances := hstep.advances (hrun.isTidy hnew.isTidy hbuilt) fun r hr => by cases hr
  obtain ⟨a, ha⟩ := Option.isSome_iff_exists.1 (hadvances.known n _ rfl rfl)
  obtain ⟨b, hb, hnext⟩ := hadvances.runState n a ha
  have hsound := hrun.sound hnew hbuilt ha
  obtain ⟨i, hi, -, hphase⟩ := exists_instance hb
  obtain ⟨front, started, hruns, hend⟩ := change_cases hstep
  refine ⟨i, hi, ?_⟩
  cases outcome with
  | ok _ =>
      rcases hend with ⟨rfl, ⟨-, htimers, hready⟩ | ⟨count, hcount⟩⟩ | ⟨fault, hfault, -⟩
      · cases hnext with
        | stay hother => exact absurd rfl (hother _ rfl)
        | move hrunning hmoves hmove =>
            have hnone := timersOf_eq_nil_of_runState ha (hsound.timers_of_change hmoves)
            cases hmove with
            | change _ _ =>
                have hown := timersOf_of_runs hnone htimers hruns
                refine .running (hphase.trans hrunning) (by rwa [hown]) fun timer htimer => ?_
                rw [hready]
                exact List.mem_append_right _ (List.mem_map.2 ⟨timer, hown ▸ htimer, rfl⟩)
      · cases hcount
      · cases hfault
  | error fault =>
      obtain ⟨hmeets, hstops⟩ := hsound.mayMeet_of_step hnext rfl rfl
      have hfates := exists_fate_of_runs hruns
      -- no timer is in the way of another, so that the fault is that of the timeout itself
      have hend : (front = state.after ∧
            ∃ count, fault = .nonDeterminism state.name "always" count) ∨
          ∃ t back, state.after = front ++ t :: back ∧
            t.Fate ((w.stateExtent n state).lookup w.memory) (.error fault) := by
        rcases hend with ⟨hfront, ⟨hok, -⟩ | ⟨count, hcount⟩⟩ |
          ⟨fault', hfault, t, back, hall, hwhy⟩
        · cases hok
        · cases hcount
          exact .inl ⟨hfront, count, rfl⟩
        · cases hfault
          exact .inr ⟨t, back, hall, hwhy.resolve_right (hmeets.ne.2.2 _)⟩
      cases hstops with
      | ends active hfatal hends =>
          have hnone : w'.timersOf n = [] := timersOf_eq_nil_of_runState hb rfl
          rcases hend with ⟨rfl, count, rfl⟩ | ⟨t, back, hall, hfate⟩
          · exact .several hphase hnone hfates
          · exact .refused hphase hnone hall hfates hfate hends
      | strands name active timers hname =>
          subst hname
          rcases hend with ⟨-, count, hcount⟩ | ⟨t, back, hall, hfate⟩
          · cases hcount
          · obtain rfl : t.name = name := by
              cases hfate
              rfl
            exact .stranded hphase hall hfates hfate

/-- Whatever values the delays of a state have, all its timers start, each with its delay, or the
first that cannot is refused, and the instance ends. The exceptions are delays of `2 ^ 64` seconds
and more, which are real numbers: they strand the instance. Whenever the first step of a timer
comes, the timer waits for its delay from then on, if that ends before the horizon; else it is lost.
A timer that is lost never fires. -/
theorem enters_of_change {w₀ w w' : World} {hs : List Happening} {n : Nat} {state : State}
    {outcome : Except EngineFault Unit} (hnew : w₀.IsNew)
    (hbuilt : ∀ r, .asked r ∈ hs → r.IsBuilt) (hrun : Run w₀ hs w)
    (hstep : Step w (some (.did n (.move (.change state)) outcome)) w') :
    (∃ i, w'.instance? n = some i ∧
      Enters ((w.stateExtent n state).lookup w.memory) n state i w' outcome) ∧
    ∀ later v, Run w' later v → (∀ r, .asked r ∈ later → r.IsBuilt) →
      (∀ timer rest, v.timerById? timer.id = some timer → timer.stage = .fresh →
        v.current = none → v.ready = .timer timer.id :: rest →
        ∃ v', v.step? = some v' ∧
          (v.clock + timer.period < v.choices.horizon → v'.timerById? timer.id =
            some { timer with stage := .asleep (v.clock + timer.period) }) ∧
          (v.choices.horizon ≤ v.clock + timer.period →
            v'.timerById? timer.id = some { timer with stage := .lost })) ∧
      ∀ timer ∈ v.timers, timer.stage = .lost → ∀ more u, Run v more u →
        (∀ r, .asked r ∈ more → r.IsBuilt) → ∀ fired, .fired fired ∈ more →
          fired.id ≠ timer.id := by
  refine ⟨exists_enters hnew hbuilt hrun hstep, fun later v hlater hlaterBuilt => ⟨?_, ?_⟩⟩
  · intro timer rest htimer hfresh hcurrent hready
    obtain ⟨v', hgo, hbegun⟩ := begins_of_fresh hcurrent hready htimer hfresh
    refine ⟨v', hgo, fun hsoon => ?_, fun hlate => ?_⟩
    · rw [hbegun, begun, if_pos hsoon]
    · rw [hbegun, begun, if_neg (Nat.not_lt.2 hlate)]
  · intro timer htimer hlost more u hmore hmoreBuilt fired hfired
    have htidy := (hstep.advances (hrun.isTidy hnew.isTidy hbuilt) fun r hr => by cases hr).tidy
    exact hmore.ne_of_lost (hlater.isTidy htidy hlaterBuilt) hmoreBuilt htimer hlost hfired

/-! ### A trial -/

/-- A machine with one state that a timer runs in. -/
def ticking (delay : Value) : Description.Graph :=
  { name := "clock", isAbstract := false, locals := [], nested := []
    states :=
      [{ name := "wound", isInitial := true, isTerminal := false, entry := [], exit := []
         during := [], after := [.timeout "tick" delay (.raise ⟨"tick", .internal, []⟩)]
         on := [], always := [], locals := [] }] }

/-- A delay of `10 ^ 300` milliseconds. -/
def eternity : Value := .number (.real 1e300 (by decide +kernel))

/-- The state that the first instance changes to, if that meets no fault. -/
def enteredBy? : Happening → Option State
  | .did 0 (.move (.change state)) (.ok ()) => some state
  | _ => none

theorem enteredBy?_eq_some {h : Happening} {state : State} (hh : enteredBy? h = some state) :
    h = .did 0 (.move (.change state)) (.ok ()) := by
  unfold enteredBy? at hh
  split at hh
  · cases hh
    rfl
  · cases hh

/-- Whether the first instance changes to a state with a delay beyond the clock. -/
def isStranding : Happening → Bool
  | .did 0 (.move (.change _)) (.error (.endlessDelay _)) => true
  | _ => false

theorem exists_of_isStranding {h : Happening} (hh : isStranding h = true) :
    ∃ state name, h = .did 0 (.move (.change state)) (.error (.endlessDelay name)) := by
  unfold isStranding at hh
  split at hh
  · exact ⟨_, _, rfl⟩
  · cases hh

def quarter : List Request :=
  [.place (.ofBuilt true (ticking (.ofNat 250)) (by decide +kernel)) .empty none]

def forever : List Request :=
  [.place (.ofBuilt true (ticking eternity) (by decide +kernel)) .empty none]

theorem quarter_enters :
    ∃ hs w w' state, Run bare hs w ∧
      Step w (some (.did 0 (.move (.change state)) (.ok ()))) w' ∧ state.name = "wound" ∧
      ∃ i, w'.instance? 0 = some i ∧
        Enters ((w.stateExtent 0 state).lookup w.memory) 0 state i w' (.ok ()) := by
  have hany : (attend 20 bare quarter).1.any
      (fun h => (enteredBy? h).any (·.name == "wound")) = true := by
    decide +kernel
  obtain ⟨h, hmem, hwanted⟩ := List.any_eq_true.1 hany
  obtain ⟨state, hentered, hname⟩ := (Option.any_eq_true _ _).1 hwanted
  obtain rfl := enteredBy?_eq_some hentered
  obtain ⟨newer, older, hsplit⟩ := List.append_of_mem hmem
  have hrun := run_attend 20 bare quarter
  rw [hsplit] at hrun
  obtain ⟨w, w', holder, hstep, -⟩ := hrun.split
  have hbuilt : ∀ r, .asked r ∈ older → r.IsBuilt := by
    intro r hr
    have hr : .asked r ∈ (attend 20 bare quarter).1 := by
      rw [hsplit]
      simp [hr]
    cases List.mem_singleton.1 (mem_of_asked_attend hr)
    exact ⟨true, Graph.ofBuilt_isBuilt true _ _⟩
  obtain ⟨⟨i, hi, henters⟩, -⟩ := enters_of_change bare_isNew hbuilt holder hstep
  exact ⟨older, w, w', state, holder, hstep, beq_iff_eq.1 hname, i, hi, henters⟩

/-- The timer neither starts nor is it refused, and the instance is left where it is. -/
theorem forever_strands :
    ∃ hs w, Run bare hs w ∧ (∀ r, .asked r ∈ hs → r.IsBuilt) ∧
      (∃ state name, .did 0 (.move (.change state)) (.error (.endlessDelay name)) ∈ hs) ∧
      (w.instance? 0).map (·.phase) = some .stuck := by
  refine ⟨_, _, run_attend 20 bare forever, fun r hr => ?_, ?_, by decide +kernel⟩
  · cases List.mem_singleton.1 (mem_of_asked_attend hr)
    exact ⟨true, Graph.ofBuilt_isBuilt true _ _⟩
  · have hany : (attend 20 bare forever).1.any isStranding = true := by decide +kernel
    obtain ⟨h, hmem, hwanted⟩ := List.any_eq_true.1 hany
    obtain ⟨state, name, rfl⟩ := exists_of_isStranding hwanted
    exact ⟨state, name, hmem⟩

end World

end Statechart
