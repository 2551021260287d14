import Statechart.Engine.Schedule
import Statechart.Proofs.Engine.Building

/-!
# Runs of an engine

From outside an engine is asked for something now and then; on its own it takes steps and lets time
pass. A run is any order of these, and its history tells what happened, the newest first.

- `Request`, `World.serve`  : what an engine may be asked for
- `Happening`               : what a history tells
- `World.Step`              : one step, with what happens in it
- `World.Run`               : any number of steps
- `World.trace`             : `settle` with its history
- `World.run_advance`, `World.run_await` : the clock moves in runs only
- `World.attend`            : a run that serves requests one after the other
-/

namespace Statechart

/-! ## Requests -/

inductive Request where
  | launch (c : Collaboration)
  | spawn (g : Graph) (parent : Option Nat)
  /-- An instance over variables of any kind. -/
  | place (g : Graph) (enclosing : Extent) (parent : Option Nat)
  | offer (p : Party) (e : Event)
  | send (source : Party) (e : Event)
  | cancel (n : Nat)
  | shutDown
  /-- Somebody else writes variables that instances share. -/
  | write (memory : Memory)
  /-- An invocation gets its response from outside. -/
  | respond (id : Nat) (response : Response)

/-- All graphs of the request come from descriptions. -/
def Request.IsBuilt : Request → Prop
  | .launch c => ∀ g ∈ c.machines, ∃ strict, g.IsBuilt strict
  | .spawn g _ => ∃ strict, g.IsBuilt strict
  | .place g _ _ => ∃ strict, g.IsBuilt strict
  | _ => True

namespace World

def serve (w : World) : Request → World
  | .launch c => (w.launch c).1
  | .spawn g parent => (w.spawn g parent).1
  | .place g enclosing parent => w.place g enclosing parent
  | .offer p e => (w.offer p e).1
  | .send source e => (w.send source e).1
  | .cancel n => w.cancel n
  | .shutDown => w.shutDown
  | .write memory => { w with memory }
  | .respond id response => w.respond id response

/-- A request adds new instances at most. -/
theorem serve_grows (w : World) {r : Request} (hr : r.IsBuilt) :
    Grows (fun g => ∃ strict, g.IsBuilt strict) w (w.serve r) := by
  have hnested : ∀ g : Graph, (∃ strict, g.IsBuilt strict) → ∀ inner ∈ g.nested,
      ∃ strict, inner.IsBuilt strict := by
    rintro g ⟨strict, hg⟩ inner hinner
    exact ⟨strict, hg.nested inner hinner⟩
  cases r with
  | launch c => exact launch_grows hnested w hr
  | spawn g parent => exact spawn_grows hnested w parent hr
  | place g enclosing parent => exact place_grows hnested w enclosing parent hr
  | offer p e => exact .of_core (Delivers.offer w p e).core_eq
  | send source e => exact .of_core (Delivers.send w source e).core_eq
  | cancel n => exact .of_core (core_cancel w n)
  | shutDown => exact .of_core (core_shutDown w)
  | write memory => exact .of_core rfl
  | respond id response => exact .of_core (Queues.respond w id response).core_eq

end World

/-! ## Histories -/

inductive Happening where
  | asked (r : Request)
  /-- An instance took an event; the outcome is that of choosing a transition. -/
  | took (number : Nat) (e : Event) (outcome : Except EngineFault Unit)
  /-- An instance executed a command. -/
  | did (number : Nat) (c : Command) (outcome : Except EngineFault Unit)
  /-- A timer raised its event. -/
  | fired (timer : Timer)

/-- Whether it fires in its next step. -/
def Timer.isAwake (t : Timer) : Bool :=
  match t.stage with
  | .awake _ => true
  | _ => false

theorem Timer.exists_of_isAwake {t : Timer} (h : t.isAwake = true) :
    ∃ due, t.stage = .awake due := by
  unfold isAwake at h
  split at h
  · exact ⟨_, ‹_›⟩
  · cases h

/-- The instance that it happened to. -/
def Happening.number? : Happening → Option Nat
  | .asked _ => none
  | .took n _ _ => some n
  | .did n _ _ => some n
  | .fired _ => none

/-- The fault of a happening, but for those of actions, which are passed over. -/
def Happening.fault? : Happening → Option EngineFault
  | .took _ _ (.error fault) => some fault
  | .did _ (.move _) (.error fault) => some fault
  | _ => none

/-- Whether something succeeds. -/
def outcomeOf {α : Type} (result : Except EngineFault α) : Except EngineFault Unit :=
  result.map fun _ => ()

namespace World

/-- The outcome of a command; an action that fails has failed, though it is passed over. -/
def outcome (w : World) (n : Nat) : Command → Except EngineFault Unit
  | .act site action => outcomeOf (w.perform site action).2
  | .move step => outcomeOf ((instanceMachine n).executeMove w step).2

/-- The next event of an instance. -/
def taking? (w : World) (n : Nat) : Option Happening :=
  (w.instance? n).bind fun i =>
    i.inbox.head?.map fun e => .took n e (outcomeOf (w.react n e).2)

/-- What happens in the next step. -/
def happening? (w : World) : Option Happening :=
  match w.current with
  | some t =>
      match t.work with
      | c :: _ => some (.did t.number c (w.outcome t.number c))
      | [] =>
          if (w.instance? t.number).any fun i => (w.stopReason? i).isNone then w.taking? t.number
          else none
  | none =>
      match w.ready with
      | .turn n :: _ =>
          if (w.instance? n).any fun i => i.phase == .running && w.choices.prefersEvent w.turns then
            w.taking? n
          else none
      | .timer id :: _ => ((w.timerById? id).filter (·.isAwake)).map .fired
      | .job _ :: _ => none
      | [] => none

/-! ## Steps -/

/-- Between turns the next task is run. -/
theorem step?_of_ready {w : World} {task : Task} {rest : List Task} (hcurrent : w.current = none)
    (hready : w.ready = task :: rest) : w.step? = some ({ w with ready := rest }.run task) := by
  unfold step?
  split
  · rename_i t hturn
    cases hcurrent.symm.trans hturn
  · split
    · rename_i first others hqueue
      obtain ⟨rfl, rfl⟩ := List.cons.inj (hready.symm.trans hqueue)
      rfl
    · rename_i hqueue
      cases hready.symm.trans hqueue

/-- One step of an engine. It may be asked for something at any time, and time may pass at any
time. -/
inductive Step : World → Option Happening → World → Prop where
  | ask (w : World) (r : Request) : Step w (some (.asked r)) (w.serve r)
  | go {w w' : World} : w.step? = some w' → Step w w.happening? w'
  | jump (w : World) (time : Nat) : Step w none (w.jump time)
  | wait (w : World) (time : Nat) : Step w none { w with clock := max w.clock time }

/-- The worlds that an engine comes to, each with its history, the newest happening first. -/
inductive Run (w₀ : World) : List Happening → World → Prop where
  | start : Run w₀ [] w₀
  | step {hs : List Happening} {label : Option Happening} {w w' : World} :
      Run w₀ hs w → Step w label w' → Run w₀ (label.toList ++ hs) w'

namespace Run

theorem trans {w₀ w₁ w₂ : World} {hs hs' : List Happening} (h : Run w₀ hs w₁)
    (h' : Run w₁ hs' w₂) : Run w₀ (hs' ++ hs) w₂ := by
  induction h' with
  | start => exact h
  | step _ hstep ih =>
      rw [List.append_assoc]
      exact ih.step hstep

theorem single {label : Option Happening} {w w' : World} (h : Step w label w') :
    Run w label.toList w' := by
  simpa using Run.start.step h

/-- A run is divided at each of its happenings. -/
theorem split {w₀ w : World} {newer older : List Happening} {h : Happening}
    (hrun : Run w₀ (newer ++ h :: older) w) :
    ∃ w₁ w₂, Run w₀ older w₁ ∧ Step w₁ (some h) w₂ ∧ Run w₂ newer w := by
  generalize hall : newer ++ h :: older = hs at hrun
  -- a run is divided at its last step, or before it
  induction hrun generalizing newer with
  | start => simp at hall
  | @step hs label v w hbefore hstep ih =>
      cases label with
      | none =>
          obtain ⟨w₁, w₂, hold, hthis, hnew⟩ := ih (by simpa using hall)
          exact ⟨w₁, w₂, hold, hthis, by simpa using hnew.step hstep⟩
      | some last =>
          cases newer with
          | nil =>
              obtain ⟨rfl, rfl⟩ : h = last ∧ older = hs := by simpa using hall
              exact ⟨v, w, hbefore, hstep, .start⟩
          | cons first rest =>
              obtain ⟨rfl, hrest⟩ : first = last ∧ rest ++ h :: older = hs := by simpa using hall
              obtain ⟨w₁, w₂, hold, hthis, hnew⟩ := ih hrest
              exact ⟨w₁, w₂, hold, hthis, hnew.step hstep⟩

end Run

/-! ## Executions are runs -/

/-- Takes steps until nothing is ready, as far as the fuel goes, and tells what happens. -/
def trace : Nat → World → List Happening × World
  | 0, w => ([], w)
  | fuel + 1, w =>
      match w.step? with
      | some v => ((trace fuel v).1 ++ w.happening?.toList, (trace fuel v).2)
      | none => ([], w)

theorem trace_eq_settle (fuel : Nat) (w : World) : (trace fuel w).2 = settle fuel w := by
  induction fuel generalizing w with
  | zero => rfl
  | succ fuel ih =>
      simp only [trace, settle]
      cases w.step? with
      | some v => exact ih v
      | none => rfl

theorem run_trace (fuel : Nat) (w : World) : Run w (trace fuel w).1 (trace fuel w).2 := by
  induction fuel generalizing w with
  | zero => exact .start
  | succ fuel ih =>
      simp only [trace]
      split
      · rename_i v hstep
        exact (Run.single (.go hstep)).trans (ih v)
      · exact .start

theorem run_settle (fuel : Nat) (w : World) : ∃ hs, Run w hs (settle fuel w) :=
  ⟨_, trace_eq_settle fuel w ▸ run_trace fuel w⟩

theorem run_runUntil (fuel jumps target : Nat) (w : World) :
    ∃ hs, Run w hs (runUntil fuel jumps target w) := by
  induction jumps generalizing w with
  | zero => exact ⟨[], .start⟩
  | succ jumps ih =>
      obtain ⟨hs, hsettle⟩ := run_settle fuel w
      simp only [runUntil]
      split
      · exact ⟨_, hsettle.step (.wait _ target)⟩
      · rename_i due _
        split
        · obtain ⟨hs', hlater⟩ := ih ((settle fuel w).jump due)
          exact ⟨_, (hsettle.step (.jump _ due)).trans hlater⟩
        · exact ⟨_, hsettle.step (.wait _ target)⟩

theorem run_advance (fuel : Nat) (w : World) (nanos : Nat) :
    ∃ hs, Run w hs (w.advance fuel nanos) :=
  run_runUntil fuel fuel (w.clock + nanos) w

theorem run_awaitUntil (fuel jumps : Nat) (target : Option Nat) (w : World) :
    ∃ hs, Run w hs (awaitUntil fuel jumps target w).1 := by
  induction jumps generalizing w with
  | zero => exact ⟨[], .start⟩
  | succ jumps ih =>
      obtain ⟨hs, hsettle⟩ := run_settle fuel w
      simp only [awaitUntil]
      split
      · exact ⟨hs, hsettle⟩
      · split
        · exact ⟨_, hsettle.step (.wait _ _)⟩
        · rename_i due _
          split
          · obtain ⟨hs', hlater⟩ := ih ((settle fuel w).jump due)
            exact ⟨_, (hsettle.step (.jump _ due)).trans hlater⟩
          · exact ⟨_, hsettle.step (.wait _ _)⟩

theorem run_await (fuel : Nat) (w : World) (nanos : Option Nat) :
    ∃ hs, Run w hs (w.await fuel nanos).1 :=
  run_awaitUntil fuel fuel (nanos.map fun n => w.clock + n) w

/-! ## Sessions -/

theorem taking?_eq_some {w : World} {n : Nat} {h : Happening} (htaking : w.taking? n = some h) :
    ∃ e outcome, h = .took n e outcome := by
  obtain ⟨i, -, htaking⟩ := Option.bind_eq_some_iff.1 htaking
  obtain ⟨e, -, rfl⟩ := Option.map_eq_some_iff.1 htaking
  exact ⟨e, _, rfl⟩

/-- What happens in a step of its own: a command of a turn, an event is taken, or a timer fires. -/
theorem happening?_cases {w : World} {h : Happening} (hh : w.happening? = some h) :
    (∃ t c rest, w.current = some t ∧ t.work = c :: rest ∧
      h = .did t.number c (w.outcome t.number c)) ∨
    (∃ n e outcome, h = .took n e outcome) ∨
    (∃ id rest timer, w.current = none ∧ w.ready = .timer id :: rest ∧
      w.timerById? id = some timer ∧ timer.isAwake = true ∧ h = .fired timer) := by
  unfold happening? at hh
  split at hh
  · rename_i t hcurrent
    split at hh
    · rename_i c rest hwork
      cases hh
      exact .inl ⟨t, c, rest, hcurrent, hwork, rfl⟩
    · split at hh
      · exact .inr (.inl ⟨t.number, taking?_eq_some hh⟩)
      · cases hh
  · rename_i hcurrent
    split at hh
    · rename_i n rest _
      split at hh
      · exact .inr (.inl ⟨n, taking?_eq_some hh⟩)
      · cases hh
    · rename_i id rest hready
      obtain ⟨timer, hfound, rfl⟩ := Option.map_eq_some_iff.1 hh
      obtain ⟨htimer, hawake⟩ := Option.filter_eq_some_iff.1 hfound
      exact .inr (.inr ⟨id, rest, timer, hcurrent, hready, htimer, hawake, rfl⟩)
    · cases hh
    · cases hh

theorem runTimer_of_isAwake {w : World} {id : Nat} {timer : Timer}
    (h : w.timerById? id = some timer) (hawake : timer.isAwake = true) :
    w.runTimer id = fire burst w id := by
  obtain ⟨due, hdue⟩ := timer.exists_of_isAwake hawake
  simp only [runTimer, h, hdue]

/-- An engine asks itself for nothing. -/
theorem happening?_ne_asked (w : World) (r : Request) : w.happening? ≠ some (.asked r) := by
  intro h
  rcases happening?_cases h with ⟨t, c, rest, -, -, hdid⟩ | ⟨n, e, outcome, htook⟩ |
    ⟨id, rest, timer, -, -, -, -, hfired⟩
  · cases hdid
  · cases htook
  · cases hfired

theorem Step.eq_serve {w v : World} {r : Request} (h : Step w (some (.asked r)) v) :
    v = w.serve r := by
  generalize hlabel : some (Happening.asked r) = label at h
  cases h with
  | ask r' =>
      cases hlabel
      rfl
  | go _ => exact absurd hlabel.symm (happening?_ne_asked w r)
  | jump time => cases hlabel
  | wait time => cases hlabel

theorem asked_notMem_trace (fuel : Nat) (w : World) (r : Request) :
    .asked r ∉ (trace fuel w).1 := by
  induction fuel generalizing w with
  | zero => exact List.not_mem_nil
  | succ fuel ih =>
      simp only [trace]
      split
      · rename_i v _
        intro h
        rcases List.mem_append.1 h with h | h
        · exact ih v h
        · exact happening?_ne_asked w r (Option.mem_toList.1 h)
      · exact List.not_mem_nil

/-- Serves one request after the other, each until nothing is ready, and tells what happens. -/
def attend (fuel : Nat) (w : World) : List Request → List Happening × World
  | [] => ([], w)
  | r :: rest =>
      let first := trace fuel (w.serve r)
      let later := attend fuel first.2 rest
      (later.1 ++ (first.1 ++ [.asked r]), later.2)

theorem run_attend (fuel : Nat) (w : World) (rs : List Request) :
    Run w (attend fuel w rs).1 (attend fuel w rs).2 := by
  induction rs generalizing w with
  | nil => exact .start
  | cons r rest ih =>
      exact ((Run.single (.ask w r)).trans (run_trace fuel _)).trans (ih _)

theorem mem_of_asked_attend {fuel : Nat} {w : World} {rs : List Request} {r : Request}
    (h : .asked r ∈ (attend fuel w rs).1) : r ∈ rs := by
  induction rs generalizing w with
  | nil => cases h
  | cons first rest ih =>
      rcases List.mem_append.1 h with h | h
      · exact List.mem_cons_of_mem _ (ih h)
      · rcases List.mem_append.1 h with h | h
        · exact absurd h (asked_notMem_trace _ _ _)
        · cases List.mem_singleton.1 h
          exact List.mem_cons_self

/-! ## New worlds -/

/-- A world in which nothing was started yet. -/
structure IsNew (w : World) : Prop where
  instances : w.instances = []
  timers : w.timers = []
  current : w.current = none

theorem engine_isNew (memory : Memory) (root : LayerId) (c : Configuration)
    (services : Registry Float) (choices : Choices) :
    (engine memory root c services choices).IsNew :=
  ⟨rfl, rfl, rfl⟩

end World

/-- Events go before requests to stop. -/
def Choices.eventsFirst : Choices := { Choices.standard with prefersEvent := fun _ => true }

namespace World

/-- A new engine without any variables or services. -/
def bare (choices : Choices := .standard) : World :=
  .engine ⟨[.memory .empty], ⟨⟨"store", true, .empty⟩, .fresh⟩⟩ 0 .standard .empty choices

theorem bare_isNew : bare.IsNew := engine_isNew _ _ _ _ _

end World

end Statechart
