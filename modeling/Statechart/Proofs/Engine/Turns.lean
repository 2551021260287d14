import Statechart.Proofs.Engine.Frame

/-!
# What turns do to a world

A part of a turn first does something, a command or taking an event, and then the turn goes on or is
over, in one of a few ways.

- `World.Works`           : what is done
- `World.Closes`          : how the turn goes on, or why it is over
- `World.finish_frame`    : the end of an instance
- `World.resume_cases`    : a part of a turn
- `World.beginTurn_cases` : the beginning of a turn
-/

namespace Statechart

namespace World

variable {w v : World} {n : Nat} {work : List Command}

/-- What a command publishes. -/
def commandSightings (w : World) : Command → List Sighting
  | .act site action => w.actionSightings site action
  | .move _ => []

/-- What the turn of an instance does before it goes on or is over. Faults are told. -/
inductive Works (n : Nat) (work : List Command) (w : World) : World → Prop where
  | rest : work = [] → Works n work w w
  | act {site : Site} {action : Action} {rest : List Command} : work = .act site action :: rest →
      Works n work w (worldActor.execute w site action).1
  | move {step : Move} {rest : List Command} : work = .move step :: rest →
      Works n work w ((instanceMachine n).executeMove w step).1
  | take {i : Instance} {e : Event} {events : List Event} : work = [] → w.instance? n = some i →
      i.inbox = e :: events →
        Works n work w ((w.mapInstance n fun i => { i with inbox := events }).react n e).1
  | tell {v : World} (told : List Remark) : Works n work w v → Works n work w (v.remarks told)

/-- How the turn of an instance goes on, or why it is over. -/
inductive Closes (n : Nat) (w : World) : World → Prop where
  | goes (work : List Command) (isStarting : Bool) :
      Closes n w { w with current := some ⟨n, work, isStarting⟩ }
  /-- The instance waits, and has no reason to stop. -/
  | parks {i : Instance} : w.instance? n = some i → w.stopReason? i = none →
      Closes n w { w.mapInstance n (fun i => { i with isParked := true }) with current := none }
  | strands : Closes n w (w.strand n)
  | finishes (result : Except EngineFault Outcome) : Closes n w (w.finish n result)
  | leaves : w.instance? n = none → Closes n w { w with current := none }

/-- An instance ends, those nested in it are woken, and nothing is left of it on the bus. -/
theorem finish_frame {i : Instance} (hi : w.instance? n = some i)
    (result : Except EngineFault Outcome) :
    ∃ u, Delivers ((((w.remark (endRemark n result)).stopTimers (.numbered n)).cancelTasks
        (.numbered n)).mapInstance n fun i =>
          { i with phase := .ended, isParked := false, isRegistered := false }) [] u ∧
      w.finish n result = { u with bus := detach w.bus n i.graph.events, current := none } := by
  simp only [finish, hi]
  generalize hended : ((((w.remark (endRemark n result)).stopTimers (.numbered n)).cancelTasks
    (.numbered n)).mapInstance n fun i =>
      { i with phase := .ended, isParked := false, isRegistered := false }) = v
  have hwoken := Delivers.foldl (fun u n => .wake n .refl) v (v.children n)
  refine ⟨_, hwoken, ?_⟩
  -- waking publishes nothing, so that the bus may be left before or after it
  have hbus : ((v.children n).foldl wake v).bus = w.bus := by
    obtain ⟨_, _, _, _, hframe, -⟩ := hwoken.frame
    rw [hframe, Bus.publishAll_nil, ← hended]
    rfl
  rw [hbus]

theorem remarks_nil (w : World) : w.remarks [] = w := by
  rw [remarks, List.append_nil]

/-- After a fault the instance is stranded, has ended, or goes on. -/
theorem fail_cases (w : World) (t : Turn) (fault : EngineFault) :
    ∃ told, Closes t.number (w.remarks told) (w.fail t fault) := by
  unfold fail
  -- a delay without end, any other fatal fault, and one that is only told
  split
  · exact ⟨[], (remarks_nil w).symm ▸ .strands⟩
  · split
    · exact ⟨[], (remarks_nil w).symm ▸ .finishes _⟩
    · exact ⟨_, .goes [] false⟩

theorem handle_cases (w : World) (n : Nat) (e : Event) :
    ∃ told, Closes n ((w.react n e).1.remarks told) (w.handle n e) := by
  unfold handle
  cases w.react n e with
  | mk u result =>
      cases result with
      | ok work => exact ⟨[], (remarks_nil u).symm ▸ .goes work false⟩
      | error fault => exact fail_cases u ⟨n, [], false⟩ fault

/-- The next event is taken, or the instance waits for one. -/
theorem next_cases {i : Instance} (hi : w.instance? n = some i)
    (hgoes : i.inbox = [] → w.stopReason? i = none) :
    ∃ u, Works n [] w u ∧ Closes n u (w.next n i) := by
  unfold next
  split
  · rename_i e events hinbox
    obtain ⟨told, hcloses⟩ := handle_cases (w.mapInstance n fun i => { i with inbox := events }) n e
    exact ⟨_, .tell told (.take rfl hi hinbox), hcloses⟩
  · rename_i hempty
    exact ⟨w, .rest rfl, .parks hi (hgoes hempty)⟩

/-- A part of a turn does something, and then the turn goes on or is over. -/
theorem resume_cases (w : World) (t : Turn) :
    ∃ u, Works t.number t.work w u ∧ Closes t.number u (w.resume t) := by
  unfold resume
  cases hwork : t.work with
  | cons c rest =>
      have hdone : Works t.number (c :: rest) w ((instanceMachine t.number).execute w c).1 := by
        cases c with
        | act site action => exact .act rfl
        | move step => exact .move rfl
      rw [← advance_fst w t.number c rest] at hdone
      simp only
      cases hadvance : (instanceMachine t.number).advance w c rest with
      | mk u result =>
          rw [hadvance] at hdone
          cases result with
          | ok work => exact ⟨u, hdone, .goes work t.isStarting⟩
          | error fault =>
              -- what is told of the fault is the last thing that is done
              obtain ⟨told, hcloses⟩ := fail_cases u t fault
              exact ⟨_, .tell told hdone, hcloses⟩
  | nil =>
      simp only
      cases hi : w.instance? t.number with
      | none => exact ⟨w, .rest rfl, .leaves hi⟩
      | some i =>
          simp only
          cases hstop : w.stopReason? i with
          | some outcome => exact ⟨w, .rest rfl, .finishes _⟩
          | none => exact next_cases hi fun _ => hstop

/-- A turn that begins is the first one of the instance, a later one, or too late. -/
theorem beginTurn_cases (w : World) (n : Nat) :
    (w.beginTurn n = w ∧ ∀ i, w.instance? n = some i → i.phase = .ended ∨ i.phase = .stuck) ∨
      (∃ i told, w.instance? n = some i ∧ i.phase = .created ∧ w.beginTurn n =
        { (w.remarks told).mapInstance n (fun i =>
            { i with phase := .running, deadline := w.deadline.map fun d => w.clock + d }) with
          current := some ⟨n, [.move (.enterInitial i.graph.initial)], true⟩ }) ∨
      ∃ i u, w.instance? n = some i ∧ i.phase = .running ∧
        Works n [] { w with turns := w.turns + 1 } u ∧ Closes n u (w.beginTurn n) := by
  unfold beginTurn
  cases hi : w.instance? n with
  | none => exact .inl ⟨rfl, fun _ h => nomatch h⟩
  | some i =>
      simp only
      cases hphase : i.phase with
      | created => exact .inr (.inl ⟨i, _, rfl, hphase, rfl⟩)
      | running =>
          refine .inr (.inr ?_)
          simp only
          split
          · -- an event goes first only if there is one
            rename_i hprefers
            have hsome : i.inbox ≠ [] := fun hempty => by simp [hempty] at hprefers
            obtain ⟨u, hworks, hcloses⟩ := next_cases (w := { w with turns := w.turns + 1 }) hi
              fun hempty => absurd hempty hsome
            exact ⟨i, u, rfl, hphase, hworks, hcloses⟩
          · exact ⟨i, _, rfl, hphase, .rest rfl, .goes [] false⟩
      | ended =>
          exact .inl ⟨rfl, fun j hj => .inl (by rw [← Option.some.inj hj]; exact hphase)⟩
      | stuck =>
          exact .inl ⟨rfl, fun j hj => .inr (by rw [← Option.some.inj hj]; exact hphase)⟩

end World

end Statechart
