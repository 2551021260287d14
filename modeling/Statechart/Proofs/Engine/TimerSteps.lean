import Mathlib.Data.List.Nodup
import Statechart.Proofs.Engine.TimerMoments
import Statechart.Proofs.Engine.TimerTable

/-!
# Timers and tasks, step by step

The timers of one party are started and removed while tasks run one by one. The clock moves only
when no task is ready, and stops at whatever is due next. A history tells which timers were started,
fired and were removed, and when.

- `TimerStep`, `World.callTimer` : what is asked of the timers, a task that runs, time that passes
- `TimerEvent`, `World.timerEvents` : what happens to timers
- `TimerTable.IsQueued`          : the timers that are to begin or to fire are queued, and no others
- `TimerTable.Keeps`             : every timer that was started fires on time, up to its removal
- `Keeps.add`, `Keeps.remove`, `Keeps.evolve` : timers come, go, and come further
-/

namespace Statechart

/-! ## Steps -/

inductive TimerStep where
  | start (site : Site) (name : String) (millis : Nat) (action : Action)
  | stop (name : String)
  | stopAll
  /-- The next task runs. -/
  | poll
  /-- Time passes, but not beyond what is due. -/
  | pass (nanos : Nat)

namespace World

/-- The clock goes on, as far as something is due. It stands still while anything is ready. -/
def pass (w : World) (nanos : Nat) : World :=
  match w.ready with
  | _ :: _ => w
  | [] =>
      match w.nextDue? with
      | none => { w with clock := w.clock + nanos }
      | some due =>
          if due ≤ w.clock + nanos then w.jump due else { w with clock := w.clock + nanos }

/-- A step with the timers of a party. -/
def callTimer (owner : Party) (w : World) : TimerStep → World × Except EngineFault Unit
  | .start site name millis action =>
      w.startTimer { site with owner } name (millis * milliNanos) action
  | .stop name => w.stopTimer owner name
  | .stopAll => (w.stopTimers owner, .ok ())
  | .poll => (w.step?.getD w, .ok ())
  | .pass nanos => (w.pass nanos, .ok ())

end World

/-! ## Histories -/

/-- What happens to a timer, with the time, and the timer as it was then. -/
inductive TimerEvent where
  | started (time : Nat) (timer : Timer)
  | fired (time : Nat) (timer : Timer)
  | removed (time : Nat) (timer : Timer)

namespace TimerEvent

def timer : TimerEvent → Timer
  | .started _ t => t
  | .fired _ t => t
  | .removed _ t => t

def firing? : TimerEvent → Option Firing
  | .fired time t => some ⟨time, t.site, t.event⟩
  | _ => none

def isStart : TimerEvent → Bool
  | .started _ _ => true
  | _ => false

def isRemoval : TimerEvent → Bool
  | .removed _ _ => true
  | _ => false

/-- The time at which a timer fires. -/
def firedAt (id : Nat) : TimerEvent → Option Nat
  | .fired time t => if t.id = id then some time else none
  | _ => none

end TimerEvent

/-- When a timer has fired. -/
def firedTimes (hs : List TimerEvent) (id : Nat) : List Nat := hs.filterMap (TimerEvent.firedAt id)

/-- All firings of a history. -/
def firingsOf (hs : List TimerEvent) : List Firing := hs.filterMap TimerEvent.firing?

namespace World

/-- The timer that fires in the next step. -/
def nextFiring? (w : World) : Option Timer :=
  match w.ready with
  | .timer id :: _ => (w.timerById? id).filter (·.isAwake)
  | _ => none

/-- A timer is started, unless that is refused. -/
def startEvents (w : World) (site : Site) (name : String) (millis : Nat) :
    Action → Except EngineFault Unit → List TimerEvent
  | .raise event, .ok () =>
      [.started w.clock (w.newTimer site name (millis * milliNanos) event)]
  | _, _ => []

/-- What happens to timers in a step. -/
def timerEvents (owner : Party) (w : World) : TimerStep → List TimerEvent
  | .start site name millis action =>
      w.startEvents { site with owner } name millis action
        (w.callTimer owner (.start site name millis action)).2
  | .stop name => (w.timer? owner name).toList.map (.removed w.clock)
  | .stopAll => (w.timers.filter fun t => t.owner == owner).map (.removed w.clock)
  | .poll => w.nextFiring?.toList.map (.fired w.clock)
  | .pass _ => []

/-- One more step: a history, the newest event first, and the world after it. -/
def recordStep (owner : Party) (run : List TimerEvent × World) (s : TimerStep) :
    List TimerEvent × World :=
  (run.2.timerEvents owner s ++ run.1, (run.2.callTimer owner s).1)

def timerRun (owner : Party) (w₀ : World) (steps : List TimerStep) : List TimerEvent × World :=
  steps.foldl (recordStep owner) ([], w₀)

end World

section Histories

variable {hs events : List TimerEvent} {id : Nat}

theorem firedTimes_append (events hs : List TimerEvent) (id : Nat) :
    firedTimes (events ++ hs) id = firedTimes events id ++ firedTimes hs id :=
  List.filterMap_append

/-- What happens to other timers. -/
theorem firedTimes_of_ne (h : ∀ e ∈ events, e.timer.id ≠ id) : firedTimes events id = [] := by
  refine List.filterMap_eq_nil_iff.2 fun e he => ?_
  cases e with
  | fired time t => exact if_neg (h _ he)
  | _ => rfl

theorem firedTimes_append_of_ne (h : ∀ e ∈ events, e.timer.id ≠ id) :
    firedTimes (events ++ hs) id = firedTimes hs id := by
  rw [firedTimes_append, firedTimes_of_ne h, List.nil_append]

end Histories

/-! ## Queues -/

/-- Whether it is to begin or to fire. -/
def Timer.isReady (t : Timer) : Bool :=
  match t.stage with
  | .fresh => true
  | .awake _ => true
  | _ => false

namespace TimerTable

/-- Timers have identities that were given out, and a timer is queued, once, if it is to begin or to
fire. Tasks of timers that are gone may be left. -/
structure IsQueued (c : TimerTable) : Prop where
  ids : (c.timers.map (·.id)).Nodup
  below : ∀ t ∈ c.timers, t.id < c.fresh
  nodup : c.ready.Nodup
  tasks : ∀ task ∈ c.ready, ∃ id < c.fresh, task = .timer id
  queued : ∀ t ∈ c.timers, .timer t.id ∈ c.ready ↔ t.isReady = true

namespace IsQueued

variable {c : TimerTable} {id : Nat} {rest : List Task}

theorem eq_of_id (h : c.IsQueued) {t u : Timer} (ht : t ∈ c.timers) (hu : u ∈ c.timers)
    (hid : t.id = u.id) : t = u :=
  List.inj_on_of_nodup_map h.ids ht hu hid

/-- A new timer is to begin. -/
theorem add (h : c.IsQueued) {t : Timer} (hid : t.id = c.fresh) (hstage : t.stage = .fresh) :
    IsQueued { c with
      timers := c.timers ++ [t], ready := c.ready ++ [.timer t.id], fresh := c.fresh + 1 } := by
  have hready : t.isReady = true := by rw [Timer.isReady, hstage]
  -- queued tasks have identities that were given out, and this one was not
  have hnew : Task.timer t.id ∉ c.ready := by
    intro hin
    obtain ⟨id, hlt, heq⟩ := h.tasks _ hin
    cases heq
    exact Nat.ne_of_lt hlt hid
  refine {
    ids := ?ids, below := fun u hu => ?below, nodup := ?nodup, tasks := fun task htask => ?tasks
    queued := fun u hu => ?queued }
  case ids =>
    rw [List.map_append]
    refine h.ids.append (List.nodup_singleton _) (List.disjoint_singleton.2 fun hin => ?_)
    obtain ⟨u, hu, heq⟩ := List.mem_map.1 hin
    exact Nat.ne_of_lt (h.below u hu) (heq.trans hid)
  case below =>
    rcases List.mem_append.1 hu with hu | hu
    · exact Nat.lt_succ_of_lt (h.below u hu)
    · rw [List.mem_singleton.1 hu, hid]
      exact Nat.lt_succ_self _
  case nodup =>
    exact h.nodup.append (List.nodup_singleton _) (List.disjoint_singleton.2 hnew)
  case tasks =>
    rcases List.mem_append.1 htask with htask | htask
    · obtain ⟨id, hlt, rfl⟩ := h.tasks task htask
      exact ⟨id, Nat.lt_succ_of_lt hlt, rfl⟩
    · exact ⟨t.id, hid ▸ Nat.lt_succ_self _, List.mem_singleton.1 htask⟩
  case queued =>
    rcases List.mem_append.1 hu with hu | hu
    · have hne : u.id ≠ t.id := hid ▸ Nat.ne_of_lt (h.below u hu)
      simp [← h.queued u hu, hne]
    · rw [List.mem_singleton.1 hu]
      simp [hready]

/-- Some timers are gone, though they may be queued. -/
theorem filter (h : c.IsQueued) (keep : Timer → Bool) :
    IsQueued { c with timers := c.timers.filter keep } :=
  ⟨h.ids.sublist (List.filter_sublist.map _), fun t ht => h.below t (List.mem_filter.1 ht).1,
    h.nodup, h.tasks, fun t ht => h.queued t (List.mem_filter.1 ht).1⟩

/-- The task of a timer runs; if the timer is there, it waits afterwards. -/
theorem run (h : c.IsQueued) (hready : c.ready = .timer id :: rest) {stage : TimerStage}
    (hstage : ∀ t : Timer, ({ t with stage } : Timer).isReady = false) :
    IsQueued { c with
      ready := rest
      timers := c.timers.map fun t => if t.id == id then { t with stage } else t } := by
  have hsame : ∀ t : Timer, (if t.id == id then { t with stage } else t).id = t.id := by
    intro t
    split <;> rfl
  have hnodup := h.nodup
  rw [hready, List.nodup_cons] at hnodup
  refine {
    ids := ?ids, below := fun t ht => ?below, nodup := hnodup.2
    tasks := fun task htask => ?tasks, queued := fun t ht => ?queued }
  case ids =>
    rw [List.map_map]
    exact (List.map_congr_left (g := (·.id)) fun t _ => hsame t) ▸ h.ids
  case below =>
    obtain ⟨u, hu, rfl⟩ := List.mem_map.1 ht
    rw [hsame]
    exact h.below u hu
  case tasks =>
    exact h.tasks task (hready ▸ List.mem_cons_of_mem _ htask)
  case queued =>
    obtain ⟨u, hu, rfl⟩ := List.mem_map.1 ht
    rw [hsame]
    by_cases hid : u.id = id
    · -- nobody is queued twice
      rw [if_pos (beq_iff_eq.2 hid), hstage, hid]
      simp [hnodup.1]
    · have hothers := h.queued u hu
      rw [hready, List.mem_cons, or_iff_right fun heq => hid (Task.timer.inj heq)] at hothers
      rw [if_neg (mt beq_iff_eq.1 hid)]
      exact hothers

end IsQueued

/-! ## On time -/

/-- What becomes of a timer that was started at a time: it runs and has fired on time so far, or it
was removed and had fired on time up to then. -/
inductive Fate (horizon : Nat) (hs : List TimerEvent) (c : TimerTable) (since : Nat) (t : Timer) :
    Prop where
  | runs {u : Timer} {count : Nat} : u ∈ c.timers → u.plain = t →
      firedTimes hs t.id = firingTimes since t.period count →
      u.stage.IsOnTime t.period since horizon c.clock count → Fate horizon hs c since t
  | ended {moment : Nat} {u : Timer} : .removed moment u ∈ hs → u.plain = t →
      FiresUntil since t.period horizon moment u.isAwake (firedTimes hs t.id) →
        Fate horizon hs c since t

/-- Every timer that was started fires on time, up to its removal, after which nothing happens to it
any more. -/
structure Keeps (owner : Party) (horizon : Nat) (hs : List TimerEvent) (c : TimerTable) : Prop where
  queue : c.IsQueued
  timers : ∀ t ∈ c.timers, t.owner = owner ∧
    (∃ millis, 0 < millis ∧ t.period = millis * milliNanos) ∧ ∃ since, .started since t.plain ∈ hs
  known : ∀ e ∈ hs, e.timer.id < c.fresh ∧ ∃ since, .started since e.timer.plain ∈ hs
  unique : hs.Pairwise fun e e' => e.isStart = true → e.timer.id ≠ e'.timer.id
  final : hs.Pairwise fun e e' => e'.isRemoval = true → e.timer.id ≠ e'.timer.id
  gone : ∀ e ∈ hs, e.isRemoval = true → ∀ t ∈ c.timers, t.id ≠ e.timer.id
  fates : ∀ since t, .started since t ∈ hs → Fate horizon hs c since t

namespace Keeps

variable {owner : Party} {horizon : Nat} {hs events : List TimerEvent} {c c' : TimerTable}

theorem start (owner : Party) (horizon clock fresh : Nat) :
    Keeps owner horizon [] ⟨clock, [], [], fresh⟩ where
  queue := ⟨List.nodup_nil, by simp, List.nodup_nil, by simp, by simp⟩
  timers := by simp
  known := by simp
  unique := .nil
  final := .nil
  gone := by simp
  fates := by simp

/-- A timer is started. -/
theorem add (h : c.Keeps owner horizon hs) {t : Timer} (hid : t.id = c.fresh)
    (hstage : t.stage = .fresh) (howner : t.owner = owner) {millis : Nat} (hmillis : 0 < millis)
    (hperiod : t.period = millis * milliNanos) :
    Keeps owner horizon (.started c.clock t :: hs) { c with
      timers := c.timers ++ [t], ready := c.ready ++ [.timer t.id], fresh := c.fresh + 1 } := by
  have hplain : t.plain = t := by rw [Timer.plain, ← hstage]
  have hthere : TimerEvent.started c.clock t.plain ∈ TimerEvent.started c.clock t :: hs := by
    rw [hplain]
    exact List.mem_cons_self
  -- all that happened so far was to timers with smaller identities
  have hnew : ∀ e ∈ hs, t.id ≠ e.timer.id := fun e he => hid ▸ Nat.ne_of_gt (h.known e he).1
  refine {
    queue := h.queue.add hid hstage, timers := fun u hu => ?timers, known := fun e he => ?known
    unique := List.pairwise_cons.2 ⟨fun e he _ => hnew e he, h.unique⟩
    final := List.pairwise_cons.2 ⟨fun e he _ => hnew e he, h.final⟩
    gone := fun e he hremoval u hu => ?gone, fates := fun since u hu => ?fates }
  case timers =>
    rcases List.mem_append.1 hu with hu | hu
    · obtain ⟨hown, hmillis, since, hsince⟩ := h.timers u hu
      exact ⟨hown, hmillis, since, List.mem_cons_of_mem _ hsince⟩
    · rw [List.mem_singleton.1 hu]
      exact ⟨howner, ⟨millis, hmillis, hperiod⟩, c.clock, hthere⟩
  case known =>
    rcases List.mem_cons.1 he with rfl | he
    · exact ⟨hid ▸ Nat.lt_succ_self _, c.clock, hthere⟩
    · obtain ⟨hlt, since, hsince⟩ := h.known e he
      exact ⟨Nat.lt_succ_of_lt hlt, since, List.mem_cons_of_mem _ hsince⟩
  case gone =>
    rcases List.mem_cons.1 he with rfl | he
    · cases hremoval
    · rcases List.mem_append.1 hu with hu | hu
      · exact h.gone e he hremoval u hu
      · rw [List.mem_singleton.1 hu]
        exact hnew e he
  case fates =>
    rcases List.mem_cons.1 hu with heq | hu
    · cases heq
      have hnone : firedTimes hs t.id = firingTimes c.clock t.period 0 :=
        firedTimes_of_ne fun e he => (hnew e he).symm
      exact .runs (List.mem_append_right _ (List.mem_singleton_self t)) hplain hnone
        (hstage ▸ .fresh rfl)
    · cases h.fates since u hu with
      | runs hin hplain htimes hontime =>
          exact .runs (List.mem_append_left _ hin) hplain htimes hontime
      | ended hremoved hplain hfires =>
          exact .ended (List.mem_cons_of_mem _ hremoved) hplain hfires

/-- Where no timer is started, identities are as before. -/
theorem unique_append (h : c.Keeps owner horizon hs) (hnone : ∀ e ∈ events, e.isStart = false) :
    (events ++ hs).Pairwise fun e e' => e.isStart = true → e.timer.id ≠ e'.timer.id := by
  have hnew : ∀ e ∈ events, ∀ e' : TimerEvent, e.isStart = true → e.timer.id ≠ e'.timer.id := by
    intro e he e' hstart
    cases hstart.symm.trans (hnone e he)
  exact List.pairwise_append.2 ⟨List.pairwise_of_forall_mem_list fun e he e' _ => hnew e he e',
    h.unique, fun e he e' _ => hnew e he e'⟩

theorem firedTimes_removed (clock id : Nat) (ts : List Timer) :
    firedTimes (ts.map (.removed clock)) id = [] := by
  refine List.filterMap_eq_nil_iff.2 fun e he => ?_
  obtain ⟨t, -, rfl⟩ := List.mem_map.1 he
  rfl

/-- Some timers are removed. -/
theorem remove (h : c.Keeps owner horizon hs) (keep : Timer → Bool) :
    Keeps owner horizon ((c.timers.filter fun t => !keep t).map (.removed c.clock) ++ hs)
      { c with timers := c.timers.filter keep } := by
  have hevents : ∀ e ∈ (c.timers.filter fun t => !keep t).map (TimerEvent.removed c.clock),
      ∃ u ∈ c.timers, keep u = false ∧ e = .removed c.clock u := by
    intro e he
    obtain ⟨u, hu, rfl⟩ := List.mem_map.1 he
    obtain ⟨hin, hout⟩ := List.mem_filter.1 hu
    exact ⟨u, hin, by simpa using hout, rfl⟩
  have hfired : ∀ id, firedTimes ((c.timers.filter fun t => !keep t).map
      (TimerEvent.removed c.clock) ++ hs) id = firedTimes hs id := by
    intro id
    rw [firedTimes_append, firedTimes_removed, List.nil_append]
  refine {
    queue := h.queue.filter keep, timers := fun t ht => ?timers, known := fun e he => ?known
    unique := ?unique, final := ?final, gone := fun e he hremoval t ht => ?gone
    fates := fun since t ht => ?fates }
  case timers =>
    obtain ⟨hown, hmillis, since, hsince⟩ := h.timers t (List.mem_filter.1 ht).1
    exact ⟨hown, hmillis, since, List.mem_append_right _ hsince⟩
  case known =>
    rcases List.mem_append.1 he with he | he
    · obtain ⟨u, hu, -, rfl⟩ := hevents e he
      obtain ⟨-, -, since, hsince⟩ := h.timers u hu
      exact ⟨h.queue.below u hu, since, List.mem_append_right _ hsince⟩
    · obtain ⟨hlt, since, hsince⟩ := h.known e he
      exact ⟨hlt, since, List.mem_append_right _ hsince⟩
  case unique =>
    refine h.unique_append fun e he => ?_
    obtain ⟨u, -, -, rfl⟩ := hevents e he
    rfl
  case final =>
    refine List.pairwise_append.2 ⟨List.pairwise_map.2 ?_, h.final, fun e he e' he' hremoval => ?_⟩
    · refine ((List.pairwise_map.1 h.queue.ids).filter _).imp fun {t u} hne _ => ?_
      exact hne
    · obtain ⟨u, hu, -, rfl⟩ := hevents e he
      exact h.gone e' he' hremoval u hu
  case gone =>
    obtain ⟨hin, hkept⟩ := List.mem_filter.1 ht
    rcases List.mem_append.1 he with he | he
    · -- one that stays is none of those that go, though it may have the name of one
      obtain ⟨u, hu, hout, rfl⟩ := hevents e he
      intro hid
      rw [h.queue.eq_of_id hin hu hid, hout] at hkept
      cases hkept
    · exact h.gone e he hremoval t hin
  case fates =>
    have hstarted : TimerEvent.started since t ∈ hs := by
      rcases List.mem_append.1 ht with ht | ht
      · obtain ⟨u, -, -, heq⟩ := hevents _ ht
        cases heq
      · exact ht
    cases h.fates since t hstarted with
    | @runs u count hin hplain htimes hontime =>
        cases hkeep : keep u with
        | true =>
            exact .runs (List.mem_filter.2 ⟨hin, hkeep⟩) hplain ((hfired _).trans htimes) hontime
        | false =>
            -- its fate is sealed with what it has fired by now
            have hremoved : TimerEvent.removed c.clock u ∈
                (c.timers.filter fun t => !keep t).map (TimerEvent.removed c.clock) :=
              List.mem_map_of_mem (List.mem_filter.2 ⟨hin, by rw [hkeep]; rfl⟩)
            refine .ended (List.mem_append_left _ hremoved) hplain ?_
            obtain ⟨-, ⟨millis, hmillis, hperiod⟩, -⟩ := h.timers u hin
            subst hplain
            rw [hfired, htimes]
            exact Timer.firesUntil hontime (hperiod ▸ Nat.mul_pos hmillis milliNanos_pos)
    | ended hremoved hplain hfires =>
        exact .ended (List.mem_append_right _ hremoved) hplain ((hfired _).symm ▸ hfires)

/-- Timers come further, and some of them fire. -/
theorem evolve (h : c.Keeps owner horizon hs) (events : List TimerEvent)
    (hqueue : c'.IsQueued) (hfresh : c'.fresh = c.fresh)
    (hplain : c'.timers.map Timer.plain = c.timers.map Timer.plain)
    (hevents : ∀ e ∈ events, ∃ u ∈ c.timers, e = .fired c.clock u)
    (hruns : ∀ u ∈ c.timers, ∀ since count, firedTimes hs u.id = firingTimes since u.period count →
      u.stage.IsOnTime u.period since horizon c.clock count →
      ∃ u' ∈ c'.timers, u'.plain = u.plain ∧ ∃ count',
        firedTimes (events ++ hs) u.id = firingTimes since u.period count' ∧
        u'.stage.IsOnTime u.period since horizon c'.clock count') :
    Keeps owner horizon (events ++ hs) c' := by
  -- but for their stages, the timers are those that there were
  have hsame : ∀ t ∈ c'.timers, ∃ u ∈ c.timers, u.plain = t.plain := fun t ht =>
    List.mem_map.1 (hplain ▸ List.mem_map_of_mem ht)
  refine {
    queue := hqueue, timers := fun t ht => ?timers, known := fun e he => ?known
    unique := ?unique, final := ?final, gone := fun e he hremoval t ht => ?gone
    fates := fun since t ht => ?fates }
  case timers =>
    obtain ⟨u, hu, heq⟩ := hsame t ht
    obtain ⟨hown, hmillis, since, hsince⟩ := h.timers u hu
    have howner : t.owner = u.owner := (congrArg Timer.owner heq).symm
    have hperiod : t.period = u.period := (congrArg Timer.period heq).symm
    exact ⟨howner.trans hown, hperiod ▸ hmillis, since, List.mem_append_right _ (heq ▸ hsince)⟩
  case known =>
    rcases List.mem_append.1 he with he | he
    · obtain ⟨u, hu, rfl⟩ := hevents e he
      obtain ⟨-, -, since, hsince⟩ := h.timers u hu
      exact ⟨hfresh ▸ h.queue.below u hu, since, List.mem_append_right _ hsince⟩
    · obtain ⟨hlt, since, hsince⟩ := h.known e he
      exact ⟨hfresh ▸ hlt, since, List.mem_append_right _ hsince⟩
  case unique =>
    refine h.unique_append fun e he => ?_
    obtain ⟨u, -, rfl⟩ := hevents e he
    rfl
  case final =>
    refine List.pairwise_append.2
      ⟨List.pairwise_of_forall_mem_list fun _ _ e' he' hremoval => ?_, h.final,
        fun e he e' he' hremoval => ?_⟩
    · obtain ⟨u, -, rfl⟩ := hevents e' he'
      cases hremoval
    · obtain ⟨u, hu, rfl⟩ := hevents e he
      exact h.gone e' he' hremoval u hu
  case gone =>
    obtain ⟨u, hu, heq⟩ := hsame t ht
    have hid : t.id = u.id := (congrArg Timer.id heq).symm
    rcases List.mem_append.1 he with he | he
    · obtain ⟨_, -, rfl⟩ := hevents e he
      cases hremoval
    · exact hid ▸ h.gone e he hremoval u hu
  case fates =>
    have hstarted : TimerEvent.started since t ∈ hs := by
      rcases List.mem_append.1 ht with ht | ht
      · obtain ⟨u, -, heq⟩ := hevents _ ht
        cases heq
      · exact ht
    cases h.fates since t hstarted with
    | runs hin hplain htimes hontime =>
        subst hplain
        obtain ⟨u', hu', hplain', count', htimes', hontime'⟩ := hruns _ hin since _ htimes hontime
        exact .runs hu' hplain' htimes' hontime'
    | @ended moment u hremoved hplain hfires =>
        refine .ended (List.mem_append_right _ hremoved) hplain ?_
        subst hplain
        -- whatever fires is there, and who was removed is not
        rw [firedTimes_append_of_ne fun e he => ?_]
        · exact hfires
        · obtain ⟨v, hv, rfl⟩ := hevents e he
          exact h.gone _ hremoved rfl v hv

end Keeps

end TimerTable

end Statechart
