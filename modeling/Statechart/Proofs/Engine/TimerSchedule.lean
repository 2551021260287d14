import Statechart.Proofs.Engine.TimerSteps

/-!
# Timers fire on time

The timers of a party are started and removed in any order, tasks run one by one, and the clock goes
on where no task is ready. Then every timer fires once at the end of each period that is over before
its removal. At the moment of its removal itself it has fired if its task has run by then.

- `TimerTable.Keeps.run`, `wait`, `jump` : a task runs, nothing is due, some timers are due
- `World.callTimer_refused`    : what is refused changes nothing
- `World.IsAfter`              : a world as it is after a history
- `World.IsAfter.step`         : one step
- `World.timers_fire_on_time`  : any number of steps
-/

namespace Statechart

namespace TimerTable

namespace Keeps

variable {owner : Party} {horizon : Nat} {hs events : List TimerEvent} {c : TimerTable} {t : Timer}

/-! ## What is known of the timers that run -/

theorem exists_onTime (h : c.Keeps owner horizon hs) (ht : t ∈ c.timers) :
    ∃ since count, t.stage.IsOnTime t.period since horizon c.clock count := by
  obtain ⟨-, -, since, hstarted⟩ := h.timers t ht
  -- who is there was not removed, so of the two fates it has the first
  cases h.fates since t.plain hstarted with
  | @runs u count hin hplain _ hontime =>
      have hid : u.plain.id = t.plain.id := congrArg Timer.id hplain
      have hsame : u = t := h.queue.eq_of_id hin ht hid
      subst hsame
      exact ⟨since, count, hontime⟩
  | @ended moment u hremoved hplain _ =>
      have hid : u.plain.id = t.plain.id := congrArg Timer.id hplain
      exact absurd hid.symm (h.gone _ hremoved rfl t ht)

theorem period_pos (h : c.Keeps owner horizon hs) (ht : t ∈ c.timers) : milliNanos ≤ t.period := by
  obtain ⟨-, ⟨millis, hmillis, hperiod⟩, -⟩ := h.timers t ht
  rw [hperiod]
  exact Nat.le_mul_of_pos_left milliNanos hmillis

/-- If no task is ready, no timer is to begin or to fire. -/
theorem isReady_eq_false (h : c.Keeps owner horizon hs) (hready : c.ready = [])
    (ht : t ∈ c.timers) : t.isReady = false := by
  rw [Bool.eq_false_iff]
  intro hisReady
  have hin := (h.queue.queued t ht).2 hisReady
  rw [hready] at hin
  cases hin

/-- A timer that waits is due later. -/
theorem clock_lt_due (h : c.Keeps owner horizon hs) (ht : t ∈ c.timers) {due : Nat}
    (hdue : t.due? = some due) : c.clock < World.wholeMillis due := by
  obtain ⟨since, count, hontime⟩ := h.exists_onTime ht
  obtain ⟨-, ⟨millis, -, hperiod⟩, -⟩ := h.timers t ht
  rw [Timer.due?] at hdue
  generalize t.stage = stage at hontime hdue
  cases hontime with
  | asleep _ _ hnext =>
      cases hdue
      rw [wholeMillis_due hperiod]
      exact hnext
  | _ => cases hdue

/-! ## A task runs -/

/-- The task of a timer runs: the timer comes further, and it may fire. -/
theorem run (h : c.Keeps owner horizon hs) (events : List TimerEvent) {id : Nat}
    {rest : List Task} (hready : c.ready = .timer id :: rest) {stage : TimerStage}
    (hstage : ∀ t : Timer, ({ t with stage } : Timer).isReady = false)
    (hevents : ∀ e ∈ events, ∃ u ∈ c.timers, u.id = id ∧ e = .fired c.clock u)
    (hruns : ∀ u ∈ c.timers, u.id = id → ∀ since count,
      u.stage.IsOnTime u.period since horizon c.clock count → ∃ count',
        firedTimes events id ++ firingTimes since u.period count =
          firingTimes since u.period count' ∧
        stage.IsOnTime u.period since horizon c.clock count') :
    Keeps owner horizon (events ++ hs) { c with
      ready := rest
      timers := c.timers.map fun t => if t.id == id then { t with stage } else t } := by
  refine h.evolve events (h.queue.run hready hstage) rfl ?_ (fun e he => ?_)
    fun u hu since count htimes hontime => ?_
  · rw [List.map_map]
    refine List.map_congr_left fun t _ => ?_
    simp only [Function.comp]
    split <;> rfl
  · obtain ⟨u, hu, -, rfl⟩ := hevents e he
    exact ⟨u, hu, rfl⟩
  · refine ⟨_, List.mem_map_of_mem hu, ?_⟩
    by_cases hid : u.id = id
    · rw [if_pos (beq_iff_eq.2 hid), firedTimes_append, htimes]
      exact ⟨rfl, hid ▸ hruns u hu hid since count hontime⟩
    · rw [if_neg (mt beq_iff_eq.1 hid), firedTimes_append_of_ne fun e he => ?_]
      · exact ⟨rfl, count, htimes, hontime⟩
      · obtain ⟨v, -, hv, rfl⟩ := hevents e he
        exact fun hsame => hid (hsame.symm.trans hv)

/-- The task of a timer that is gone does nothing. -/
theorem skip (h : c.Keeps owner horizon hs) {id : Nat} {rest : List Task}
    (hready : c.ready = .timer id :: rest) (hgone : ∀ t ∈ c.timers, t.id ≠ id) :
    Keeps owner horizon hs { c with ready := rest } := by
  -- nobody has the identity, so that any stage would do
  have hlost : ∀ t : Timer, ({ t with stage := .lost } : Timer).isReady = false := fun _ => rfl
  have hrun := h.run [] hready hlost (fun _ => nofun) fun u hu hid => absurd hid (hgone u hu)
  have hsame : (c.timers.map fun t => if t.id == id then { t with stage := .lost } else t) =
      c.timers := by
    refine (List.map_congr_left fun t ht => ?_).trans (List.map_id _)
    exact if_neg (mt beq_iff_eq.1 (hgone t ht))
  rw [hsame] at hrun
  exact hrun

/-- A timer begins: it waits for its first period, or it is lost. -/
theorem begin (h : c.Keeps owner horizon hs) {rest : List Task}
    (hready : c.ready = .timer t.id :: rest) (ht : t ∈ c.timers) (hfresh : t.stage = .fresh) :
    Keeps owner horizon hs { c with
      ready := rest
      timers := c.timers.map fun u => if u.id == t.id then { u with
        stage := if c.clock + t.period < horizon then .asleep (c.clock + t.period) else .lost }
        else u } := by
  refine h.run [] hready (fun u => ?_) (fun _ => nofun)
    fun u hu hid since count hontime => ?_
  · split <;> rfl
  · rw [h.queue.eq_of_id hu ht hid] at hontime ⊢
    rw [hfresh] at hontime
    cases hontime with
    | fresh hclock =>
        refine ⟨0, rfl, ?_⟩
        rw [hclock]
        split
        · rename_i hbegun
          have hperiod := h.period_pos ht
          have hsince := World.le_wholeMillis since
          have hone : since + t.period = since + (0 + 1) * t.period := by omega
          have hfirst : since < firingTime since t.period (0 + 1) := by
            rw [firingTime]
            have hmilli := milliNanos_pos
            omega
          exact hone ▸ .asleep hbegun (fun hnone => absurd hnone (Nat.lt_irrefl 0)) hfirst
        · exact .lost (Nat.not_lt.1 ‹_›)

/-- A timer fires on time, and waits for its next period. -/
theorem fire (h : c.Keeps owner horizon hs) {rest : List Task} {due : Nat}
    (hready : c.ready = .timer t.id :: rest) (ht : t ∈ c.timers) (hawake : t.stage = .awake due) :
    Keeps owner horizon (.fired c.clock t :: hs) { c with
      ready := rest
      timers := c.timers.map fun u => if u.id == t.id then { u with
        stage := .asleep (due + t.period) } else u } := by
  refine h.run [.fired c.clock t] hready (fun _ => rfl) (fun e he => ?_)
    fun u hu hid since count hontime => ?_
  · exact ⟨t, ht, rfl, List.mem_singleton.1 he⟩
  · rw [h.queue.eq_of_id hu ht hid] at hontime ⊢
    rw [hawake] at hontime
    cases hontime with
    | awake hbegun hclock =>
        -- the clock shows the very moment of the next firing
        refine ⟨count + 1, ?_, ?_⟩
        · rw [firingTimes, ← hclock]
          simp [firedTimes, TimerEvent.firedAt]
        · have hnext : since + (count + 1) * t.period + t.period =
              since + (count + 1 + 1) * t.period := by
            rw [Nat.succ_mul (count + 1), Nat.add_assoc]
          rw [hnext]
          refine .asleep hbegun (fun _ => Nat.le_of_eq hclock.symm) ?_
          rw [hclock]
          exact (firingTime_lt (Nat.lt_of_lt_of_le milliNanos_pos (h.period_pos ht))).2
            (Nat.lt_succ_self _)

/-- A timer that is to fire is due within the millisecond that is over now. -/
theorem clock_eq (h : c.Keeps owner horizon hs) {due : Nat} (ht : t ∈ c.timers)
    (hawake : t.stage = .awake due) : c.clock = World.wholeMillis due := by
  obtain ⟨since, count, hontime⟩ := h.exists_onTime ht
  obtain ⟨-, ⟨millis, -, hperiod⟩, -⟩ := h.timers t ht
  rw [hawake] at hontime
  cases hontime with
  | awake _ hclock => rw [hclock, wholeMillis_due hperiod]

/-! ## Time passes -/

/-- Where no task is ready, a timer waits for the end of a period that is not over, or is lost. -/
theorem asleep_or_lost (h : c.Keeps owner horizon hs) (hready : c.ready = []) (ht : t ∈ c.timers)
    {since count : Nat} (hontime : t.stage.IsOnTime t.period since horizon c.clock count) :
    (∃ due, t.stage = .asleep due ∧ ∀ time, c.clock ≤ time →
        (time < World.wholeMillis due →
          (TimerStage.asleep due).IsOnTime t.period since horizon time count) ∧
        (time = World.wholeMillis due →
          (TimerStage.awake due).IsOnTime t.period since horizon time count)) ∨
      (t.stage = .lost ∧ ∀ time, TimerStage.lost.IsOnTime t.period since horizon time count) := by
  have hnot := h.isReady_eq_false hready ht
  obtain ⟨-, ⟨millis, -, hperiod⟩, -⟩ := h.timers t ht
  rw [Timer.isReady] at hnot
  generalize hstage : t.stage = stage at hontime hnot
  cases hontime with
  -- these two would be queued
  | fresh _ => cases hnot
  | awake _ _ => cases hnot
  | asleep hbegun hlast _ =>
      have hdue := wholeMillis_due hperiod since (count + 1)
      refine .inl ⟨_, rfl, fun time hle => ⟨fun hlt => ?_, fun heq => ?_⟩⟩
      · exact .asleep hbegun (fun hpos => Nat.le_trans (hlast hpos) hle) (hdue ▸ hlt)
      · exact .awake hbegun (heq.trans hdue)
  | lost hlost => exact .inr ⟨rfl, fun _ => .lost hlost⟩

/-- Nothing is due before the time that the clock shows. -/
theorem wait (h : c.Keeps owner horizon hs) (hready : c.ready = []) {time : Nat}
    (hle : c.clock ≤ time)
    (hbefore : ∀ t ∈ c.timers, ∀ due, t.due? = some due → time < World.wholeMillis due) :
    Keeps owner horizon hs { c with clock := time } := by
  have hqueue : IsQueued { c with clock := time } :=
    ⟨h.queue.ids, h.queue.below, h.queue.nodup, h.queue.tasks, h.queue.queued⟩
  refine h.evolve [] hqueue rfl rfl (fun _ => nofun)
    fun u hu since count htimes hontime => ⟨u, hu, rfl, count, htimes, ?_⟩
  obtain ⟨due, hstage, htime⟩ | ⟨hstage, hlost⟩ := h.asleep_or_lost hready hu hontime
  · have hlt := hbefore u hu due (by rw [Timer.due?, hstage])
    rw [hstage]
    exact (htime time hle).1 hlt
  · rw [hstage]
    exact hlost time

end Keeps

/-- The clock shows a time, and the timers that are due by then are queued. -/
def jumped (c : TimerTable) (time : Nat) : TimerTable :=
  let isDue (t : Timer) : Bool := t.due?.any fun due => decide (due ≤ time)
  { c with
    clock := time
    ready := c.ready ++ (c.timers.filter isDue).map fun t => .timer t.id
    timers := c.timers.map fun t => if isDue t then t.awaken else t }

/-- The timers that are due are queued. -/
theorem IsQueued.jumped {c : TimerTable} (h : c.IsQueued) (hready : c.ready = [])
    (hnot : ∀ t ∈ c.timers, t.isReady = false) (time : Nat) : (c.jumped time).IsQueued := by
  let isDue (t : Timer) : Bool := t.due?.any fun due => decide (due ≤ time)
  have hid : ∀ t : Timer, (if isDue t then t.awaken else t).id = t.id := by
    intro t
    have hsame : t.awaken.plain.id = t.plain.id := congrArg Timer.id (World.Queues.plain_awaken t)
    split
    · exact hsame
    · rfl
  -- nobody was ready, so that those are who are due
  have hisReady : ∀ t ∈ c.timers, (if isDue t then t.awaken else t).isReady = isDue t := by
    intro t ht
    have hwaits := hnot t ht
    split
    · rename_i hdue
      rw [hdue]
      simp only [isDue, Timer.due?] at hdue
      rw [Timer.awaken]
      split at hdue
      · rename_i hstage
        simp only [Timer.isReady]
      · cases hdue
    · rename_i hdue
      rw [hwaits, Bool.eq_false_iff.2 hdue]
  have hqueued : (c.jumped time).ready = (c.timers.filter isDue).map fun t => .timer t.id := by
    rw [TimerTable.jumped, hready, List.nil_append]
  have hids : ((c.timers.filter isDue).map (·.id)).Nodup :=
    h.ids.sublist (List.filter_sublist.map _)
  refine {
    ids := ?ids, below := fun t ht => ?below, nodup := ?nodup, tasks := fun task htask => ?tasks
    queued := fun t ht => ?queued }
  case ids =>
    rw [TimerTable.jumped, List.map_map]
    exact (List.map_congr_left (g := (·.id)) fun t _ => hid t) ▸ h.ids
  case below =>
    obtain ⟨u, hu, rfl⟩ := List.mem_map.1 ht
    exact (hid u).symm ▸ h.below u hu
  case nodup =>
    rw [hqueued]
    exact List.map_map (g := Task.timer) ▸ hids.map fun _ _ => Task.timer.inj
  case tasks =>
    rw [hqueued] at htask
    obtain ⟨u, hu, rfl⟩ := List.mem_map.1 htask
    exact ⟨u.id, h.below u (List.mem_filter.1 hu).1, rfl⟩
  case queued =>
    obtain ⟨u, hu, rfl⟩ := List.mem_map.1 ht
    rw [hqueued]
    change Task.timer (if isDue u then u.awaken else u).id ∈ _ ↔
      (if isDue u then u.awaken else u).isReady = true
    rw [hid, hisReady u hu, List.mem_map]
    constructor
    · rintro ⟨v, hv, heq⟩
      obtain ⟨hin, hdue⟩ := List.mem_filter.1 hv
      exact h.eq_of_id hin hu (Task.timer.inj heq) ▸ hdue
    · exact fun hdue => ⟨u, List.mem_filter.2 ⟨hu, hdue⟩, rfl⟩

/-- The clock shows the first time at which timers are due. -/
theorem Keeps.jump {owner : Party} {horizon time : Nat} {hs : List TimerEvent} {c : TimerTable}
    (h : c.Keeps owner horizon hs) (hready : c.ready = []) (hle : c.clock ≤ time)
    (hwhole : World.wholeMillis time = time)
    (hmin : ∀ t ∈ c.timers, ∀ due, t.due? = some due → time ≤ World.wholeMillis due) :
    Keeps owner horizon hs (c.jumped time) := by
  have hqueue := h.queue.jumped hready (fun t ht => h.isReady_eq_false hready ht) time
  refine h.evolve [] hqueue rfl ?_ (fun _ => nofun)
    fun u hu since count htimes hontime => ⟨_, List.mem_map_of_mem hu, ?_, count, htimes, ?_⟩
  · rw [jumped, List.map_map]
    refine List.map_congr_left fun t _ => ?_
    simp only [Function.comp]
    split
    · exact World.Queues.plain_awaken t
    · rfl
  · split
    · exact World.Queues.plain_awaken u
    · rfl
  · obtain ⟨due, hstage, htime⟩ | ⟨hstage, hlost⟩ := h.asleep_or_lost hready hu hontime
    · have hfirst := hmin u hu due (by rw [Timer.due?, hstage])
      have hdue : u.due? = some due := by rw [Timer.due?, hstage]
      simp only [hdue, Option.any_some, decide_eq_true_eq]
      split
      · rename_i hover
        -- the clock goes no further than to the first timer, so that nobody is late
        have hsame : time = World.wholeMillis due :=
          Nat.le_antisymm hfirst (hwhole ▸ World.wholeMillis_le_iff.2 (hwhole.symm ▸ hover))
        rw [Timer.awaken, hstage]
        exact (htime time hle).2 hsame
      · rename_i hnot
        rw [hstage]
        exact (htime time hle).1 (Nat.lt_of_lt_of_le (Nat.not_le.1 hnot) (World.le_wholeMillis due))
    · have hnone : u.due? = none := by rw [Timer.due?, hstage]
      simp only [hnone, Option.any_none, Bool.false_eq_true, if_false]
      rw [hstage]
      exact hlost time

end TimerTable

/-! ## Steps of a world -/

namespace World

variable {w w₀ : World} {c : TimerTable} {owner : Party} {hs : List TimerEvent} {t : Timer}

/-! ### Tasks and time -/

/-- A timer that is due fires once, and is due again after a period. -/
theorem fire_withTable (h : w.HasOnlyTimers) {due : Nat} (firings : Nat)
    (hfound : (w.withTable c).timerById? t.id = some t) (hawake : t.stage = .awake due)
    (hlate : c.clock ≤ due + lateness) (hnext : c.clock < due + t.period) :
    fire (firings + 1) (w.withTable c) t.id =
      (raiseAt ⟨c.clock, t.site, t.event⟩ w).withTable { c with
        timers := c.timers.map fun u => if u.id == t.id then { u with
          stage := .asleep (due + t.period) } else u } := by
  have hdue : t.dueAfter due c.clock = due + t.period := if_neg (Nat.not_lt.2 hlate)
  simp only [fire, hfound, hawake, execute_withTable h]
  change (if t.dueAfter due c.clock ≤ c.clock then _ else _) = _
  rw [if_neg (hdue ▸ Nat.not_le.2 hnext)]
  change updateTimer _ t.id (fun u => { u with stage := .asleep (t.dueAfter due c.clock) }) = _
  rw [hdue]
  rfl

theorem runTimer_withTable (h : w.HasOnlyTimers) {due : Nat}
    (hfound : (w.withTable c).timerById? t.id = some t) (hawake : t.stage = .awake due)
    (hlate : c.clock ≤ due + lateness) (hnext : c.clock < due + t.period) :
    (w.withTable c).runTimer t.id =
      (raiseAt ⟨c.clock, t.site, t.event⟩ w).withTable { c with
        timers := c.timers.map fun u => if u.id == t.id then { u with
          stage := .asleep (due + t.period) } else u } := by
  rw [← fire_withTable h 127 hfound hawake hlate hnext]
  simp only [runTimer, hfound, hawake]
  rfl

theorem runTimer_withTable_of_none {id : Nat} (hnone : (w.withTable c).timerById? id = none) :
    (w.withTable c).runTimer id = w.withTable c := by
  simp only [runTimer, hnone]

theorem runTimer_withTable_of_fresh (hfound : (w.withTable c).timerById? t.id = some t)
    (hfresh : t.stage = .fresh) :
    (w.withTable c).runTimer t.id = w.withTable { c with
      timers := c.timers.map fun u => if u.id == t.id then { u with
        stage := if c.clock + t.period < w.choices.horizon then .asleep (c.clock + t.period)
          else .lost } else u } := by
  simp only [runTimer, hfound, hfresh]
  rfl

/-- The next task runs, if there is one. -/
theorem poll_withTable (h : w.HasOnlyTimers) {id : Nat} {rest : List Task}
    (hready : c.ready = .timer id :: rest) (owner : Party) :
    ((w.withTable c).callTimer owner .poll).1 = (w.withTable { c with ready := rest }).runTimer id ∧
      (w.withTable c).timerEvents owner .poll =
        ((c.timers.find? fun t => t.id == id).filter (·.isAwake)).toList.map (.fired c.clock) := by
  have hidle : (w.withTable c).current = none := h.current
  have hqueue : (w.withTable c).ready = .timer id :: rest := hready
  constructor
  · rw [callTimer, step?_of_ready hidle hqueue]
    rfl
  · simp only [timerEvents, nextFiring?, hqueue]
    rfl

theorem poll_withTable_of_nil (h : w.HasOnlyTimers) (hready : c.ready = []) (owner : Party) :
    ((w.withTable c).callTimer owner .poll).1 = w.withTable c ∧
      (w.withTable c).timerEvents owner .poll = [] := by
  have hidle : (w.withTable c).current = none := h.current
  have hqueue : (w.withTable c).ready = [] := hready
  constructor
  · simp only [callTimer, step?, hidle, hqueue, Option.getD_none]
  · simp only [timerEvents, nextFiring?, hqueue]
    rfl

theorem dueTimes_withTable (h : w.HasOnlyTimers) (c : TimerTable) :
    (w.withTable c).dueTimes = c.timers.filterMap fun t => t.due?.map wholeMillis := by
  have hjobs : (w.withTable c).jobs = [] := h.jobs
  have hinstances : (w.withTable c).instances = [] := h.instances
  simp only [dueTimes, hjobs, hinstances, List.filterMap_nil, List.append_nil]
  rfl

theorem queueJobs_of_noJobs (h : w.jobs = []) : w.queueJobs = w := by
  obtain ⟨_, _, _, _, _, _, _, _, jobs, _⟩ := w
  cases h
  simp [queueJobs]

theorem queueDeadlines_of_noInstances (h : w.instances = []) : w.queueDeadlines = w := by
  simp [queueDeadlines, h]

theorem jump_withTable (h : w.HasOnlyTimers) {time : Nat} (hle : c.clock ≤ time) :
    (w.withTable c).jump time = w.withTable (c.jumped time) := by
  have hclock : max (w.withTable c).clock time = time := Nat.max_eq_right hle
  rw [jump, hclock, queueJobs_of_noJobs (by exact h.jobs),
    queueDeadlines_of_noInstances (by exact h.instances)]
  rfl

/-! ### Calls -/

/-- A timer starts, or it is refused. -/
theorem start_cases (w : World) (owner : Party) (site : Site) (name : String) (millis : Nat)
    (action : Action) :
    (∃ fault, w.callTimer owner (.start site name millis action) = (w, .error fault)) ∨
      ∃ event, action = .raise event ∧ 0 < millis ∧
        w.callTimer owner (.start site name millis action) =
          ({ w with
              timers := w.timers ++
                [w.newTimer { site with owner } name (millis * milliNanos) event]
              fresh := w.fresh + 1
              ready := w.ready ++ [.timer w.fresh] },
            .ok ()) := by
  cases action with
  | raise event =>
      simp only [callTimer, startTimer_raise]
      by_cases hperiod : millis * milliNanos = 0
      · exact .inl ⟨_, if_pos hperiod⟩
      · by_cases hused : (w.timer? owner name).isSome
        · exact .inl ⟨_, by rw [if_neg hperiod, if_pos hused]⟩
        · have hmillis : 0 < millis := Nat.pos_of_ne_zero fun hzero => hperiod (by simp [hzero])
          exact .inr ⟨event, rfl, hmillis, by rw [if_neg hperiod, if_neg hused]⟩
  | _ => exact .inl ⟨_, rfl⟩

/-- What is refused changes nothing, and nothing happens to timers. -/
theorem callTimer_refused {s : TimerStep} {fault : EngineFault}
    (h : (w.callTimer owner s).2 = .error fault) :
    (w.callTimer owner s).1 = w ∧ w.timerEvents owner s = [] := by
  cases s with
  | start site name millis action =>
      obtain ⟨fault', hcall⟩ | ⟨_, -, -, hcall⟩ := w.start_cases owner site name millis action
      · refine ⟨congrArg Prod.fst hcall, ?_⟩
        simp only [timerEvents, h]
        cases action <;> rfl
      · rw [hcall] at h
        cases h
  | stop name =>
      simp only [callTimer, stopTimer] at h
      cases hfound : w.timer? owner name with
      | none => exact ⟨by simp only [callTimer, stopTimer, hfound], by simp [timerEvents, hfound]⟩
      | some t =>
          rw [hfound] at h
          cases h
  | stopAll => cases h
  | poll => cases h
  | pass nanos => cases h

/-! ### One step -/

/-- A world as it is after a history: its timers are on time, and all else is what their firings
come to. -/
def IsAfter (owner : Party) (w₀ : World) (hs : List TimerEvent) (w : World) : Prop :=
  ∃ c : TimerTable, c.Keeps owner w₀.choices.horizon hs ∧
    w = (w₀.raiseAll (firingsOf hs)).withTable c

theorem firingsOf_removed (clock : Nat) (ts : List Timer) (hs : List TimerEvent) :
    firingsOf (ts.map (.removed clock) ++ hs) = firingsOf hs := by
  rw [firingsOf, List.filterMap_append, List.filterMap_eq_nil_iff.2 fun e he => ?_,
    List.nil_append, firingsOf]
  obtain ⟨t, -, rfl⟩ := List.mem_map.1 he
  rfl

namespace IsAfter

theorem start (h : IsAfter owner w₀ hs w) (site : Site) (name : String) (millis : Nat)
    (action : Action) :
    IsAfter owner w₀ (w.timerEvents owner (.start site name millis action) ++ hs)
      (w.callTimer owner (.start site name millis action)).1 := by
  obtain ⟨fault, hcall⟩ | ⟨event, rfl, hmillis, hcall⟩ :=
    w.start_cases owner site name millis action
  · obtain ⟨hsame, hnothing⟩ := callTimer_refused (congrArg Prod.snd hcall)
    rw [hsame, hnothing]
    exact h
  · obtain ⟨c, hc, rfl⟩ := h
    have hevents : timerEvents owner ((w₀.raiseAll (firingsOf hs)).withTable c)
        (.start site name millis (.raise event)) =
          [.started c.clock (((w₀.raiseAll (firingsOf hs)).withTable c).newTimer
            { site with owner } name (millis * milliNanos) event)] := by
      simp only [timerEvents, hcall]
      rfl
    rw [hevents, hcall]
    exact ⟨_, hc.add rfl rfl rfl hmillis rfl, rfl⟩

/-- Timers are removed. -/
theorem remove (h : IsAfter owner w₀ hs w) (keep : Timer → Bool) :
    IsAfter owner w₀ ((w.timers.filter fun t => !keep t).map (.removed w.clock) ++ hs)
      { w with timers := w.timers.filter keep } := by
  obtain ⟨c, hc, rfl⟩ := h
  refine ⟨_, hc.remove keep, ?_⟩
  change _ = (w₀.raiseAll (firingsOf ((c.timers.filter fun t => !keep t).map _ ++ hs))).withTable _
  rw [firingsOf_removed]
  rfl

theorem stop (h : IsAfter owner w₀ hs w) (name : String) :
    IsAfter owner w₀ (w.timerEvents owner (.stop name) ++ hs)
      (w.callTimer owner (.stop name)).1 := by
  cases hfound : w.timer? owner name with
  | none =>
      simp only [timerEvents, callTimer, stopTimer, hfound]
      exact h
  | some t =>
      simp only [timerEvents, callTimer, stopTimer, hfound]
      have hremoved := h.remove fun u => u.id != t.id
      obtain ⟨c, hc, rfl⟩ := h
      have ht : t ∈ c.timers := List.mem_of_find?_eq_some hfound
      -- identities do not come twice
      have hone : (c.timers.filter fun u => !(u.id != t.id)) = [t] := by
        refine List.perm_singleton.1 ((List.perm_ext_iff_of_nodup ?_ (List.nodup_singleton t)).2 ?_)
        · exact (List.Nodup.of_map _ hc.queue.ids).filter _
        · intro u
          simp only [List.mem_filter, bne, Bool.not_not, beq_iff_eq, List.mem_singleton]
          refine ⟨fun h => hc.queue.eq_of_id h.1 ht h.2, ?_⟩
          rintro rfl
          exact ⟨ht, rfl⟩
      have hsame : ((w₀.raiseAll (firingsOf hs)).withTable c).timers = c.timers := rfl
      rw [hsame, hone] at hremoved
      exact hremoved

theorem stopAll (h : IsAfter owner w₀ hs w) :
    IsAfter owner w₀ (w.timerEvents owner .stopAll ++ hs) (w.callTimer owner .stopAll).1 := by
  have hremoved := h.remove fun t => t.owner != owner
  simp only [bne, Bool.not_not] at hremoved
  exact hremoved

/-- The next task runs. -/
theorem poll (h₀ : w₀.HasOnlyTimers) (h : IsAfter owner w₀ hs w) :
    IsAfter owner w₀ (w.timerEvents owner .poll ++ hs) (w.callTimer owner .poll).1 := by
  obtain ⟨c, hc, rfl⟩ := h
  have hv := h₀.raiseAll (firingsOf hs)
  cases hready : c.ready with
  | nil =>
      obtain ⟨hsame, hnothing⟩ := poll_withTable_of_nil hv hready owner
      rw [hsame, hnothing]
      exact ⟨c, hc, rfl⟩
  | cons task rest =>
      have hin : task ∈ c.ready := hready ▸ List.mem_cons_self
      obtain ⟨id, -, rfl⟩ := hc.queue.tasks task hin
      obtain ⟨hrun, hevents⟩ := poll_withTable hv hready owner
      rw [hrun, hevents]
      cases hfound : c.timers.find? fun t => t.id == id with
      | none =>
          -- the timer was removed while its task was queued
          have hgone : ∀ t ∈ c.timers, t.id ≠ id := fun t ht hid =>
            List.find?_eq_none.1 hfound t ht (beq_iff_eq.2 hid)
          rw [runTimer_withTable_of_none (c := { c with ready := rest }) hfound]
          exact ⟨_, hc.skip hready hgone, rfl⟩
      | some t =>
          have ht : t ∈ c.timers := List.mem_of_find?_eq_some hfound
          have hid : t.id = id :=
            beq_iff_eq.1 (List.find?_some (p := fun t : Timer => t.id == id) hfound)
          subst hid
          have hisReady := (hc.queue.queued t ht).1 hin
          cases hstage : t.stage with
          | fresh =>
              have hnone : (Option.filter (·.isAwake) (some t)).toList = [] := by
                simp [Timer.isAwake, hstage]
              rw [hnone, runTimer_withTable_of_fresh (c := { c with ready := rest }) hfound hstage,
                choices_raiseAll]
              exact ⟨_, hc.begin hready ht hstage, rfl⟩
          | asleep due => simp [Timer.isReady, hstage] at hisReady
          | awake due =>
              have hone : (Option.filter (·.isAwake) (some t)).toList = [t] := by
                simp [Timer.isAwake, hstage]
              -- it is late by less than a millisecond: no delay, and one firing only
              have hclock := hc.clock_eq ht hstage
              have hperiod := hc.period_pos ht
              have hsoon := hclock ▸ wholeMillis_lt due
              have hlate : c.clock ≤ due + lateness := by
                unfold lateness
                omega
              have hnext : c.clock < due + t.period := by omega
              rw [hone,
                runTimer_withTable (c := { c with ready := rest }) hv hfound hstage hlate hnext]
              exact ⟨_, hc.fire hready ht hstage, rfl⟩
          | lost => simp [Timer.isReady, hstage] at hisReady

/-- Time passes, unless a task is ready. -/
theorem pass (h₀ : w₀.HasOnlyTimers) (h : IsAfter owner w₀ hs w) (nanos : Nat) :
    IsAfter owner w₀ hs (w.pass nanos) := by
  obtain ⟨c, hc, rfl⟩ := h
  have hv := h₀.raiseAll (firingsOf hs)
  have hdues : ∀ t ∈ c.timers, ∀ due, t.due? = some due →
      wholeMillis due ∈ ((w₀.raiseAll (firingsOf hs)).withTable c).dueTimes := by
    intro t ht due hdue
    rw [dueTimes_withTable hv]
    exact List.mem_filterMap.2 ⟨t, ht, by rw [hdue]; rfl⟩
  unfold World.pass
  split
  · -- a task is ready, and the clock stands still
    exact ⟨c, hc, rfl⟩
  · rename_i hready
    split
    · rename_i hnext
      exact ⟨_, hc.wait hready (Nat.le_add_right _ nanos) fun t ht due hdue =>
        lt_of_nextDue?_none hnext _ (hdues t ht due hdue), rfl⟩
    · rename_i first hnext
      split
      · obtain ⟨hin, hmin⟩ := List.min?_eq_some_iff.1 hnext
        rw [dueTimes_withTable hv] at hin
        obtain ⟨t, ht, hsome⟩ := List.mem_filterMap.1 hin
        obtain ⟨due, hdue, rfl⟩ := Option.map_eq_some_iff.1 hsome
        have hle : c.clock ≤ wholeMillis due := Nat.le_of_lt (hc.clock_lt_due ht hdue)
        exact ⟨_, hc.jump hready hle (wholeMillis_wholeMillis due) fun u hu other hother =>
          hmin _ (hdues u hu other hother), jump_withTable hv hle⟩
      · rename_i hlater
        exact ⟨_, hc.wait hready (Nat.le_add_right _ nanos) fun t ht due hdue =>
          lt_of_nextDue? hnext (Nat.not_le.1 hlater) _ (hdues t ht due hdue), rfl⟩

/-- One step. -/
theorem step (h₀ : w₀.HasOnlyTimers) (h : IsAfter owner w₀ hs w) (s : TimerStep) :
    IsAfter owner w₀ (w.timerEvents owner s ++ hs) (w.callTimer owner s).1 := by
  cases s with
  | start site name millis action => exact h.start site name millis action
  | stop name => exact h.stop name
  | stopAll => exact h.stopAll
  | poll => exact h.poll h₀
  | pass nanos => exact h.pass h₀ nanos

/-- Any number of steps. -/
theorem foldl (h₀ : w₀.HasOnlyTimers) (steps : List TimerStep) (run : List TimerEvent × World)
    (h : IsAfter owner w₀ run.1 run.2) :
    IsAfter owner w₀ (steps.foldl (recordStep owner) run).1
      (steps.foldl (recordStep owner) run).2 := by
  induction steps generalizing run with
  | nil => exact h
  | cons s rest ih => exact ih (recordStep owner run s) (h.step h₀ s)

theorem timerRun (h₀ : w₀.HasOnlyTimers) (hready : w₀.ready = []) (htimers : w₀.timers = [])
    (owner : Party) (steps : List TimerStep) :
    IsAfter owner w₀ (w₀.timerRun owner steps).1 (w₀.timerRun owner steps).2 := by
  refine foldl h₀ steps ([], w₀) ⟨_, .start owner w₀.choices.horizon w₀.clock w₀.fresh, ?_⟩
  rw [← hready, ← htimers]
  rfl

end IsAfter

/-- Where there are only timers, those of a party are started and removed in any order, while tasks
run and time passes. Each timer that was started fires once at the end of each of its periods: it
has done so up to now if it runs, and up to its removal if it was removed; at the moment itself only
if it does not wait for its turn. Nothing happens to a timer before its start or after its removal,
be its name used again or not. Whatever else becomes of the world is what the firings make of it,
one after the other. A step that is refused changes nothing at all. -/
theorem timers_fire_on_time (h₀ : w₀.HasOnlyTimers) (hready : w₀.ready = [])
    (htimers : w₀.timers = []) (owner : Party) (steps : List TimerStep) :
    let hs := (w₀.timerRun owner steps).1
    let w := (w₀.timerRun owner steps).2
    (∀ since t, .started since t ∈ hs →
      (∃ u ∈ w.timers, u.plain = t ∧
        FiresUntil since t.period w₀.choices.horizon w.clock u.isAwake (firedTimes hs t.id)) ∨
      ∃ moment u, .removed moment u ∈ hs ∧ u.plain = t ∧
        FiresUntil since t.period w₀.choices.horizon moment u.isAwake (firedTimes hs t.id)) ∧
      (∀ e ∈ hs, ∃ since, .started since e.timer.plain ∈ hs) ∧
      (hs.Pairwise fun e e' => (e.isStart = true → e.timer.id ≠ e'.timer.id) ∧
        (e'.isRemoval = true → e.timer.id ≠ e'.timer.id)) ∧
      (∃ c, w = (w₀.raiseAll (firingsOf hs)).withTable c) ∧
      ∀ s fault, (w.callTimer owner s).2 = .error fault →
        (w.callTimer owner s).1 = w ∧ w.timerEvents owner s = [] := by
  intro hs w
  obtain ⟨c, hc, hw⟩ := IsAfter.timerRun h₀ hready htimers owner steps
  have hclock : w.clock = c.clock := congrArg World.clock hw
  have htable : w.timers = c.timers := congrArg World.timers hw
  refine ⟨fun since t hstarted => ?_, fun e he => (hc.known e he).2, hc.unique.and hc.final,
    ⟨c, hw⟩, fun s fault => callTimer_refused⟩
  cases hc.fates since t hstarted with
  | @runs u count hin hplain htimes hontime =>
      refine .inl ⟨u, htable ▸ hin, hplain, ?_⟩
      subst hplain
      rw [htimes, hclock]
      exact Timer.firesUntil hontime (Nat.lt_of_lt_of_le milliNanos_pos (hc.period_pos hin))
  | ended hremoved hplain hfires => exact .inr ⟨_, _, hremoved, hplain, hfires⟩

/-! ### A trial -/

namespace TimerTrial

def listener : Party := .named "listener"

/-- A world without instances, and a listener. -/
def world : World :=
  (ofMemory ⟨[], ⟨⟨"store", true, .empty⟩, .fresh⟩⟩ 16 .empty .optimal).record "listener" true

def site : Site := ⟨listener, .machine, ⟨[]⟩, false⟩

def tick : Action := .raise ⟨"tick", .internal, []⟩

def millis (n : Nat) : Nat := n * milliNanos

/-- A name is used again, and one of the steps is refused. -/
def steps : List TimerStep :=
  [.start site "bell" 10 tick, .start site "bell" 3 tick, .poll, .pass (millis 99), .poll,
    .pass (millis 10), .poll, .pass (millis 5), .stop "bell", .start site "bell" 7 tick, .poll,
    .pass (millis 7), .poll, .pass (millis 7), .poll]

/-- A timer is removed at the moment at which it fires. -/
def lateSteps : List TimerStep :=
  [.start site "bell" 10 tick, .poll, .pass (millis 10), .poll, .stop "bell"]

/-- A timer is removed at the moment at which it is to fire. -/
def earlySteps : List TimerStep :=
  [.start site "bell" 10 tick, .poll, .pass (millis 10), .stop "bell"]

end TimerTrial

open TimerTrial in
/-- The first timer fires twice, and so does the second one under the same name, which has not been
removed. A timer that is not there is not stopped, and nothing changes. -/
theorem bell_rings_on_time :
    let hs := (world.timerRun listener steps).1
    let w := (world.timerRun listener steps).2
    w.receipts.map (·.time) = [10, 20, 32, 39].map millis ∧
      (∃ t, .started (millis 25) t ∈ hs ∧ t.name = "bell" ∧ t.period = millis 7 ∧
        firedTimes hs t.id = [millis 39, millis 32] ∧
        ∃ u ∈ w.timers, u.plain = t ∧ FiresUntil (millis 25) (millis 7) world.choices.horizon
          (millis 39) u.isAwake (firedTimes hs t.id)) ∧
      (w.callTimer listener (.stop "gong")).1 = w := by
  intro hs w
  have hworld : world.HasOnlyTimers := ⟨rfl, rfl, rfl⟩
  obtain ⟨hfires, -, -, -, hrefused⟩ := timers_fire_on_time hworld rfl rfl listener steps
  let t : Timer := ⟨1, listener, "bell", millis 7, .fresh, site, ⟨"tick", .internal, []⟩⟩
  have hstarted : TimerEvent.started (millis 25) t ∈ hs := List.mem_of_getElem? (i := 2) rfl
  refine ⟨by decide +kernel, ⟨t, hstarted, rfl, rfl, by decide +kernel, ?_⟩, ?_⟩
  · have hremovals : ∀ e ∈ hs, e.isRemoval = true → e.timer.id = 0 := by decide +kernel
    rcases hfires (millis 25) t hstarted with hruns | ⟨moment, u, hremoved, hplain, -⟩
    · exact hruns
    · have hid : u.plain.id = 1 := congrArg Timer.id hplain
      cases hid.symm.trans (hremovals _ hremoved rfl)
  · have hnone : w.timer? listener "gong" = none := Option.isNone_iff_eq_none.1 (by decide +kernel)
    have hrefusal : (w.callTimer listener (.stop "gong")).2 = .error (.timerNotFound "gong") := by
      simp only [callTimer, stopTimer, hnone]
    exact (hrefused (.stop "gong") _ hrefusal).1

open TimerTrial in
/-- A timer that is removed when a period is over may have fired at this very moment, or not. -/
theorem bell_rings_at_removal :
    (∃ t u v, (world.timerRun listener lateSteps).1 =
        [.removed (millis 10) v, .fired (millis 10) u, .started 0 t] ∧
      t.period = millis 10 ∧ u.id = t.id ∧ v.id = t.id) ∧
      (∃ t v, (world.timerRun listener earlySteps).1 = [.removed (millis 10) v, .started 0 t] ∧
        t.period = millis 10 ∧ v.id = t.id) ∧
      ¬ ∀ time moment u v, .fired time u ∈ (world.timerRun listener lateSteps).1 →
        .removed moment v ∈ (world.timerRun listener lateSteps).1 → v.id = u.id →
          time < moment := by
  have hlate : ∃ t u v, (world.timerRun listener lateSteps).1 =
      [.removed (millis 10) v, .fired (millis 10) u, .started 0 t] ∧
      t.period = millis 10 ∧ u.id = t.id ∧ v.id = t.id := ⟨_, _, _, rfl, rfl, rfl, rfl⟩
  refine ⟨hlate, ⟨_, _, rfl, rfl, rfl⟩, fun hbefore => ?_⟩
  obtain ⟨t, u, v, hhistory, -, hu, hv⟩ := hlate
  rw [hhistory] at hbefore
  have hlt := hbefore (millis 10) (millis 10) u v (by simp) (by simp) (hv.trans hu.symm)
  exact Nat.lt_irrefl _ hlt

end World

end Statechart
