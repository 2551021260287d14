import Statechart.Proofs.Engine.Timers

/-!
# Timers that are lost

A timer begins in its first step: it waits for its period, unless that would end past all moments.
Then it is lost: it stays among the timers of its owner, and it never fires.

- `World.Retains`         : the timers with an identity are as they were, or stopped
- `World.Retains.serve`, `World.Works.retains`, `World.Closes.retains` : requests and turns
- `World.Step.lost`       : a timer that is lost stays so
- `World.Run.ne_of_lost`  : it never fires
- `World.begins_of_fresh` : the first step of a timer
-/

namespace Statechart

namespace World

variable {w v u : World} {id : Nat}

/-! ## Timers that are left alone -/

/-- The timers with an identity are as they were, or stopped; identities are used up. -/
def Retains (id : Nat) (w v : World) : Prop :=
  w.fresh ≤ v.fresh ∧ ∀ t ∈ v.timers, t.id = id → t ∈ w.timers ∨ w.fresh ≤ id

namespace Retains

theorem of_subset (h : ∀ t ∈ v.timers, t ∈ w.timers) (hfresh : w.fresh ≤ v.fresh) :
    Retains id w v :=
  ⟨hfresh, fun t ht _ => .inl (h t ht)⟩

theorem of_eq (h : v.timers = w.timers) (hfresh : v.fresh = w.fresh) : Retains id w v :=
  of_subset (fun _ ht => h ▸ ht) (Nat.le_of_eq hfresh.symm)

theorem refl (w : World) : Retains id w w := of_eq rfl rfl

theorem trans (h : Retains id w v) (h' : Retains id v u) : Retains id w u := by
  refine ⟨Nat.le_trans h.1 h'.1, fun t ht hid => ?_⟩
  rcases h'.2 t ht hid with ht | hlate
  · exact h.2 t ht hid
  · exact .inr (Nat.le_trans h.1 hlate)

end Retains

theorem Writes.retains (h : w.Writes v) : Retains id w v := by
  obtain ⟨memory, log, -, rfl⟩ := h
  exact .of_eq rfl rfl

theorem Delivers.retains {s : List Sighting} (h : w.Delivers s v) : Retains id w v := by
  obtain ⟨instances, receipts, ready, log, rfl, -⟩ := h.frame
  exact .of_eq rfl rfl

theorem Arms.retains {site : Site} (h : Arms site w v) : Retains id w v := by
  obtain ⟨added, fresh, rfl, hfresh, hadded⟩ := h
  refine ⟨hfresh, fun t ht hid => (List.mem_append.1 ht).imp_right fun hnew => ?_⟩
  obtain ⟨-, -, hlate⟩ := hadded t hnew
  exact hid ▸ hlate

theorem Performs.retains {site : Site} {action : Action}
    {outcome : Except EngineFault (List Action)} (h : w.Performs site action outcome v) :
    Retains id w v := by
  cases h with
  | writes hwrites _ _ => exact hwrites.retains
  | raises hdelivers => exact hdelivers.retains
  | draws => exact .of_eq rfl rfl
  | begins => exact .of_subset (fun _ ht => ht) (Nat.le_succ _)
  | stops _ => exact .of_subset (fun _ ht => List.mem_of_mem_filter ht) (Nat.le_refl _)

/-! ### Turns -/

theorem retains_executeMove (w : World) (n : Nat) (step : Move) :
    Retains id w ((instanceMachine n).executeMove w step).1 := by
  rcases executeMove_cases w n step with hmove | ⟨left, -, hmove⟩ | ⟨state, v, hv, hmoved⟩
  · rw [hmove]
    exact .refl w
  · rw [hmove]
    exact .of_subset (fun _ ht => List.mem_of_mem_filter ht) (Nat.le_refl _)
  · have harmed : Retains id w v := hv ▸ (Arms.startTimers _ w state.after).retains
    rcases hmoved with hmove | ⟨told, hmove⟩
    · rwa [hmove]
    · rw [hmove]
      exact harmed.trans (.of_eq rfl rfl)

theorem Works.retains {n : Nat} {work : List Command} (h : Works n work w v) :
    Retains id w v := by
  induction h with
  | rest _ => exact .refl w
  | @act site action _ _ =>
      obtain ⟨told, htold⟩ := exists_remarks_execute w site action
      rw [htold]
      exact (performs rfl).retains.trans (Writes.remarks _ told).retains
  | move _ => exact retains_executeMove w n _
  | @take i e events _ _ _ =>
      have htaken : Retains id w (w.mapInstance n fun i => { i with inbox := events }) :=
        .of_eq rfl rfl
      exact htaken.trans (Writes.react _ n e).retains
  | tell told _ ih => exact ih.trans (Writes.remarks _ told).retains

theorem Closes.retains {n : Nat} (h : Closes n w v) : Retains id w v := by
  cases h with
  | goes work isStarting => exact .of_eq rfl rfl
  | parks _ _ => exact .of_eq rfl rfl
  | strands => exact .of_eq rfl rfl
  | leaves _ => exact .of_eq rfl rfl
  | finishes result =>
      cases hi : w.instance? n with
      | none =>
          simp only [finish, hi]
          exact .refl w
      | some i =>
          obtain ⟨u, hwoken, hfinish⟩ := finish_frame hi result
          rw [hfinish]
          -- all timers of the instance are stopped before those nested in it are woken
          have hstopped : Retains id w
              ((((w.remark (endRemark n result)).stopTimers (.numbered n)).cancelTasks
                (.numbered n)).mapInstance n fun i =>
                  { i with phase := .ended, isParked := false, isRegistered := false }) :=
            .of_subset (fun _ ht => List.mem_of_mem_filter ht) (Nat.le_refl _)
          exact (hstopped.trans hwoken.retains).trans (.of_eq rfl rfl)

theorem retains_beginTurn (w : World) (n : Nat) : Retains id w (w.beginTurn n) := by
  rcases beginTurn_cases w n with ⟨hsame, -⟩ | ⟨i, told, -, -, hbegun⟩ |
    ⟨i, u, -, -, hworks, hcloses⟩
  · rw [hsame]
    exact .refl w
  · rw [hbegun]
    exact .of_eq rfl rfl
  · exact Retains.trans (.of_eq rfl rfl) (hworks.retains.trans hcloses.retains)

/-! ### Timers and invocations -/

/-- A timer that begins or fires leaves those with other identities alone. -/
theorem retains_updateTimer (w : World) {other : Nat} (stage : TimerStage) (h : other ≠ id) :
    Retains id w (w.updateTimer other fun t => { t with stage }) := by
  refine ⟨Nat.le_refl _, fun t ht hid => .inl ?_⟩
  obtain ⟨t', ht', rfl⟩ := List.mem_map.1 ht
  by_cases hother : (t'.id == other) = true
  · rw [if_pos hother] at hid
    exact absurd ((beq_iff_eq.1 hother).symm.trans hid) h
  · rwa [if_neg hother]

theorem retains_fire {other : Nat} (most : Nat) (w : World) (h : other ≠ id) :
    Retains id w (fire most w other) := by
  induction most generalizing w with
  | zero => exact .of_eq rfl rfl
  | succ most ih =>
      by_cases hawake : ∃ timer due, w.timerById? other = some timer ∧ timer.stage = .awake due
      · obtain ⟨timer, due, htimer, hawake⟩ := hawake
        obtain ⟨stage, u, hu, -, -, -, hcases⟩ := fire_cases most htimer hawake
        have hraise := Delivers.executeRaise w timer.site timer.event
        have hfirst : Retains id w u :=
          hu ▸ hraise.retains.trans (retains_updateTimer _ stage h)
        rcases hcases with ⟨-, hfire, -⟩ | ⟨-, hfire, -⟩
        · rw [hfire]
          exact hfirst.trans (ih u)
        · rwa [hfire]
      · rcases fire_of_not_awake (most + 1) fun timer due htimer hdue =>
          hawake ⟨timer, due, htimer, hdue⟩ with hfire | hfire
        · rw [hfire]
          exact .refl w
        · rw [hfire]
          exact .of_eq rfl rfl

theorem retains_runTimer {other : Nat} (w : World) (h : other ≠ id) :
    Retains id w (w.runTimer other) := by
  unfold runTimer
  split
  · exact .refl w
  · split
    · exact retains_updateTimer w _ h
    · exact retains_fire burst w h

theorem retains_runJob (w : World) (other : Nat) : Retains id w (w.runJob other) := by
  unfold runJob
  split
  · exact .refl w
  · rename_i job _
    split
    · rename_i response _
      obtain ⟨u, hwrites, hdelivers⟩ := exists_writes_answer w job response
      have hlisted : Retains id w { w with jobs := w.jobs.filter fun j => j.id != job.id } :=
        .of_eq rfl rfl
      exact (hlisted.trans hwrites.retains).trans hdelivers.retains
    · exact .of_eq rfl rfl

/-! ### Requests -/

/-- Building makes no timers. -/
theorem isStable_timers :
    IsStable (fun _ => True) fun w v => v.timers = w.timers ∧ v.fresh = w.fresh where
  nested _ _ _ _ := trivial
  refl _ := ⟨rfl, rfl⟩
  trans h h' := ⟨h'.1.trans h.1, h'.2.trans h.2⟩
  addInstance h _ := by
    unfold addInstance at h
    obtain ⟨memory, -, h⟩ := bind_eq_ok_iff.1 h
    obtain ⟨⟨memory', layers⟩, -, h⟩ := bind_eq_ok_iff.1 h
    cases h
    exact ⟨rfl, rfl⟩
  setNested _ _ _ := ⟨rfl, rfl⟩

theorem retains_start (w : World) (ns : List Nat) : Retains id w (w.start ns) := by
  have hregister : ∀ (v : World) (n : Nat),
      ((v.register n).timers, (v.register n).fresh) = (v.timers, v.fresh) := by
    intro v n
    unfold register
    split <;> rfl
  have hqueue : ∀ (v : World) (n : Nat),
      ((v.enqueue (.turn n)).timers, (v.enqueue (.turn n)).fresh) = (v.timers, v.fresh) :=
    fun _ _ => rfl
  have hall : ((w.start ns).timers, (w.start ns).fresh) = (w.timers, w.fresh) := by
    unfold start
    rw [@part_foldl _ _ (fun v => (v.timers, v.fresh)) _ hqueue,
      @part_foldl _ _ (fun v => (v.timers, v.fresh)) _ hregister]
  obtain ⟨htimers, hfresh⟩ := Prod.mk.inj hall
  exact .of_eq htimers hfresh

theorem retains_startBuilt {built : World} {g : Graph} {enclosing : Extent} {parent : Option Nat}
    {n : Nat} (h : build w enclosing parent g = .ok (built, n)) (ns : List Nat) :
    Retains id w ((built.adopt parent n).start ns) := by
  obtain ⟨htimers, hfresh⟩ := isStable_timers.build h trivial
  have hadopted : Retains id built (built.adopt parent n) := by
    unfold adopt
    split <;> exact .of_eq rfl rfl
  exact (Retains.of_eq htimers hfresh).trans (hadopted.trans (retains_start _ ns))

theorem retains_launch (w : World) (c : Collaboration) : Retains id w (w.launch c).1 := by
  unfold launch
  split
  · exact .refl w
  · split
    · exact .of_eq rfl rfl
    · simp only
      split
      · exact .of_eq rfl rfl
      · rename_i built ns hbuild
        obtain ⟨htimers, hfresh⟩ := isStable_timers.buildAll hbuild fun _ _ => trivial
        have hbuilt : Retains id w built := .of_eq htimers hfresh
        exact hbuilt.trans (Retains.trans (.of_eq rfl rfl) (retains_start (built.remark _) _))

theorem retains_serve (w : World) (r : Request) : Retains id w (w.serve r) := by
  have hcancel : ∀ (v : World) (n : Nat), Retains id v (v.cancel n) := fun v n => by
    have hasked : Retains id v (v.mapInstance n fun i => { i with isCancelled := true }) :=
      .of_eq rfl rfl
    exact hasked.trans (Delivers.refl.wake n).retains
  cases r with
  | launch c => exact retains_launch w c
  | spawn g parent =>
      simp only [serve, spawn]
      split
      · exact .refl w
      · split
        · exact .refl w
        · exact retains_startBuilt (by assumption) _
  | place g enclosing parent =>
      simp only [serve, place]
      split
      · exact .refl w
      · exact retains_startBuilt (by assumption) _
  | offer p e => exact (Delivers.offer w p e).retains
  | send source e => exact (Delivers.send w source e).retains
  | cancel n => exact hcancel w n
  | shutDown =>
      simp only [serve, shutDown]
      split
      · exact .refl w
      · exact .trans (.of_eq rfl rfl) (List.foldlRecOn _ _ (.refl _) fun v h n _ =>
          h.trans (hcancel v n))
  | write memory => exact .of_eq rfl rfl
  | respond other response =>
      simp only [serve, respond]
      split
      · exact .refl w
      · split
        · exact .of_eq rfl rfl
        · exact .of_eq rfl rfl
        · exact .refl w

/-! ## Lost timers -/

section Lost

variable {timer : Timer} {label : Option Happening}

/-- Timers with the identity of one timer are that timer. -/
theorem eq_of_id (htidy : w.status.IsTidy) {t : Timer} (ht : t ∈ w.timers)
    (htimer : timer ∈ w.timers) (hid : t.id = timer.id) : t = timer := by
  have hnodup : (w.timers.map Timer.id).Nodup := by
    have h := htidy.nodup
    rwa [status, List.map_map] at h
  exact List.inj_on_of_nodup_map hnodup ht htimer hid

theorem Retains.eq_timer (h : Retains timer.id w v) (htidy : w.status.IsTidy)
    (htimer : timer ∈ w.timers) : ∀ t ∈ v.timers, t.id = timer.id → t = timer := by
  intro t ht hid
  rcases h.2 t ht hid with hthere | hlate
  · exact eq_of_id htidy hthere htimer hid
  · -- the identity was given out before
    exact absurd (htidy.below _ (List.mem_map_of_mem htimer)) (Nat.not_lt.2 hlate)

theorem timerById?_of_mem (htidy : w.status.IsTidy) (htimer : timer ∈ w.timers) :
    w.timerById? timer.id = some timer := by
  cases hfound : w.timerById? timer.id with
  | none => exact absurd (beq_self_eq_true timer.id) (List.find?_eq_none.1 hfound timer htimer)
  | some t =>
      have hid : (t.id == timer.id) = true := List.find?_some (p := fun t : Timer =>
        t.id == timer.id) hfound
      rw [eq_of_id htidy (List.mem_of_find?_eq_some hfound) htimer (beq_iff_eq.1 hid)]

/-- Neither its task nor time changes a timer that is lost, and nothing else changes timers. -/
theorem Step.lost (hstep : Step w label v) (htidy : w.status.IsTidy) (htimer : timer ∈ w.timers)
    (hlost : timer.stage = .lost) : ∀ t ∈ v.timers, t.id = timer.id → t = timer := by
  cases hstep with
  | ask r => exact (retains_serve w r).eq_timer htidy htimer
  | wait time => exact (Retains.refl w).eq_timer htidy htimer
  | jump time =>
      intro t ht hid
      rw [timers_jump] at ht
      obtain ⟨t', ht', rfl⟩ := List.mem_map.1 ht
      have hsame : t'.awaken.id = t'.id :=
        show t'.awaken.plain.id = t'.plain.id by rw [Queues.plain_awaken]
      obtain rfl : t' = timer := eq_of_id htidy ht' htimer (by
        split at hid
        · exact hsame.symm.trans hid
        · exact hid)
      simp [Timer.due?, hlost]
  | go hgo =>
      unfold step? at hgo
      split at hgo
      · rename_i t hcurrent
        cases hgo
        obtain ⟨u, hworks, hcloses⟩ := resume_cases w t
        exact (hworks.retains.trans hcloses.retains).eq_timer htidy htimer
      · split at hgo
        · rename_i task rest _
          cases hgo
          have hpopped : Retains timer.id w { w with ready := rest } := .of_eq rfl rfl
          cases task with
          | turn n => exact (hpopped.trans (retains_beginTurn _ n)).eq_timer htidy htimer
          | job other => exact (hpopped.trans (retains_runJob _ other)).eq_timer htidy htimer
          | timer other =>
              by_cases hother : other = timer.id
              · -- its own task may still be queued, and finds nothing to do
                have hthere : ({ w with ready := rest } : World).timerById? other = some timer :=
                  hother ▸ timerById?_of_mem htidy htimer
                have hsame : ({ w with ready := rest } : World).runTimer other =
                    { w with ready := rest } := by
                  simp only [runTimer, hthere, hlost, burst, fire]
                rw [run, hsame]
                exact hpopped.eq_timer htidy htimer
              · exact (hpopped.trans (retains_runTimer _ hother)).eq_timer htidy htimer
        · cases hgo

variable {later : List Happening}

/-- A timer that is lost stays so as long as it is there. -/
theorem Run.lost (hlater : Run w later v) (htidy : w.status.IsTidy)
    (hbuilt : ∀ r, .asked r ∈ later → r.IsBuilt) (htimer : timer ∈ w.timers)
    (hlost : timer.stage = .lost) : ∀ t ∈ v.timers, t.id = timer.id → t = timer := by
  induction hlater with
  | start => exact fun t ht hid => eq_of_id htidy ht htimer hid
  | @step hs label u v hbefore hstep ih =>
      obtain ⟨hlabel, hold⟩ := isBuilt_of_toList hbuilt
      have htidy' := hbefore.isTidy htidy hold
      intro t ht hid
      by_cases hthere : timer ∈ u.timers
      · exact hstep.lost htidy' hthere hlost t ht hid
      · -- once it is stopped, identities are already beyond its own
        rcases (hstep.advances htidy' hlabel).origin _ (List.mem_map_of_mem ht) with hkey | hlate
        · obtain ⟨t', ht', hsame⟩ := List.mem_map.1 hkey
          have hid' : t'.id = timer.id := (congrArg TimerKey.id hsame).trans hid
          exact absurd (ih hold t' ht' hid' ▸ ht') hthere
        · have hbelow : timer.key.id < w.fresh := htidy.below _ (List.mem_map_of_mem htimer)
          have hfresh := (hbefore.origin htidy hold).1
          rw [show t.key.id = timer.key.id from hid] at hlate
          exact absurd (Nat.lt_of_lt_of_le hbelow hfresh) (Nat.not_lt.2 hlate)

/-- A timer that is lost never fires. -/
theorem Run.ne_of_lost (hlater : Run w later v) (htidy : w.status.IsTidy)
    (hbuilt : ∀ r, .asked r ∈ later → r.IsBuilt) (htimer : timer ∈ w.timers)
    (hlost : timer.stage = .lost) {fired : Timer} (hfired : .fired fired ∈ later) :
    fired.id ≠ timer.id := by
  intro hid
  -- at the moment of the firing the timer would have to be awake
  obtain ⟨newer, older, rfl⟩ := List.append_of_mem hfired
  obtain ⟨w₁, _, hbefore, hfire, -⟩ := hlater.split
  obtain ⟨hthere, hawake⟩ := mem_timers_of_fired hfire
  have hold : ∀ r, .asked r ∈ older → r.IsBuilt := fun r hr =>
    hbuilt r (List.mem_append_right _ (List.mem_cons_of_mem _ hr))
  rw [hbefore.lost htidy hold htimer hlost fired hthere hid, Timer.isAwake, hlost] at hawake
  cases hawake

end Lost

/-! ## The first step of a timer -/

/-- A timer begins when its task runs: it waits for its period from then on, or it is lost. -/
theorem begins_of_fresh {timer : Timer} {rest : List Task} (hcurrent : w.current = none)
    (hready : w.ready = .timer timer.id :: rest) (h : w.timerById? timer.id = some timer)
    (hfresh : timer.stage = .fresh) :
    ∃ v, w.step? = some v ∧ v.timerById? timer.id = some { timer with stage := w.begun timer } := by
  have hthere : ({ w with ready := rest } : World).timerById? timer.id = some timer := h
  have hrun : ({ w with ready := rest } : World).runTimer timer.id =
      ({ w with ready := rest } : World).updateTimer timer.id fun t =>
        { t with stage := w.begun timer } := by
    simp only [runTimer, hthere, hfresh]
    rfl
  refine ⟨_, step?_of_ready hcurrent hready, ?_⟩
  rw [run, hrun]
  exact timerById?_updateTimer (f := fun t => { t with stage := w.begun timer }) hthere
    fun _ => rfl

end World

end Statechart
