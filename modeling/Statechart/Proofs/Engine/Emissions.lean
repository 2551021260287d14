import Statechart.Proofs.Engine.Invocations
import Statechart.Proofs.Engine.Reach
import Statechart.Proofs.Engine.Traffic

/-!
# Where events go

An instance emits events by its actions, by its timers, and when its invocations are answered. What
an action or a timer raises goes by its channel: internal events are offered to the instance itself,
all others are sent over the bus. What an invocation raises is offered to the instance in any case.

- `Emission`                 : an event, who emits it, and how
- `World.emitted`            : what is emitted in the next step
- `World.sent_eq_emitted`    : what is published of it
- `World.gets`               : what an instance gets of it
- `World.inbox?_step?`       : what is emitted is at the end of the inboxes of those who get it
- `World.emissions_of_run`   : the rule, at any time of a run
-/

namespace Statechart

structure Emission where
  emitter : Party
  event : Event
  /-- Whether an invocation raises it that is answered. -/
  isDone : Bool

namespace Emission

/-- Whether it is offered to who emits it, and not sent over the bus. -/
def isDirect (e : Emission) : Bool := e.isDone || decide (e.event.channel = .internal)

/-- What observers of the bus see of it. -/
def sighting (e : Emission) : Sighting := ⟨e.emitter, e.event⟩

end Emission

/-- What an invocation raises when it is answered. -/
def Job.completions (job : Job) : Response → List Emission
  | .ok output => job.call.done.map fun t => ⟨job.site.owner, t.toEvent output, true⟩
  | .error _ => []

theorem Job.mem_completions {job : Job} {response : Response} {e : Emission}
    (h : e ∈ job.completions response) :
    e.emitter = job.site.owner ∧ e.isDone = true := by
  unfold Job.completions at h
  split at h
  · obtain ⟨t, -, rfl⟩ := List.mem_map.1 h
    exact ⟨rfl, rfl⟩
  · cases h

namespace World

variable {w v : World} {m : Nat}

/-! ## What is emitted -/

/-- What is emitted when an event is raised. -/
def raises (w : World) (site : Site) (t : EventTemplate) : List Emission :=
  match t.evaluate (site.extent.lookup w.memory) with
  | .ok e => [⟨site.owner, e, false⟩]
  | .error _ => []

/-- What a timer emits in a burst. -/
def timerEmissions (w : World) (most : Nat) (timer : Timer) : List Emission :=
  (List.replicate (firings w.clock most timer) (w.raises timer.site timer.event)).flatten

/-- What is emitted in the next step. -/
def emitted (w : World) : List Emission :=
  match w.current with
  | some t =>
      match t.work with
      | .act site (.raise template) :: _ => w.raises site template
      | _ => []
  | none =>
      match w.ready with
      | .timer id :: _ => (w.timerById? id).elim [] (w.timerEmissions burst)
      | .job _ :: _ => w.answering?.elim [] fun (job, response) => job.completions response
      | _ => []

theorem raises_of_memory (h : v.memory = w.memory) (site : Site) (t : EventTemplate) :
    v.raises site t = w.raises site t := by
  rw [raises, h, raises]

theorem mem_raises {site : Site} {t : EventTemplate} {e : Emission} (h : e ∈ w.raises site t) :
    e.emitter = site.owner ∧ e.isDone = false := by
  unfold raises at h
  split at h
  · cases List.mem_singleton.1 h
    exact ⟨rfl, rfl⟩
  · cases h

theorem mem_timerEmissions {most : Nat} {timer : Timer} {e : Emission}
    (h : e ∈ w.timerEmissions most timer) :
    e ∈ w.raises timer.site timer.event := by
  obtain ⟨emissions, hemissions, he⟩ := List.mem_flatten.1 h
  obtain ⟨-, rfl⟩ := List.mem_replicate.1 hemissions
  exact he

/-- The three ways in which events are emitted. -/
theorem emitted_cases (h : w.emitted ≠ []) :
    (∃ t site template rest, w.current = some t ∧
      t.work = .act site (.raise template) :: rest ∧ w.emitted = w.raises site template) ∨
    (∃ id rest timer, w.current = none ∧ w.ready = .timer id :: rest ∧
      w.timerById? id = some timer ∧ w.emitted = w.timerEmissions burst timer) ∨
    ∃ job response, w.answering? = some (job, response) ∧
      w.emitted = job.completions response := by
  unfold emitted at h ⊢
  split at h
  · rename_i t hcurrent
    split at h
    · rename_i site template rest hwork
      exact .inl ⟨t, site, template, rest, hcurrent, hwork, rfl⟩
    · exact absurd rfl h
  · rename_i hcurrent
    split at h
    · rename_i id rest hready
      cases htimer : w.timerById? id with
      | none =>
          rw [htimer] at h
          exact absurd rfl h
      | some timer =>
          exact .inr (.inl ⟨id, rest, timer, hcurrent, hready, htimer, rfl⟩)
    · rename_i id rest hready
      cases hanswering : w.answering? with
      | none =>
          rw [hanswering] at h
          exact absurd rfl h
      | some answer => exact .inr (.inr ⟨answer.1, answer.2, rfl, rfl⟩)
    · exact absurd rfl h

/-! ## What is published -/

/-- What of some emissions is for the bus. -/
def forBus (es : List Emission) : List Sighting :=
  (es.filter fun e => !e.isDirect).map Emission.sighting

theorem forBus_raises (w : World) (site : Site) (t : EventTemplate) :
    forBus (w.raises site t) = w.raised site t := by
  unfold raises raised
  cases t.evaluate (site.extent.lookup w.memory) with
  | error fault => rfl
  | ok e =>
      unfold forBus Event.sightings
      by_cases h : e.channel = .internal
      · simp [Emission.isDirect, h]
      · simp [Emission.isDirect, Emission.sighting, h]

theorem forBus_timerEmissions (w : World) (most : Nat) (timer : Timer) :
    forBus (w.timerEmissions most timer) = w.timerSightings most timer := by
  unfold timerEmissions timerSightings
  rw [← forBus_raises]
  -- each firing emits the same
  induction firings w.clock most timer with
  | zero => rfl
  | succ k ih =>
      rw [List.replicate_succ, List.replicate_succ, List.flatten_cons, List.flatten_cons, ← ih]
      simp only [forBus, List.filter_append, List.map_append]

theorem forBus_completions (job : Job) (response : Response) :
    forBus (job.completions response) = [] := by
  have hnone : (job.completions response).filter (fun e => !e.isDirect) = [] := by
    rw [List.filter_eq_nil_iff]
    intro e he
    simp [Emission.isDirect, (Job.mem_completions he).2]
  rw [forBus, hnone, List.map_nil]

/-- What is published in a step is what is emitted for the bus. -/
theorem sent_eq_emitted (w : World) : w.sent w.happening? = forBus w.emitted := by
  cases hcurrent : w.current with
  | some t =>
      rw [sent_of_current hcurrent]
      simp only [emitted, hcurrent]
      cases hwork : t.work with
      | nil => rfl
      | cons command rest =>
          cases command with
          | move step => rfl
          | act site action =>
              cases action with
              | raise template => exact (forBus_raises w site template).symm
              | _ => rfl
  | none =>
      cases hready : w.ready with
      | nil =>
          simp only [happening?, emitted, hcurrent, hready]
          rfl
      | cons task rest =>
          cases task with
          | turn n =>
              rw [sent_of_turn hcurrent hready]
              simp only [emitted, hcurrent, hready]
              rfl
          | timer id =>
              rw [sent_of_timer hcurrent hready]
              simp only [emitted, hcurrent, hready]
              cases w.timerById? id with
              | none => rfl
              | some timer => exact (forBus_timerEmissions w burst timer).symm
          | job id =>
              simp only [happening?, emitted, hcurrent, hready]
              cases w.answering? with
              | none => rfl
              | some answer => exact (forBus_completions answer.1 answer.2).symm

/-! ## Who gets it -/

/-- Whom an emission is for that is offered to who emits it. -/
def addressees (w : World) (e : Emission) : List Nat :=
  match e.emitter with
  | .numbered n => w.recipients e.event n
  | .named _ => []

/-- What an instance gets of an emission. -/
def gets (w : World) (m : Nat) (e : Emission) : List Event :=
  if e.isDirect then List.replicate ((w.addressees e).count m) e.event
  else w.gains m [e.sighting]

/-- Where an emission goes. -/
def route (w : World) (e : Emission) : World :=
  if e.isDirect then (w.offer e.emitter e.event).1 else (w.send e.emitter e.event).1

/-- Who is in an audience depends on who is nested in whom and on who is there. -/
theorem audience_congr {is js : List Instance}
    (h : ∀ n : Nat, is[n]?.map (fun i : Instance => (i.profile, i.kin)) =
      js[n]?.map fun i : Instance => (i.profile, i.kin)) (depth n : Nat) :
    audience is depth n = audience js depth n := by
  induction depth generalizing n with
  | zero => rfl
  | succ depth ih =>
      -- an instance passes an event on to those of its children that are known
      have hregistered : ∀ c : Nat,
          is[c]?.any Instance.isRegistered = js[c]?.any Instance.isRegistered := by
        intro c
        have hprofiles := congrArg (Option.any fun p => p.1.isRegistered) (h c)
        rw [Option.any_map, Option.any_map] at hprofiles
        exact hprofiles
      cases hi : is[n]? with
      | none =>
          have hj : js[n]? = none := by simpa [hi] using (h n).symm
          simp only [audience, hi, hj]
      | some i =>
          obtain ⟨j, hj, hsame⟩ :
              ∃ j, js[n]? = some j ∧ (j.profile, j.kin) = (i.profile, i.kin) := by
            have hthere := (h n).symm
            rw [hi] at hthere
            exact Option.map_eq_some_iff.1 hthere
          obtain ⟨hprofile, hkin⟩ := Prod.mk.inj hsame
          have hphase : j.phase = i.phase := congrArg Profile.phase hprofile
          have hnested : j.nested = i.nested := congrArg Kin.nested hkin
          rw [audience_succ is depth n hi, audience_succ js depth n hj, hnested,
            Instance.hasEnded, Instance.isOpen, Instance.hasEnded, Instance.isOpen, hphase]
          simp only [hregistered, ih]

theorem recipients_eq (w : World) (e : Event) (n : Nat) :
    w.recipients e n =
      if e.channel = .internal then audience w.instances w.instances.length n
      else if w.isOpenAt n then [n] else [] := by
  unfold recipients isOpenAt
  cases w.instance? n <;> rfl

theorem recipients_congr (hprofiles : v.profiles = w.profiles) (hkin : v.kin = w.kin) (e : Event)
    (n : Nat) : v.recipients e n = w.recipients e n := by
  have hsame : ∀ n : Nat, v.instances[n]?.map (fun i : Instance => (i.profile, i.kin)) =
      w.instances[n]?.map fun i : Instance => (i.profile, i.kin) := by
    intro n
    have hp := congrArg (·[n]?) hprofiles
    have hk := congrArg (·[n]?) hkin
    simp only [profiles_getElem?, kin_getElem?, instance?] at hp hk
    cases hv : v.instances[n]? <;> cases hw : w.instances[n]? <;> simp_all
  have hlength : v.instances.length = w.instances.length := by
    simpa [profiles] using congrArg List.length hprofiles
  have hopen : v.isOpenAt n = w.isOpenAt n := by
    have hany : ∀ u : World, u.isOpenAt n = (u.instances[n]?.map fun i => (i.profile, i.kin)).any
        fun p => p.1.phase == .created || p.1.phase == .running := by
      intro u
      rw [Option.any_map]
      rfl
    rw [hany, hany, hsame]
  rw [recipients_eq, recipients_eq, hopen, hlength, audience_congr hsame]

theorem gets_congr (htopology : v.topology = w.topology) (m : Nat) (e : Emission) :
    v.gets m e = w.gets m e := by
  have hprofiles : v.profiles = w.profiles := congrArg Topology.profiles htopology
  have hkin : v.kin = w.kin := congrArg Topology.kin htopology
  have haddressees : v.addressees e = w.addressees e := by
    unfold addressees
    split
    · exact recipients_congr hprofiles hkin _ _
    · rfl
  rw [gets, gets, haddressees, gains_of_topology htopology]

/-! ## Inboxes -/

/-- An event that is offered is at the end of the inboxes of those whom it is for. -/
theorem inbox?_offered (w : World) (e : Emission) (m : Nat) :
    (w.offer e.emitter e.event).1.inbox? m =
      (w.inbox? m).map (· ++ List.replicate ((w.addressees e).count m) e.event) := by
  unfold addressees
  cases e.emitter with
  | named name =>
      have hkept : (w.offer (.named name) e.event).1.inbox? m = w.inbox? m := by
        simp only [offer]
        split <;> rfl
      rw [hkept]
      cases w.inbox? m <;> simp
  | numbered n =>
      simp only [offer]
      cases hi : w.instance? n with
      | some i => exact inbox?_postAll e.event w _ m
      | none =>
          -- nobody is nested in an instance that is not there
          have hnobody : w.recipients e.event n = [] := by
            rw [recipients_eq, isOpenAt, hi]
            cases w.instances.length with
            | zero => simp [audience]
            | succ depth =>
                have hnone : w.instances[n]? = none := hi
                simp [audience, hnone]
          rw [hnobody]
          cases w.inbox? m <;> simp

theorem inbox?_route (hw : w.IsAttentive) (e : Emission) (m : Nat) :
    (w.route e).inbox? m = (w.inbox? m).map (· ++ w.gets m e) := by
  unfold route gets
  cases hdirect : e.isDirect with
  | true => exact inbox?_offered w e m
  | false =>
      have hchannel : e.event.channel ≠ .internal := by
        intro hinternal
        simp [Emission.isDirect, hinternal] at hdirect
      have hsightings : e.event.sightings e.emitter = [e.sighting] := if_neg hchannel
      have hsend := inbox?_sent hw e.emitter hchannel m
      rw [hsightings] at hsend
      exact hsend

/-- Raising an event emits it. -/
theorem inbox?_raises (hw : w.IsAttentive) (site : Site) (t : EventTemplate) (m : Nat) :
    (worldActor.execute w site (.raise t)).1.inbox? m =
      (w.inbox? m).map (· ++ (w.raises site t).flatMap (w.gets m)) := by
  obtain ⟨told, htold⟩ := exists_remarks_execute w site (.raise t)
  have hperform : (w.perform site (.raise t)).1.inbox? m =
      (w.inbox? m).map (· ++ (w.raises site t).flatMap (w.gets m)) := by
    unfold raises
    cases hevent : t.evaluate (site.extent.lookup w.memory) with
    | error fault =>
        rw [perform_raise_of_error hevent]
        cases w.inbox? m <;> simp
    | ok e =>
        have hroute : (w.perform site (.raise t)).1 = w.route ⟨site.owner, e, false⟩ := by
          have hdeliver : (w.deliver site.owner e).1 = w.route ⟨site.owner, e, false⟩ := by
            unfold deliver route Emission.isDirect
            by_cases h : e.channel = .internal <;> simp [h]
          rw [perform_raise_of_ok hevent, hdeliver]
        rw [hroute, inbox?_route hw]
        simp
  rw [htold]
  exact hperform

/-- Every firing of a burst emits the event. -/
theorem inbox?_timerEmissions (hw : w.IsAttentive) {id : Nat} {timer : Timer} (most : Nat)
    (h : w.timerById? id = some timer) (m : Nat) :
    (fire most w id).inbox? m =
      (w.inbox? m).map (· ++ (w.timerEmissions most timer).flatMap (w.gets m)) := by
  have hnothing : ∀ {w v : World}, v.inbox? m = w.inbox? m →
      v.inbox? m = (w.inbox? m).map (· ++ ([] : List Emission).flatMap (w.gets m)) := by
    intro w v hv
    rw [hv]
    cases w.inbox? m <;> simp
  induction most generalizing w timer with
  | zero => exact hnothing rfl
  | succ most ih =>
      by_cases hawake : ∃ due, timer.stage = .awake due
      · obtain ⟨due, hawake⟩ := hawake
        obtain ⟨stage, u, hu, hmemory, hclock, hthere, hcases⟩ := fire_cases most h hawake
        have htopology : u.topology = w.topology :=
          hu ▸ (Queues.updateTimer _ id stage).topology_eq.trans (topology_execute w _ _)
        have hfirst : u.inbox? m =
            (w.inbox? m).map (· ++ (w.raises timer.site timer.event).flatMap (w.gets m)) :=
          hu ▸ inbox?_raises hw timer.site timer.event m
        rcases hcases with ⟨-, hfire, hfirings⟩ | ⟨-, hfire, hfirings⟩
        · -- later firings emit the same, for the same instances
          have hemissions : w.timerEmissions (most + 1) timer =
              w.raises timer.site timer.event ++ u.timerEmissions most { timer with stage } := by
            simp only [timerEmissions, hfirings, hclock, raises_of_memory hmemory]
            rw [List.replicate_succ, List.flatten_cons]
          have hgets : u.gets m = w.gets m := funext (gets_congr htopology m)
          rw [hfire, hemissions, ih (hw.of_topology htopology) hthere, hfirst, hgets,
            inbox_append_append, List.flatMap_append]
        · have hemissions :
              w.timerEmissions (most + 1) timer = w.raises timer.site timer.event := by
            simp [timerEmissions, hfirings]
          rw [hfire, hemissions, hfirst]
      · have hnot : ∀ due, timer.stage ≠ .awake due := fun due hdue => hawake ⟨due, hdue⟩
        have hemissions : w.timerEmissions (most + 1) timer = [] := by
          rw [timerEmissions, firings_of_not_awake w.clock _ hnot]
          rfl
        rw [hemissions]
        rcases fire_of_not_awake (most + 1) (fun t due ht => by
          obtain rfl := Option.some.inj (h.symm.trans ht)
          exact hnot due) with hfire | hfire
        · exact hnothing (congrArg (·.inbox? m) hfire)
        · exact hnothing (congrArg (·.inbox? m) hfire)

/-- Everything that an invocation raises is offered to its owner. -/
theorem inbox?_completions (w : World) (owner : Party) (response : List (String × Value))
    (done : List EventTemplate) (m : Nat) :
    (done.foldl (fun u t => (u.offer owner (t.toEvent response)).1) w).inbox? m =
      (w.inbox? m).map (· ++ (done.map fun t =>
        (⟨owner, t.toEvent response, true⟩ : Emission)).flatMap (w.gets m)) := by
  induction done generalizing w with
  | nil =>
      rw [List.foldl_nil, List.map_nil, List.flatMap_nil]
      cases w.inbox? m <;> simp
  | cons t rest ih =>
      have hgets : (w.offer owner (t.toEvent response)).1.gets m = w.gets m :=
        funext (gets_congr (Delivers.offer w owner (t.toEvent response)).topology_eq m)
      have hfirst := inbox?_offered w ⟨owner, t.toEvent response, true⟩ m
      rw [List.foldl_cons, ih, hgets, hfirst, inbox_append_append]
      rfl

/-- What is emitted in a step is at the end of the inboxes of those who get it, and nothing else
changes in any inbox. -/
theorem inbox?_step? (hgo : w.step? = some v) (hw : w.IsAttentive) (hemitted : w.emitted ≠ [])
    (m : Nat) : v.inbox? m = (w.inbox? m).map (· ++ w.emitted.flatMap (w.gets m)) := by
  -- an action raises it, a timer fires, or an invocation is answered
  rcases emitted_cases hemitted with ⟨t, site, template, rest, hcurrent, hwork, happends⟩ |
    ⟨id, rest, timer, hcurrent, hready, htimer, hemissions⟩ |
    ⟨job, response, hanswering, hcompletions⟩
  · have hresume : w.resume t = v := by
      simpa [step?, hcurrent] using hgo
    obtain ⟨work, hact⟩ := resume_act (w := w) hwork
    rw [happends, ← hresume, hact]
    exact inbox?_raises hw site template m
  · have hawake : timer.isAwake = true := by
      by_contra hasleep
      refine hemitted (hemissions.trans ?_)
      rw [timerEmissions, firings_of_not_awake w.clock burst fun due hdue => hasleep ?_]
      · rfl
      · rw [Timer.isAwake, hdue]
    have hfire : fire burst { w with ready := rest } id = v := by
      rw [← runTimer_of_isAwake (w := { w with ready := rest }) htimer hawake]
      rw [step?_of_ready hcurrent hready] at hgo
      exact Option.some.inj hgo
    rw [hemissions, ← hfire]
    exact inbox?_timerEmissions (w := { w with ready := rest }) hw burst htimer m
  · obtain ⟨-, -, rest, -, hstep⟩ := step?_of_answering hanswering
    obtain rfl := Option.some.inj (hstep.symm.trans hgo)
    rw [hcompletions] at hemitted ⊢
    cases response with
    | error fault => exact absurd rfl hemitted
    | ok output =>
        obtain ⟨log, hanswer⟩ := answer_eq { w with ready := rest } job output
        rw [hanswer]
        exact inbox?_completions _ job.site.owner output job.call.done m

/-! ## The rule -/

/-- The emitter is among those whom an event is for that is offered to it, if it takes events. -/
theorem mem_addressees {e : Emission} {n : Nat} {i : Instance} (hemitter : e.emitter = .numbered n)
    (hi : w.instance? n = some i) (hopen : i.isOpen = true) : n ∈ w.addressees e := by
  have hthere : n < w.instances.length := (List.getElem?_eq_some_iff.1 hi).1
  rw [addressees, hemitter]
  simp only
  rw [recipients_eq]
  split
  · cases hlength : w.instances.length with
    | zero => omega
    | succ depth =>
        have hlive : i.hasEnded = false := by
          unfold Instance.hasEnded
          unfold Instance.isOpen at hopen
          cases hphase : i.phase <;> simp_all
        rw [audience_succ w.instances depth n hi, hlive, if_neg Bool.false_ne_true, if_pos hopen]
        exact List.mem_append_right _ (List.mem_singleton_self n)
  · rw [isOpenAt_of_instance? hi, if_pos hopen]
    exact List.mem_singleton_self n

/-- Emissions are those of instances. -/
theorem isInstance_of_mem_emitted (htidy : w.status.IsTidy) (howned : w.IsOwned)
    (hkept : w.jobTable.IsKept) {e : Emission} (he : e ∈ w.emitted) : e.emitter.IsInstance := by
  rcases emitted_cases (List.ne_nil_of_mem he) with
    ⟨t, site, template, rest, hcurrent, hwork, happends⟩ |
    ⟨id, rest, timer, -, -, htimer, hemissions⟩ |
    ⟨job, response, hanswering, hcompletions⟩
  · have howner := htidy.work t hcurrent site (.raise template) (hwork ▸ List.mem_cons_self)
    exact ⟨t.number, (mem_raises (happends ▸ he)).1.trans howner⟩
  · have howner := howned.timers timer (List.mem_of_find?_eq_some htimer)
    exact (mem_raises (mem_timerEmissions (hemissions ▸ he))).1 ▸ howner
  · have howner := hkept.manned job.plain (plain_mem_jobTable (step?_of_answering hanswering).1)
    exact (Job.mem_completions (hcompletions ▸ he)).1 ▸ howner

theorem isDone_of_mem_emitted {e : Emission} (he : e ∈ w.emitted) :
    e.isDone = true ↔ ∃ job response, w.answering? = some (job, response) := by
  rcases emitted_cases (List.ne_nil_of_mem he) with
    ⟨t, site, template, rest, hcurrent, hwork, happends⟩ |
    ⟨id, rest, timer, hcurrent, hready, -, hemissions⟩ |
    ⟨job, response, hanswering, hcompletions⟩
  · have hanswering : w.answering? = none := by simp only [answering?, hcurrent]
    simp [(mem_raises (happends ▸ he)).2, hanswering]
  · have hanswering : w.answering? = none := by simp only [answering?, hcurrent, hready]
    simp [(mem_raises (mem_timerEmissions (hemissions ▸ he))).2, hanswering]
  · simp [(Job.mem_completions (hcompletions ▸ he)).2, hanswering]

section Engines

variable {memory : Memory} {root : LayerId} {c : Configuration} {services : Registry Float}
  {choices : Choices} {hs : List Happening}

theorem Run.isAttentive (hrun : Run (engine memory root c services choices) hs w)
    (hbuilt : ∀ r, .asked r ∈ hs → r.IsBuilt) : w.IsAttentive := by
  have htidy := (engine_isNew memory root c services choices).isTidy
  obtain ⟨haccounts, henlisted⟩ := hrun.isAccounted htidy
    (engine_accounts memory root c services choices)
    (engine_isOrderly memory root c services choices).isEnlisted hbuilt
  exact World.isAttentive haccounts henlisted (hrun.listensOnce htidy List.nodup_nil hbuilt)

/-- What an engine emits at any time of a run, it emits for instances; and it is done with an
invocation if one is answered in that step. What an action or a timer raises goes by its channel:
internal events are offered to the emitter, which is among those whom they are for, and never
published; all others are published under the emitter, and are for those who listen, the emitter
like anybody else. What an invocation raises is offered to the emitter whatever its channel, and
never published. Everybody gets what is for him, in order, and nothing else in that step. -/
theorem emissions_of_run (hbuilt : ∀ r, .asked r ∈ hs → r.IsBuilt)
    (hrun : Run (engine memory root c services choices) hs w) (hgo : w.step? = some v) :
    (∀ e ∈ w.emitted, e.emitter.IsInstance ∧
      (e.isDone = true ↔ ∃ job response, w.answering? = some (job, response)) ∧
      (e.isDirect = true ↔ e.isDone = true ∨ e.event.channel = .internal) ∧
      (e.isDirect = true → ∀ n i, e.emitter = .numbered n → w.instance? n = some i →
        i.isOpen = true → n ∈ w.addressees e)) ∧
    v.bus.published = w.bus.published ++
      (w.emitted.filter fun e => !e.isDirect).map (fun e => ⟨e.emitter, e.event⟩) ∧
    (w.emitted ≠ [] → ∀ m i, w.instance? m = some i →
      v.inbox? m = some (i.inbox ++ w.emitted.flatMap fun e =>
        if e.isDirect then List.replicate ((w.addressees e).count m) e.event
        else if i.isOpen && w.carries ⟨e.emitter, e.event⟩ then [e.event] else [])) := by
  have hnew := engine_isNew memory root c services choices
  have htidy := hrun.isTidy hnew.isTidy hbuilt
  have howned := hrun.isOwned hnew hbuilt
  have hkept := hrun.isKept hnew.isTidy (engine_isIdle memory root c services choices).isKept hbuilt
  refine ⟨fun e he => ⟨?_, ?_, ?_, ?_⟩, ?_, ?_⟩
  · exact isInstance_of_mem_emitted htidy howned hkept he
  · exact isDone_of_mem_emitted he
  · simp [Emission.isDirect]
  · intro _ n i hemitter hi hopen
    exact mem_addressees hemitter hi hopen
  · have hpublished := (Step.go hgo).published
    rw [sent_eq_emitted] at hpublished
    exact hpublished
  · -- what an instance gets, told by what it is and by the subscriptions
    intro hemitted m i hi
    have hgets : ∀ e, w.gets m e =
        if e.isDirect then List.replicate ((w.addressees e).count m) e.event
        else if i.isOpen && w.carries ⟨e.emitter, e.event⟩ then [e.event] else [] := by
      intro e
      unfold gets gains
      rw [isOpenAt_of_instance? hi]
      cases e.isDirect <;> cases i.isOpen <;>
        cases hcarries : w.carries e.sighting <;> simp_all [Emission.sighting]
    rw [inbox?_step? hgo (hrun.isAttentive hbuilt) hemitted m, inbox?, hi, Option.map_some,
      Option.map_some, funext hgets]

end Engines

/-! ### Two trials -/

/-- The ping of an action is for the bus. -/
theorem ping_emissions :
    ∃ hs e, Run bare hs pingWorld ∧ pingWorld.step? = some pingedWorld ∧
      pingWorld.emitted = [e] ∧ e.emitter = .numbered 1 ∧ e.event.name = "ping" ∧
      e.event.channel = .external ∧
      pingedWorld.bus.published = pingWorld.bus.published ++ [⟨.numbered 1, e.event⟩] := by
  obtain ⟨hs, hrun, hbuilt⟩ := ping_run
  have hready : pingWorld.step?.isSome = true := by decide +kernel
  have hgo : pingWorld.step? = some pingedWorld := by
    obtain ⟨v, hv⟩ := Option.isSome_iff_exists.1 hready
    rw [pingedWorld, hv, Option.getD_some]
  have hemitted : pingWorld.emitted.map
      (fun e => (e.emitter, e.event.name, e.event.channel, e.isDone)) =
        [(.numbered 1, "ping", .external, false)] := by decide +kernel
  obtain ⟨e, he, hlooks⟩ := List.map_eq_singleton_iff.1 hemitted
  obtain ⟨hemitter, hname, hchannel, hdone⟩ : e.emitter = .numbered 1 ∧ e.event.name = "ping" ∧
      e.event.channel = .external ∧ e.isDone = false := by simpa using hlooks
  obtain ⟨-, hpublished, -⟩ := emissions_of_run hbuilt hrun hgo
  have hbus : e.isDirect = false := by simp [Emission.isDirect, hdone, hchannel]
  rw [he, List.filter_singleton, hbus] at hpublished
  refine ⟨hs, e, hrun, hgo, he, hemitter, hname, hchannel, ?_⟩
  rw [hpublished, ← hemitter]
  rfl

/-- The letter is announced to who waits for it alone, though that is not internal. -/
theorem letter_announced :
    ∃ hs w v e, Run (postOffice [letterBox]) hs w ∧ w.step? = some v ∧ e ∈ w.emitted ∧
      e.emitter = .numbered 0 ∧ e.event.channel = .external ∧
      w.carries ⟨.numbered 0, e.event⟩ = false ∧
      v.bus.published = w.bus.published ∧ w.inbox? 0 = some [] ∧ v.inbox? 0 = some [e.event] := by
  have hready : (arrived [letterBox] ⟨[0]⟩).step?.isSome = true := by decide +kernel
  have hempty : ((arrived [letterBox] ⟨[0]⟩).inbox? 0).any (·.isEmpty) = true := by decide +kernel
  have hemitted : (arrived [letterBox] ⟨[0]⟩).emitted.map (fun e =>
      (e.emitter, e.isDone, e.event.channel,
        ((arrived [letterBox] ⟨[0]⟩).addressees e).count 0,
        (arrived [letterBox] ⟨[0]⟩).carries ⟨.numbered 0, e.event⟩)) =
          [(.numbered 0, true, .external, 1, false)] := by decide +kernel
  obtain ⟨v, hgo⟩ := Option.isSome_iff_exists.1 hready
  obtain ⟨events, hinbox, hnone⟩ := (Option.any_eq_true _ _).1 hempty
  rw [List.isEmpty_iff.1 hnone] at hinbox
  obtain ⟨e, he, hlooks⟩ := List.map_eq_singleton_iff.1 hemitted
  obtain ⟨hemitter, hdone, hchannel, hcount, hcarries⟩ : e.emitter = .numbered 0 ∧
      e.isDone = true ∧ e.event.channel = .external ∧
      ((arrived [letterBox] ⟨[0]⟩).addressees e).count 0 = 1 ∧
      (arrived [letterBox] ⟨[0]⟩).carries ⟨.numbered 0, e.event⟩ = false := by simpa using hlooks
  have hdirect : e.isDirect = true := by rw [Emission.isDirect, hdone, Bool.true_or]
  have hrun := run_arrived [letterBox] ⟨[0]⟩
  have hafter : v.inbox? 0 = some [e.event] := by
    have hsome : (arrived [letterBox] ⟨[0]⟩).emitted ≠ [] := by
      rw [he]
      exact List.cons_ne_nil _ _
    rw [inbox?_step? hgo (hrun.isAttentive arrived_isBuilt) hsome 0, hinbox, he]
    simp [gets, hdirect, hcount]
  have hpublished := (Step.go hgo).published
  rw [sent_eq_emitted, he, forBus, List.filter_singleton, hdirect] at hpublished
  exact ⟨_, _, v, e, hrun, hgo, he ▸ List.mem_singleton_self e, hemitter, hchannel, hcarries,
    hpublished.trans (List.append_nil _), hinbox, hafter⟩

end World

end Statechart
