import Statechart.Proofs.Context.Assignment
import Statechart.Proofs.Engine.Delivery
import Statechart.Proofs.Engine.JobTable
import Statechart.Proofs.Engine.Timers
import Statechart.Value.Decidable

/-!
# Invocations during a state

What an instance invokes while it is in a state is tracked, and ends when the instance leaves the
state, or ends itself. Until it is answered, an invocation does nothing; when it is answered, it has
all its effects, and it is answered once.

- `World.answering?`        : the invocation that is answered next
- `World.answer_eq`         : the effects of a response
- `Step.jobs_of_exit`       : leaving a state ends what the instance tracks, and nothing else
- `World.invocations_of_run` : the life of the invocations of a run
-/

namespace Statechart

namespace World

variable {w v : World}

/-! ## Answers -/

/-- The invocation that is answered in the next step, with the response. One that is only begun, or
was cancelled after it had been queued, is not. -/
def answering? (w : World) : Option (Job × Response) :=
  match w.current, w.ready with
  | none, .job id :: _ =>
      (w.jobById? id).bind fun job => (job.response? w.clock).map fun response => (job, response)
  | _, _ => none

theorem step?_of_answering {job : Job} {response : Response}
    (h : w.answering? = some (job, response)) :
    job ∈ w.jobs ∧ job.response? w.clock = some response ∧ ∃ rest, w.ready = .job job.id :: rest ∧
      w.step? = some (answer { w with ready := rest } job response) := by
  unfold answering? at h
  split at h
  · rename_i id rest hcurrent hready
    obtain ⟨found, hfound, hpair⟩ := Option.bind_eq_some_iff.1 h
    obtain ⟨given, hgiven, heq⟩ := Option.map_eq_some_iff.1 hpair
    cases heq
    have hid : job.id = id := by simpa using List.find?_some hfound
    subst hid
    refine ⟨List.mem_of_find?_eq_some hfound, hgiven, rest, hready, ?_⟩
    rw [step?_of_ready hcurrent hready]
    have hthere : ({ w with ready := rest } : World).jobById? job.id = some job := hfound
    simp only [run, runJob, hthere, hgiven]
  · cases h

/-- An invocation that is run and not answered changes only how far it is. -/
theorem step?_of_answering_none {id : Nat} {rest : List Task} (hcurrent : w.current = none)
    (hready : w.ready = .job id :: rest) (hnone : w.answering? = none) :
    ∃ jobs, jobs.map Job.plain = w.jobs.map Job.plain ∧
      w.step? = some { w with ready := rest, jobs } := by
  rw [step?_of_ready hcurrent hready]
  simp only [answering?, hcurrent, hready] at hnone
  cases hfound : w.jobById? id with
  | none =>
      -- it was cancelled after it had been queued
      have hthere : ({ w with ready := rest } : World).jobById? id = none := hfound
      refine ⟨w.jobs, rfl, congrArg some ?_⟩
      simp only [run, runJob, hthere]
  | some job =>
      have hthere : ({ w with ready := rest } : World).jobById? id = some job := hfound
      have hlater : job.response? w.clock = none := by
        rw [hfound, Option.bind_some, Option.map_eq_none_iff] at hnone
        exact hnone
      refine ⟨w.jobs.map fun j =>
        if j.id == id then { j with stage := job.polled w.clock } else j, ?_, congrArg some ?_⟩
      · rw [List.map_map]
        refine List.map_congr_left fun j _ => ?_
        simp only [Function.comp_apply]
        split <;> rfl
      · simp only [run, runJob, hthere, hlater]
        rfl

/-- Whoever answers for a service from outside is heard, as long as the invocation is under way. -/
theorem Step.jobs_of_respond {id : Nat} {response : Response} {job : Job}
    (h : Step w (some (.asked (.respond id response))) v) (hjob : w.jobById? id = some job)
    (hexternal : job.service.behaviour.completion = .external)
    (hopen : job.stage = .fresh ∨ job.stage = .waiting) :
    v.jobs = w.jobs.map (fun j =>
        if j.id == id then { j with stage := .answered response } else j) ∧
      v.jobById? id = some { job with stage := .answered response } := by
  have hfound : (job.id == id) = true := List.find?_some (p := fun j : Job => j.id == id) hjob
  have hthere : (w.jobs.map fun j =>
      if j.id == id then { j with stage := .answered response } else j).find?
        (fun j => j.id == id) = some { job with stage := .answered response } := by
    have hsame : ∀ j : Job, ((if j.id == id then
        { j with stage := .answered response } else j).id == id) = (j.id == id) := by
      intro j
      split <;> rfl
    have hsome : w.jobs.find? (fun j => j.id == id) = some job := hjob
    simp only [List.find?_map, Function.comp_def, hsame, hsome, Option.map_some, hfound, if_true]
  rw [h.eq_serve]
  simp only [serve, respond, hjob]
  rcases hopen with hfresh | hwaiting
  · rw [hexternal, hfresh]
    exact ⟨rfl, hthere⟩
  · rw [hexternal, hwaiting]
    exact ⟨rfl, hthere⟩

/-! ## Effects -/

/-- A response assigns an output variable. -/
def written (extent : Extent) (response : List (String × Value)) (m : Memory) (name : String) :
    Memory :=
  match valueOf? name response with
  | some value => (extent.assign m name value).1
  | none => m

theorem exists_log_outputs (site : Site) (type : String) (response : List (String × Value))
    (w : World) (names : List String) :
    ∃ log, names.foldl (assignOutput site type response) w =
      { w with memory := names.foldl (written site.extent response) w.memory, log } := by
  induction names generalizing w with
  | nil => exact ⟨w.log, rfl⟩
  | cons name rest ih =>
      have hfirst : ∃ log, assignOutput site type response w name =
          { w with memory := written site.extent response w.memory name, log } := by
        unfold assignOutput written
        cases valueOf? name response with
        | none => exact ⟨_, rfl⟩
        | some value =>
            simp only
            cases site.extent.assign w.memory name value with
            | mk memory outcome => cases outcome <;> exact ⟨_, rfl⟩
      obtain ⟨log, hfirst⟩ := hfirst
      obtain ⟨log', hrest⟩ := ih (assignOutput site type response w name)
      refine ⟨log', ?_⟩
      rw [List.foldl_cons, hrest, hfirst]
      rfl

/-- A response assigns the outputs one after the other, then raises the events, and the invocation
is over. -/
theorem answer_eq (w : World) (job : Job) (output : List (String × Value)) :
    ∃ log, w.answer job (.ok output) =
      job.call.done.foldl (fun u t => (u.offer job.site.owner (t.toEvent output)).1)
        { w with
          jobs := w.jobs.filter fun j => j.id != job.id
          memory := job.call.output.foldl (written job.site.extent output) w.memory
          log } := by
  obtain ⟨log, houtputs⟩ := exists_log_outputs job.site job.call.service output
    { w with jobs := w.jobs.filter fun j => j.id != job.id } job.call.output
  refine ⟨log, ?_⟩
  simp only [answer, complete, houtputs]
  rfl

/-! ## Commands -/

/-- A command is executed in the turn of its instance. -/
theorem did_cases {n : Nat} {c : Command} {outcome : Except EngineFault Unit}
    (h : Step w (some (.did n c outcome)) v) :
    ∃ t rest, w.current = some t ∧ t.number = n ∧ t.work = c :: rest ∧
      outcome = w.outcome n c ∧ v = w.resume t := by
  generalize hlabel : some (Happening.did n c outcome) = label at h
  cases h with
  | ask r => cases hlabel
  | jump time => cases hlabel
  | wait time => cases hlabel
  | go hgo =>
      rcases happening?_cases hlabel.symm with ⟨t, command, rest, hcurrent, hwork, hdid⟩ |
        ⟨m, e, result, htook⟩ | ⟨id, rest, timer, -, -, -, -, hfired⟩
      · cases hdid
        refine ⟨t, rest, hcurrent, rfl, hwork, rfl, ?_⟩
        simpa [step?, hcurrent] using hgo.symm
      · cases htook
      · cases hfired

/-- Entering a state: the actions during it are done where invocations are tracked. -/
theorem Step.current_of_enter {n : Nat} {state : State} {outcome : Except EngineFault Unit}
    (h : Step w (some (.did n (.move (.enter state)) outcome)) v) :
    ∃ rest isStarting, v.current = some ⟨n,
      actions (w.stateSite n state) state.entry ++
        actions { w.stateSite n state with tracksTasks := true } state.during ++
        [.move (.change state)] ++ rest, isStarting⟩ := by
  obtain ⟨t, rest, -, rfl, hwork, -, rfl⟩ := did_cases h
  refine ⟨rest, t.isStarting, ?_⟩
  simp only [resume, hwork]
  rfl

/-- Whatever an action gives rise to is done where the action was done. -/
theorem Step.current_of_act {n : Nat} {site : Site} {action : Action}
    {outcome : Except EngineFault Unit} (h : Step w (some (.did n (.act site action) outcome)) v) :
    ∃ next rest isStarting, v.current = some ⟨n, actions site next ++ rest, isStarting⟩ := by
  obtain ⟨t, rest, -, rfl, hwork, -, rfl⟩ := did_cases h
  cases hperform : w.perform site action with
  | mk u result =>
      obtain ⟨u', next, hadvance, -⟩ := advance_act hperform t.number rest
      refine ⟨next, rest, t.isStarting, ?_⟩
      simp only [resume, hwork, hadvance]

/-- An invocation that begins is new, and is done where its action was done. -/
theorem Step.jobs_of_invoke {n : Nat} {site : Site} {call : Invocation}
    (h : Step w (some (.did n (.act site (.invoke call)) (.ok ()))) v) :
    ∃ job, v.jobs = w.jobs ++ [job] ∧ job.id = w.fresh ∧ job.site = site ∧ job.call = call := by
  obtain ⟨t, rest, -, rfl, hwork, houtcome, rfl⟩ := did_cases h
  have hperformed : ∃ u job, w.perform site (.invoke call) = (u, .ok []) ∧
      u.jobs = w.jobs ++ [job] ∧ job.id = w.fresh ∧ job.site = site ∧ job.call = call := by
    simp only [outcome, perform, selectService] at houtcome ⊢
    cases hchosen : w.policy.choose? w.services (w.choices.draws w.drawn) call.service
        call.isLocal with
    | none =>
        rw [hchosen] at houtcome
        cases houtcome
    | some service =>
        rw [hchosen] at houtcome
        simp only at houtcome ⊢
        cases hinput : call.input.mapM fun v => v.evaluate (site.extent.lookup w.memory) with
        | error fault =>
            rw [hinput] at houtcome
            cases houtcome
        | ok input =>
            exact ⟨_, ⟨w.fresh, site, call, input, service, .fresh⟩, rfl, rfl, rfl, rfl, rfl⟩
  obtain ⟨u, job, hperform, hjobs, hid, hsite, hcall⟩ := hperformed
  refine ⟨job, ?_, hid, hsite, hcall⟩
  have hinvoked : (instanceMachine t.number).perform w site (.invoke call) = (u, .ok []) := hperform
  simp only [resume, hwork, Machine.advance, Machine.execute, Actor.execute, hinvoked]
  exact hjobs

/-- Leaving a state ends what the instance tracks, and nothing else. -/
theorem Step.jobs_of_exit {n : Nat} {state : State} {outcome : Except EngineFault Unit}
    (h : Step w (some (.did n (.move (.exit state)) outcome)) v) (hkept : w.jobTable.IsKept) :
    v.jobs = w.jobs.filter fun j => !(j.site.tracksTasks && j.site.owner == .numbered n) := by
  obtain ⟨t, rest, -, rfl, hwork, -, rfl⟩ := did_cases h
  have hleft : (w.resume t).jobs =
      w.jobs.filter fun j => !(w.tracked.contains ⟨.numbered t.number, j.id⟩) := by
    simp only [resume, hwork]
    rfl
  rw [hleft]
  refine List.filter_congr fun j hj => congrArg not ?_
  have htasks := hkept.contains_tracked (.numbered t.number) (plain_mem_jobTable hj)
  exact htasks

/-! ## Runs -/

section Runs

variable {w₀ : World} {hs later : List Happening}

/-- Invocations keep their identities. -/
theorem Run.plain_eq (hlater : Run w later v) (htidy : w.status.IsTidy) (hkept : w.jobTable.IsKept)
    (hbuilt : ∀ r, .asked r ∈ later → r.IsBuilt) {job j : Job} (hjob : job ∈ w.jobs)
    (hj : j ∈ v.jobs) (hid : j.id = job.id) : j.plain = job.plain := by
  have hjob' := plain_mem_jobTable hjob
  have hj' := plain_mem_jobTable hj
  rcases (hlater.origin_jobs htidy hbuilt).2 _ hj' with hthere | hlate
  · exact List.inj_on_of_nodup_map hkept.nodup hthere hjob' hid
  · have hbelow : j.id < w.fresh := hid ▸ hkept.below job.plain hjob'
    exact absurd hlate (Nat.not_le.2 hbelow)

/-- An invocation that is tracked is gone once its instance has left a state, or has ended. -/
theorem Run.ne_of_left {n : Nat} (hlater : Run w later v) (htidy : w.status.IsTidy)
    (hkept : w.jobTable.IsKept) (hbuilt : ∀ r, .asked r ∈ later → r.IsBuilt) {job : Job}
    (hjob : job ∈ w.jobs) (htracks : job.site.tracksTasks = true)
    (howner : job.site.owner = .numbered n)
    (hleft : (∃ state outcome, .did n (.move (.exit state)) outcome ∈ later) ∨
      ∃ i, v.instance? n = some i ∧ i.phase = .ended) : ∀ j ∈ v.jobs, j.id ≠ job.id := by
  rcases hleft with ⟨state, outcome, hexit⟩ | ⟨i, hi, hended⟩
  · -- `w₂` is the world right after the exit
    obtain ⟨newer, older, rfl⟩ := List.append_of_mem hexit
    obtain ⟨w₁, w₂, hbefore, hexit, hafter⟩ := hlater.split
    have hold : ∀ r, .asked r ∈ older → r.IsBuilt := fun r hr =>
      hbuilt r (List.mem_append_right _ (List.mem_cons_of_mem _ hr))
    have hto : ∀ r, .asked r ∈ .did n (.move (.exit state)) outcome :: older → r.IsBuilt :=
      fun r hr => hbuilt r (List.mem_append_right _ hr)
    have hgone : ∀ j ∈ w₂.jobs, j.id ≠ job.id := by
      intro j hj hid
      have hplain := (hbefore.step hexit).plain_eq htidy hkept hto hjob hj hid
      have hsite := Job.site_eq_of_plain hplain
      rw [hexit.jobs_of_exit (hbefore.isKept htidy hkept hold), List.mem_filter, hsite, htracks,
        howner] at hj
      simp at hj
    have hbelow : job.id < w₂.fresh := by
      refine Nat.lt_of_lt_of_le (hkept.below job.plain (plain_mem_jobTable hjob)) ?_
      exact ((hbefore.step hexit).origin_jobs htidy hto).1
    refine hafter.notMem_jobs ((hbefore.step hexit).isTidy htidy hto) ?_ hbelow hgone
    exact fun r hr => hbuilt r (List.mem_append_left _ hr)
  · -- an instance that has ended tracks nothing any more
    intro j hj hid
    have hplain := hlater.plain_eq htidy hkept hbuilt hjob hj hid
    have hsite : j.plain.site = job.site := Job.site_eq_of_plain hplain
    have hmark : v.jobTable.ended[n]? = some true := by
      rw [ended_getElem?, hi, Option.map_some, hended]
      rfl
    have hfree := (hlater.isKept htidy hkept hbuilt).ended n hmark j.plain (plain_mem_jobTable hj)
      (hsite ▸ howner)
    rw [hsite, htracks] at hfree
    cases hfree

/-- An invocation is answered once. -/
theorem Run.ne_of_answered (hlater : Run v later w₀) {job : Job} {response : Response}
    (hanswering : w.answering? = some (job, response)) (hgo : w.step? = some v)
    (htidy : v.status.IsTidy) (hkept : w.jobTable.IsKept)
    (hbuilt : ∀ r, .asked r ∈ later → r.IsBuilt) : ∀ j ∈ w₀.jobs, j.id ≠ job.id := by
  obtain ⟨hjob, -, rest, -, hstep⟩ := step?_of_answering hanswering
  obtain rfl := Option.some.inj (hstep.symm.trans hgo)
  -- the answer takes it off the list, and whatever begins later has a later identity
  have htable := jobTable_answer { w with ready := rest } job response
  refine hlater.notMem_jobs htidy hbuilt ?_ ?_
  · have hfresh : (answer { w with ready := rest } job response).fresh = w.fresh :=
      congrArg JobTable.fresh htable
    rw [hfresh]
    exact hkept.below job.plain (plain_mem_jobTable hjob)
  · intro j hj hid
    have hplain := plain_mem_jobTable hj
    rw [htable] at hplain
    simpa [JobTable.answer, Job.plain, hid] using (List.mem_filter.1 hplain).2

end Runs

/-! ## The life of invocations -/

section Runs

variable {w₀ : World} {hs : List Happening}

/-- What invocations do at any time of a run, whatever their services respond and in which order.
Those that begin while a state is entered, directly or by choice, are tracked for the instance; they
are new, and one at a time. Leaving a state ends what the instance tracks, and nothing else; from
then on, and after the end of the instance, none of it is answered. Whoever responds from outside is
heard at any time at which the invocation is under way. Until an invocation is answered it does
nothing; a response that is a fault is told; when there is an output, the variables are assigned one
after the other, each where it is found unless a layer is out of reach, and every event is raised
with the whole output; and an invocation is not answered again. -/
theorem invocations_of_run (hnew : w₀.IsNew) (hidle : w₀.IsIdle)
    (hbuilt : ∀ r, .asked r ∈ hs → r.IsBuilt) (hrun : Run w₀ hs w) :
    (∀ n state outcome v, Step w (some (.did n (.move (.enter state)) outcome)) v →
      ∃ rest isStarting, v.current = some ⟨n,
        actions (w.stateSite n state) state.entry ++
          actions { w.stateSite n state with tracksTasks := true } state.during ++
          [.move (.change state)] ++ rest, isStarting⟩) ∧
    (∀ n site action outcome v, Step w (some (.did n (.act site action) outcome)) v →
      ∃ next rest isStarting, v.current = some ⟨n, actions site next ++ rest, isStarting⟩) ∧
    (∀ n site call v, Step w (some (.did n (.act site (.invoke call)) (.ok ()))) v →
      site.owner = .numbered n ∧
        ∃ job, v.jobs = w.jobs ++ [job] ∧ job.site = site ∧ job.call = call ∧
          ∀ j ∈ w.jobs, j.id ≠ job.id) ∧
    (∀ n state outcome v, Step w (some (.did n (.move (.exit state)) outcome)) v →
      v.jobs = w.jobs.filter fun j => !(j.site.tracksTasks && j.site.owner == .numbered n)) ∧
    (∀ n, ∀ job ∈ w.jobs, job.site.tracksTasks = true → job.site.owner = .numbered n →
      ∀ later v, Run w later v → (∀ r, .asked r ∈ later → r.IsBuilt) →
        ((∃ state outcome, .did n (.move (.exit state)) outcome ∈ later) ∨
          ∃ i, v.instance? n = some i ∧ i.phase = .ended) →
        ∀ j response, v.answering? = some (j, response) → j.id ≠ job.id) ∧
    (∀ id job response v, w.jobById? id = some job →
      job.service.behaviour.completion = .external →
      job.stage = .fresh ∨ job.stage = .waiting →
      Step w (some (.asked (.respond id response))) v →
        v.jobs = w.jobs.map (fun j =>
            if j.id == id then { j with stage := .answered response } else j) ∧
          v.jobById? id = some { job with stage := .answered response }) ∧
    (∀ id rest, w.current = none → w.ready = .job id :: rest → w.answering? = none →
      ∃ jobs, jobs.map Job.plain = w.jobs.map Job.plain ∧
        w.step? = some { w with ready := rest, jobs }) ∧
    ∀ job response, w.answering? = some (job, response) →
      job.response? w.clock = some response ∧
      (∀ fault, response = .error fault →
        ∃ rest, w.ready = .job job.id :: rest ∧ w.step? = some { w with
          ready := rest
          jobs := w.jobs.filter fun j => j.id != job.id
          log := w.log ++ [failedRemark job fault] }) ∧
      (∀ output, response = .ok output →
        (∃ rest log, w.ready = .job job.id :: rest ∧
          w.step? = some (job.call.done.foldl
            (fun u t => (u.offer job.site.owner (t.toEvent output)).1)
            { w with
              ready := rest
              jobs := w.jobs.filter fun j => j.id != job.id
              memory := job.call.output.foldl (written job.site.extent output) w.memory
              log })) ∧
        ∀ before name after value, job.call.output = before ++ name :: after →
          valueOf? name output = some value →
          ∀ m, m = before.foldl (written job.site.extent output) w.memory →
            job.site.extent.resolve (written job.site.extent output m name) name =
              .ok (some value) ∨
            (∀ id ∈ job.site.extent.layers, m.contains id name = false) ∨
            ∃ id ∈ job.site.extent.layers, ¬ m.IsReachable id) ∧
      ∀ v later v', w.step? = some v → Run v later v' → (∀ r, .asked r ∈ later → r.IsBuilt) →
        ∀ j given, v'.answering? = some (j, given) → j.id ≠ job.id := by
  have htidy := hrun.isTidy hnew.isTidy hbuilt
  have hkept := hrun.isKept hnew.isTidy hidle.isKept hbuilt
  refine ⟨fun n state outcome v h => h.current_of_enter, fun n site action outcome v h =>
    h.current_of_act, ?_, fun n state outcome v h => h.jobs_of_exit hkept, ?_,
    fun id job response v hjob hexternal hopen h => h.jobs_of_respond hjob hexternal hopen,
    fun id rest hcurrent hready hnone => step?_of_answering_none hcurrent hready hnone, ?_⟩
  · -- who begins it, and that it is a new one
    intro n site call v h
    obtain ⟨job, hjobs, hid, hsite, hcall⟩ := h.jobs_of_invoke
    obtain ⟨t, rest, hcurrent, rfl, hwork, -, -⟩ := did_cases h
    refine ⟨?_, job, hjobs, hsite, hcall, ?_⟩
    · exact htidy.work t hcurrent site (.invoke call) (hwork ▸ List.mem_cons_self)
    · intro j hj heq
      have hbelow : j.id < w.fresh := hkept.below j.plain (plain_mem_jobTable hj)
      exact absurd hbelow (by rw [heq, hid]; exact Nat.lt_irrefl _)
  · -- what is answered is on the list, from which leaving takes it for good
    intro n job hjob htracks howner later v hlater hbuilt' hleft j response hanswering
    have hthere := (step?_of_answering hanswering).1
    exact hlater.ne_of_left htidy hkept hbuilt' hjob htracks howner hleft j hthere
  · intro job response hanswering
    obtain ⟨-, hgiven, rest, hready, hstep⟩ := step?_of_answering hanswering
    refine ⟨hgiven, ?_, ?_, ?_⟩
    · rintro fault rfl
      exact ⟨rest, hready, hstep⟩
    · rintro output rfl
      obtain ⟨log, heffects⟩ := answer_eq { w with ready := rest } job output
      refine ⟨⟨rest, log, hready, hstep.trans (congrArg some heffects)⟩, ?_⟩
      -- an output, after those before it
      intro before name after value _ hvalue m _
      have hwritten : written job.site.extent output m name =
          (job.site.extent.assign m name value).1 := by
        rw [written, hvalue]
      rw [hwritten]
      rcases job.site.extent.assign_cases m name value with ⟨-, hresolve⟩ | ⟨-, hnowhere⟩ |
        ⟨hreach, -⟩
      · exact .inl hresolve
      · exact .inr (.inl hnowhere)
      · exact .inr (.inr hreach)
    · intro v later v' hgo hlater hbuilt' j given hanswering'
      have hthere := (step?_of_answering hanswering').1
      have htidy' := (Step.go hgo).advances htidy fun r hr =>
        absurd hr (happening?_ne_asked w r)
      exact hlater.ne_of_answered hanswering hgo htidy'.tidy hkept hbuilt' j hthere

end Runs

/-! ### A trial -/

/-- A letter that is on its way as long as somebody waits for it. -/
def mail : Description.Graph :=
  { name := "mail", isAbstract := false, locals := [], nested := []
    states :=
      [{ name := "waiting", isInitial := true, isTerminal := false, entry := [], exit := []
         during :=
          [.choose (.ofNat 1)
            [(.ofNat 1, .invoke "post" false [⟨"name", .ofNat 3⟩] ["letter"]
              [⟨"here", .external, []⟩])]]
         after := [], on := [⟨"leave", ⟨some "away", [], [], none⟩⟩], always := [], locals := [] },
        { name := "away", isInitial := false, isTerminal := false, entry := [], exit := []
          during := [], after := [], on := [], always := [], locals := [] }] }

/-- Somebody else decides when a letter comes, and what it says. -/
def postOffice (layers : List Layer) : World :=
  .engine { bare.memory with layers } 0 .standard
    (Registry.empty.register ⟨"post", 1.0, 1.0, true, .external⟩)

/-- The box for the letter. -/
def letterBox : Layer := .memory (Table.empty.insert "letter" (.ofNat 0))

/-- A letter is on its way. -/
def posted (layers : List Layer) (enclosing : Extent) : List Happening × World :=
  attend 20 (postOffice layers) [.place (.ofBuilt true mail (by decide +kernel)) enclosing none]

/-- What the letter says. -/
def letter : List (String × Value) := [("stamp", .ofNat 1), ("letter", .ofNat 7)]

/-- The state is left, and only then the letter comes. -/
def left : List Happening × World :=
  attend 20 (posted [letterBox] ⟨[0]⟩).2
    [.offer (.numbered 0) ⟨"leave", .internal, []⟩, .respond 0 (.ok letter)]

/-- The letter is there. -/
def arrived (layers : List Layer) (enclosing : Extent) : World :=
  (posted layers enclosing).2.serve (.respond 0 (.ok letter))

theorem run_posted (layers : List Layer) (enclosing : Extent) :
    Run (postOffice layers) (posted layers enclosing).1 (posted layers enclosing).2 :=
  run_attend 20 (postOffice layers) _

theorem run_arrived (layers : List Layer) (enclosing : Extent) :
    Run (postOffice layers) (.asked (.respond 0 (.ok letter)) :: (posted layers enclosing).1)
      (arrived layers enclosing) :=
  (run_posted layers enclosing).step (.ask _ (.respond 0 (.ok letter)))

theorem posted_isBuilt {layers : List Layer} {enclosing : Extent} :
    ∀ r, .asked r ∈ (posted layers enclosing).1 → r.IsBuilt := by
  intro r hr
  cases List.mem_singleton.1 (mem_of_asked_attend hr)
  exact ⟨true, Graph.ofBuilt_isBuilt true mail _⟩

theorem arrived_isBuilt {layers : List Layer} {enclosing : Extent} :
    ∀ r, .asked r ∈ .asked (.respond 0 (.ok letter)) :: (posted layers enclosing).1 →
      r.IsBuilt := by
  intro r hr
  rcases List.mem_cons.1 hr with hlast | hold
  · cases hlast
    trivial
  · exact posted_isBuilt r hold

/-- Whether an invocation is answered with the letter that it is to bring. -/
def bringsLetter : Job × Response → Bool
  | (job, .ok output) => decide ("letter" ∈ job.call.output ∧ output = letter)
  | (_, .error _) => false

theorem bringsLetter_iff {job : Job} {response : Response}
    (h : bringsLetter (job, response) = true) :
    "letter" ∈ job.call.output ∧ response = .ok letter := by
  cases response with
  | error fault => cases h
  | ok output =>
      obtain ⟨houtput, rfl⟩ := of_decide_eq_true h
      exact ⟨houtput, rfl⟩

theorem mail_invocations :
    (∃ job ∈ (posted [letterBox] ⟨[0]⟩).2.jobs, job.site.tracksTasks = true ∧
      job.site.owner = .numbered 0 ∧
      (∃ state outcome, .did 0 (.move (.exit state)) outcome ∈ left.1) ∧
      ∀ j response, left.2.answering? = some (j, response) → j.id ≠ job.id) ∧
    ∃ job before after,
      (arrived [letterBox] ⟨[0]⟩).answering? = some (job, .ok letter) ∧
      job.call.output = before ++ "letter" :: after ∧
      ∃ rest log, (arrived [letterBox] ⟨[0]⟩).step? = some (job.call.done.foldl
        (fun u t => (u.offer job.site.owner (t.toEvent letter)).1)
        { arrived [letterBox] ⟨[0]⟩ with
          ready := rest
          jobs := (arrived [letterBox] ⟨[0]⟩).jobs.filter fun j => j.id != job.id
          memory := job.call.output.foldl (written job.site.extent letter)
            (arrived [letterBox] ⟨[0]⟩).memory
          log }) := by
  constructor
  · -- the letter is on its way when its state is left
    obtain ⟨-, -, -, -, hends, -⟩ :=
      invocations_of_run (engine_isNew _ _ _ _ _) (engine_isIdle _ _ _ _ _) posted_isBuilt
        (run_posted [letterBox] ⟨[0]⟩)
    have hthere : (posted [letterBox] ⟨[0]⟩).2.jobs.any (fun job =>
        job.site.tracksTasks && decide (job.site.owner = .numbered 0)) = true := by decide +kernel
    obtain ⟨job, hjob, hwanted⟩ := List.any_eq_true.1 hthere
    obtain ⟨htracks, howner⟩ := Bool.and_eq_true_iff.1 hwanted
    have hexit : left.1.any (fun h => h.isExitOf 0) = true := by decide +kernel
    obtain ⟨h, hleft, hexit⟩ := List.any_eq_true.1 hexit
    obtain ⟨state, outcome, rfl⟩ := Happening.exists_of_isExitOf hexit
    have hlater : Run (posted [letterBox] ⟨[0]⟩).2 left.1 left.2 :=
      run_attend 20 (posted [letterBox] ⟨[0]⟩).2 _
    have hasked : ∀ r, .asked r ∈ left.1 → r.IsBuilt := by
      intro r hr
      rcases List.mem_cons.1 (mem_of_asked_attend hr) with rfl | hr
      · trivial
      · cases List.mem_singleton.1 hr
        trivial
    exact ⟨job, hjob, htracks, of_decide_eq_true howner, ⟨state, outcome, hleft⟩,
      hends 0 job hjob htracks (of_decide_eq_true howner) _ _ hlater hasked
        (.inl ⟨state, outcome, hleft⟩)⟩
  · -- the letter is there before its state is left
    obtain ⟨-, -, -, -, -, -, -, heffects⟩ :=
      invocations_of_run (engine_isNew _ _ _ _ _) (engine_isIdle _ _ _ _ _) arrived_isBuilt
        (run_arrived [letterBox] ⟨[0]⟩)
    have hthere : (arrived [letterBox] ⟨[0]⟩).answering?.any bringsLetter = true := by
      decide +kernel
    obtain ⟨⟨job, response⟩, hanswering, hwanted⟩ := (Option.any_eq_true _ _).1 hthere
    obtain ⟨houtput, rfl⟩ := bringsLetter_iff hwanted
    obtain ⟨before, after, hsplit⟩ := List.append_of_mem houtput
    obtain ⟨-, -, heffect, -⟩ := heffects job (.ok letter) hanswering
    obtain ⟨rest, log, -, hstep⟩ := (heffect letter rfl).1
    exact ⟨job, before, after, hanswering, hsplit, rest, log, hstep⟩

/-- A layer out of reach keeps a response from the variable below it. -/
theorem letter_lost :
    ∃ hs w job output value v, Run (postOffice [letterBox, .unreachable "offline"]) hs w ∧
      w.answering? = some (job, .ok output) ∧
      "letter" ∈ job.call.output ∧ valueOf? "letter" output = some value ∧
      (∃ id ∈ job.site.extent.layers, w.memory.contains id "letter" = true) ∧
      w.step? = some v ∧
      ∀ id ∈ job.site.extent.layers, v.memory.get id "letter" ≠ .ok value := by
  have hthere : (arrived [letterBox, .unreachable "offline"] ⟨[0, 1]⟩).answering?.any (fun p =>
      bringsLetter p && p.1.site.extent.layers.any fun id =>
        (arrived [letterBox, .unreachable "offline"] ⟨[0, 1]⟩).memory.contains id "letter") =
      true := by decide +kernel
  obtain ⟨⟨job, response⟩, hanswering, hwanted⟩ := (Option.any_eq_true _ _).1 hthere
  obtain ⟨hbrings, hdeclared⟩ := Bool.and_eq_true_iff.1 hwanted
  obtain ⟨houtput, rfl⟩ := bringsLetter_iff hbrings
  have hlost : (arrived [letterBox, .unreachable "offline"] ⟨[0, 1]⟩).step?.any (fun v =>
      (List.range v.memory.layers.length).all fun id =>
        decide ((v.memory.get id "letter").toOption ≠ some (.ofNat 7))) = true := by
    decide +kernel
  obtain ⟨v, hstep, hall⟩ := (Option.any_eq_true _ _).1 hlost
  refine ⟨_, _, job, letter, .ofNat 7, v, run_arrived _ ⟨[0, 1]⟩, hanswering, houtput,
    by decide, List.any_eq_true.1 hdeclared, hstep, ?_⟩
  intro id _ hget
  by_cases hlt : id < v.memory.layers.length
  · have hother := List.all_eq_true.1 hall id (List.mem_range.2 hlt)
    exact of_decide_eq_true hother (by rw [hget]; rfl)
  · rw [Memory.get, List.getElem?_eq_none (Nat.le_of_not_lt hlt)] at hget
    cases hget

end World

end Statechart
