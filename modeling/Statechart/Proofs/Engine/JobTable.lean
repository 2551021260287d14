import Mathlib.Logic.Relation
import Statechart.Proofs.Engine.Sites
import Statechart.Proofs.Engine.Soundness

/-!
# Invocations under way

Which invocations are under way, which of them are tracked, and which instances have ended. A step
begins one invocation at most; it answers one, or cancels those that an instance tracks.

- `World.jobTable`        : all of this
- `JobTable.Change`       : how it changes
- `World.Step.jobTable`   : every step changes it in these ways
- `JobTable.IsKept`       : invocations are told apart, belong to instances, and are tracked
- `World.Run.isKept`      : so it is at any time of a run
- `World.Run.notMem_jobs` : an invocation that is gone does not come back
-/

namespace Statechart

structure JobTable where
  /-- Which instances have ended. -/
  ended : List Bool
  jobs : List Job
  tracked : List Tracked
  fresh : Nat

namespace JobTable

def begin (s : JobTable) (job : Job) : JobTable :=
  { s with
    jobs := s.jobs ++ [job]
    tracked := if job.site.tracksTasks then s.tracked ++ [⟨job.site.owner, job.id⟩] else s.tracked
    fresh := s.fresh + 1 }

/-- The invocations that a party tracks are cancelled. -/
def cancel (s : JobTable) (p : Party) : JobTable :=
  { s with
    jobs := s.jobs.filter fun j => !(s.tracked.contains ⟨p, j.id⟩)
    tracked := s.tracked.filter fun t => t.owner != p }

/-- An instance ends. -/
def finish (s : JobTable) (n : Nat) : JobTable :=
  { s.cancel (.numbered n) with ended := s.ended.modify n fun _ => true }

def answer (s : JobTable) (id : Nat) : JobTable :=
  { s with jobs := s.jobs.filter fun j => j.id != id }

/-- What a step does to the invocations. Identities are used up by timers, too. -/
inductive Change (s : JobTable) : JobTable → Prop where
  | pass {fresh : Nat} : s.fresh ≤ fresh → s.Change { s with fresh }
  | grow (more : List Bool) : (∀ ended ∈ more, ended = false) →
      s.Change { s with ended := s.ended ++ more }
  | begin {n : Nat} {job : Job} : s.ended[n]? = some false → job.id = s.fresh →
      job.site.owner = .numbered n → s.Change (s.begin job)
  | leave (n : Nat) : s.Change (s.cancel (.numbered n))
  | finish (n : Nat) : s.Change (s.finish n)
  | answer (id : Nat) : s.Change (s.answer id)

/-- Some changes, one after the other. -/
abbrev Changes : JobTable → JobTable → Prop := Relation.ReflTransGen Change

/-- Invocations were there before, or they are new. -/
theorem Change.origin {s s' : JobTable} (h : s.Change s') :
    s.fresh ≤ s'.fresh ∧ ∀ j ∈ s'.jobs, j ∈ s.jobs ∨ s.fresh ≤ j.id := by
  cases h with
  | pass hfresh => exact ⟨hfresh, fun j hj => .inl hj⟩
  | grow more hmore => exact ⟨Nat.le_refl _, fun j hj => .inl hj⟩
  | begin hopen hid howner =>
      refine ⟨Nat.le_succ _, fun j hj => ?_⟩
      rcases List.mem_append.1 hj with hold | hnew
      · exact .inl hold
      · exact .inr (List.mem_singleton.1 hnew ▸ Nat.le_of_eq hid.symm)
  | leave n => exact ⟨Nat.le_refl _, fun j hj => .inl (List.mem_of_mem_filter hj)⟩
  | finish n => exact ⟨Nat.le_refl _, fun j hj => .inl (List.mem_of_mem_filter hj)⟩
  | answer id => exact ⟨Nat.le_refl _, fun j hj => .inl (List.mem_of_mem_filter hj)⟩

theorem Changes.origin {s s' : JobTable} (h : s.Changes s') :
    s.fresh ≤ s'.fresh ∧ ∀ j ∈ s'.jobs, j ∈ s.jobs ∨ s.fresh ≤ j.id := by
  induction h with
  | refl => exact ⟨Nat.le_refl _, fun j hj => .inl hj⟩
  | tail _ hchange ih =>
      obtain ⟨hfresh, hjobs⟩ := hchange.origin
      refine ⟨Nat.le_trans ih.1 hfresh, fun j hj => ?_⟩
      rcases hjobs j hj with hold | hnew
      · exact ih.2 j hold
      · exact .inr (Nat.le_trans ih.1 hnew)

/-! ## What holds of invocations -/

/-- Invocations are told apart by their identities, are under way for instances, and stand among
the tasks of these if they are tracked; an instance that has ended has no tracked ones. -/
structure IsKept (s : JobTable) : Prop where
  nodup : (s.jobs.map (·.id)).Nodup
  below : ∀ j ∈ s.jobs, j.id < s.fresh
  manned : ∀ j ∈ s.jobs, j.site.owner.IsInstance
  booked : ∀ j ∈ s.jobs, j.site.tracksTasks = true → ⟨j.site.owner, j.id⟩ ∈ s.tracked
  tracked : ∀ t ∈ s.tracked, t.job < s.fresh ∧
    ∀ j ∈ s.jobs, j.id = t.job → j.site.owner = t.owner ∧ j.site.tracksTasks = true
  ended : ∀ n, s.ended[n]? = some true →
    ∀ j ∈ s.jobs, j.site.owner = .numbered n → j.site.tracksTasks = false

namespace IsKept

variable {s s' : JobTable}

/-- The tasks of a party are the invocations that are tracked for it. -/
theorem contains_tracked (h : s.IsKept) (p : Party) {j : Job} (hj : j ∈ s.jobs) :
    s.tracked.contains ⟨p, j.id⟩ = (j.site.tracksTasks && j.site.owner == p) := by
  rw [Bool.eq_iff_iff, List.contains_iff_mem, Bool.and_eq_true, beq_iff_eq]
  constructor
  · intro htracked
    obtain ⟨howner, htracks⟩ := (h.tracked _ htracked).2 j hj rfl
    exact ⟨htracks, howner⟩
  · rintro ⟨htracks, howner⟩
    exact howner ▸ h.booked j hj htracks

/-- The invocations that are cancelled are those that the party tracks. -/
theorem jobs_cancel (h : s.IsKept) (p : Party) :
    (s.cancel p).jobs = s.jobs.filter fun j => !(j.site.tracksTasks && j.site.owner == p) :=
  List.filter_congr fun _ hj => congrArg not (h.contains_tracked p hj)

/-- Some invocations are gone, and their places among the tasks with them. -/
theorem of_subset {jobs : List Job} {tracked : List Tracked} (h : s.IsKept)
    (hjobs : jobs.Sublist s.jobs) (htracked : ∀ t ∈ tracked, t ∈ s.tracked)
    (hbooked : ∀ j ∈ jobs, j.site.tracksTasks = true → ⟨j.site.owner, j.id⟩ ∈ tracked) :
    IsKept { s with jobs, tracked } where
  nodup := h.nodup.sublist (hjobs.map _)
  below := fun j hj => h.below j (hjobs.subset hj)
  manned := fun j hj => h.manned j (hjobs.subset hj)
  booked := hbooked
  tracked := fun t ht => ⟨(h.tracked t (htracked t ht)).1, fun j hj =>
    (h.tracked t (htracked t ht)).2 j (hjobs.subset hj)⟩
  ended := fun n hn j hj => h.ended n hn j (hjobs.subset hj)

theorem cancel (h : s.IsKept) (p : Party) : (s.cancel p).IsKept := by
  refine h.of_subset List.filter_sublist (fun t ht => List.mem_of_mem_filter ht) ?_
  intro j hj htracks
  have hkept : j ∈ (s.cancel p).jobs := hj
  rw [h.jobs_cancel p, List.mem_filter] at hkept
  refine List.mem_filter.2 ⟨h.booked j hkept.1 htracks, ?_⟩
  simpa [htracks] using hkept.2

theorem withFresh (h : s.IsKept) {fresh : Nat} (hfresh : s.fresh ≤ fresh) :
    IsKept { s with fresh } where
  nodup := h.nodup
  below := fun j hj => Nat.lt_of_lt_of_le (h.below j hj) hfresh
  manned := h.manned
  booked := h.booked
  tracked := fun t ht => ⟨Nat.lt_of_lt_of_le (h.tracked t ht).1 hfresh, (h.tracked t ht).2⟩
  ended := h.ended

theorem finish (h : s.IsKept) (n : Nat) : (s.finish n).IsKept where
  nodup := (h.cancel (.numbered n)).nodup
  below := (h.cancel (.numbered n)).below
  manned := (h.cancel (.numbered n)).manned
  booked := (h.cancel (.numbered n)).booked
  tracked := (h.cancel (.numbered n)).tracked
  ended := by
    intro m hm j hj howner
    have hkept : j ∈ (s.cancel (.numbered n)).jobs := hj
    -- of those of the instance itself, only the ones that are not tracked are left
    by_cases hsame : n = m
    · subst hsame
      rw [h.jobs_cancel, List.mem_filter] at hkept
      simpa [howner] using hkept.2
    · have hended : s.ended[m]? = some true := by
        rw [← hm]
        exact (List.getElem?_modify_ne _ _ hsame).symm
      exact h.ended m hended j (List.mem_of_mem_filter hkept) howner

theorem begin {n : Nat} {job : Job} (h : s.IsKept) (hopen : s.ended[n]? = some false)
    (hid : job.id = s.fresh) (howner : job.site.owner = .numbered n) : (s.begin job).IsKept where
  nodup := by
    -- identities in use are below the next one, which the job has
    have hnew : job.id ∉ s.jobs.map (·.id) := by
      intro hin
      obtain ⟨j, hj, heq⟩ := List.mem_map.1 hin
      exact absurd (h.below j hj) (by rw [heq, hid]; exact Nat.lt_irrefl _)
    rw [JobTable.begin, List.map_append, List.nodup_append]
    refine ⟨h.nodup, List.nodup_singleton _, ?_⟩
    intro id hin last hlast heq
    have hsame : last = job.id := List.mem_singleton.1 hlast
    exact hnew (hsame ▸ heq ▸ hin)
  below := by
    intro j hj
    rcases List.mem_append.1 hj with hold | hlast
    · exact Nat.lt_succ_of_lt (h.below j hold)
    · rw [List.mem_singleton.1 hlast, hid]
      exact Nat.lt_succ_self _
  manned := by
    intro j hj
    rcases List.mem_append.1 hj with hold | hlast
    · exact h.manned j hold
    · exact ⟨n, List.mem_singleton.1 hlast ▸ howner⟩
  booked := by
    intro j hj htracks
    simp only [JobTable.begin]
    rcases List.mem_append.1 hj with hold | hlast
    · have hin := h.booked j hold htracks
      split
      · exact List.mem_append_left _ hin
      · exact hin
    · rw [List.mem_singleton.1 hlast] at htracks ⊢
      rw [if_pos htracks]
      exact List.mem_append_right _ (List.mem_singleton_self _)
  tracked := by
    -- identities in use are below the new one
    have hold : ∀ t ∈ s.tracked, t.job < s.fresh + 1 ∧
        ∀ j ∈ s.jobs ++ [job], j.id = t.job →
          j.site.owner = t.owner ∧ j.site.tracksTasks = true := by
      intro t ht
      obtain ⟨hbelow, hjobs⟩ := h.tracked t ht
      refine ⟨Nat.lt_succ_of_lt hbelow, fun j hj heq => ?_⟩
      rcases List.mem_append.1 hj with hin | hlast
      · exact hjobs j hin heq
      · rw [← heq, List.mem_singleton.1 hlast, hid] at hbelow
        exact absurd hbelow (Nat.lt_irrefl _)
    intro t ht
    simp only [JobTable.begin] at ht
    split at ht
    · rename_i htracks
      rcases List.mem_append.1 ht with hin | hlast
      · exact hold t hin
      · rw [List.mem_singleton.1 hlast]
        refine ⟨hid ▸ Nat.lt_succ_self _, fun j hj heq => ?_⟩
        rcases List.mem_append.1 hj with hin | hlast'
        · exact absurd (h.below j hin) (by rw [heq, hid]; exact Nat.lt_irrefl _)
        · rw [List.mem_singleton.1 hlast']
          exact ⟨rfl, htracks⟩
    · exact hold t ht
  ended := by
    intro m hm j hj howner'
    rcases List.mem_append.1 hj with hin | hlast
    · exact h.ended m hm j hin howner'
    · rw [List.mem_singleton.1 hlast, howner] at howner'
      obtain rfl := Party.numbered.inj howner'
      cases hopen.symm.trans hm

/-- What holds of invocations holds on after every change. -/
theorem change (h : s.IsKept) (hchange : s.Change s') : s'.IsKept := by
  cases hchange with
  | pass hfresh => exact h.withFresh hfresh
  | grow more hmore =>
      refine ⟨h.nodup, h.below, h.manned, h.booked, h.tracked, fun n hn => ?_⟩
      by_cases hlt : n < s.ended.length
      · exact h.ended n ((List.getElem?_append_left hlt).symm.trans hn)
      · rw [List.getElem?_append_right (Nat.le_of_not_lt hlt)] at hn
        cases hmore true (List.mem_of_getElem? hn)
  | begin hopen hid howner => exact h.begin hopen hid howner
  | leave n => exact h.cancel (.numbered n)
  | finish n => exact h.finish n
  | answer id =>
      exact h.of_subset List.filter_sublist (fun _ ht => ht) fun j hj =>
        h.booked j (List.mem_of_mem_filter hj)

theorem changes (h : s.IsKept) (hchanges : s.Changes s') : s'.IsKept := by
  induction hchanges with
  | refl => exact h
  | tail _ hchange ih => exact ih.change hchange

end IsKept

end JobTable

namespace Core

def jobTable (c : Core) : JobTable :=
  ⟨c.controls.map fun i => i.phase == .ended, c.jobs, c.tracked, c.fresh⟩

end Core

namespace World

variable {w v : World}

def jobTable (w : World) : JobTable := w.core.jobTable

theorem plain_mem_jobTable {j : Job} (hj : j ∈ w.jobs) : j.plain ∈ w.jobTable.jobs :=
  List.mem_map_of_mem hj

theorem jobTable_of_core (h : v.core = w.core) : v.jobTable = w.jobTable :=
  congrArg Core.jobTable h

theorem ended_getElem? (w : World) (n : Nat) :
    w.jobTable.ended[n]? = (w.instance? n).map fun i => i.phase == .ended := by
  have hended : w.jobTable.ended[n]? = (w.controls[n]?).map fun c => c.phase == .ended :=
    List.getElem?_map
  rw [hended, controls_getElem?, Option.map_map]
  rfl

theorem ended_of_instance? {n : Nat} {i : Instance} (hi : w.instance? n = some i)
    (hphase : i.phase ≠ .ended) : w.jobTable.ended[n]? = some false := by
  rw [ended_getElem?, hi, Option.map_some, beq_eq_false_iff_ne.2 hphase]

/-- The phase of an instance has changed. -/
theorem jobTable_mapInstance {f : Instance → Instance} (w : World) (n : Nat) (ended : Bool)
    (h : ∀ i, ((f i).phase == .ended) = ended) :
    (w.mapInstance n f).jobTable =
      { w.jobTable with ended := w.jobTable.ended.modify n fun _ => ended } := by
  have hall : ∀ is : List Instance, (is.map Instance.control).map (fun c => c.phase == .ended) =
      is.map fun i => i.phase == .ended := fun is => List.map_map
  have hended : (w.mapInstance n f).jobTable.ended = w.jobTable.ended.modify n fun _ => ended := by
    change ((w.instances.modify n f).map Instance.control).map (fun c => c.phase == .ended) =
      ((w.instances.map Instance.control).map fun c => c.phase == .ended).modify n fun _ => ended
    rw [hall, hall]
    exact map_modify w.instances n h
  rw [← hended]
  rfl

/-- An instance that has not ended has not ended yet. -/
theorem ended_modify {n : Nat} (hopen : w.jobTable.ended[n]? = some false) :
    (w.jobTable.ended.modify n fun _ => false) = w.jobTable.ended := by
  refine List.ext_getElem? fun m => ?_
  rw [List.getElem?_modify]
  by_cases hm : n = m
  · subst hm
    simp [hopen]
  · simp [hm]

/-! ## Turns -/

section Turns

variable {n : Nat} {work : List Command}

theorem jobTable_cancelTasks (w : World) (p : Party) :
    (w.cancelTasks p).jobTable = w.jobTable.cancel p := by
  have hjobs : (w.cancelTasks p).jobs.map Job.plain =
      (w.jobs.map Job.plain).filter fun j => !(w.tracked.contains ⟨p, j.id⟩) := by
    rw [List.filter_map]
    rfl
  exact congrArg (fun jobs => { w.jobTable.cancel p with jobs }) hjobs

theorem perform_jobTable {site : Site} (hopen : w.jobTable.ended[n]? = some false)
    (howner : site.owner = .numbered n) (action : Action) :
    w.jobTable.Changes (w.perform site action).1.jobTable ∧
      (w.perform site action).1.jobTable.ended = w.jobTable.ended := by
  cases hperform : w.perform site action with
  | mk u outcome =>
      rcases core_perform_cases hperform with ⟨hcore, -⟩ | ⟨call, job, -, hid, hsite, hcore⟩ |
        ⟨name, timer, -, -, -, hcore⟩
      · rw [jobTable_of_core hcore]
        exact ⟨.refl, rfl⟩
      · have hbegin : u.jobTable = w.jobTable.begin job := by
          rw [jobTable, hcore, ← hsite]
          rfl
        rw [hbegin]
        exact ⟨.single (.begin hopen hid (hsite ▸ howner)), rfl⟩
      · have hstop : u.jobTable = w.jobTable := by
          rw [jobTable, hcore]
          rfl
        rw [hstop]
        exact ⟨.refl, rfl⟩

/-- A step between states cancels what the instance tracks, or uses up identities. -/
theorem executeMove_jobTable (w : World) (n : Nat) (step : Move) :
    w.jobTable.Changes ((instanceMachine n).executeMove w step).1.jobTable ∧
      ((instanceMachine n).executeMove w step).1.jobTable.ended = w.jobTable.ended := by
  rcases executeMove_cases w n step with hmove | ⟨left, -, hmove⟩ | ⟨state, u, hu, hmoved⟩
  · rw [hmove]
    exact ⟨.refl, rfl⟩
  · have hcancelled := jobTable_cancelTasks (w.stopTimers (.numbered n)) (.numbered n)
    rw [hmove, hcancelled]
    exact ⟨.single (.leave n), rfl⟩
  · obtain ⟨added, fresh, hstarted, hfresh, -⟩ :=
      Arms.startTimers (w.stateSite n state) w state.after
    have hpass : u.jobTable = { w.jobTable with fresh } := by
      rw [hu, hstarted]
      rfl
    have hsame : ((instanceMachine n).executeMove w step).1.jobTable = u.jobTable := by
      rcases hmoved with hmove | ⟨told, hmove⟩
      · rw [hmove]
      · have hactive : (u.mapInstance n fun i => { i with active := some state }).jobTable.ended =
            u.jobTable.ended := by
          change ((u.instances.modify n fun i => { i with active := some state }).map
            Instance.control).map _ = (u.instances.map Instance.control).map _
          rw [List.map_map, List.map_map]
          exact map_modify_of_eq u.instances n fun _ => rfl
        rw [hmove]
        exact congrArg (fun ended => { u.jobTable with ended }) hactive
    rw [hsame, hpass]
    exact ⟨.single (.pass hfresh), rfl⟩

/-- What an instance does in its turn, if its actions are its own. -/
theorem Works.jobTable (h : Works n work w v) (hopen : w.jobTable.ended[n]? = some false)
    (hwork : Status.IsWorkOf n work) :
    w.jobTable.Changes v.jobTable ∧ v.jobTable.ended = w.jobTable.ended := by
  induction h with
  | rest _ => exact ⟨.refl, rfl⟩
  | @act site action rest hcommand =>
      obtain ⟨told, htold⟩ := exists_remarks_execute w site action
      rw [htold]
      exact perform_jobTable hopen (hwork site action (hcommand ▸ List.mem_cons_self)) action
  | move _ => exact executeMove_jobTable w n _
  | @take _ e events _ _ _ =>
      have hinbox := core_mapInstance (f := fun i => { i with inbox := events }) w n fun _ => rfl
      rw [jobTable_of_core ((Writes.react _ n e).core_eq.trans hinbox)]
      exact ⟨.refl, rfl⟩
  | tell _ _ ih => exact ih

theorem finish_jobTable (w : World) (n : Nat) (result : Except EngineFault Outcome) :
    w.jobTable.Changes (w.finish n result).jobTable := by
  cases hi : w.instance? n with
  | none =>
      simp only [finish, hi]
      exact .refl
  | some i =>
      obtain ⟨u, hwoken, hfinish⟩ := finish_frame hi result
      have hcancelled := jobTable_cancelTasks
        ((w.remark (endRemark n result)).stopTimers (.numbered n)) (.numbered n)
      have hended := jobTable_mapInstance
        (f := fun i => { i with phase := .ended, isParked := false, isRegistered := false })
        (((w.remark (endRemark n result)).stopTimers (.numbered n)).cancelTasks (.numbered n)) n
        true fun _ => rfl
      have hdone : u.jobTable = w.jobTable.finish n := by
        rw [jobTable_of_core hwoken.core_eq, hended, hcancelled]
        rfl
      rw [hfinish]
      exact .single (hdone ▸ .finish n)

/-- A turn that is over has ended its instance at most. -/
theorem Closes.jobTable (h : Closes n w v) (hopen : w.jobTable.ended[n]? = some false) :
    w.jobTable.Changes v.jobTable := by
  cases h with
  | goes work isStarting => exact .refl
  | parks _ _ =>
      have hparked := core_mapInstance (f := fun i => { i with isParked := true }) w n fun _ => rfl
      have hsame := jobTable_of_core hparked
      exact hsame ▸ .refl
  | strands =>
      -- a stranded instance has not ended
      have hstuck := jobTable_mapInstance
        (f := fun i => { i with phase := .stuck, isParked := false }) w n false fun _ => rfl
      rw [ended_modify hopen] at hstuck
      exact hstuck ▸ .refl
  | finishes result => exact finish_jobTable w n result
  | leaves _ => exact .refl

/-- A part of the turn of an instance. -/
theorem changes_of_closes {u : World} (hworks : Works n work w u) (hcloses : Closes n u v)
    (hopen : w.jobTable.ended[n]? = some false) (hwork : Status.IsWorkOf n work) :
    w.jobTable.Changes v.jobTable := by
  obtain ⟨hdone, hended⟩ := hworks.jobTable hopen hwork
  exact hdone.trans (hcloses.jobTable (hended ▸ hopen))

theorem beginTurn_jobTable (w : World) (n : Nat) :
    w.jobTable.Changes (w.beginTurn n).jobTable := by
  rcases beginTurn_cases w n with ⟨hsame, -⟩ | ⟨i, told, hi, hphase, hbegun⟩ |
    ⟨i, u, hi, hphase, hworks, hcloses⟩
  · rw [hsame]
  · -- who begins has not ended before, nor has it now
    have hopen : w.jobTable.ended[n]? = some false :=
      ended_of_instance? hi (by rw [hphase]; exact fun h => nomatch h)
    have hrunning := jobTable_mapInstance (f := fun i =>
      { i with phase := .running, deadline := w.deadline.map fun d => w.clock + d })
      (w.remarks told) n false fun _ => rfl
    have hsame : (w.remarks told).jobTable = w.jobTable := rfl
    rw [hsame, ended_modify hopen] at hrunning
    rw [hbegun]
    exact hrunning ▸ .refl
  · have hopen : w.jobTable.ended[n]? = some false :=
      ended_of_instance? hi (by rw [hphase]; exact fun h => nomatch h)
    refine changes_of_closes (w := { w with turns := w.turns + 1 }) hworks hcloses hopen ?_
    exact fun _ _ hin => absurd hin List.not_mem_nil

end Turns

/-! ## Steps -/

/-- An answer takes an invocation off the table. -/
theorem jobTable_answer (w : World) (job : Job) (response : Response) :
    (w.answer job response).jobTable = w.jobTable.answer job.id := by
  have hjobs : (w.jobs.filter fun j => j.id != job.id).map Job.plain =
      (w.jobs.map Job.plain).filter fun j => j.id != job.id := by
    rw [List.filter_map]
    rfl
  have hgone : World.jobTable { w with jobs := w.jobs.filter fun j => j.id != job.id } =
      w.jobTable.answer job.id :=
    congrArg (fun jobs => { w.jobTable with jobs }) hjobs
  obtain ⟨u, hwrites, hdelivers⟩ := exists_writes_answer w job response
  rw [← hgone]
  exact jobTable_of_core (hdelivers.core_eq.trans hwrites.core_eq)

theorem runJob_jobTable (w : World) (id : Nat) : w.jobTable.Changes (w.runJob id).jobTable := by
  rcases runJob_cases w id with hqueues | ⟨job, response, -, -, hanswer, -⟩
  · exact jobTable_of_core hqueues.core_eq ▸ .refl
  · rw [hanswer, jobTable_answer]
    exact .single (.answer job.id)

/-- Every step begins, cancels or answers invocations, or leaves them alone. -/
theorem Step.jobTable {label : Option Happening} (hstep : Step w label v)
    (htidy : w.status.IsTidy) (hbuilt : ∀ r, label = some (.asked r) → r.IsBuilt) :
    w.jobTable.Changes v.jobTable := by
  cases hstep with
  | ask r =>
      -- requests add instances, which wait for their first turns
      obtain ⟨added, hcore, hadded⟩ := serve_grows w (hbuilt r rfl)
      have hgrown : (w.serve r).jobTable = { w.jobTable with
          ended := w.jobTable.ended ++ added.map fun c => c.phase == .ended } := by
        rw [World.jobTable, hcore]
        simp only [Core.jobTable, List.map_append]
        rfl
      rw [hgrown]
      refine .single (.grow _ fun ended hended => ?_)
      obtain ⟨c, hc, rfl⟩ := List.mem_map.1 hended
      rw [(hadded c hc).1.phase]
      rfl
  | go hgo =>
      unfold step? at hgo
      split at hgo
      · rename_i t hcurrent
        cases hgo
        obtain ⟨c, hc, hphase⟩ := htidy.running t hcurrent
        obtain ⟨i, hi, rfl⟩ := Option.map_eq_some_iff.1
          ((controls_getElem? w t.number).symm.trans hc)
        obtain ⟨u, hworks, hcloses⟩ := resume_cases w t
        refine changes_of_closes hworks hcloses (ended_of_instance? hi fun hended => ?_)
          (htidy.work t hcurrent)
        cases hphase.symm.trans hended
      · split at hgo
        · rename_i task rest _
          cases hgo
          cases task with
          | turn n => exact beginTurn_jobTable { w with ready := rest } n
          | timer id =>
              have hfires := Passes.runTimer { w with ready := rest } id
              exact jobTable_of_core hfires.core_eq ▸ .refl
          | job id => exact runJob_jobTable { w with ready := rest } id
        · cases hgo
  | jump time => exact jobTable_of_core (core_jump w time) ▸ .refl
  | wait time => exact .refl

/-! ## Runs -/

section Runs

variable {w₀ : World} {hs : List Happening}

/-- No invocation is under way yet. -/
def IsIdle (w : World) : Prop := w.jobs = [] ∧ w.tracked = []

theorem engine_isIdle (memory : Memory) (root : LayerId) (c : Configuration)
    (services : Registry Float) (choices : Choices) :
    (engine memory root c services choices).IsIdle :=
  ⟨rfl, rfl⟩

theorem IsIdle.isKept (h : w.IsIdle) : w.jobTable.IsKept := by
  obtain ⟨hjobs, htracked⟩ := h
  have hnone : w.jobTable.jobs = [] := congrArg (List.map Job.plain) hjobs
  have hbooks : w.jobTable.tracked = [] := htracked
  constructor <;> simp [hnone, hbooks]

/-- What holds of invocations holds at any time of a run. -/
theorem Run.isKept (hrun : Run w₀ hs w) (htidy : w₀.status.IsTidy) (hkept : w₀.jobTable.IsKept)
    (hbuilt : ∀ r, .asked r ∈ hs → r.IsBuilt) : w.jobTable.IsKept := by
  induction hrun with
  | start => exact hkept
  | step hbefore hstep ih =>
      obtain ⟨hlabel, hold⟩ := isBuilt_of_toList hbuilt
      exact (ih hold).changes (hstep.jobTable (hbefore.isTidy htidy hold) hlabel)

/-- Invocations of a later time were under way before, or they are new. -/
theorem Run.origin_jobs (hrun : Run w₀ hs w) (htidy : w₀.status.IsTidy)
    (hbuilt : ∀ r, .asked r ∈ hs → r.IsBuilt) :
    w₀.fresh ≤ w.fresh ∧ ∀ j ∈ w.jobTable.jobs, j ∈ w₀.jobTable.jobs ∨ w₀.fresh ≤ j.id := by
  induction hrun with
  | start => exact ⟨Nat.le_refl _, fun j hj => .inl hj⟩
  | @step _ _ u v hbefore hstep ih =>
      obtain ⟨hlabel, hold⟩ := isBuilt_of_toList hbuilt
      obtain ⟨hfresh, hjobs⟩ := ih hold
      obtain ⟨hlater, hnew⟩ := (hstep.jobTable (hbefore.isTidy htidy hold) hlabel).origin
      refine ⟨Nat.le_trans hfresh hlater, fun j hj => ?_⟩
      rcases hnew j hj with hthere | hlate
      · exact hjobs j hthere
      · exact .inr (Nat.le_trans hfresh hlate)

/-- An invocation that is gone does not come back. -/
theorem Run.notMem_jobs {id : Nat} (hrun : Run w₀ hs w) (htidy : w₀.status.IsTidy)
    (hbuilt : ∀ r, .asked r ∈ hs → r.IsBuilt) (hid : id < w₀.fresh)
    (hgone : ∀ j ∈ w₀.jobs, j.id ≠ id) : ∀ j ∈ w.jobs, j.id ≠ id := by
  intro j hj heq
  have hplain := plain_mem_jobTable hj
  -- it was under way before, or it has a later identity
  rcases (hrun.origin_jobs htidy hbuilt).2 _ hplain with hthere | hlate
  · obtain ⟨j₀, hj₀, hsame⟩ := List.mem_map.1 hthere
    exact hgone j₀ hj₀ ((congrArg Job.id hsame).trans heq)
  · exact absurd hid (Nat.not_lt.2 (heq ▸ hlate))

end Runs

end World

end Statechart
