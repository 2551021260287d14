import Statechart.Proofs.Engine.Sparing

/-!
# Transitions of an instance

The machine of an instance moves as the protocol of transitions says. A transition without a target
leaves the instance where it is, and no timer is lost but by an action that stops it.

- `World.Keeps`           : what actions outside of states leave of a world
- `keeps_of_does`         : a list of such actions leaves this much
- `transit_refines`       : the effects of a transition, in their order
-/

namespace Statechart

namespace Machine

variable {σ : Type} {m : Machine σ}

theorem Drains.left_eq_nil {n : Nat} {s : σ} {work : List Command} {es : List Effect}
    {d : Drained σ} (h : m.Drains n s work es d) (hok : d.outcome = .ok ()) : d.left = [] := by
  induction h with
  | done s => rfl
  | step _ _ ih => exact ih hok
  | fault _ => cases hok

/-- A drain without a fault completes its worklist. -/
theorem completes_of_drain {fuel : Nat} {s : σ} {work : List Command} {d : Drained σ}
    (h : m.drain fuel s work = some d) (hok : d.outcome = .ok ()) :
    ∃ n es, n ≤ fuel ∧ m.Completes n s work es d.final := by
  obtain ⟨n, es, hn, hd⟩ := exists_drains h
  have hleft := hd.left_eq_nil hok
  obtain ⟨final, left, outcome⟩ := d
  cases hok
  cases hleft
  exact ⟨n, es, hn, hd⟩

end Machine

/-! ## Actions outside of states -/

/-- What is left of a world by actions of a party whose invocations are not tracked. A timer is
lost only with a reset of a timer of the party. -/
structure World.Keeps (owner : Party) (es : List Effect) (w w' : World) : Prop where
  controls : w'.controls = w.controls
  tracked : w'.tracked = w.tracked
  jobs : w.jobs <+: w'.jobs
  timers : w'.timers.Sublist w.timers
  lost : ∀ timer ∈ w.timers, timer ∉ w'.timers →
    ∃ stopped ∈ w.timers, stopped.id = timer.id ∧ stopped.owner = owner ∧
      ∃ site, Effect.did site (.resetTimeout stopped.name) ∈ es

theorem tracked_of_perform {w w' : World} {site : Site} {action : Action}
    {outcome : Except EngineFault (List Action)} (hsite : site.tracksTasks = false)
    (h : w.perform site action = (w', outcome)) : w'.tracked = w.tracked := by
  rcases World.core_perform_cases h with ⟨hcore, -⟩ | ⟨call, job, rfl, -, -, hcore⟩ |
    ⟨name, timer, rfl, -, -, hcore⟩
  · exact congrArg Core.tracked hcore
  · have hbegin : w'.tracked = (w.core.begin site job).tracked := congrArg Core.tracked hcore
    rw [hbegin, Core.begin, hsite]
    rfl
  · exact congrArg Core.tracked hcore

theorem tracked_of_does {n : Nat} {site : Site} {w w' : World} {as : List Action}
    {es : List Effect} (hsite : site.tracksTasks = false)
    (h : (instanceMachine n).Does site w as es w') : w'.tracked = w.tracked := by
  induction h with
  | nil w => rfl
  | cons hperform _ _ ihnext ihrest =>
      exact (ihrest.trans ihnext).trans (tracked_of_perform hsite hperform)
  | @failed w v u action fault rest es hperform _ ih =>
      have hfailed : v.tracked = w.tracked := tracked_of_perform hsite hperform
      exact ih.trans hfailed

/-- A list of actions whose invocations are not tracked. -/
theorem keeps_of_does {n : Nat} {site : Site} {w w' : World} {as : List Action} {es : List Effect}
    (hsite : site.tracksTasks = false) (h : (instanceMachine n).Does site w as es w') :
    World.Keeps site.owner es w w' := by
  have hspares : World.Spares es w w' := spares_of_does (instanceMachine_actsIn n) h
  refine ⟨hspares.controls, tracked_of_does hsite h, hspares.jobs, hspares.timers,
    fun timer hin hout => ?_⟩
  obtain ⟨stopped, hstopped, hid, resetting, howner, hdid⟩ := hspares.lost timer hin hout
  -- all actions are at the one site
  obtain ⟨action, heffect⟩ := h.did _ hdid
  cases heffect
  exact ⟨stopped, hstopped, hid, howner.symm, site, hdid⟩

/-! ## Transitions -/

theorem machineSite_tracksTasks (w : World) (n : Nat) : (w.machineSite n).tracksTasks = false := by
  unfold World.machineSite
  split <;> rfl

/-- What is drained of a transition that finishes without a fault are the effects of the protocol,
in its order: they are the effects that the traced machine of the instance writes down. Without a
target the instance stays in its state with its tasks, and with its timers but for those that are
reset. -/
theorem transit_refines {n fuel : Nat} {w : World} {i : Instance} {a : State} {t : Selected}
    {d : Drained World} (hi : w.instance? n = some i) (ha : i.active = some a)
    (hdrain : (instanceMachine n).drain fuel w [.move (.transit t)] = some d)
    (hok : d.outcome = .ok ()) :
    ∃ es,
      (instanceMachine n).traced.drain fuel (w, []) [.move (.transit t)] =
        some ⟨(d.final, es), [], .ok ()⟩ ∧
      (instanceMachine n).Transits w t es d.final ∧
      (t.target? = none →
        (instanceMachine n).active? d.final = some a ∧ w.Keeps (.numbered n) es d.final) := by
  obtain ⟨k, es, hk, hcompletes⟩ := Machine.completes_of_drain hdrain hok
  have htransits := Machine.transits_of_completes hcompletes
  refine ⟨es, by simpa using Machine.Drains.traced hcompletes hk [], htransits, fun htarget => ?_⟩
  have hkeeps : w.Keeps (.numbered n) es d.final := by
    cases htransits with
    | inside _ hdoes =>
        exact World.machineSite_owner w n ▸ keeps_of_does (machineSite_tracksTasks w n) hdoes
    | across hsome => rw [htarget] at hsome; cases hsome
    | onward hsome => rw [htarget] at hsome; cases hsome
  refine ⟨?_, hkeeps⟩
  -- the active state is part of what the instance is
  have hcontrol : (d.final.instance? n).map Instance.control = some i.control := by
    rw [← World.controls_getElem?, hkeeps.controls, World.controls_getElem?, hi]
    rfl
  obtain ⟨j, hj, hcontrol⟩ := Option.map_eq_some_iff.1 hcontrol
  have hactive : j.active = i.active := congrArg Control.active hcontrol
  simp [instanceMachine, hj, hactive, ha]

/-! ### A trial -/

namespace Worker

def raise (name : String) : Action := .raise ⟨name, .internal, []⟩

/-- A state with a timer, which says when it is left. -/
def idle : State :=
  { name := "idle", isInitial := true, isTerminal := false, entry := [], exit := [raise "left"]
    during := [], after := [⟨"tick", .ofLiteral (.ofNat 10), ⟨"tick", .internal, []⟩⟩]
    locals := [], on := [], always := [] }

/-- A state that is left at once, with an action that fails and one that gives rise to another. -/
def busy : State :=
  { name := "busy", isInitial := false, isTerminal := false
    entry := [.choose (.ofLiteral (.bool true)) [(.ofLiteral (.bool true), raise "entered")]]
    exit := [], during := [.resetTimeout "tick"], after := [], locals := [], on := []
    always := [⟨none, some "idle", none, [], []⟩] }

def graph : Graph :=
  { name := "worker", isAbstract := false, locals := [], nested := [], states := [idle, busy]
    initial := idle, description := ⟨"worker", false, [], [], []⟩ }

def worker : Instance :=
  { graph, parent := none, nested := [], extent := .empty, locals := 0, stateLayers := []
    active := some idle, inbox := [], phase := .running, isParked := false, isCancelled := false
    isRegistered := true, deadline := none }

/-- The worker is idle. -/
def world : World :=
  { World.ofMemory ⟨[], ⟨⟨"store", true, .empty⟩, .fresh⟩⟩ 16 .empty .optimal with
    instances := [worker] }

def go : Selected := ⟨⟨some "go", some "busy", none, [], [raise "gone"]⟩, false⟩

end Worker

theorem trial_refines :
    ∃ d es,
      (instanceMachine 0).drain 20 Worker.world [.move (.transit Worker.go)] = some d ∧
        d.outcome = .ok () ∧
        (instanceMachine 0).Transits Worker.world Worker.go es d.final ∧ es.length = 13 := by
  have hsome : ((instanceMachine 0).drain 20 Worker.world [.move (.transit Worker.go)]).isSome := by
    decide +kernel
  obtain ⟨d, hd⟩ := Option.isSome_iff_exists.1 hsome
  have hisOk : ((instanceMachine 0).drain 20 Worker.world [.move (.transit Worker.go)]).all
      fun d => d.outcome.isOk := by
    decide +kernel
  have hok : d.outcome = .ok () := by
    rw [hd] at hisOk
    obtain ⟨final, left, outcome⟩ := d
    cases outcome with
    | ok _ => rfl
    | error _ => cases hisOk
  obtain ⟨es, htraced, htransits, -⟩ := transit_refines rfl rfl hd hok
  have hlength : ((instanceMachine 0).traced.drain 20 (Worker.world, [])
      [.move (.transit Worker.go)]).map (fun d => d.final.2.length) = some 13 := by
    decide +kernel
  rw [htraced] at hlength
  exact ⟨d, es, hd, hok, htransits, Option.some.inj hlength⟩

end Statechart
