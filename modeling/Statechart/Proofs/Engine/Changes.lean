import Statechart.Proofs.Engine.Declarations
import Statechart.Proofs.Engine.Topology
import Statechart.Proofs.Engine.Soundness
import Statechart.Proofs.Engine.Subscriptions

/-!
# How the topology changes

All that a step of an engine does to its topology: an instance begins, ends or is stranded, new
instances are built, or somebody else writes variables. All other steps leave the topology alone.

- `Topology.enrol`, `Topology.dismiss` : an instance becomes known, and unknown again
- `Topology.Grows`       : instances were built that nobody knows yet
- `Topology.Change`      : the changes of a step
- `World.Step.changes`  : there are no others
-/

namespace Statechart

/-! ## Beginnings and ends -/

theorem Bus.roster_subscribeAll (b : Bus) (events : List String) :
    (b.subscribeAll events).roster = b.roster.subscribeAll events := by
  induction events generalizing b with
  | nil => rfl
  | cons event rest ih => exact ih (b.subscribe wildcard event)

theorem Bus.roster_unsubscribeAll (b : Bus) (events : List String) :
    (b.unsubscribeAll events).roster = b.roster.unsubscribeAll events := by
  induction events generalizing b with
  | nil => rfl
  | cons event rest ih =>
      have hfirst :
          (b.unsubscribe wildcard event).roster = b.roster.unsubscribe wildcard event := by
        have hcount : ∀ pattern, b.roster.count pattern = b.count pattern := fun _ => rfl
        simp only [unsubscribe, hcount]
        split <;> rfl
      have hrest := ih (b.unsubscribe wildcard event)
      rw [hfirst] at hrest
      exact hrest

theorem Bus.roster_addListener (b : Bus) (p : Party) :
    (b.addListener p).roster = b.roster.addListener p := by
  have hlisteners : b.roster.listeners = b.listeners := rfl
  simp only [addListener, hlisteners]
  split <;> rfl

namespace Topology

def withPhase (s : Topology) (n : Nat) (phase : Phase) : Topology :=
  { s with profiles := s.profiles.modify n fun p => { p with phase } }

/-- The instance is known, listens, and has its subscriptions. -/
def enrol (s : Topology) (n : Nat) : Topology :=
  match s.profiles[n]? with
  | none => s
  | some p =>
      { s with
        profiles := s.profiles.modify n fun p => { p with isRegistered := true }
        bus := (s.bus.addListener (.numbered n)).subscribeAll p.graph.events }

/-- The instance has ended, and nothing of it is left. -/
def dismiss (s : Topology) (n : Nat) : Topology :=
  match s.profiles[n]? with
  | none => s
  | some p =>
      { s with
        profiles := s.profiles.modify n fun p => { p with phase := .ended, isRegistered := false }
        bus := (s.bus.unsubscribeAll p.graph.events).removeListener (.numbered n) }

section Known

variable {s : Topology} {n : Nat} {p : Profile}

theorem enrol_eq (hp : s.profiles[n]? = some p) :
    s.enrol n =
      { s with
        profiles := s.profiles.modify n fun p => { p with isRegistered := true }
        bus := (s.bus.addListener (.numbered n)).subscribeAll p.graph.events } := by
  simp only [enrol, hp]

theorem dismiss_eq (hp : s.profiles[n]? = some p) :
    s.dismiss n =
      { s with
        profiles := s.profiles.modify n fun p => { p with phase := .ended, isRegistered := false }
        bus := (s.bus.unsubscribeAll p.graph.events).removeListener (.numbered n) } := by
  simp only [dismiss, hp]

end Known

end Topology

namespace World

variable {w v : World}

theorem topology_profiles_getElem? (w : World) (n : Nat) :
    w.topology.profiles[n]? = (w.instance? n).map Instance.profile :=
  profiles_getElem? w n

theorem topology_modify {f : Instance → Instance} {g : Profile → Profile} (w : World) (n : Nat)
    (h : ∀ i, (f i).profile = g i.profile) (h' : ∀ i, (f i).kin = i.kin) :
    (w.mapInstance n f).topology =
      { w.topology with profiles := w.topology.profiles.modify n g } := by
  simp only [topology, profiles_mapInstance w n h, kin_mapInstance_of_eq w n h']
  rfl

theorem topology_register (w : World) (n : Nat) : (w.register n).topology = w.topology.enrol n := by
  unfold register Topology.enrol
  rw [topology_profiles_getElem?]
  cases w.instance? n with
  | none => rfl
  | some i =>
      have hknown := topology_modify (f := fun i => { i with isRegistered := true })
        (g := fun p => { p with isRegistered := true }) w n (fun _ => rfl) fun _ => rfl
      have hbus := Bus.roster_subscribeAll (w.bus.addListener (.numbered n)) i.graph.events
      rw [Bus.roster_addListener] at hbus
      exact congr (congrArg (fun (t : Topology) b => { t with bus := b }) hknown) hbus

theorem topology_start (w : World) (ns : List Nat) :
    (w.start ns).topology = ns.foldl Topology.enrol w.topology := by
  have henqueue : ∀ (v : World) (n : Nat), (v.enqueue (.turn n)).topology = v.topology :=
    fun _ _ => rfl
  rw [start, part_foldl henqueue]
  induction ns generalizing w with
  | nil => rfl
  | cons n rest ih => rw [List.foldl_cons, ih, topology_register, List.foldl_cons]

theorem topology_strand (w : World) (n : Nat) :
    (w.strand n).topology = w.topology.withPhase n .stuck :=
  topology_modify (f := fun i => { i with phase := .stuck, isParked := false })
    (g := fun p => { p with phase := .stuck }) w n (fun _ => rfl) fun _ => rfl

theorem roster_detach (b : Bus) (n : Nat) (events : List String) :
    (detach b n events).roster =
      (b.roster.unsubscribeAll events).removeListener (.numbered n) := by
  rw [← Bus.roster_unsubscribeAll]
  rfl

theorem topology_finish (w : World) (n : Nat) (result : Except EngineFault Outcome) :
    (w.finish n result).topology = w.topology.dismiss n := by
  cases hi : w.instance? n with
  | none => simp only [finish, Topology.dismiss, topology_profiles_getElem?, hi, Option.map_none]
  | some i =>
      obtain ⟨u, hwoken, hfinish⟩ := finish_frame hi result
      have hended := topology_modify
        (f := fun i => { i with phase := .ended, isParked := false, isRegistered := false })
        (g := fun p => { p with phase := .ended, isRegistered := false })
        (((w.remark (endRemark n result)).stopTimers (.numbered n)).cancelTasks (.numbered n)) n
        (fun _ => rfl) fun _ => rfl
      have hp : w.topology.profiles[n]? = some i.profile := by
        rw [topology_profiles_getElem?, hi, Option.map_some]
      have hu := hwoken.topology_eq.trans hended
      calc
        (w.finish n result).topology
            = { u.topology with bus := (detach w.bus n i.graph.events).roster } := by
              rw [hfinish]
              rfl
        _ = w.topology.dismiss n := by
              rw [hu, roster_detach, Topology.dismiss_eq hp]
              rfl

end World

/-- The own variables of the instance are in memory, above those of the enclosing scope. -/
structure Profile.HasOwnLayer (p : Profile) (kinds : List Bool) : Prop where
  high : p.extent.high? = some p.locals
  isMemory : kinds[p.locals]? = some true

theorem Profile.HasOwnLayer.append {p : Profile} {kinds : List Bool} (h : p.HasOwnLayer kinds)
    (more : List Bool) : p.HasOwnLayer (kinds ++ more) :=
  ⟨h.high, (List.getElem?_append_left (List.getElem?_eq_some_iff.1 h.isMemory).1).trans h.isMemory⟩

namespace Topology

/-- Instances were built; nobody knows them yet. -/
def Grows (s s' : Topology) : Prop :=
  ∃ added kin more,
    s' = { s with profiles := s.profiles ++ added, kin, kinds := s.kinds ++ more } ∧
      ∀ p ∈ added, p.phase = .created ∧ p.isRegistered = false ∧ p.HasOwnLayer s'.kinds

namespace Grows

variable {s s' s'' : Topology}

/-- Only who is nested in whom has changed. -/
theorem of_kin {kin : List Kin} (h : s' = { s with kin }) : Grows s s' :=
  ⟨[], kin, [], by simp [h], by simp⟩

theorem refl (s : Topology) : Grows s s := of_kin (show s = { s with kin := s.kin } from rfl)

theorem trans (h : Grows s s') (h' : Grows s' s'') : Grows s s'' := by
  obtain ⟨added, kin, more, rfl, hadded⟩ := h
  obtain ⟨added', kin', more', rfl, hadded'⟩ := h'
  refine ⟨added ++ added', kin', more ++ more', by simp, fun p hp => ?_⟩
  rcases List.mem_append.1 hp with hp | hp
  · obtain ⟨hphase, hknown, hlayer⟩ := hadded p hp
    exact ⟨hphase, hknown, hlayer.append more'⟩
  · exact hadded' p hp

end Grows

end Topology

namespace World

variable {w v : World}

theorem addInstance_topology {g : Graph} {enclosing extent : Extent} {parent : Option Nat}
    {n : Nat} (h : w.addInstance g enclosing parent = .ok (v, n, extent)) :
    w.topology.Grows v.topology := by
  unfold addInstance at h
  obtain ⟨m₁, hdeclare, h⟩ := bind_eq_ok_iff.1 h
  obtain ⟨⟨m₂, layers⟩, hstates, h⟩ := bind_eq_ok_iff.1 h
  cases h
  -- the layer of the instance is the first one that is added
  have hown : m₁.kinds = w.memory.kinds ++ [true] :=
    (Memory.isStable_kinds.declare hdeclare).trans (w.memory.kinds_add (.memory .empty))
  obtain ⟨more, hmore⟩ :=
    Memory.isStable_isPrefix_kinds.declareStates Memory.isPrefix_kinds_add hstates
  have hkinds : m₂.kinds = w.memory.kinds ++ true :: more := by
    rw [← hmore, hown, List.append_assoc]
    rfl
  have hplace : (w.memory.kinds ++ true :: more)[w.memory.layers.length]? = some true := by
    simp [Memory.kinds]
  refine ⟨[⟨g, enclosing.extend w.memory.layers.length, w.memory.layers.length, .created, false⟩],
    w.kin ++ [⟨parent, []⟩], true :: more, ?_, ?_⟩
  · simp [topology, profiles, kin, Instance.profile, Instance.kin, hkinds]
  · intro p hp
    cases List.mem_singleton.1 hp
    refine ⟨rfl, rfl, List.getLast?_concat, ?_⟩
    exact (congrArg (fun kinds => kinds[w.memory.layers.length]?) hkinds).trans hplace

/-- Who is nested in an instance is set. -/
theorem topology_nest {f : Instance → Instance} (w : World) (n : Nat)
    (h : ∀ i, (f i).profile = i.profile) :
    (w.mapInstance n f).topology = { w.topology with kin := (w.mapInstance n f).kin } := by
  have hprofiles : (w.mapInstance n f).profiles = w.profiles := map_modify_of_eq w.instances n h
  simp only [topology, hprofiles]
  rfl

/-- Building only adds instances, with their variables. -/
theorem isStable_topology :
    IsStable (fun _ => True) fun w w' => w.topology.Grows w'.topology where
  nested _ _ _ _ := trivial
  refl _ := .refl _
  trans := .trans
  addInstance h _ := addInstance_topology h
  setNested w n _ := .of_kin (topology_nest w n fun _ => rfl)

/-- Being adopted changes only who is nested in whom. -/
theorem adopt_topology (w : World) (parent : Option Nat) (n : Nat) :
    ∃ kin, (w.adopt parent n).topology = { w.topology with kin } := by
  cases parent with
  | none => exact ⟨w.kin, rfl⟩
  | some p => exact ⟨_, topology_nest w p fun _ => rfl⟩

end World

/-! ## Changes -/

namespace Topology

/-- The numbers of the instances of the one topology that are not in the other. -/
def newcomers (s s' : Topology) : List Nat :=
  (List.range s'.profiles.length).drop s.profiles.length

/-- What a step does to the topology. -/
inductive Change (s : Topology) (label : Option Happening) : Topology → Prop where
  | stay : Change s label s
  | begin {n : Nat} {p : Profile} : s.profiles[n]? = some p → p.phase = .created →
      Change s label (s.withPhase n .running)
  /-- The instance is stopped by a delay without end. -/
  | strand {n : Nat} {p : Profile} {h : Happening} {name : String} : s.profiles[n]? = some p →
      p.phase = .running → label = some h → h.fault? = some (.endlessDelay name) →
      Change s label (s.withPhase n .stuck)
  | dismiss {n : Nat} {p : Profile} : s.profiles[n]? = some p → p.phase = .running →
      Change s label (s.dismiss n)
  /-- Instances are built, and all of them become known. -/
  | found {s' : Topology} : s.Grows s' → Change s label ((s.newcomers s').foldl enrol s')
  /-- Somebody else writes variables. -/
  | write (memory : Memory) : label = some (.asked (.write memory)) →
      Change s label { s with kinds := memory.kinds }

theorem Change.of_eq {s s' : Topology} {label : Option Happening} (h : s' = s) :
    s.Change label s' := h ▸ .stay

end Topology

namespace World

variable {w v : World} {label : Option Happening}

/-! ### Requests -/

theorem builtSince_eq (w built : World) :
    built.builtSince w.instances.length = w.topology.newcomers built.topology := by
  simp [builtSince, Topology.newcomers, topology, profiles]

/-- Built instances are adopted and started. -/
theorem start_changes {built : World} (h : w.topology.Grows built.topology)
    (hv : ∃ kin, v.topology = { built.topology with kin }) :
    w.topology.Change label (v.start (built.builtSince w.instances.length)).topology := by
  obtain ⟨kin, hkin⟩ := hv
  rw [topology_start, builtSince_eq, hkin]
  exact .found (h.trans (.of_kin rfl))

theorem launch_changes (w : World) (c : Collaboration) :
    w.topology.Change label (w.launch c).1.topology := by
  have hkinds := Memory.isStable_kinds.establish w.root w.rootExtent w.memory c.persistent
  unfold launch
  split
  · exact .stay
  · split
    · rename_i hmemory
      rw [hmemory] at hkinds
      exact .of_eq (topology_withMemory hkinds)
    · rename_i memory hmemory
      rw [hmemory] at hkinds
      have htopology : ({ w with memory } : World).topology = w.topology :=
        topology_withMemory hkinds
      simp only
      split
      · exact .of_eq htopology
      · rename_i built _ hbuild
        have hbuilt := isStable_topology.buildAll hbuild fun _ _ => trivial
        rw [htopology] at hbuilt
        exact start_changes hbuilt ⟨built.kin, rfl⟩

theorem spawn_changes (w : World) (g : Graph) (parent : Option Nat) :
    w.topology.Change label (w.spawn g parent).1.topology := by
  unfold spawn
  split
  · exact .stay
  · simp only
    split
    · exact .stay
    · rename_i built n hbuild
      exact start_changes (isStable_topology.build hbuild trivial) (adopt_topology built parent n)

theorem place_changes (w : World) (g : Graph) (enclosing : Extent) (parent : Option Nat) :
    w.topology.Change label (w.place g enclosing parent).topology := by
  unfold place
  split
  · exact .stay
  · rename_i built n hbuild
    exact start_changes (isStable_topology.build hbuild trivial) (adopt_topology built parent n)

theorem serve_changes (w : World) (r : Request) :
    w.topology.Change (some (.asked r)) (w.serve r).topology := by
  cases r with
  | launch c => exact launch_changes w c
  | spawn g parent => exact spawn_changes w g parent
  | place g enclosing parent => exact place_changes w g enclosing parent
  | offer p e => exact .of_eq (Delivers.offer w p e).topology_eq
  | send source e => exact .of_eq (Delivers.send w source e).topology_eq
  | cancel n => exact .of_eq (topology_cancel w n)
  | shutDown => exact .of_eq (topology_shutDown w)
  | write memory => exact .write memory rfl
  | respond id response => exact .of_eq (Queues.respond w id response).topology_eq

/-! ### Turns -/

/-- An instance that fails is stranded by a delay without end; else it ends or goes on. -/
theorem fail_changes {t : Turn} {p : Profile} {fault : EngineFault} (hv : v.topology = w.topology)
    (hp : w.topology.profiles[t.number]? = some p) (hphase : p.phase = .running)
    (hlabel : ∀ name, fault = .endlessDelay name →
      ∃ h, label = some h ∧ h.fault? = some (.endlessDelay name)) :
    w.topology.Change label (v.fail t fault).topology := by
  by_cases hendless : ∃ name, fault = .endlessDelay name
  · obtain ⟨name, rfl⟩ := hendless
    obtain ⟨h, hh, hfault⟩ := hlabel name rfl
    change w.topology.Change label (v.strand t.number).topology
    rw [topology_strand, hv]
    exact .strand hp hphase hh hfault
  · -- all other faults are told, and some of them end the instance
    have hfail : v.fail t fault =
        if t.isStarting || fault.isFatal then v.finish t.number (.error fault)
        else { v.say .warning t.number ("failed to handle event: " ++ fault.message) with
          current := some ⟨t.number, [], false⟩ } := by
      cases fault with
      | endlessDelay name => exact absurd ⟨name, rfl⟩ hendless
      | _ => rfl
    rw [hfail]
    split
    · rw [topology_finish, hv]
      exact .dismiss hp hphase
    · exact .of_eq hv

theorem profile_of_instance? {n : Nat} {i : Instance} (hi : w.instance? n = some i) :
    w.topology.profiles[n]? = some i.profile := by
  rw [topology_profiles_getElem?, hi]
  rfl

/-- Choosing a transition starts no timer. -/
theorem react_fault {n : Nat} {i : Instance} {e : Event} {fault : EngineFault}
    (hi : w.instance? n = some i) (h : (w.react n e).2 = .error fault) (name : String) :
    fault ≠ .endlessDelay name := by
  rw [react_result hi e] at h
  cases hactive : i.active with
  | none =>
      rw [hactive] at h
      cases h
      exact fun heq => by cases heq
  | some state =>
      rw [hactive] at h
      simp only at h
      cases hchoice : selectTransition state.name e.name (state.onEvent e.name)
        (guardLookup w.memory (i.stateExtent state) e) with
      | error other =>
          rw [hchoice] at h
          obtain ⟨count, -, -, rfl⟩ := selectTransition_error hchoice
          cases h
          exact fun heq => by cases heq
      | ok follow =>
          rw [hchoice] at h
          cases h

theorem handle_changes {n : Nat} {i : Instance} (hi : w.instance? n = some i)
    (hphase : i.phase = .running) (e : Event) :
    w.topology.Change label (w.handle n e).topology := by
  have hreact := (Writes.react w n e).topology_eq
  unfold handle
  split
  · rename_i hdone
    rw [hdone] at hreact
    exact .of_eq hreact
  · rename_i fault hfailed
    have hfault := react_fault hi (congrArg Prod.snd hfailed)
    rw [hfailed] at hreact
    exact fail_changes hreact (profile_of_instance? hi) hphase
      fun name heq => absurd heq (hfault name)

theorem next_changes {n : Nat} {i : Instance} (hi : w.instance? n = some i)
    (hphase : i.phase = .running) : w.topology.Change label (w.next n i).topology := by
  unfold next
  split
  · rename_i e rest _
    have htaken : (w.mapInstance n fun i => { i with inbox := rest }).topology = w.topology :=
      topology_mapInstance w n (fun _ => rfl) fun _ => rfl
    have hthere := instance?_mapInstance_self (fun i => { i with inbox := rest }) hi
    -- inboxes are no part of the topology
    rw [← htaken]
    exact handle_changes hthere hphase e
  · exact .of_eq (topology_mapInstance w n (fun _ => rfl) fun _ => rfl)

/-- A command of a turn; only steps between states fail. -/
theorem resume_cons_changes {t : Turn} {i : Instance} {command : Command} {rest : List Command}
    (hi : w.instance? t.number = some i) (hphase : i.phase = .running)
    (hwork : t.work = command :: rest) :
    w.topology.Change (some (.did t.number command (w.outcome t.number command)))
      (w.resume t).topology := by
  have htopology : ((instanceMachine t.number).advance w command rest).1.topology = w.topology := by
    rw [advance_fst]
    cases command with
    | act site action => exact topology_execute w site action
    | move step => exact (executeMove_topology w t.number step).1
  simp only [resume, hwork]
  split
  · rename_i hdone
    rw [hdone] at htopology
    exact .of_eq htopology
  · rename_i v fault hfailed
    rw [hfailed] at htopology
    refine fail_changes htopology (profile_of_instance? hi) hphase ?_
    rintro name rfl
    -- the label tells the fault, so that a history tells whether anybody was stranded
    refine ⟨_, rfl, ?_⟩
    cases command with
    | act site action =>
        simp only [Machine.advance, Machine.execute] at hfailed
        cases hfailed
    | move step =>
        simp only [Machine.advance, Machine.execute] at hfailed
        split at hfailed
        · cases hfailed
        · rename_i hmove
          cases hfailed
          simp [outcome, hmove, outcomeOf, Happening.fault?, Except.map]

theorem resume_changes {t : Turn} (htidy : w.status.IsTidy) (hcurrent : w.current = some t) :
    w.topology.Change w.happening? (w.resume t).topology := by
  obtain ⟨c, hc, hphase⟩ := htidy.running t hcurrent
  obtain ⟨i, hi, rfl⟩ := Option.map_eq_some_iff.1 ((controls_getElem? w t.number).symm.trans hc)
  cases hwork : t.work with
  | cons command rest =>
      have hlabel : w.happening? = some (.did t.number command (w.outcome t.number command)) := by
        simp only [happening?, hcurrent, hwork]
      rw [hlabel]
      exact resume_cons_changes hi hphase hwork
  | nil =>
      simp only [resume, hwork, hi]
      split
      · rw [topology_finish]
        exact .dismiss (profile_of_instance? hi) hphase
      · exact next_changes hi hphase

theorem beginTurn_changes (w : World) (n : Nat) :
    w.topology.Change label (w.beginTurn n).topology := by
  unfold beginTurn
  split
  · exact .stay
  · rename_i i hi
    split
    · rename_i hphase
      have hbegun : ((w.say .notice n ("started (" ++ i.graph.name ++ ")")).mapInstance n fun i =>
          { i with phase := .running, deadline := w.deadline.map fun d => w.clock + d }).topology =
            w.topology.withPhase n .running :=
        topology_modify (w.say .notice n ("started (" ++ i.graph.name ++ ")")) n (fun _ => rfl)
          fun _ => rfl
      have hbegin : w.topology.Change label (w.topology.withPhase n .running) :=
        .begin (profile_of_instance? hi) hphase
      rw [← hbegun] at hbegin
      exact hbegin
    · rename_i hphase
      simp only
      split
      · exact next_changes (w := { w with turns := w.turns + 1 }) hi hphase
      · exact .stay
    · exact .stay
    · exact .stay

/-! ### Steps -/

/-- Every step of an engine changes the topology in one of these ways. -/
theorem Step.changes (hstep : Step w label v) (htidy : w.status.IsTidy) :
    w.topology.Change label v.topology := by
  cases hstep with
  | ask r => exact serve_changes w r
  | go hgo =>
      unfold step? at hgo
      split at hgo
      · rename_i t hcurrent
        cases hgo
        exact resume_changes htidy hcurrent
      · split at hgo
        · rename_i task rest _
          cases hgo
          cases task with
          | turn n => exact beginTurn_changes { w with ready := rest } n
          | timer id => exact .of_eq (Passes.runTimer { w with ready := rest } id).topology_eq
          | job id => exact .of_eq (topology_runJob { w with ready := rest } id)
        · cases hgo
  | jump time => exact .of_eq (topology_jump w time)
  | wait time => exact .stay

end World

end Statechart
