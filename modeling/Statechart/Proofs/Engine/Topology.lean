import Statechart.Proofs.Engine.Turns

/-!
# Instances, nesting, layers and the bus

What the engine knows of its instances, who is nested in whom, which layers are kept in memory, and
the bus as far as it decides who is offered an event. Events, actions, steps between states and time
change none of it; only beginnings and ends of instances do.

- `World.topology`          : all of this
- `World.Passes.topology_eq`, `World.Works.topology_eq` : what leaves it alone
- `World.Passes.published`, `World.Works.published`     : what is published
- `World.Closes.kin`, `World.Closes.published` : the end of a turn
-/

namespace Statechart

/-! ## Topologies -/

/-- What is fixed about an instance, and where it is between its beginning and its end. -/
structure Profile where
  graph : Graph
  extent : Extent
  locals : LayerId
  phase : Phase
  isRegistered : Bool

/-- Who an instance is nested in, and who is nested in it. -/
structure Kin where
  parent : Option Nat
  nested : List Nat

namespace Instance

def profile (i : Instance) : Profile :=
  ⟨i.graph, i.extent, i.locals, i.phase, i.isRegistered⟩

def kin (i : Instance) : Kin := ⟨i.parent, i.nested⟩

end Instance

/-- The bus without what was published. -/
def Bus.roster (b : Bus) : Bus := { b with published := [], seen := 0 }

structure Topology where
  profiles : List Profile
  kin : List Kin
  kinds : List Bool
  bus : Bus

namespace World

variable {w v : World}

def profiles (w : World) : List Profile := w.instances.map Instance.profile

def kin (w : World) : List Kin := w.instances.map Instance.kin

def topology (w : World) : Topology := ⟨w.profiles, w.kin, w.memory.kinds, w.bus.roster⟩

theorem profiles_getElem? (w : World) (n : Nat) :
    w.profiles[n]? = (w.instance? n).map Instance.profile := by
  simp [profiles, instance?]

theorem kin_getElem? (w : World) (n : Nat) : w.kin[n]? = (w.instance? n).map Instance.kin := by
  simp [kin, instance?]

theorem profiles_mapInstance {f : Instance → Instance} {g : Profile → Profile} (w : World)
    (n : Nat) (h : ∀ i, (f i).profile = g i.profile) :
    (w.mapInstance n f).profiles = w.profiles.modify n g :=
  map_modify w.instances n h

theorem kin_mapInstance {f : Instance → Instance} {g : Kin → Kin} (w : World) (n : Nat)
    (h : ∀ i, (f i).kin = g i.kin) : (w.mapInstance n f).kin = w.kin.modify n g :=
  map_modify w.instances n h

theorem kin_mapInstance_of_eq {f : Instance → Instance} (w : World) (n : Nat)
    (h : ∀ i, (f i).kin = i.kin) : (w.mapInstance n f).kin = w.kin :=
  map_modify_of_eq w.instances n h

theorem topology_mapInstance {f : Instance → Instance} (w : World) (n : Nat)
    (h : ∀ i, (f i).profile = i.profile) (h' : ∀ i, (f i).kin = i.kin) :
    (w.mapInstance n f).topology = w.topology := by
  have hprofiles : (w.mapInstance n f).profiles = w.profiles := map_modify_of_eq w.instances n h
  simp only [topology, hprofiles, kin_mapInstance_of_eq w n h']
  rfl

/-! ## What leaves it alone, and what is published -/

theorem Writes.topology_eq (h : w.Writes v) : v.topology = w.topology := by
  obtain ⟨memory, log, hkinds, rfl⟩ := h
  simp only [topology, hkinds]
  rfl

theorem Writes.published (h : w.Writes v) : v.bus.published = w.bus.published := by
  obtain ⟨memory, log, -, rfl⟩ := h
  rfl

theorem topology_withMemory {m : Memory} (h : m.kinds = w.memory.kinds) :
    ({ w with memory := m } : World).topology = w.topology :=
  Writes.topology_eq ⟨m, w.log, h, rfl⟩

namespace Delivers

variable {s : List Sighting}

theorem topology_eq (h : w.Delivers s v) : v.topology = w.topology := by
  obtain ⟨instances, receipts, ready, log, rfl, hinstances⟩ := h.frame
  have hprofiles : instances.map Instance.profile = w.profiles :=
    map_eq_of_plain (fun _ => rfl) hinstances
  have hkin : instances.map Instance.kin = w.kin := map_eq_of_plain (fun _ => rfl) hinstances
  change Topology.mk (instances.map Instance.profile) (instances.map Instance.kin) _ _ = _
  rw [hprofiles, hkin]
  rfl

theorem published (h : w.Delivers s v) : v.bus.published = w.bus.published ++ s := by
  obtain ⟨_, _, _, _, rfl, -⟩ := h.frame
  rfl

end Delivers

theorem Queues.topology_eq (h : w.Queues v) : v.topology = w.topology := by
  obtain ⟨timers, jobs, ready, rfl, -⟩ := h
  rfl

theorem Queues.published (h : w.Queues v) : v.bus.published = w.bus.published := by
  obtain ⟨timers, jobs, ready, rfl, -⟩ := h
  rfl

namespace Passes

variable {s : List Sighting}

theorem topology_eq (h : w.Passes s v) : v.topology = w.topology := by
  induction h with
  | refl => rfl
  | writes _ hwrites ih => exact hwrites.topology_eq.trans ih
  | delivers _ hdelivers ih => exact hdelivers.topology_eq.trans ih
  | queues _ hqueues ih => exact hqueues.topology_eq.trans ih

theorem published (h : w.Passes s v) : v.bus.published = w.bus.published ++ s := by
  induction h with
  | refl => exact (List.append_nil _).symm
  | writes _ hwrites ih => exact hwrites.published.trans ih
  | delivers _ hdelivers ih => rw [hdelivers.published, ih, List.append_assoc]
  | queues _ hqueues ih => exact hqueues.published.trans ih

end Passes

theorem Arms.topology_eq {site : Site} (h : Arms site w v) : v.topology = w.topology := by
  obtain ⟨added, fresh, rfl, -⟩ := h
  rfl

theorem Arms.published {site : Site} (h : Arms site w v) :
    v.bus.published = w.bus.published := by
  obtain ⟨added, fresh, rfl, -⟩ := h
  rfl

theorem topology_runJob (w : World) (id : Nat) : (w.runJob id).topology = w.topology := by
  rcases runJob_cases w id with hqueues | ⟨_, _, _, _, _, hpasses⟩
  · exact hqueues.topology_eq
  · exact hpasses.topology_eq

theorem published_runJob (w : World) (id : Nat) :
    (w.runJob id).bus.published = w.bus.published := by
  rcases runJob_cases w id with hqueues | ⟨_, _, _, _, _, hpasses⟩
  · exact hqueues.published
  · exact hpasses.published.trans (List.append_nil _)

theorem topology_jump (w : World) (time : Nat) : (w.jump time).topology = w.topology :=
  (Passes.jump w time).topology_eq

theorem topology_cancel (w : World) (n : Nat) : (w.cancel n).topology = w.topology :=
  (Delivers.refl.wake n).topology_eq.trans
    (topology_mapInstance w n (fun _ => rfl) fun _ => rfl)

theorem topology_shutDown (w : World) : w.shutDown.topology = w.topology := by
  unfold shutDown
  split
  · rfl
  · exact (part_foldl topology_cancel _ _).trans rfl

/-! ## Commands and turns -/

section Performs

variable {site : Site} {action : Action} {outcome : Except EngineFault (List Action)}

theorem Performs.topology_eq (h : w.Performs site action outcome v) :
    v.topology = w.topology := by
  cases h with
  | writes hwrites _ _ => exact hwrites.topology_eq
  | raises hdelivers => exact hdelivers.topology_eq
  | draws => rfl
  | begins => rfl
  | stops _ => rfl

/-- Actions publish what they raise. -/
theorem Performs.published (h : w.Performs site action outcome v) :
    v.bus.published = w.bus.published ++ w.actionSightings site action := by
  cases h with
  | writes hwrites _ haction => rw [hwrites.published, haction, List.append_nil]
  | raises hdelivers => exact hdelivers.published
  | draws => exact (List.append_nil _).symm
  | begins => exact (List.append_nil _).symm
  | stops _ => exact (List.append_nil _).symm

end Performs

theorem topology_execute (w : World) (site : Site) (action : Action) :
    (worldActor.execute w site action).1.topology = w.topology := by
  obtain ⟨told, htold⟩ := exists_remarks_execute w site action
  rw [htold]
  exact (performs (rfl : w.perform site action = (_, _))).topology_eq

theorem published_execute (w : World) (site : Site) (action : Action) :
    (worldActor.execute w site action).1.bus.published =
      w.bus.published ++ w.actionSightings site action := by
  obtain ⟨told, htold⟩ := exists_remarks_execute w site action
  rw [htold]
  exact (performs (rfl : w.perform site action = (_, _))).published

theorem executeMove_topology (w : World) (n : Nat) (step : Move) :
    ((instanceMachine n).executeMove w step).1.topology = w.topology ∧
      ((instanceMachine n).executeMove w step).1.bus.published = w.bus.published := by
  rcases executeMove_cases w n step with hmove | ⟨left, -, hmove⟩ | ⟨state, v, hv, hmoved⟩
  · rw [hmove]
    exact ⟨rfl, rfl⟩
  · rw [hmove]
    exact ⟨rfl, rfl⟩
  · have harms := Arms.startTimers (w.stateSite n state) w state.after
    rw [← hv] at harms
    rcases hmoved with hmove | ⟨told, hmove⟩
    · rw [hmove]
      exact ⟨harms.topology_eq, harms.published⟩
    · have hactive : (v.mapInstance n fun i => { i with active := some state }).topology =
          v.topology := topology_mapInstance v n (fun _ => rfl) fun _ => rfl
      rw [hmove]
      exact ⟨hactive.trans harms.topology_eq, harms.published⟩

/-- What the first command of a worklist publishes. -/
def firstSightings (w : World) : List Command → List Sighting
  | [] => []
  | c :: _ => w.commandSightings c

section Turns

variable {n : Nat} {work : List Command}

theorem Works.topology_eq (h : Works n work w v) : v.topology = w.topology := by
  induction h with
  | rest _ => rfl
  | act _ => exact topology_execute w _ _
  | move _ => exact (executeMove_topology w n _).1
  | take _ _ _ =>
      exact (Writes.react _ n _).topology_eq.trans
        (topology_mapInstance w n (fun _ => rfl) fun _ => rfl)
  | tell told _ ih => exact (Writes.remarks _ told).topology_eq.trans ih

theorem Works.published (h : Works n work w v) :
    v.bus.published = w.bus.published ++ w.firstSightings work := by
  induction h with
  | rest hwork =>
      rw [hwork]
      exact (List.append_nil _).symm
  | act hwork =>
      rw [hwork]
      exact published_execute w _ _
  | move hwork =>
      rw [hwork]
      exact (executeMove_topology w n _).2.trans (List.append_nil _).symm
  | take hwork _ _ =>
      rw [hwork]
      exact (Writes.react _ n _).published.trans (List.append_nil _).symm
  | tell told _ ih => exact (Writes.remarks _ told).published.trans ih

theorem published_detach (b : Bus) (n : Nat) (events : List String) :
    (detach b n events).published = b.published := by
  have hfirst : ∀ (b : Bus) (source name : String),
      (b.unsubscribe source name).published = b.published := by
    intro b source name
    simp only [Bus.unsubscribe]
    split <;> rfl
  change (events.foldl (fun b event => b.unsubscribe wildcard event) b).published = b.published
  induction events generalizing b with
  | nil => rfl
  | cons event rest ih => exact (ih (b.unsubscribe wildcard event)).trans (hfirst b wildcard event)

/-- Who is nested in whom does not change at the end of a turn, and nothing is published. -/
theorem finish_kin (w : World) (n : Nat) (result : Except EngineFault Outcome) :
    (w.finish n result).kin = w.kin ∧ (w.finish n result).bus.published = w.bus.published := by
  cases hi : w.instance? n with
  | none =>
      have hsame : w.finish n result = w := by simp only [finish, hi]
      rw [hsame]
      exact ⟨rfl, rfl⟩
  | some i =>
      obtain ⟨u, hwoken, hfinish⟩ := finish_frame hi result
      rw [hfinish]
      refine ⟨?_, published_detach w.bus n i.graph.events⟩
      have hkin := congrArg Topology.kin hwoken.topology_eq
      exact hkin.trans (kin_mapInstance_of_eq _ n fun _ => rfl)

theorem Closes.kin (h : Closes n w v) :
    v.kin = w.kin ∧ v.bus.published = w.bus.published := by
  cases h with
  | goes work isStarting => exact ⟨rfl, rfl⟩
  | parks _ _ => exact ⟨kin_mapInstance_of_eq w n fun _ => rfl, rfl⟩
  | strands => exact ⟨kin_mapInstance_of_eq w n fun _ => rfl, rfl⟩
  | finishes result => exact finish_kin w n result
  | leaves _ => exact ⟨rfl, rfl⟩

end Turns

end World

end Statechart
