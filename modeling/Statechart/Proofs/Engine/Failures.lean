import Statechart.Proofs.Context.Breakage
import Statechart.Proofs.Engine.Resources
import Statechart.Proofs.Engine.Run
import Statechart.Proofs.Worklist.Lockstep

/-!
# Actions that fail

An action that fails has no effect, for whatever reason it fails. It leaves the bytes of a save that
broke off, and the service that was drawn for an invocation whose input does not evaluate. So a
worklist with such an action does what it does without it, but for the remark about the failure.

- `World.performWith`         : an action whose save may break off
- `World.performWith_of_error` : what an action leaves that fails
- `World.Unsaid`              : worlds that differ in one remark
- `World.Unsaid.performWith`, `World.unsaid_matches` : actions and steps keep them so
- `Fragile`, `fragileMachine` : a machine whose saves may break off
- `World.drain_failed`        : a worklist with an action that fails
-/

namespace Statechart

namespace World

variable {w v : World} {broken : Option SaveBreak} {site : Site} {action : Action}

/-! ## Actions -/

/-- Evaluates a variable and writes it. -/
def store (w : World) (site : Site) (declared : Variable)
    (write : Memory → String → Value → Memory × Except ContextFault Nat) :
    World × Except EngineFault (List Action) :=
  match declared.evaluate (site.extent.lookup w.memory) with
  | .error fault => (w, .error (.model fault))
  | .ok (name, value) =>
      match write w.memory name value with
      | (memory, .ok _) => ({ w with memory }, .ok [])
      | (memory, .error fault) => ({ w with memory }, .error (.model (.context fault)))

/-- Does an action; the save behind it may break off. -/
def performWith (broken : Option SaveBreak) (w : World) (site : Site) (action : Action) :
    World × Except EngineFault (List Action) :=
  match action with
  | .assign declared =>
      w.store site declared fun m name value => site.extent.assignWith broken m name value
  | .create declared persistent =>
      w.store site declared fun m name value =>
        site.extent.createWith broken m name value persistent
  | action => w.perform site action

theorem performWith_none (w : World) (site : Site) (action : Action) :
    w.performWith none site action = w.perform site action := by
  cases action with
  | assign declared =>
      have hwrite : (fun m name value => site.extent.assignWith none m name value) =
          fun m name value => site.extent.assign m name value := by
        funext m name value
        exact Extent.assignWith_none m site.extent name value
      exact congrArg (w.store site declared) hwrite
  | create declared persistent =>
      have hwrite : (fun m name value => site.extent.createWith none m name value persistent) =
          fun m name value => site.extent.create m name value persistent := by
        funext m name value
        exact Extent.createWith_none m site.extent name value persistent
      exact congrArg (w.store site declared) hwrite
  | _ => rfl

theorem store_of_error {declared : Variable} {fault : EngineFault}
    {write : Memory → String → Value → Memory × Except ContextFault Nat}
    (hwrite : ∀ name value refusal, (write w.memory name value).2 = .error refusal →
      w.memory.Drafts (write w.memory name value).1)
    (h : (w.store site declared write).2 = .error fault) :
    ∃ memory, w.memory.Drafts memory ∧ (w.store site declared write).1 = { w with memory } := by
  unfold store at h ⊢
  cases hdeclared : declared.evaluate (site.extent.lookup w.memory) with
  | error refusal => exact ⟨w.memory, .refl _, rfl⟩
  | ok entry =>
      obtain ⟨name, value⟩ := entry
      simp only [hdeclared] at h ⊢
      cases hwritten : write w.memory name value with
      | mk memory outcome =>
          rw [hwritten] at h
          cases outcome with
          | ok written => cases h
          | error refusal =>
              have hdrafts := hwrite name value refusal (congrArg Prod.snd hwritten)
              rw [hwritten] at hdrafts
              exact ⟨memory, hdrafts, rfl⟩

/-- An event that cannot be delivered reaches nobody. -/
theorem deliver_of_error {owner : Party} {e : Event} {fault : EngineFault}
    (h : (w.deliver owner e).2 = .error fault) : (w.deliver owner e).1 = w := by
  unfold deliver at h ⊢
  split
  · rename_i hinternal
    rw [if_pos hinternal] at h
    cases h
  · rename_i houter
    rw [if_neg houter] at h
    unfold send at h ⊢
    cases hroute : w.bus.route e owner with
    | error refusal => rfl
    | ok listeners =>
        rw [hroute] at h
        cases h

/-- Nothing is left of an action that fails, but bytes of a save that broke off, and the count of
services if one was drawn. -/
theorem performWith_of_error {fault : EngineFault}
    (h : (w.performWith broken site action).2 = .error fault) :
    ∃ memory drawn, w.memory.Drafts memory ∧
      (drawn = w.drawn ∨ drawn = w.drawn + 1 ∧ ∃ call, action = .invoke call) ∧
      (w.performWith broken site action).1 = { w with memory, drawn } := by
  have hsame : ∃ memory drawn, w.memory.Drafts memory ∧
      (drawn = w.drawn ∨ drawn = w.drawn + 1 ∧ ∃ call, action = .invoke call) ∧
      w = { w with memory, drawn } := ⟨w.memory, w.drawn, .refl _, .inl rfl, rfl⟩
  cases action with
  | assign declared =>
      obtain ⟨memory, hdrafts, hworld⟩ :=
        store_of_error (fun _ _ _ hrefused => Extent.drafts_assign hrefused) h
      exact ⟨memory, w.drawn, hdrafts, .inl rfl, hworld⟩
  | create declared persistent =>
      obtain ⟨memory, hdrafts, hworld⟩ :=
        store_of_error (fun _ _ _ hrefused => Extent.drafts_create hrefused) h
      exact ⟨memory, w.drawn, hdrafts, .inl rfl, hworld⟩
  | invoke call =>
      simp only [performWith, perform, selectService] at h ⊢
      cases hchoice : w.policy.choose? w.services (w.choices.draws w.drawn) call.service
          call.isLocal with
      | none => exact hsame
      | some service =>
          simp only [hchoice] at h ⊢
          cases hinput : call.input.mapM fun v => v.evaluate (site.extent.lookup w.memory) with
          | error refusal => exact ⟨w.memory, w.drawn + 1, .refl _, .inr ⟨rfl, call, rfl⟩, rfl⟩
          | ok input =>
              rw [hinput] at h
              cases h
  | choose value cases =>
      simp only [performWith, perform]
      split <;> exact hsame
  | raise template =>
      simp only [performWith, perform] at h ⊢
      cases hevent : template.evaluate (site.extent.lookup w.memory) with
      | error refusal => exact hsame
      | ok event =>
          simp only [hevent] at h ⊢
          cases hdeliver : w.deliver site.owner event with
          | mk reached outcome =>
              rw [hdeliver] at h
              cases outcome with
              | ok _ => cases h
              | error refusal =>
                  have hnobody := deliver_of_error (congrArg Prod.snd hdeliver)
                  rw [hdeliver] at hnobody
                  exact hnobody ▸ hsame
  | timeout timer => cases h
  | resetTimeout name =>
      simp only [performWith, perform, stopTimer] at h ⊢
      cases htimer : w.timer? site.owner name with
      | none => exact hsame
      | some timer =>
          rw [htimer] at h
          cases h

end World

/-! ## Worlds that differ in a remark -/

/-- Resources that are the same but for a remark that only the first ones have, the bytes of an
unfinished save, and the count of draws. Services will be drawn alike. -/
structure Resources.Unsaid (before : List Remark) (r : Remark) (m m' : Resources) : Prop where
  memory : m.memory.Drafts m'.memory
  services : m'.services = m.services
  policy : m'.policy = m.policy
  draws : ∀ k type localOnly,
    m.policy.choose? m.services (m.choices.draws (m.drawn + k)) type localOnly =
      m.policy.choose? m.services (m'.choices.draws (m'.drawn + k)) type localOnly
  log : ∃ told, m.log = before ++ r :: told ∧ m'.log = before ++ told

namespace World

variable {w v : World} {before : List Remark} {r : Remark} {n : Nat}

/-- Two worlds that are the same but for a remark that only the first one has. -/
def Unsaid (before : List Remark) (r : Remark) (w v : World) : Prop :=
  ∃ m, w.resources.Unsaid before r m ∧ v = w.withResources m

namespace Unsaid

theorem drafts (h : Unsaid before r w v) : w.memory.Drafts v.memory := by
  obtain ⟨m, hm, rfl⟩ := h
  exact hm.memory

theorem lookup_eq (h : Unsaid before r w v) (e : Extent) :
    e.lookup w.memory = e.lookup v.memory :=
  (Extent.lookup_of_drafts h.drafts e).symm

/-- What does not read the resources comes to the same. -/
theorem of_ignoresResources {α : Type} {f : World → World × α} (h : Unsaid before r w v)
    (hf : IgnoresResources f) : Unsaid before r (f w).1 (f v).1 ∧ (f w).2 = (f v).2 := by
  obtain ⟨m, hm, rfl⟩ := h
  rw [hf w m]
  exact ⟨⟨m, hf.resources_eq w ▸ hm, rfl⟩, rfl⟩

/-- Variables are written, to the same effect. -/
theorem withMemory (h : Unsaid before r w v) {memory memory' : Memory}
    (hmemory : memory.Drafts memory') :
    Unsaid before r { w with memory } { v with memory := memory' } := by
  obtain ⟨m, hm, rfl⟩ := h
  exact ⟨{ m with memory := memory' }, { hm with memory := hmemory }, rfl⟩

theorem remarks (h : Unsaid before r w v) (rs : List Remark) :
    Unsaid before r (w.remarks rs) (v.remarks rs) := by
  obtain ⟨m, hm, rfl⟩ := h
  obtain ⟨told, hw, hv⟩ := hm.log
  refine ⟨{ m with log := m.log ++ rs }, { hm with log := ⟨told ++ rs, ?_, ?_⟩ }, rfl⟩
  · change w.log ++ rs = _
    rw [show w.log = before ++ r :: told from hw, List.append_assoc, List.cons_append]
  · rw [hv, List.append_assoc]

theorem selectService (h : Unsaid before r w v) (type : String) (localOnly : Bool) :
    Unsaid before r (w.selectService type localOnly).1 (v.selectService type localOnly).1 ∧
      (w.selectService type localOnly).2 = (v.selectService type localOnly).2 := by
  obtain ⟨m, hm, rfl⟩ := h
  have hchoice : (w.withResources m).policy.choose? (w.withResources m).services
      ((w.withResources m).choices.draws (w.withResources m).drawn) type localOnly =
        w.policy.choose? w.services (w.choices.draws w.drawn) type localOnly := by
    change m.policy.choose? m.services (m.choices.draws m.drawn) type localOnly = _
    rw [hm.policy, hm.services]
    exact (hm.draws 0 type localOnly).symm
  unfold World.selectService
  rw [hchoice]
  cases w.policy.choose? w.services (w.choices.draws w.drawn) type localOnly with
  | none => exact ⟨⟨m, hm, rfl⟩, rfl⟩
  | some service =>
      -- the next draw is the one after
      refine ⟨⟨{ m with drawn := m.drawn + 1 }, { hm with draws := fun k type localOnly => ?_ },
        rfl⟩, rfl⟩
      have hnext := hm.draws (k + 1) type localOnly
      change w.policy.choose? w.services (w.choices.draws (w.drawn + 1 + k)) type localOnly =
        w.policy.choose? w.services (m.choices.draws (m.drawn + 1 + k)) type localOnly
      rw [Nat.add_right_comm, Nat.add_right_comm m.drawn]
      exact hnext

theorem store (h : Unsaid before r w v) (site : Site) (declared : Variable)
    {write : Memory → String → Value → Memory × Except ContextFault Nat}
    (hwrite : ∀ {m m' : Memory} name value, m.Drafts m' →
      (write m name value).1.Drafts (write m' name value).1 ∧
        (write m name value).2 = (write m' name value).2) :
    Unsaid before r (w.store site declared write).1 (v.store site declared write).1 ∧
      (w.store site declared write).2 = (v.store site declared write).2 := by
  simp only [World.store, ← h.lookup_eq site.extent]
  cases declared.evaluate (site.extent.lookup w.memory) with
  | error fault => exact ⟨h, rfl⟩
  | ok entry =>
      obtain ⟨name, value⟩ := entry
      obtain ⟨memory, memory', outcome, hwritten, hwritten', hdrafts⟩ :=
        exists_outcome (hwrite name value h.drafts)
      simp only [hwritten, hwritten']
      cases outcome <;> exact ⟨h.withMemory hdrafts, rfl⟩

theorem performWith (h : Unsaid before r w v) (broken : Option SaveBreak) (site : Site)
    (action : Action) :
    Unsaid before r (w.performWith broken site action).1 (v.performWith broken site action).1 ∧
      (w.performWith broken site action).2 = (v.performWith broken site action).2 := by
  have hfind := h.lookup_eq site.extent
  cases action with
  | assign declared =>
      exact h.store site declared fun name value hmemory =>
        Extent.assignWith_of_drafts hmemory site.extent name value
  | create declared persistent =>
      exact h.store site declared fun name value hmemory =>
        Extent.createWith_of_drafts hmemory site.extent name value persistent
  | invoke call =>
      obtain ⟨w', v', service, hchosen, hchosen', hselected⟩ :=
        exists_outcome (h.selectService call.service call.isLocal)
      simp only [World.performWith, perform, ← hfind, hchosen, hchosen']
      cases service with
      | error fault => exact ⟨hselected, rfl⟩
      | ok service =>
          simp only
          cases call.input.mapM fun v => v.evaluate (site.extent.lookup w.memory) with
          | error fault => exact ⟨hselected, rfl⟩
          | ok input =>
              exact hselected.of_ignoresResources (f := fun w =>
                (w.startJob site call input service, Except.ok [])) fun _ _ => rfl
  | choose value cases =>
      simp only [World.performWith, perform, ← hfind]
      cases value.evaluate (site.extent.lookup w.memory) <;> exact ⟨h, rfl⟩
  | raise template =>
      simp only [World.performWith, perform, ← hfind]
      cases template.evaluate (site.extent.lookup w.memory) with
      | error fault => exact ⟨h, rfl⟩
      | ok event =>
          obtain ⟨w', v', outcome, hdone, hdone', hdelivered⟩ :=
            exists_outcome (h.of_ignoresResources (ignoresResources_deliver site.owner event))
          simp only [hdone, hdone']
          cases outcome <;> exact ⟨hdelivered, rfl⟩
  | timeout timer => exact ⟨h, rfl⟩
  | resetTimeout name =>
      obtain ⟨w', v', outcome, hdone, hdone', hstopped⟩ :=
        exists_outcome (h.of_ignoresResources (ignoresResources_stopTimer site.owner name))
      simp only [World.performWith, perform, hdone, hdone']
      cases outcome <;> exact ⟨hstopped, rfl⟩

theorem startTimers (h : Unsaid before r w v) (site : Site) (timeouts : List Timeout) :
    Unsaid before r (World.startTimers site w timeouts).1 (World.startTimers site v timeouts).1 ∧
      (World.startTimers site w timeouts).2 = (World.startTimers site v timeouts).2 := by
  induction timeouts generalizing w v with
  | nil => exact ⟨h, rfl⟩
  | cons timeout rest ih =>
      simp only [World.startTimers, ← h.lookup_eq site.extent]
      cases timeout.period (site.extent.lookup w.memory) with
      | error fault => exact ⟨h, rfl⟩
      | ok period =>
          obtain ⟨w', v', outcome, hdone, hdone', hstarted⟩ := exists_outcome
            (h.of_ignoresResources
              (ignoresResources_startTimer site timeout.name period (.raise timeout.event)))
          simp only at hdone hdone' ⊢
          rw [hdone, hdone']
          cases outcome with
          | ok _ => exact ih hstarted
          | error fault => exact ⟨hstarted, rfl⟩

end Unsaid

/-- Actions and steps come to the same. -/
theorem unsaid_matches (before : List Remark) (r : Remark) (n : Nat) :
    (instanceMachine n).Matches (Unsaid before r) (instanceMachine n) where
  perform h site action := by
    have hperform := h.performWith none site action
    rw [performWith_none, performWith_none] at hperform
    exact hperform
  remark h told := h.remarks [told]
  active? := by
    rintro w _ ⟨m, -, rfl⟩
    rfl
  state? := by
    rintro w _ ⟨m, -, rfl⟩ name
    rfl
  machineSite := by
    rintro w _ ⟨m, -, rfl⟩
    rfl
  stateSite := by
    rintro w _ ⟨m, -, rfl⟩ state
    rfl
  duringSite := by
    rintro w _ ⟨m, -, rfl⟩ state
    rfl
  startTimers := by
    intro w v h state
    have hsite : w.stateSite n state = v.stateSite n state := by
      obtain ⟨m, -, rfl⟩ := h
      rfl
    have hstarted := h.startTimers (w.stateSite n state) state.after
    simp only [instanceMachine]
    rwa [hsite] at hstarted ⊢
  stopTimers h :=
    (h.of_ignoresResources (f := fun w => (w.stopTimers (.numbered n), ())) fun _ _ => rfl).1
  cancelTasks h :=
    (h.of_ignoresResources (f := fun w => (w.cancelTasks (.numbered n), ())) fun _ _ => rfl).1
  setActive h state :=
    (h.of_ignoresResources (f := fun w =>
      (w.mapInstance n fun i => { i with active := some state }, ())) fun _ _ => rfl).1
  selectAlways := by
    intro w v h state
    have hextent : w.stateExtent n state = v.stateExtent n state := by
      obtain ⟨m, -, rfl⟩ := h
      rfl
    simp only [instanceMachine, select]
    rw [← hextent, ← h.lookup_eq (w.stateExtent n state)]
    exact ⟨h.remarks _, rfl⟩

/-! ### Services that are drawn -/

/-- The same world, in which services are drawn from now on as they are after some draws. -/
def DrawsFrom (w : World) (drawn : Nat) (v : World) : Prop :=
  ∃ own draws, v = { w with drawn := own, choices := { w.choices with draws } } ∧
    ∀ k type localOnly,
    w.policy.choose? w.services (w.choices.draws (drawn + k)) type localOnly =
      w.policy.choose? w.services (draws (own + k)) type localOnly

/-- Where the least score decides, draws do not matter. -/
theorem drawsFrom_of_optimal (h : w.policy = .optimal) (drawn : Nat) : w.DrawsFrom drawn w :=
  ⟨w.drawn, w.choices.draws, rfl, fun _ _ _ => by rw [h]; rfl⟩

/-- A world after the failure of an action, and the world without the action. -/
theorem unsaid_of_failure {broken : Option SaveBreak} {site : Site} {action : Action}
    {fault : EngineFault} {w' : World}
    (h : w.performWith broken site action = (w', .error fault)) (hv : w.DrawsFrom w'.drawn v)
    (r : Remark) : Unsaid w.log r (w'.remark r) v := by
  obtain ⟨memory, drawn, hdrafts, -, hworld⟩ := performWith_of_error (congrArg Prod.snd h)
  rw [h] at hworld
  subst hworld
  obtain ⟨own, draws, rfl, hdraws⟩ := hv
  exact ⟨⟨w.memory, w.services, w.policy, own, { w.choices with draws }, w.log⟩,
    ⟨hdrafts.symm, rfl, rfl, hdraws, [], rfl, (List.append_nil _).symm⟩, rfl⟩

end World

/-! ## Machines whose saves may break off -/

/-- A world, and where the saves behind the next actions break off. -/
structure Fragile where
  world : World
  breaks : List (Option SaveBreak)

/-- Does an action; its save breaks off where that is foreseen. -/
def Fragile.perform (s : Fragile) (site : Site) (action : Action) :
    Fragile × Except EngineFault (List Action) :=
  let (world, outcome) := s.world.performWith (s.breaks.headD none) site action
  (⟨world, s.breaks.tail⟩, outcome)

def fragileActor : Actor Fragile :=
  ⟨Fragile.perform, fun s r => { s with world := s.world.remark r }⟩

/-- The machine of an instance over saves that may break off. -/
def fragileMachine (n : Nat) : Machine Fragile :=
  let m := instanceMachine n
  { fragileActor with
    active? := fun s => m.active? s.world
    state? := fun s name => m.state? s.world name
    machineSite := fun s => m.machineSite s.world
    stateSite := fun s state => m.stateSite s.world state
    duringSite := fun s state => m.duringSite s.world state
    startTimers := fun s state =>
      ({ s with world := (m.startTimers s.world state).1 }, (m.startTimers s.world state).2)
    stopTimers := fun s => { s with world := m.stopTimers s.world }
    cancelTasks := fun s => { s with world := m.cancelTasks s.world }
    setActive := fun s state => { s with world := m.setActive s.world state }
    selectAlways := fun s state =>
      ({ s with world := (m.selectAlways s.world state).1 }, (m.selectAlways s.world state).2) }

/-- Where no save is foreseen to break off, it is the machine of the instance. -/
theorem fragileMachine_matches (n : Nat) :
    (fragileMachine n).Matches (fun s w => s = ⟨w, []⟩) (instanceMachine n) where
  perform := by
    rintro _ w rfl site action
    have hplain : w.performWith none site action = (instanceMachine n).perform w site action :=
      World.performWith_none w site action
    exact ⟨congrArg (fun done => Fragile.mk done.1 []) hplain, congrArg Prod.snd hplain⟩
  remark := by
    rintro _ w rfl r
    rfl
  active? := by
    rintro _ w rfl
    rfl
  state? := by
    rintro _ w rfl name
    rfl
  machineSite := by
    rintro _ w rfl
    rfl
  stateSite := by
    rintro _ w rfl state
    rfl
  duringSite := by
    rintro _ w rfl state
    rfl
  startTimers := by
    rintro _ w rfl state
    exact ⟨rfl, rfl⟩
  stopTimers := by
    rintro _ w rfl
    rfl
  cancelTasks := by
    rintro _ w rfl
    rfl
  setActive := by
    rintro _ w rfl state
    rfl
  selectAlways := by
    rintro _ w rfl state
    exact ⟨rfl, rfl⟩

namespace Fragile

/-- Two worlds that differ in one remark, over the same saves. -/
def Unsaid (before : List Remark) (r : Remark) (s t : Fragile) : Prop :=
  s.world.Unsaid before r t.world ∧ s.breaks = t.breaks

theorem unsaid_matches (before : List Remark) (r : Remark) (n : Nat) :
    (fragileMachine n).Matches (Unsaid before r) (fragileMachine n) where
  perform := by
    rintro s t ⟨h, hbreaks⟩ site action
    obtain ⟨hnext, houtcome⟩ := h.performWith (s.breaks.headD none) site action
    simp only [fragileMachine, fragileActor, perform, ← hbreaks]
    exact ⟨⟨hnext, rfl⟩, houtcome⟩
  remark h told := ⟨h.1.remarks [told], h.2⟩
  active? h := (World.unsaid_matches before r n).active? h.1
  state? h := (World.unsaid_matches before r n).state? h.1
  machineSite h := (World.unsaid_matches before r n).machineSite h.1
  stateSite h := (World.unsaid_matches before r n).stateSite h.1
  duringSite h := (World.unsaid_matches before r n).duringSite h.1
  startTimers h state :=
    have hstarted := (World.unsaid_matches before r n).startTimers h.1 state
    ⟨⟨hstarted.1, h.2⟩, hstarted.2⟩
  stopTimers h := ⟨(World.unsaid_matches before r n).stopTimers h.1, h.2⟩
  cancelTasks h := ⟨(World.unsaid_matches before r n).cancelTasks h.1, h.2⟩
  setActive h state := ⟨(World.unsaid_matches before r n).setActive h.1 state, h.2⟩
  selectAlways h state :=
    have hselected := (World.unsaid_matches before r n).selectAlways h.1 state
    ⟨⟨hselected.1, h.2⟩, hselected.2⟩

end Fragile

namespace Actor

variable {σ : Type} {a : Actor σ} {s t : σ} {site : Site} {action : Action} {fault : EngineFault}

theorem execute_of_error (h : a.perform s site action = (t, .error fault)) :
    a.execute s site action = (a.remark t (failure site action fault), []) := by
  simp only [execute, h]

theorem drain_of_error (h : a.perform s site action = (t, .error fault)) (fuel : Nat)
    (rest : List Command) :
    a.drain (fuel + 1) s (.act site action :: rest) =
      a.drain fuel (a.remark t (failure site action fault)) rest := by
  simp only [drain, advance, execute_of_error h, List.nil_append]

end Actor

theorem Machine.drain_of_error {σ : Type} {m : Machine σ} {s t : σ} {site : Site} {action : Action}
    {fault : EngineFault} (h : m.perform s site action = (t, .error fault)) (fuel : Nat)
    (rest : List Command) :
    m.drain (fuel + 1) s (.act site action :: rest) =
      m.drain fuel (m.remark t (Actor.failure site action fault)) rest := by
  rw [drain_cons, execute, Actor.execute_of_error h]
  rfl

namespace World

variable {w w' v : World} {broken : Option SaveBreak} {site : Site} {action : Action}
  {fault : EngineFault}

/-- An action fails, be it that a save breaks off. Variables, timers, tasks, queues and the bus are
as they were, and so is all else, but for bytes of the save and the count of services that were
drawn. Draining a worklist with the action in front leaves the same commands for the same reason
as draining the others where the action never was, from a world in which services will be drawn
alike; what is done is the same, but for the action itself, and the worlds that this comes to differ
in the remark about the failure. So it is with a machine to move and without, whether or not saves
break off later on. -/
theorem drain_failed (h : w.performWith broken site action = (w', .error fault)) :
    (∃ memory drawn, w.memory.Drafts memory ∧
      (drawn = w.drawn ∨ drawn = w.drawn + 1 ∧ ∃ call, action = .invoke call) ∧
      w' = { w with memory, drawn }) ∧
    ∀ v, w.DrawsFrom w'.drawn v → ∀ n breaks fuel before rest,
      Option.Rel
          (Drained.Matches fun s t =>
            Fragile.Unsaid w.log (Actor.failure site action fault) s.1 t.1 ∧
              ∃ es, s.2 = before ++ [.did site action] ++ es ∧ t.2 = before ++ es)
          ((fragileMachine n).traced.drain (fuel + 1) (⟨w, broken :: breaks⟩, before)
            (.act site action :: rest))
          ((fragileMachine n).traced.drain fuel (⟨v, breaks⟩, before) rest) ∧
        Option.Rel (Fragile.Unsaid w.log (Actor.failure site action fault))
          (fragileActor.drain (fuel + 1) ⟨w, broken :: breaks⟩ (.act site action :: rest))
          (fragileActor.drain fuel ⟨v, breaks⟩ rest) ∧
        (broken = none →
          Option.Rel (Drained.Matches (Unsaid w.log (Actor.failure site action fault)))
              ((instanceMachine n).drain (fuel + 1) w (.act site action :: rest))
              ((instanceMachine n).drain fuel v rest) ∧
            Option.Rel (Unsaid w.log (Actor.failure site action fault))
              (worldActor.drain (fuel + 1) w (.act site action :: rest))
              (worldActor.drain fuel v rest)) := by
  obtain ⟨memory, drawn, hdrafts, hdrawn, hworld⟩ := performWith_of_error (congrArg Prod.snd h)
  rw [h] at hworld
  refine ⟨⟨memory, drawn, hdrafts, hdrawn, hworld⟩, fun v hv n breaks fuel before rest => ?_⟩
  have hunsaid := unsaid_of_failure h hv (Actor.failure site action fault)
  have hfragile : Fragile.perform ⟨w, broken :: breaks⟩ site action =
      (⟨w', breaks⟩, .error fault) := by
    simp only [Fragile.perform, List.headD_cons, List.tail_cons, h]
  have hstart : Fragile.Unsaid w.log (Actor.failure site action fault)
      (fragileActor.remark ⟨w', breaks⟩ (Actor.failure site action fault)) ⟨v, breaks⟩ :=
    ⟨hunsaid, rfl⟩
  have hmatches := Fragile.unsaid_matches w.log (Actor.failure site action fault) n
  refine ⟨?_, ?_, ?_⟩
  · have htraced : (fragileMachine n).traced.perform (⟨w, broken :: breaks⟩, before) site action =
        ((⟨w', breaks⟩, before ++ [.did site action]), .error fault) := by
      have hperform : (fragileMachine n).perform ⟨w, broken :: breaks⟩ site action =
          (⟨w', breaks⟩, .error fault) := hfragile
      simp only [Machine.traced, hperform]
    rw [Machine.drain_of_error htraced]
    refine (hmatches.traced (before ++ [.did site action]) before).drain ?_ fuel rest
    exact ⟨hstart, [], (List.append_nil _).symm, (List.append_nil _).symm⟩
  · rw [Actor.drain_of_error (a := fragileActor) hfragile]
    exact hmatches.toMatches.drain hstart fuel rest
  · rintro rfl
    rw [performWith_none] at h
    have hplain := unsaid_matches w.log (Actor.failure site action fault) n
    rw [Machine.drain_of_error (m := instanceMachine n) h,
      Actor.drain_of_error (a := worldActor) h]
    exact ⟨hplain.drain hunsaid fuel rest, hplain.toMatches.drain hunsaid fuel rest⟩

/-! ### A trial -/

namespace FailureTrial

/-- One durable variable, which is one. -/
def ledger : World :=
  { bare with
    memory :=
      ⟨[.durable "shop"], ⟨⟨"store", true, Table.empty.insert "shop/sum" (.ofNat 1)⟩, .fresh⟩⟩ }

def ledgerSite : Site := ⟨.named "clerk", .machine, ⟨[0]⟩, false⟩

def setSum : Action := .assign ⟨"sum", .ofLiteral (.ofNat 2)⟩

/-- A save that breaks off after some bytes are written. -/
def torn : SaveBreak := .writing 3

end FailureTrial

open FailureTrial in
/-- The save of an assignment breaks off, and the next one does not: the first assignment is as if
it had not been. -/
theorem torn_assignment_fails :
    ∃ w' fault, ledger.performWith (some torn) ledgerSite setSum = (w', .error fault) ∧
      (∃ memory drawn, ledger.memory.Drafts memory ∧
        (drawn = ledger.drawn ∨ drawn = ledger.drawn + 1 ∧ ∃ call, setSum = .invoke call) ∧
        w' = { ledger with memory, drawn }) ∧
      ∃ s t, fragileActor.drain 2 ⟨ledger, [some torn]⟩ (actions ledgerSite [setSum, setSum]) =
          some s ∧
        fragileActor.drain 1 ⟨ledger, []⟩ (actions ledgerSite [setSum]) = some t ∧
        Fragile.Unsaid ledger.log (Actor.failure ledgerSite setSum fault) s t := by
  obtain ⟨w', fault, hfails⟩ : ∃ w' fault,
      ledger.performWith (some torn) ledgerSite setSum = (w', .error fault) := ⟨_, _, rfl⟩
  obtain ⟨hleft, hdrains⟩ := drain_failed hfails
  have hdrain := (hdrains ledger (drawsFrom_of_optimal rfl _) 0 [] 1 []
    (actions ledgerSite [setSum])).2.1
  have hends : (fragileActor.drain 1 ⟨ledger, []⟩ (actions ledgerSite [setSum])).isSome = true :=
    rfl
  obtain ⟨t, ht⟩ := Option.isSome_iff_exists.1 hends
  rw [ht] at hdrain
  generalize hs : fragileActor.drain (1 + 1) ⟨ledger, [some torn]⟩
    (.act ledgerSite setSum :: actions ledgerSite [setSum]) = first at hdrain
  cases hdrain with
  | some hunsaid => exact ⟨w', fault, hfails, hleft, _, t, hs, ht, hunsaid⟩

end World

end Statechart
