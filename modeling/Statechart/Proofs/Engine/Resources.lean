import Statechart.Engine.World

/-!
# What events and timers do not read

Events reach queues and observers, and timers start and stop, without a look at variables, services,
choices or the log. With other resources, which are all of these, the same comes of them.

- `Resources`, `World.withResources` : the same world with other resources
- `World.IgnoresResources`           : something comes to the same with any resources
- `World.ignoresResources_offer`, `World.ignoresResources_send`, `World.ignoresResources_deliver`
- `World.ignoresResources_startTimer`, `World.ignoresResources_stopTimer`
- `World.IgnoresResources.resources_eq` : and leaves the resources as they are
-/

namespace Statechart

structure Resources where
  memory : Memory
  services : Registry Float
  policy : Policy
  drawn : Nat
  choices : Choices
  log : List Remark

namespace World

def resources (w : World) : Resources := ⟨w.memory, w.services, w.policy, w.drawn, w.choices, w.log⟩

/-- The same world with other resources. -/
def withResources (w : World) (m : Resources) : World :=
  { w with
    memory := m.memory, services := m.services, policy := m.policy, drawn := m.drawn
    choices := m.choices, log := m.log }

@[simp]
theorem resources_withResources (w : World) (m : Resources) :
    (w.withResources m).resources = m := rfl

@[simp]
theorem withResources_resources (w : World) : w.withResources w.resources = w := rfl

/-- Something done to a world, with its answer, comes to the same with any resources. -/
def IgnoresResources {α : Type} (f : World → World × α) : Prop :=
  ∀ w m, f (w.withResources m) = ((f w).1.withResources m, (f w).2)

/-- What comes to the same with any resources leaves them as they are. -/
theorem IgnoresResources.resources_eq {α : Type} {f : World → World × α}
    (h : IgnoresResources f) (w : World) : (f w).1.resources = w.resources := by
  have hsame := congrArg (fun done => done.1.resources) (h w w.resources)
  rwa [withResources_resources, resources_withResources] at hsame

theorem IgnoresResources.withResources_fst {α : Type} {f : World → World × α}
    (h : IgnoresResources f) (w : World) (m : Resources) :
    (f (w.withResources m)).1 = (f w).1.withResources m :=
  congrArg Prod.fst (h w m)

theorem withResources_foldl {α : Type} {f : World → α → World}
    (h : ∀ w m a, f (w.withResources m) a = (f w a).withResources m) (w : World) (m : Resources)
    (as : List α) : as.foldl f (w.withResources m) = (as.foldl f w).withResources m := by
  induction as generalizing w with
  | nil => rfl
  | cons a rest ih => rw [List.foldl_cons, h, ih, List.foldl_cons]

/-! ## Events -/

theorem withResources_wake (w : World) (m : Resources) (n : Nat) :
    (w.withResources m).wake n = (w.wake n).withResources m := by
  have hsame : (w.withResources m).instance? n = w.instance? n := rfl
  unfold wake
  rw [hsame]
  split
  · split <;> rfl
  · rfl

theorem withResources_post (w : World) (m : Resources) (e : Event) (n : Nat) :
    post e (w.withResources m) n = (post e w n).withResources m :=
  withResources_wake (w.mapInstance n fun i => { i with inbox := i.inbox ++ [e] }) m n

theorem ignoresResources_offer (p : Party) (e : Event) : IgnoresResources fun w => w.offer p e := by
  intro w m
  cases p with
  | named name =>
      have hsame : (w.withResources m).recorders = w.recorders := rfl
      simp only [offer, hsame]
      split <;> rfl
  | numbered n =>
      have hsame : (w.withResources m).instance? n = w.instance? n := rfl
      have hrecipients : (w.withResources m).recipients e n = w.recipients e n := rfl
      simp only [offer, hsame, hrecipients]
      split
      · rw [withResources_foldl fun u m n => withResources_post u m e n]
      · rfl

theorem ignoresResources_send (source : Party) (e : Event) :
    IgnoresResources fun w => w.send source e := by
  intro w m
  have hsame : (w.withResources m).bus = w.bus := rfl
  simp only [send, hsame]
  cases w.bus.route e source with
  | error fault => rfl
  | ok listeners =>
      -- who listens is written on the bus, and each of them is offered the event in turn
      have hoffers := withResources_foldl (f := fun u p => (World.offer u p e).1)
        (fun u m p => (ignoresResources_offer p e).withResources_fst u m) w m listeners
      simp only
      rw [hoffers]
      rfl

theorem ignoresResources_deliver (owner : Party) (e : Event) :
    IgnoresResources fun w => w.deliver owner e := by
  intro w m
  simp only [deliver]
  split
  · rw [(ignoresResources_offer owner e).withResources_fst]
  · exact ignoresResources_send owner e w m

/-! ## Timers -/

theorem ignoresResources_startTimer (site : Site) (name : String) (period : Nat) (action : Action) :
    IgnoresResources fun w => w.startTimer site name period action := by
  intro w m
  have hsame : (w.withResources m).timer? site.owner name = w.timer? site.owner name := rfl
  cases action with
  | raise event =>
      simp only [startTimer, hsame]
      split
      · rfl
      · split <;> rfl
  | _ => rfl

theorem ignoresResources_stopTimer (owner : Party) (name : String) :
    IgnoresResources fun w => w.stopTimer owner name := by
  intro w m
  have hsame : (w.withResources m).timer? owner name = w.timer? owner name := rfl
  simp only [stopTimer, hsame]
  split <;> rfl

end World

end Statechart
