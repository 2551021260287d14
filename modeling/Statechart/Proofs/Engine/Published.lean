import Statechart.Proofs.Engine.Run
import Statechart.Proofs.Engine.Topology

/-!
# What is published, and who is nested in whom

Events are published by what is sent and by nothing else: by requests, by actions, and by timers.
Who is nested in whom changes only when instances are made.

- `World.sent`          : what a step publishes
- `Step.kin`            : only requests for instances change who is nested in whom
- `Step.published`      : every step publishes what it sends
-/

namespace Statechart

/-- Asks for new instances. -/
def Request.makes : Request → Bool
  | .launch _ => true
  | .spawn _ _ => true
  | .place _ _ _ => true
  | _ => false

namespace World

variable {w v : World} {label : Option Happening}

/-- What a step publishes. -/
def sent (w : World) : Option Happening → List Sighting
  | some (.asked (.send source e)) => e.sightings source
  | some (.did _ c _) => w.commandSightings c
  | some (.fired timer) => w.timerSightings burst timer
  | _ => []

theorem sent_taking? (w : World) (n : Nat) : w.sent (w.taking? n) = [] := by
  unfold taking?
  cases w.instance? n with
  | none => rfl
  | some i =>
      simp only [Option.bind_some]
      cases i.inbox.head? with
      | none => rfl
      | some e => rfl

/-- A part of a turn sends what its command sends. -/
theorem sent_of_current {t : Turn} (hcurrent : w.current = some t) :
    w.sent w.happening? = w.firstSightings t.work := by
  cases hwork : t.work with
  | cons c rest =>
      simp only [happening?, hcurrent, hwork]
      rfl
  | nil =>
      simp only [happening?, hcurrent, hwork]
      split
      · exact sent_taking? w t.number
      · rfl

theorem sent_of_turn {n : Nat} {rest : List Task} (hcurrent : w.current = none)
    (hready : w.ready = .turn n :: rest) : w.sent w.happening? = [] := by
  simp only [happening?, hcurrent, hready]
  split
  · exact sent_taking? w n
  · rfl

/-- Only timers that are awake publish anything. -/
theorem sent_of_timer {id : Nat} {rest : List Task} (hcurrent : w.current = none)
    (hready : w.ready = .timer id :: rest) :
    w.sent w.happening? = (w.timerById? id).elim [] (w.timerSightings burst) := by
  simp only [happening?, hcurrent, hready]
  cases w.timerById? id with
  | none => rfl
  | some timer =>
      rw [Option.elim_some, Option.filter_some]
      split
      · rfl
      · rename_i hasleep
        refine (timerSightings_of_not_awake burst fun due hdue => hasleep ?_).symm
        rw [Timer.isAwake, hdue]

/-! ## Turns -/

/-- A part of a turn, or its beginning: who is nested in whom stays, and the first command
publishes. -/
theorem kin_of_closes {u : World} {n : Nat} {work : List Command} (hworks : Works n work w u)
    (hcloses : Closes n u v) :
    v.kin = w.kin ∧ v.bus.published = w.bus.published ++ w.firstSightings work := by
  obtain ⟨hkin, hpublished⟩ := hcloses.kin
  exact ⟨hkin.trans (congrArg Topology.kin hworks.topology_eq),
    hpublished.trans hworks.published⟩

theorem kin_beginTurn (w : World) (n : Nat) :
    (w.beginTurn n).kin = w.kin ∧ (w.beginTurn n).bus.published = w.bus.published := by
  rcases beginTurn_cases w n with ⟨hsame, -⟩ | ⟨i, told, -, -, hbegun⟩ |
    ⟨i, u, -, -, hworks, hcloses⟩
  · rw [hsame]
    exact ⟨rfl, rfl⟩
  · rw [hbegun]
    exact ⟨kin_mapInstance_of_eq (w.remarks told) n fun _ => rfl, rfl⟩
  · obtain ⟨hkin, hpublished⟩ := kin_of_closes hworks hcloses
    exact ⟨hkin, hpublished.trans (List.append_nil _)⟩

/-! ## Requests -/

theorem published_register (w : World) (n : Nat) :
    (w.register n).bus.published = w.bus.published := by
  have hlistener : ∀ (b : Bus) (p : Party), (b.addListener p).published = b.published := by
    intro b p
    unfold Bus.addListener
    split <;> rfl
  have hevents : ∀ (events : List String) (b : Bus),
      (events.foldl (fun b event => b.subscribe wildcard event) b).published = b.published := by
    intro events
    induction events with
    | nil => exact fun _ => rfl
    | cons event rest ih => exact fun b => ih (b.subscribe wildcard event)
  unfold register
  split
  · rfl
  · exact (hevents _ _).trans (hlistener _ _)

theorem published_start (w : World) (ns : List Nat) :
    (w.start ns).bus.published = w.bus.published := by
  have henqueue : ∀ (v : World) (n : Nat),
      (v.enqueue (.turn n)).bus.published = v.bus.published := fun _ _ => rfl
  rw [start, @part_foldl _ _ (fun v => v.bus.published) _ henqueue,
    @part_foldl _ _ (fun v => v.bus.published) _ published_register]

/-- Building says nothing to anybody. -/
theorem isStable_bus : IsStable (fun _ => True) fun w w' => w'.bus = w.bus where
  nested _ _ _ _ := trivial
  refl _ := rfl
  trans h h' := h'.trans h
  addInstance h _ := by
    unfold addInstance at h
    obtain ⟨memory, -, h⟩ := bind_eq_ok_iff.1 h
    obtain ⟨⟨memory', layers⟩, -, h⟩ := bind_eq_ok_iff.1 h
    cases h
    rfl
  setNested _ _ _ := rfl

theorem published_startBuilt {built : World} {g : Graph} {enclosing : Extent}
    {parent : Option Nat} {n : Nat} (h : build w enclosing parent g = .ok (built, n))
    (ns : List Nat) : ((built.adopt parent n).start ns).bus.published = w.bus.published := by
  have hadopt : (built.adopt parent n).bus = built.bus := by
    unfold adopt
    split <;> rfl
  rw [published_start, hadopt, isStable_bus.build h trivial]

theorem published_cancel (w : World) (n : Nat) :
    (w.cancel n).bus.published = w.bus.published :=
  (Delivers.refl.wake n).published.trans (List.append_nil _)

theorem published_serve (w : World) (r : Request) :
    (w.serve r).bus.published = w.bus.published ++ w.sent (some (.asked r)) := by
  cases r with
  | launch c =>
      simp only [serve, sent, List.append_nil]
      unfold launch
      split
      · rfl
      · split
        · rfl
        · simp only
          split
          · rfl
          · rename_i built _ hbuild
            have hbus := isStable_bus.buildAll hbuild fun _ _ => trivial
            exact (published_start _ _).trans (congrArg Bus.published hbus)
  | spawn g parent =>
      simp only [serve, sent, List.append_nil]
      unfold spawn
      split
      · rfl
      · simp only
        split
        · rfl
        · rename_i hbuild
          exact published_startBuilt hbuild _
  | place g enclosing parent =>
      simp only [serve, sent, List.append_nil]
      unfold place
      split
      · rfl
      · rename_i hbuild
        exact published_startBuilt hbuild _
  | offer p e => exact (Delivers.offer w p e).published
  | send source e => exact (Delivers.send w source e).published
  | cancel n => exact (published_cancel w n).trans (List.append_nil _).symm
  | shutDown =>
      simp only [serve, sent, List.append_nil]
      unfold shutDown
      split
      · rfl
      · rw [@part_foldl _ _ (fun v => v.bus.published) _ published_cancel]
        rfl
  | write memory => exact (List.append_nil _).symm
  | respond id response =>
      exact (Queues.respond w id response).published.trans (List.append_nil _).symm

theorem kin_serve {r : Request} (w : World) (h : r.makes = false) :
    (w.serve r).kin = w.kin := by
  cases r with
  | launch c => cases h
  | spawn g parent => cases h
  | place g enclosing parent => cases h
  | offer p e => exact congrArg Topology.kin (Delivers.offer w p e).topology_eq
  | send source e => exact congrArg Topology.kin (Delivers.send w source e).topology_eq
  | cancel n => exact congrArg Topology.kin (topology_cancel w n)
  | shutDown => exact congrArg Topology.kin (topology_shutDown w)
  | write memory => rfl
  | respond id response =>
      exact congrArg Topology.kin (Queues.respond w id response).topology_eq

/-! ## Steps -/

theorem step?_published (h : w.step? = some v) :
    v.kin = w.kin ∧ v.bus.published = w.bus.published ++ w.sent w.happening? := by
  unfold step? at h
  split at h
  · rename_i t hcurrent
    cases h
    obtain ⟨u, hworks, hcloses⟩ := resume_cases w t
    rw [sent_of_current hcurrent]
    exact kin_of_closes hworks hcloses
  · rename_i hcurrent
    split at h
    · rename_i task rest hready
      cases h
      cases task with
      | turn n =>
          rw [sent_of_turn hcurrent hready, List.append_nil]
          exact kin_beginTurn { w with ready := rest } n
      | timer id =>
          have hfires := Passes.runTimer { w with ready := rest } id
          rw [sent_of_timer hcurrent hready]
          exact ⟨congrArg Topology.kin hfires.topology_eq, hfires.published⟩
      | job id =>
          have hlabel : w.happening? = none := by simp only [happening?, hcurrent, hready]
          rw [hlabel]
          exact ⟨congrArg Topology.kin (topology_runJob { w with ready := rest } id),
            (published_runJob { w with ready := rest } id).trans (List.append_nil _).symm⟩
    · cases h

/-- Who is nested in whom changes only when instances are made. -/
theorem Step.kin (hstep : Step w label v)
    (h : ∀ r, label = some (.asked r) → r.makes = false) : v.kin = w.kin := by
  cases hstep with
  | ask r => exact kin_serve w (h r rfl)
  | go hgo => exact (step?_published hgo).1
  | jump time => exact congrArg Topology.kin (topology_jump w time)
  | wait time => rfl

/-- Everything that is sent is published, and nothing else. -/
theorem Step.published (hstep : Step w label v) :
    v.bus.published = w.bus.published ++ w.sent label := by
  cases hstep with
  | ask r => exact published_serve w r
  | go hgo => exact (step?_published hgo).2
  | jump time => exact (Passes.jump w time).published
  | wait time => exact (List.append_nil _).symm

end World

end Statechart
