import Statechart.Proofs.Engine.Published
import Statechart.Proofs.Engine.Delivery
import Statechart.Proofs.Engine.Registry
import Statechart.Proofs.Engine.Sites

/-!
# Traffic on the bus

Whatever is sent over the bus in a run is published, in the order in which it is sent. If it is for
everybody, or if somebody waits for it, every instance that takes events gets it once.

- `World.carries`       : whether a subscription matches what is sent
- `World.gains`         : what an instance gets of it
- `Step.inbox?`         : what a step in which something is sent does to inboxes
- `World.carries_of_handles` : a subscription matches if an instance waits for the event
- `World.Traffic`       : a run with everything that is sent in it
- `World.bus_of_traffic` : nothing is lost on the bus
-/

namespace Statechart

/-! ## Listening once -/

namespace Topology

variable {s s' : Topology} {label : Option Happening}

/-- Nobody listens twice. -/
def ListensOnce (s : Topology) : Prop := s.bus.listeners.Nodup

theorem ListensOnce.enrol (h : s.ListensOnce) (n : Nat) : (s.enrol n).ListensOnce := by
  unfold Topology.enrol
  split
  · exact h
  · unfold ListensOnce
    rw [Bus.listeners_subscribeAll, Bus.addListener]
    split
    · exact h
    · rename_i hnew
      exact h.append (List.nodup_singleton _) (List.disjoint_singleton.2 hnew)

theorem Change.listensOnce (h : s.Change label s') (hs : s.ListensOnce) : s'.ListensOnce := by
  cases h with
  | stay => exact hs
  | begin => exact hs
  | strand => exact hs
  | dismiss hp =>
      rw [dismiss_eq hp]
      have hkept := Bus.listeners_unsubscribeAll s.bus
      exact (hkept _ ▸ hs : (s.bus.unsubscribeAll _).listeners.Nodup).filter _
  | @found built hgrows =>
      have hbuilt : built.ListensOnce := by
        obtain ⟨added, kin, more, rfl, -⟩ := hgrows
        exact hs
      exact List.foldlRecOn _ _ hbuilt fun _ h n _ => h.enrol n
  | write memory => exact hs

end Topology

namespace World

variable {w v : World} {label : Option Happening} {m : Nat}

/-! ## What an instance gets -/

/-- Whether a subscription matches what is sent. -/
def carries (w : World) (s : Sighting) : Bool :=
  (subjectOf s.event s.source.id).toOption.any w.bus.isSubscribed

/-- What an instance gets of what is sent. -/
def gains (w : World) (m : Nat) (sightings : List Sighting) : List Event :=
  if w.isOpenAt m then (sightings.filter w.carries).map (·.event) else []

/-- Every instance that takes events listens to the bus once. -/
def IsAttentive (w : World) : Prop :=
  ∀ m, w.isOpenAt m = true → w.bus.listeners.count (.numbered m) = 1

theorem carries_of_topology (h : v.topology = w.topology) (s : Sighting) :
    v.carries s = w.carries s := by
  have hcarries : ∀ u : World,
      u.carries s = (subjectOf s.event s.source.id).toOption.any u.topology.bus.isSubscribed :=
    fun _ => rfl
  rw [hcarries, hcarries, h]

theorem gains_of_topology (h : v.topology = w.topology) (m : Nat) (sightings : List Sighting) :
    v.gains m sightings = w.gains m sightings := by
  rw [gains, gains, isOpenAt_of_topology h, funext (carries_of_topology h)]

theorem IsAttentive.of_topology (hw : w.IsAttentive) (h : v.topology = w.topology) :
    v.IsAttentive := by
  intro m hm
  have hlisteners : v.bus.listeners = w.bus.listeners :=
    congrArg (fun s : Topology => s.bus.listeners) h
  rw [hlisteners]
  exact hw m ((isOpenAt_of_topology h m).symm.trans hm)

theorem gains_append (w : World) (m : Nat) (sightings others : List Sighting) :
    w.gains m (sightings ++ others) = w.gains m sightings ++ w.gains m others := by
  unfold gains
  split <;> simp

/-! ## Inboxes -/

/-- An event on the bus is at the end of the inbox of those who get it. -/
theorem inbox?_sent {e : Event} (hw : w.IsAttentive) (source : Party)
    (he : e.channel ≠ .internal) (m : Nat) :
    (w.send source e).1.inbox? m = (w.inbox? m).map (· ++ w.gains m (e.sightings source)) := by
  rcases subjectOf_cases e source.id with ⟨hinternal, -⟩ | ⟨-, text, hsubject⟩
  · exact absurd hinternal he
  · have hcarries : w.carries ⟨source, e⟩ = w.bus.isSubscribed text := by
      simp only [carries, hsubject]
      rfl
    rw [inbox?_send he hsubject, Event.sightings, if_neg he, gains]
    cases hopen : w.isOpenAt m with
    | false => rfl
    | true =>
        rw [hw m hopen]
        cases hsubscribed : w.bus.isSubscribed text <;> simp [hcarries, hsubscribed]

/-- An event that is raised is for the bus, unless it is internal. -/
theorem inbox?_raised (hw : w.IsAttentive) {site : Site} {t : EventTemplate}
    (hsent : w.raised site t ≠ []) (m : Nat) :
    (worldActor.execute w site (.raise t)).1.inbox? m =
      (w.inbox? m).map (· ++ w.gains m (w.raised site t)) := by
  unfold raised at hsent ⊢
  cases hevent : t.evaluate (site.extent.lookup w.memory) with
  | error fault =>
      rw [hevent] at hsent
      exact absurd rfl hsent
  | ok e =>
      have he : e.channel ≠ .internal := fun he => hsent (by
        rw [hevent]
        exact if_pos he)
      have hdeliver : w.deliver site.owner e = w.send site.owner e := if_neg he
      obtain ⟨told, htold⟩ := exists_remarks_execute w site (.raise t)
      rw [htold, perform_raise_of_ok hevent, hdeliver]
      exact inbox?_sent hw site.owner he m

theorem inbox?_of_nothing (h : v.inbox? m = w.inbox? m) :
    v.inbox? m = (w.inbox? m).map (· ++ w.gains m []) := by
  have hnone : w.gains m [] = [] := by
    unfold gains
    split <;> rfl
  rw [h, hnone]
  cases w.inbox? m <;> simp

/-- Every firing of a burst is an event of its own. -/
theorem inbox?_fire (hw : w.IsAttentive) {id : Nat} {timer : Timer} (most : Nat)
    (h : w.timerById? id = some timer) (hsent : w.raised timer.site timer.event ≠ []) (m : Nat) :
    (fire most w id).inbox? m =
      (w.inbox? m).map (· ++ w.gains m (w.timerSightings most timer)) := by
  induction most generalizing w timer with
  | zero => exact inbox?_of_nothing rfl
  | succ most ih =>
      by_cases hawake : ∃ due, timer.stage = .awake due
      · obtain ⟨due, hawake⟩ := hawake
        obtain ⟨stage, u, hu, hmemory, hclock, hthere, hcases⟩ := fire_cases most h hawake
        have htopology : u.topology = w.topology :=
          hu ▸ (Queues.updateTimer _ id stage).topology_eq.trans (topology_execute w _ _)
        have hfirst : u.inbox? m =
            (w.inbox? m).map (· ++ w.gains m (w.raised timer.site timer.event)) :=
          hu ▸ inbox?_raised hw hsent m
        rcases hcases with ⟨-, hfire, hfirings⟩ | ⟨-, hfire, hfirings⟩
        · -- the later firings find the same listeners and subscriptions
          have hlater := ih (hw.of_topology htopology) hthere (raised_of_memory hmemory _ _ ▸ hsent)
          rw [hfire, timerSightings_of_succ hmemory hclock hfirings, hlater, hfirst,
            gains_of_topology htopology, inbox_append_append, gains_append]
        · rw [hfire, timerSightings_of_one hfirings, hfirst]
      · have hnot : ∀ due, timer.stage ≠ .awake due := fun due hdue => hawake ⟨due, hdue⟩
        rw [timerSightings_of_not_awake _ hnot]
        rcases fire_of_not_awake (most + 1) (fun t due ht => by
          obtain rfl := Option.some.inj (h.symm.trans ht)
          exact hnot due) with hfire | hfire
        · exact inbox?_of_nothing (congrArg (·.inbox? m) hfire)
        · exact inbox?_of_nothing (congrArg (·.inbox? m) hfire)

/-- An action in a turn. -/
theorem resume_act {t : Turn} {site : Site} {action : Action} {rest : List Command}
    (hwork : t.work = .act site action :: rest) :
    ∃ work, w.resume t =
      { (worldActor.execute w site action).1 with current := some { t with work } } := by
  simp only [resume, hwork, Machine.advance, Machine.execute]
  exact ⟨_, rfl⟩

/-- What is sent in a step is at the end of the inboxes of those who get it, and nothing else
changes in any inbox. -/
theorem Step.inbox? (hstep : Step w label v) (hw : w.IsAttentive) (hsent : w.sent label ≠ [])
    (m : Nat) : v.inbox? m = (w.inbox? m).map (· ++ w.gains m (w.sent label)) := by
  cases hstep with
  | ask r =>
      cases r with
      | send source e =>
          have he : e.channel ≠ .internal := fun he => hsent (if_pos he)
          exact inbox?_sent hw source he m
      | _ => exact absurd rfl hsent
  | go hgo =>
      cases hlabel : w.happening? with
      | none =>
          rw [hlabel] at hsent
          exact absurd rfl hsent
      | some h =>
          rw [hlabel] at hsent
          rcases happening?_cases hlabel with ⟨t, command, rest, hcurrent, hwork, rfl⟩ |
            ⟨n, e, outcome, rfl⟩ | ⟨id, rest, timer, hcurrent, hready, htimer, hawake, rfl⟩
          · -- of all commands only the action that raises an event sends anything
            have hresume : w.resume t = v := by
              simpa [step?, hcurrent] using hgo
            cases command with
            | act site action =>
                cases action with
                | raise template =>
                    obtain ⟨work, hact⟩ := resume_act (w := w) hwork
                    rw [← hresume, hact]
                    exact inbox?_raised hw hsent m
                | _ => exact absurd rfl hsent
            | move step => exact absurd rfl hsent
          · exact absurd rfl hsent
          · have hfire : fire burst { w with ready := rest } id = v := by
              rw [← runTimer_of_isAwake (w := { w with ready := rest }) htimer hawake]
              simpa [step?, hcurrent, hready, run] using hgo
            have hraised : w.raised timer.site timer.event ≠ [] := fun hnone => hsent (by
              simp [sent, timerSightings, hnone])
            rw [← hfire]
            exact inbox?_fire (w := { w with ready := rest }) hw burst htimer hraised m
  | jump time => exact absurd rfl hsent
  | wait time => exact absurd rfl hsent

/-! ## Subscriptions that match -/

theorem isSubscribed_of_count {b : Bus} {pattern text : String} (hcount : b.count pattern ≠ 0)
    (hmatches : matchesSubject pattern text = true) : b.isSubscribed text = true := by
  cases hget : b.subscriptions.get? pattern with
  | none =>
      rw [Bus.count, hget] at hcount
      exact absurd rfl hcount
  | some k =>
      exact List.any_eq_true.2 ⟨(pattern, k), Table.mem_entries_iff.2 hget, hmatches⟩

section Engines

variable {memory : Memory} {root : LayerId} {c : Configuration} {services : Registry Float}
  {choices : Choices} {hs : List Happening} {s : Sighting}

/-- Events for everybody always find a subscription. -/
theorem carries_of_open
    (haccounts : w.topology.Accounts (engine memory root c services choices).bus)
    (h : s.event.channel = .global ∨ s.event.channel = .peripheral) : w.carries s = true := by
  have hcount : ∀ source ∈ openSources, w.bus.count (subject source wildcard) ≠ 0 := by
    intro source hsource
    rw [count_eq haccounts, engine_count_open memory root c services choices hsource]
    omega
  have hmatches : ∀ source ∈ openSources,
      matchesSubject (subject source wildcard) (subject source s.event.name) = true := by
    intro source hsource
    have hpoint : '.' ∉ source.toList := by
      simp only [openSources, List.mem_cons, List.not_mem_nil, or_false] at hsource
      rcases hsource with rfl | rfl <;> decide
    rw [matchesSubject_subject hpoint hpoint, matchesPart_self, matchesPart_wildcard]
    rfl
  have hcarried : ∀ source ∈ openSources,
      w.bus.isSubscribed (subject source s.event.name) = true := fun source hsource =>
    isSubscribed_of_count (hcount source hsource) (hmatches source hsource)
  unfold carries subjectOf
  rcases h with h | h
  · rw [h]
    exact hcarried _ (by simp [openSources])
  · rw [h]
    exact hcarried _ (by simp [openSources])

/-- An instance that takes events and has a transition on an event subscribes to it. -/
theorem carries_of_handles {bus : Bus} (haccounts : w.topology.Accounts bus)
    (henlisted : w.topology.IsEnlisted) {n : Nat} {i : Instance} (hi : w.instance? n = some i)
    (hopen : i.isOpen = true) (hhandles : i.graph.handles s.event.name = true)
    (hpoint : '.' ∉ s.source.id.toList) (hchannel : s.event.channel = .external) :
    w.carries s = true := by
  have hknown : i.isRegistered = true := isRegistered_of_isOpen henlisted hi hopen
  have hcount : w.bus.count (subject wildcard s.event.name) ≠ 0 := by
    have hpos : 0 < w.instances.countP fun i =>
        i.isRegistered && i.graph.subscribesTo (subject wildcard s.event.name) := by
      refine List.countP_pos_iff.2 ⟨i, List.mem_of_getElem? hi, ?_⟩
      rw [hknown, Graph.subscribesTo_subject, hhandles]
      rfl
    rw [count_eq haccounts]
    omega
  have hwildcard : '.' ∉ wildcard.toList := by decide
  have hmatches : matchesSubject (subject wildcard s.event.name)
      (subject s.source.id s.event.name) = true := by
    rw [matchesSubject_subject hwildcard hpoint, matchesPart_self, matchesPart_wildcard]
    rfl
  unfold carries subjectOf
  rw [hchannel]
  exact isSubscribed_of_count hcount hmatches

end Engines

/-! ## Who sends -/

theorem mem_sightings {e : Event} {source : Party} {s : Sighting} (h : s ∈ e.sightings source) :
    s.source = source ∧ s.event.channel ≠ .internal := by
  unfold Event.sightings at h
  split at h
  · cases h
  · rename_i hchannel
    cases List.mem_singleton.1 h
    exact ⟨rfl, hchannel⟩

theorem mem_raised {site : Site} {t : EventTemplate} {s : Sighting} (h : s ∈ w.raised site t) :
    s.source = site.owner ∧ s.event.channel ≠ .internal := by
  unfold raised at h
  split at h
  · exact mem_sightings h
  · cases h

theorem mem_timerSightings {most : Nat} {timer : Timer} {s : Sighting}
    (h : s ∈ w.timerSightings most timer) :
    s ∈ w.raised timer.site timer.event := by
  obtain ⟨sightings, hsightings, hs⟩ := List.mem_flatten.1 h
  obtain ⟨-, rfl⟩ := List.mem_replicate.1 hsightings
  exact hs

/-- Internal events are not for the bus. -/
theorem channel_of_mem_sent {s : Sighting} (h : s ∈ w.sent label) :
    s.event.channel ≠ .internal := by
  unfold sent at h
  split at h
  · exact (mem_sightings h).2
  · unfold commandSightings actionSightings at h
    split at h
    · split at h
      · exact (mem_raised h).2
      · cases h
    · cases h
  · exact (mem_raised (mem_timerSightings h)).2
  · cases h

/-- What an engine sends on its own is sent by an instance. -/
theorem Step.isInstance (hstep : Step w label v) (htidy : w.status.IsTidy) (howned : w.IsOwned)
    (hown : ∀ r, label ≠ some (.asked r)) {s : Sighting} (hs : s ∈ w.sent label) :
    s.source.IsInstance := by
  cases hstep with
  | ask r => exact absurd rfl (hown r)
  | go _ =>
      cases hlabel : w.happening? with
      | none =>
          rw [hlabel] at hs
          cases hs
      | some h =>
          rw [hlabel] at hs
          rcases happening?_cases hlabel with ⟨t, command, rest, hcurrent, hwork, rfl⟩ |
            ⟨n, e, outcome, rfl⟩ | ⟨id, rest, timer, -, -, htimer, -, rfl⟩
          · -- actions are done for the instance whose turn it is, and only raises send
            cases command with
            | act site action =>
                cases action with
                | raise template =>
                    have hmine := htidy.work t hcurrent site (.raise template)
                      (hwork ▸ List.mem_cons_self)
                    exact ⟨t.number, (mem_raised hs).1.trans hmine⟩
                | _ => cases hs
            | move step => cases hs
          · cases hs
          · have howner := howned.timers timer (List.mem_of_find?_eq_some htimer)
            exact (mem_raised (mem_timerSightings hs)).1 ▸ howner
  | jump time => cases hs
  | wait time => cases hs

/-! ## Runs -/

/-- Runs, with everything that is sent in them, the newest last. -/
inductive Traffic (w₀ : World) : List Happening → List Sighting → World → Prop where
  | start : Traffic w₀ [] [] w₀
  | step {hs : List Happening} {sightings : List Sighting} {label : Option Happening}
      {w w' : World} : Traffic w₀ hs sightings w → Step w label w' →
      Traffic w₀ (label.toList ++ hs) (sightings ++ w.sent label) w'

section Runs

variable {w₀ : World} {hs : List Happening} {sightings : List Sighting}

theorem Traffic.run (h : Traffic w₀ hs sightings w) : Run w₀ hs w := by
  induction h with
  | start => exact .start
  | step _ hstep ih => exact ih.step hstep

/-- In every run something is sent, or nothing is. -/
theorem Run.exists_traffic (h : Run w₀ hs w) : ∃ sightings, Traffic w₀ hs sightings w := by
  induction h with
  | start => exact ⟨[], .start⟩
  | step _ hstep ih =>
      obtain ⟨sightings, htraffic⟩ := ih
      exact ⟨_, htraffic.step hstep⟩

theorem Traffic.published (h : Traffic w₀ hs sightings w) :
    w.bus.published = w₀.bus.published ++ sightings := by
  induction h with
  | start => exact (List.append_nil _).symm
  | step _ hstep ih => rw [hstep.published, ih, List.append_assoc]

theorem Run.isOwned (hrun : Run w₀ hs w) (hnew : w₀.IsNew)
    (hbuilt : ∀ r, .asked r ∈ hs → r.IsBuilt) : w.IsOwned := by
  induction hrun with
  | start =>
      refine ⟨fun t ht => ?_, fun _ _ => trivial, fun _ _ _ _ _ => trivial⟩
      rw [hnew.timers] at ht
      cases ht
  | step _ hstep ih =>
      obtain ⟨hlabel, hold⟩ := isBuilt_of_toList hbuilt
      exact hstep.isOwned (ih hold) hlabel

theorem Run.listensOnce (hrun : Run w₀ hs w) (htidy : w₀.status.IsTidy)
    (honce : w₀.topology.ListensOnce) (hbuilt : ∀ r, .asked r ∈ hs → r.IsBuilt) :
    w.topology.ListensOnce := by
  induction hrun with
  | start => exact honce
  | step hbefore hstep ih =>
      obtain ⟨-, hold⟩ := isBuilt_of_toList hbuilt
      exact (hstep.changes (hbefore.isTidy htidy hold)).listensOnce (ih hold)

/-- Who takes events is registered, and so it listens. -/
theorem isAttentive {bus : Bus} (haccounts : w.topology.Accounts bus)
    (henlisted : w.topology.IsEnlisted) (honce : w.topology.ListensOnce) : w.IsAttentive := by
  intro m hm
  obtain ⟨i, hi, hopen⟩ := isOpenAt_iff.1 hm
  have hknown : m ∈ w.registered :=
    mem_registered.2 ⟨i, hi, isRegistered_of_isOpen henlisted hi hopen⟩
  exact List.count_eq_one_of_mem honce ((mem_listeners_iff haccounts _).2 ⟨m, hknown, rfl⟩)

end Runs

section Engines

variable {memory : Memory} {root : LayerId} {c : Configuration} {services : Registry Float}
  {choices : Choices} {hs : List Happening} {sightings : List Sighting}

/-- Nothing is lost on the bus. In a run of an engine everything that is sent is published, in its
order and whether or not a subscription matches it, and nothing else is published. What the engine
sends on its own is sent by instances. If that is for everybody, or if an instance that takes events
has a transition on it, a subscription matches. Then it is at the end of the inbox of every instance
that takes events, the sender included, once for each time it is sent; and nobody gets anything else
in that step. -/
theorem bus_of_traffic (htraffic : Traffic (engine memory root c services choices) hs sightings w)
    (hbuilt : ∀ r, .asked r ∈ hs → r.IsBuilt) :
    w.bus.published = sightings ∧
      ∀ label v, Step w label v →
        v.bus.published = w.bus.published ++ w.sent label ∧
        ((∀ r, label ≠ some (.asked r)) → ∀ s ∈ w.sent label, s.source.IsInstance) ∧
        (∀ s ∈ w.sent label, s.source.IsInstance →
          (s.event.channel = .global ∨ s.event.channel = .peripheral ∨
            ∃ n i, w.instance? n = some i ∧ i.isOpen = true ∧
              i.graph.handles s.event.name = true) → w.carries s = true) ∧
        (w.sent label ≠ [] → ∀ n i, w.instance? n = some i →
          v.inbox? n = some (i.inbox ++
            if i.isOpen then ((w.sent label).filter w.carries).map (·.event) else [])) := by
  have hnew := engine_isNew memory root c services choices
  have hrun := htraffic.run
  obtain ⟨haccounts, henlisted⟩ := hrun.isAccounted hnew.isTidy
    (engine_accounts memory root c services choices)
    (engine_isOrderly memory root c services choices).isEnlisted hbuilt
  have honce : w.topology.ListensOnce := hrun.listensOnce hnew.isTidy List.nodup_nil hbuilt
  refine ⟨htraffic.published, fun label v hstep => ⟨hstep.published, fun hown s hs => ?_,
    fun s hs hsource hcase => ?_, fun hsent n i hi => ?_⟩⟩
  · exact hstep.isInstance (hrun.isTidy hnew.isTidy hbuilt) (hrun.isOwned hnew hbuilt) hown hs
  · obtain ⟨k, hk⟩ := hsource
    have hchannel := channel_of_mem_sent hs
    rcases hcase with hglobal | hperipheral | ⟨n, i, hi, hopen, hhandles⟩
    · exact carries_of_open haccounts (.inl hglobal)
    · exact carries_of_open haccounts (.inr hperipheral)
    · -- events for everybody are carried in any case
      cases hname : s.event.channel with
      | internal => exact absurd hname hchannel
      | external =>
          exact carries_of_handles haccounts henlisted hi hopen hhandles
            (hk ▸ point_notMem_id k) hname
      | global => exact carries_of_open haccounts (.inl hname)
      | peripheral => exact carries_of_open haccounts (.inr hname)
  · rw [hstep.inbox? (isAttentive haccounts henlisted honce) hsent n, inbox?, hi, Option.map_some,
      Option.map_some, gains, isOpenAt_of_instance? hi]

end Engines

/-! ### A ping -/

/-- Waits for a ping. -/
def ponger : Description.Graph :=
  { name := "ponger", isAbstract := false, locals := [], nested := []
    states :=
      [{ name := "waits", isInitial := true, isTerminal := false, entry := [], exit := []
         during := [], after := [], on := [⟨"ping", ⟨some "done", [], [], none⟩⟩], always := []
         locals := [] },
        { name := "done", isInitial := false, isTerminal := true, entry := [], exit := []
          during := [], after := [], on := [], always := [], locals := [] }] }

/-- Sends a ping as soon as it begins. -/
def pinger : Description.Graph :=
  { name := "pinger", isAbstract := false, locals := [], nested := []
    states :=
      [{ name := "sends", isInitial := true, isTerminal := true
         entry := [.raise ⟨"ping", .external, []⟩], exit := [], during := [], after := []
         on := [], always := [], locals := [] }] }

def pongRequest : Request := .place (.ofBuilt true ponger (by decide +kernel)) .empty none

def pingRequest : Request := .place (.ofBuilt true pinger (by decide +kernel)) .empty none

/-- A ponger waits, and a pinger has entered its state. -/
def pingWorld : World :=
  (trace 3 ((attend 20 bare [pongRequest]).2.serve pingRequest)).2

/-- The world after the next step. -/
def pingedWorld : World := pingWorld.step?.getD pingWorld

theorem ping_run : ∃ hs, Run bare hs pingWorld ∧ ∀ r, .asked r ∈ hs → r.IsBuilt := by
  have hrun := ((run_attend 20 bare [pongRequest]).step (.ask _ pingRequest)).trans
    (run_trace 3 _)
  refine ⟨_, hrun, fun r hr => ?_⟩
  rcases List.mem_append.1 hr with hr | hr
  · exact absurd hr (asked_notMem_trace _ _ _)
  · rcases List.mem_append.1 hr with hr | hr
    · cases List.mem_singleton.1 hr
      exact ⟨true, Graph.ofBuilt_isBuilt true pinger _⟩
    · cases List.mem_singleton.1 (mem_of_asked_attend hr)
      exact ⟨true, Graph.ofBuilt_isBuilt true ponger _⟩

/-- The ping is on the bus once, and it is for both: a subscription of the ponger matches it. -/
theorem ping_traffic :
    ∃ hs sightings s, Traffic bare hs sightings pingWorld ∧
      Step pingWorld pingWorld.happening? pingedWorld ∧
      s.source = .numbered 1 ∧ s.event.name = "ping" ∧ s.event.channel = .external ∧
      pingedWorld.bus.published = sightings ++ [s] ∧
      pingedWorld.inbox? 0 = some [s.event] ∧ pingedWorld.inbox? 1 = some [s.event] := by
  obtain ⟨hs, hrun, hbuilt⟩ := ping_run
  obtain ⟨sightings, htraffic⟩ := hrun.exists_traffic
  have hstep : Step pingWorld pingWorld.happening? pingedWorld := by
    have hready : pingWorld.step?.isSome = true := by decide +kernel
    obtain ⟨v, hv⟩ := Option.isSome_iff_exists.1 hready
    have hpinged : pingedWorld = v := by rw [pingedWorld, hv, Option.getD_some]
    rw [hpinged]
    exact .go hv
  obtain ⟨hpublished, hall⟩ := bus_of_traffic htraffic hbuilt
  obtain ⟨hkept, -, hcarried, hinboxes⟩ := hall _ _ hstep
  -- what is sent, and who waits for it
  have hsent : (pingWorld.sent pingWorld.happening?).map
      (fun s => (s.source, s.event.name, s.event.channel)) =
        [(.numbered 1, "ping", .external)] := by decide +kernel
  obtain ⟨s, hs', hlooks⟩ := List.map_eq_singleton_iff.1 hsent
  obtain ⟨hsource, hname, hchannel⟩ : s.source = .numbered 1 ∧ s.event.name = "ping" ∧
      s.event.channel = .external := by simpa using hlooks
  have hwaits : (pingWorld.instance? 0).any (fun i =>
      i.isOpen && i.graph.handles "ping" && i.inbox.isEmpty) = true := by decide +kernel
  have hbegun : (pingWorld.instance? 1).any (fun i => i.isOpen && i.inbox.isEmpty) = true := by
    decide +kernel
  obtain ⟨waiting, hwaiting, hwaits⟩ := (Option.any_eq_true _ _).1 hwaits
  obtain ⟨begun, hbegun, hopen⟩ := (Option.any_eq_true _ _).1 hbegun
  simp only [Bool.and_eq_true, List.isEmpty_iff] at hwaits hopen
  obtain ⟨⟨hwaitingOpen, hhandles⟩, hwaitingEmpty⟩ := hwaits
  obtain ⟨hbegunOpen, hbegunEmpty⟩ := hopen
  have hcarries : pingWorld.carries s = true :=
    hcarried s (hs' ▸ List.mem_singleton_self s) ⟨1, hsource⟩
      (.inr (.inr ⟨0, waiting, hwaiting, hwaitingOpen, hname ▸ hhandles⟩))
  have hgains : ((pingWorld.sent pingWorld.happening?).filter pingWorld.carries).map (·.event) =
      [s.event] := by
    rw [hs', List.filter_singleton, hcarries]
    rfl
  have hsome : pingWorld.sent pingWorld.happening? ≠ [] := by
    rw [hs']
    exact List.cons_ne_nil _ _
  refine ⟨hs, sightings, s, htraffic, hstep, hsource, hname, hchannel, ?_, ?_, ?_⟩
  · rw [hkept, hpublished, hs']
  · rw [hinboxes hsome 0 waiting hwaiting, hwaitingEmpty, if_pos hwaitingOpen, hgains]
    rfl
  · rw [hinboxes hsome 1 begun hbegun, hbegunEmpty, if_pos hbegunOpen, hgains]
    rfl

end World

end Statechart
