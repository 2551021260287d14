import Statechart.Proofs.Engine.Soundness

/-!
# Timers belong to states

- `World.timers_of_run` : the timers of an instance at any time of a run
-/

namespace Statechart

namespace Happening

/-- Whether the instance of a number left a state. -/
def isExitOf (n : Nat) : Happening → Bool
  | .did m (.move (.exit _)) _ => m == n
  | _ => false

def isFiring : Happening → Bool
  | .fired _ => true
  | _ => false

theorem exists_of_isExitOf {n : Nat} {h : Happening} (hexit : h.isExitOf n = true) :
    ∃ state outcome, h = .did n (.move (.exit state)) outcome := by
  unfold isExitOf at hexit
  split at hexit
  · rename_i m state outcome
    obtain rfl := beq_iff_eq.1 hexit
    exact ⟨state, outcome, rfl⟩
  · cases hexit

theorem exists_of_isFiring {h : Happening} (hfiring : h.isFiring = true) :
    ∃ timer, h = .fired timer := by
  unfold isFiring at hfiring
  split at hfiring
  · exact ⟨_, rfl⟩
  · cases hfiring

end Happening

namespace World

variable {w₀ w : World} {hs : List Happening} {n : Nat}

/-- A timer fires only while it runs and is awake. -/
theorem mem_timers_of_fired {w' : World} {timer : Timer} (h : Step w (some (.fired timer)) w') :
    timer ∈ w.timers ∧ timer.isAwake = true := by
  generalize hlabel : some (Happening.fired timer) = label at h
  cases h with
  | ask r => cases hlabel
  | jump time => cases hlabel
  | wait time => cases hlabel
  | go hgo =>
      rcases happening?_cases hlabel.symm with ⟨t, c, rest, -, -, hdid⟩ | ⟨n, e, outcome, htook⟩ |
        ⟨id, rest, found, -, -, hfound, hawake, hfired⟩
      · cases hdid
      · cases htook
      · cases hfired
        exact ⟨List.mem_of_find?_eq_some hfound, hawake⟩

/-- The timers of an instance that has left its state, or has ended. -/
theorem Run.keysOf_eq_nil (hrun : Run w₀ hs w) (hnew : w₀.IsNew)
    (hbuilt : ∀ r, .asked r ∈ hs → r.IsBuilt) {i : Instance} (hi : w.instance? n = some i)
    (hout : (TimerLog.of n hs).isOut = true ∨ i.phase = .ended) :
    w.status.keysOf (.numbered n) = [] :=
  (hrun.sound hnew hbuilt (runState?_of_instance? hi)).timers_eq_nil hout

/-- Right after an instance left a state it has no timers. -/
theorem Run.keysOf_of_exit (hrun : Run w₀ hs w) (hnew : w₀.IsNew) {state : State}
    {outcome : Except EngineFault Unit} {w' : World}
    (hexit : Step w (some (.did n (.move (.exit state)) outcome)) w')
    (hbuilt : ∀ r, .asked r ∈ hs → r.IsBuilt) : w'.status.keysOf (.numbered n) = [] := by
  have hadvances := hexit.advances (hrun.isTidy hnew.isTidy hbuilt) fun r hr => by cases hr
  obtain ⟨a, ha⟩ := Option.isSome_iff_exists.1 (hadvances.known n _ rfl rfl)
  obtain ⟨b, hb, -⟩ := hadvances.runState n a ha
  obtain ⟨i, hi, -⟩ := exists_instance hb
  refine (hrun.step hexit).keysOf_eq_nil hnew (fun r hr => ?_) hi (.inl ?_)
  · rcases List.mem_cons.1 hr with hr | hr
    · cases hr
    · exact hbuilt r hr
  · simp [TimerLog.of, TimerLog.add, TimerLog.note]

/-- A timer that runs when its instance leaves a state does not fire any more. -/
theorem Run.fired_ne (hrun : Run w₀ hs w) (hnew : w₀.IsNew) {timer fired : Timer}
    (htimer : timer ∈ w.timers) (howner : timer.owner = .numbered n) {state : State}
    {outcome : Except EngineFault Unit} {w' : World} {newer older : List Happening}
    (hlater : Run w (newer ++ .did n (.move (.exit state)) outcome :: older) w')
    (hbuilt : ∀ r,
      .asked r ∈ newer ++ .did n (.move (.exit state)) outcome :: older ++ hs → r.IsBuilt)
    (hfired : .fired fired ∈ newer) : fired.id ≠ timer.id := by
  -- `w₂` is the world right after the exit, `w₃` the one in which the timer fires
  obtain ⟨w₁, w₂, hbefore, hexit, hafter⟩ := hlater.split
  obtain ⟨late, early, rfl⟩ := List.append_of_mem hfired
  obtain ⟨w₃, _, hmiddle, hfire, -⟩ := hafter.split
  have htidy := hrun.isTidy hnew.isTidy fun r hr => hbuilt r (by simp [hr])
  have hto₁ := hrun.trans hbefore
  rw [List.append_assoc] at hbuilt
  have hbuilt₁ : ∀ r, .asked r ∈ older ++ hs → r.IsBuilt := fun r hr =>
    hbuilt r (List.mem_append_right _ (List.mem_cons_of_mem _ hr))
  have htidy₂ := (hexit.advances (hto₁.isTidy hnew.isTidy hbuilt₁) fun r hr => by cases hr).tidy
  have hnone := hto₁.keysOf_of_exit hnew hexit hbuilt₁
  have hkey : timer.key ∈ w.status.keys := List.mem_map_of_mem htimer
  intro heq
  have hbelow : fired.key.id < w.fresh :=
    Nat.lt_of_le_of_lt (Nat.le_of_eq heq) (htidy.below _ hkey)
  -- a timer that ran at the exit belongs to somebody else, and later timers have later identities
  obtain ⟨hfresh, horigin⟩ := (hbefore.step hexit).origin htidy fun r hr =>
    hbuilt r (List.mem_append_right _ (List.mem_append_left hs hr))
  have hthere : fired.key ∈ w₂.status.keys := by
    have hstart : fired.key ∈ w₃.status.keys := List.mem_map_of_mem (mem_timers_of_fired hfire).1
    rcases (hmiddle.origin htidy₂ fun r hr => hbuilt r (by simp [hr])).2 _ hstart with h | hlate
    · exact h
    · exact absurd hlate (Nat.not_le.2 (Nat.lt_of_lt_of_le hbelow hfresh))
  have hsame : fired.key = timer.key := by
    rcases horigin _ hthere with h | hlate
    · exact List.inj_on_of_nodup_map htidy.nodup h hkey heq
    · exact absurd hlate (Nat.not_le.2 hbelow)
  have howned : fired.key ∈ w₂.status.keysOf (.numbered n) :=
    List.mem_filter.2 ⟨hthere, by rw [hsame]; exact beq_iff_eq.2 howner⟩
  rw [hnone] at howned
  cases howned

/-- At any time of a run the timers of an instance are known from its state and from what happened:
between two events they are those of the active state that were not reset since it was entered;
there is none between leaving a state and changing to one, and none after the end; and a timer does
not fire any more after its instance has left the state in which it ran. An instance that is
stranded has not ended. -/
theorem timers_of_run (hnew : w₀.IsNew) (hbuilt : ∀ r, .asked r ∈ hs → r.IsBuilt)
    (hrun : Run w₀ hs w) {i : Instance} (hi : w.instance? n = some i) :
    (i.phase = .running → w.status.workOf n = [] →
      ∃ state ∈ i.graph.states, i.active = some state ∧
        w.runningTimers (.numbered n) =
          (state.after.map (·.name)).filter fun name => name ∉ (TimerLog.of n hs).lost) ∧
    ((TimerLog.of n hs).isOut = true → w.runningTimers (.numbered n) = []) ∧
    (i.phase = .ended → w.runningTimers (.numbered n) = []) ∧
    ∀ timer ∈ w.timers, timer.owner = .numbered n →
      ∀ newer older state outcome w',
        Run w (newer ++ .did n (.move (.exit state)) outcome :: older) w' →
        (∀ r, .asked r ∈ newer ++ .did n (.move (.exit state)) outcome :: older → r.IsBuilt) →
        ∀ fired, .fired fired ∈ newer → fired.id ≠ timer.id := by
  have hsound := hrun.sound hnew hbuilt (runState?_of_instance? hi)
  refine ⟨fun hphase hwork => ?_, fun hout => ?_, fun hended => ?_, ?_⟩
  · obtain ⟨state, hstate, hactive, -, hnames⟩ :=
      hsound.active_of_moves_eq_nil hphase (by rw [hwork]; rfl)
    exact ⟨state, hstate, hactive, (runningTimers_eq w _).trans hnames⟩
  · rw [runningTimers_eq, hrun.keysOf_eq_nil hnew hbuilt hi (.inl hout)]
    rfl
  · rw [runningTimers_eq, hrun.keysOf_eq_nil hnew hbuilt hi (.inr hended)]
    rfl
  · intro timer htimer howner newer older state outcome w' hlater hbuilt' fired hfired
    refine hrun.fired_ne hnew htimer howner hlater (fun r hr => ?_) hfired
    rcases List.mem_append.1 hr with hr | hr
    · exact hbuilt' r hr
    · exact hbuilt r hr

/-! ### A trial -/

/-- A lamp whose timers tell how long it has been dark, or lit. -/
def lamp : Description.Graph :=
  { name := "lamp", isAbstract := false, locals := [], nested := []
    states :=
      [{ name := "dark", isInitial := true, isTerminal := false, entry := [], exit := []
         during := []
         after :=
          [.timeout "dusk" (.ofNat 20) (.raise ⟨"dusk", .internal, []⟩),
            .timeout "dawn" (.ofNat 30) (.raise ⟨"dawn", .internal, []⟩)]
         on :=
          [⟨"calm", ⟨none, [], [.resetTimeout "dusk"], none⟩⟩,
            ⟨"press", ⟨some "lit", [], [], none⟩⟩]
         always := [], locals := [] },
        { name := "lit", isInitial := false, isTerminal := false, entry := [], exit := []
          during := [], after := [.timeout "burn" (.ofNat 10) (.raise ⟨"burn", .internal, []⟩)]
          on := [], always := [], locals := [] }] }

/-- The lamp goes dark, and its dusk is over. -/
def lampDark : List Happening × World :=
  attend 20 bare
    [.place (.ofBuilt true lamp (by decide +kernel)) .empty none,
      .offer (.numbered 0) ⟨"calm", .internal, []⟩]

/-- It is lit. -/
def lampLit : List Happening × World :=
  attend 20 lampDark.2 [.offer (.numbered 0) ⟨"press", .internal, []⟩]

/-- It is lit for a while. -/
def lampLate : List Happening × World := trace 5 (lampLit.2.jump (20 * milliNanos))

theorem lamp_timers :
    ∃ i, Run bare lampDark.1 lampDark.2 ∧ lampDark.2.instance? 0 = some i ∧
      (∃ state ∈ i.graph.states, i.active = some state ∧
        lampDark.2.runningTimers (.numbered 0) =
          (state.after.map (·.name)).filter fun name => name ∉ ["dusk"]) ∧
      lampDark.2.runningTimers (.numbered 0) = ["dawn"] ∧
      ∃ timer ∈ lampDark.2.timers, timer.name = "dawn" ∧
        ∃ newer older state outcome fired,
          Run lampDark.2 (newer ++ .did 0 (.move (.exit state)) outcome :: older) lampLate.2 ∧
            .fired fired ∈ newer ∧ fired.id ≠ timer.id := by
  have hrun : Run bare lampDark.1 lampDark.2 := run_attend 20 bare _
  have hbuilt : ∀ r, .asked r ∈ lampDark.1 → r.IsBuilt := by
    intro r hr
    rcases List.mem_cons.1 (mem_of_asked_attend hr) with rfl | hr
    · exact ⟨true, Graph.ofBuilt_isBuilt true lamp _⟩
    · cases List.mem_singleton.1 hr
      trivial
  have hthere : (lampDark.2.instance? 0).any (fun i => i.phase == .running) = true := by
    decide +kernel
  obtain ⟨i, hi, hphase⟩ := (Option.any_eq_true _ _).1 hthere
  obtain ⟨hactive, -, -, hnever⟩ := timers_of_run bare_isNew hbuilt hrun hi
  have hlost : (TimerLog.of 0 lampDark.1).lost = ["dusk"] := by decide +kernel
  rw [hlost] at hactive
  have hdawn : lampDark.2.timers.any (fun timer =>
      timer.owner == .numbered 0 && timer.name == "dawn") = true := by decide +kernel
  obtain ⟨timer, htimer, hwanted⟩ := List.any_eq_true.1 hdawn
  obtain ⟨howner, hname⟩ := Bool.and_eq_true_iff.1 hwanted
  have hexit : lampLit.1.any (fun h => h.isExitOf 0) = true := by decide +kernel
  have hfired : lampLate.1.any (·.isFiring) = true := by decide +kernel
  obtain ⟨_, hleft, hexit⟩ := List.any_eq_true.1 hexit
  obtain ⟨_, hlate, hfired⟩ := List.any_eq_true.1 hfired
  obtain ⟨state, outcome, rfl⟩ := Happening.exists_of_isExitOf hexit
  obtain ⟨fired, rfl⟩ := Happening.exists_of_isFiring hfired
  obtain ⟨newer, older, hsplit⟩ := List.append_of_mem hleft
  have hasked : ∀ r, .asked r ∈ lampLate.1 ++ lampLit.1 → r.IsBuilt := by
    intro r hr
    rcases List.mem_append.1 hr with hr | hr
    · exact absurd hr (asked_notMem_trace _ _ _)
    · cases List.mem_singleton.1 (mem_of_asked_attend hr)
      trivial
  have hlater : Run lampDark.2 (lampLate.1 ++ lampLit.1) lampLate.2 :=
    ((run_attend 20 lampDark.2 _).step (.jump _ _)).trans (run_trace 5 _)
  rw [hsplit, ← List.append_assoc] at hasked hlater
  have hmem : .fired fired ∈ lampLate.1 ++ newer := List.mem_append_left _ hlate
  exact ⟨i, hrun, hi, hactive (beq_iff_eq.1 hphase) (by decide +kernel), by decide +kernel, timer,
    htimer, beq_iff_eq.1 hname, lampLate.1 ++ newer, older, state, outcome, fired, hlater, hmem,
    hnever timer htimer (beq_iff_eq.1 howner) _ _ _ _ _ hlater hasked fired hmem⟩

end World

end Statechart
