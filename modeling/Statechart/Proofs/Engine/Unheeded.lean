import Statechart.Proofs.Engine.Simulation

/-!
# Events that trigger nothing

Guards see the data of an event before it is known whether the event triggers anything. An event
that selects no transition, or more than one, leaves nothing behind but what is said of its data
and of guards that fail.

- `World.told`             : what is said while an event is looked at
- `World.IsUnheeded`       : the event triggers nothing
- `World.isUnheeded_iff`   : there is not just one transition that may be taken
- `World.react_of_isUnheeded` : one event after the other leaves the world as it is
- `World.settle_unheeded`  : so do those that wait for an instance
-/

namespace Statechart

namespace World

variable {w : World} {n : Nat} {e : Event}

/-! ## Looking at events -/

/-- What is said while an event is looked at: of data whose name occurs before, and of guards that
fail. -/
def told (w : World) (n : Nat) (e : Event) : List Remark :=
  match w.instance? n with
  | none => []
  | some i =>
      match i.active with
      | none => []
      | some state =>
          (repeated e.data).map (repeatedRemark n) ++
            (guardFaults (state.onEvent e.name) (guardLookup w.memory (i.stateExtent state) e)).map
              (guardRemark n state.name e.name)

/-- The event triggers nothing: no transition is selected, or more than one. -/
def IsUnheeded (w : World) (n : Nat) (e : Event) : Prop :=
  (w.react n e).2 = .ok [] ∨
    ∃ state trigger count, (w.react n e).2 = .error (.nonDeterminism state trigger count)

/-- The transitions of a state that may be taken with an event. -/
def eligibleFor (w : World) (i : Instance) (state : State) (e : Event) : List Selected :=
  eligible (state.onEvent e.name) (guardLookup w.memory (i.stateExtent state) e)

/-- An event in a state, by the transitions that may be taken. -/
theorem react_eq {i : Instance} {state : State} (hi : w.instance? n = some i)
    (hactive : i.active = some state) (e : Event) :
    w.react n e =
      match w.eligibleFor i state e with
      | [] => (w.remarks (w.told n e), .ok [])
      | [selected] =>
          (e.data.foldl (inject n i.extent) (w.remarks (w.told n e)),
            .ok [.move (.transit selected)])
      | several =>
          (w.remarks (w.told n e), .error (.nonDeterminism state.name e.name several.length)) := by
  -- what is said before the transitions are looked at decides nothing
  have hselect : (w.remarks ((repeated e.data).map (repeatedRemark n))).select n state.name e.name
      (state.onEvent e.name)
      (guardLookup (w.remarks ((repeated e.data).map (repeatedRemark n))).memory
        (i.stateExtent state) e) =
        (w.remarks (w.told n e), selectTransition state.name e.name (state.onEvent e.name)
          (guardLookup w.memory (i.stateExtent state) e)) := by
    simp only [select, told, hi, hactive, remarks, List.append_assoc]
  simp only [react, hi, hactive, hselect]
  rw [selectTransition, eligibleFor]
  rcases eligible (state.onEvent e.name) (guardLookup w.memory (i.stateExtent state) e) with
    _ | ⟨selected, _ | ⟨other, rest⟩⟩ <;> rfl

theorem react_of_not_active (h : (w.instance? n).bind (·.active) = none) (e : Event) :
    w.react n e = (w, .error .noActiveState) := by
  unfold react
  cases hi : w.instance? n with
  | none => rfl
  | some i =>
      rw [hi] at h
      simp only [show i.active = none from h]

theorem isUnheeded_iff {i : Instance} {state : State} (hi : w.instance? n = some i)
    (hactive : i.active = some state) :
    w.IsUnheeded n e ↔ (w.eligibleFor i state e).length ≠ 1 := by
  rw [IsUnheeded, react_eq hi hactive]
  rcases w.eligibleFor i state e with _ | ⟨selected, _ | ⟨other, rest⟩⟩ <;> simp

/-- Only what is said is left of an event that triggers nothing. -/
theorem react_fst_of_isUnheeded (h : w.IsUnheeded n e) :
    (w.react n e).1 = w.remarks (w.told n e) := by
  cases hactive : (w.instance? n).bind (·.active) with
  | none =>
      -- there is no state in which the event could be looked at
      rw [IsUnheeded, react_of_not_active hactive] at h
      rcases h with h | ⟨_, _, _, h⟩ <;> cases h
  | some state =>
      obtain ⟨i, hi, hactive⟩ := Option.bind_eq_some_iff.1 hactive
      rw [isUnheeded_iff hi hactive] at h
      rw [react_eq hi hactive]
      rcases hfound : w.eligibleFor i state e with _ | ⟨selected, _ | ⟨other, rest⟩⟩
      · rfl
      · rw [hfound] at h
        exact absurd rfl h
      · rfl

/-! ## One event after the other -/

theorem react_remarks_snd (w : World) (rs : List Remark) (n : Nat) (e : Event) :
    ((w.remarks rs).react n e).2 = (w.react n e).2 := by
  have hsame : (w.remarks rs).instance? n = w.instance? n := rfl
  cases hi : w.instance? n with
  | none => simp only [react, hsame, hi]
  | some i => rw [react_result hi, react_result (hsame.trans hi)]; rfl

theorem isUnheeded_remarks (rs : List Remark) :
    (w.remarks rs).IsUnheeded n e ↔ w.IsUnheeded n e := by
  rw [IsUnheeded, IsUnheeded, react_remarks_snd]

theorem remarks_remarks (w : World) (rs rs' : List Remark) :
    (w.remarks rs).remarks rs' = w.remarks (rs ++ rs') := by
  simp only [remarks, List.append_assoc]

/-- An instance looks at one event after the other. -/
def reactAll (n : Nat) (w : World) (es : List Event) : World :=
  es.foldl (fun w e => (w.react n e).1) w

/-- Events that trigger nothing leave nothing of themselves, one by one or in a row: variables,
the active state, timers, tasks, queues and the bus are as they were, whether or not the guards
could be evaluated. -/
theorem react_of_isUnheeded {es : List Event} (h : ∀ e ∈ es, w.IsUnheeded n e) :
    (∀ e ∈ es, (w.react n e).1 = { w with log := w.log ++ w.told n e }) ∧
      reactAll n w es = { w with log := w.log ++ es.flatMap (w.told n) } := by
  refine ⟨fun e he => react_fst_of_isUnheeded (h e he), ?_⟩
  change _ = w.remarks _
  -- what was said of the events before changes nothing for those that follow
  suffices hfrom : ∀ rs, reactAll n (w.remarks rs) es =
      w.remarks (rs ++ es.flatMap (w.told n)) by
    simpa [remarks] using hfrom []
  induction es with
  | nil => simp [reactAll]
  | cons e rest ih =>
      intro rs
      have he : (w.remarks rs).IsUnheeded n e := (isUnheeded_remarks rs).2 (h e List.mem_cons_self)
      rw [reactAll, List.foldl_cons, react_fst_of_isUnheeded he, remarks_remarks, ← reactAll,
        ih fun e he => h e (List.mem_cons_of_mem _ he), List.flatMap_cons, List.append_assoc]
      rfl

/-! ### A trial -/

namespace UnheededTrial

/-- A transition that a number has to open, and two that are in the way of each other. -/
def shut : State :=
  { name := "shut", isInitial := true, isTerminal := false, entry := [], exit := [], during := []
    after := [], locals := []
    on :=
      [⟨some "open", some "wide", none,
          [⟨"$key == 1", .binary .equal (.variable "$key" []) (.literal (.ofNat 1))⟩], []⟩,
        ⟨some "push", some "wide", none, [], []⟩, ⟨some "push", none, none, [], []⟩]
    always := [] }

/-- Data of an event is left from before. -/
def gate : World :=
  { bare with
    memory := ⟨[.memory (Table.empty.insert "$weight" (.ofNat 7))], bare.memory.backing⟩
    instances :=
      [{ graph :=
          { name := "gate", isAbstract := false, locals := [], nested := [], states := [shut]
            initial := shut, description := ⟨"gate", false, [], [], []⟩ }
         parent := none, nested := [], extent := ⟨[0]⟩, locals := 0, stateLayers := []
         active := some shut, inbox := [], phase := .running, isParked := false
         isCancelled := false, isRegistered := true, deadline := none }] }

/-- Without a key, the guard cannot be evaluated. -/
def opening : Event := ⟨"open", .internal, [("weight", .ofNat 8), ("weight", .ofNat 9)]⟩

def push : Event := ⟨"push", .internal, [("weight", .ofNat 10)]⟩

end UnheededTrial

open UnheededTrial in
/-- A guard that fails, and two transitions to choose from. What is said is all that changes: the
weight is the one from before. -/
theorem gate_unheeded :
    (∀ e ∈ [opening, push], gate.IsUnheeded 0 e) ∧
      (gate.react 0 push).1 = { gate with log := gate.log ++ gate.told 0 push } ∧
      reactAll 0 gate [opening, push] =
        { gate with log := gate.log ++ [opening, push].flatMap (gate.told 0) } ∧
      (gate.told 0 opening).length = 2 ∧
      ((reactAll 0 gate [opening, push]).memory.get 0 "$weight").toOption.any
        (fun value => value.equal (.ofNat 7)) = true := by
  have hunheeded : ∀ e ∈ [opening, push], gate.IsUnheeded 0 e := by
    intro e he
    have hshut : (gate.instances[0]).active = some shut := rfl
    rw [isUnheeded_iff rfl hshut]
    rcases List.mem_cons.1 he with rfl | he
    · decide +kernel
    · cases List.mem_singleton.1 he
      decide +kernel
  obtain ⟨hone, hall⟩ := react_of_isUnheeded hunheeded
  refine ⟨hunheeded, hone push (by simp), hall, by decide +kernel, ?_⟩
  rw [hall]
  decide +kernel

/-! ## Events that wait -/

/-- The first events of an instance were looked at. -/
def passOver (w : World) (n : Nat) (rest : List Event) (rs : List Remark) : World :=
  (w.mapInstance n fun i => { i with inbox := rest }).remarks rs

theorem mapInstance_mapInstance (w : World) (n : Nat) (f g : Instance → Instance) :
    (w.mapInstance n f).mapInstance n g = w.mapInstance n (g ∘ f) := by
  have hmodify : (w.instances.modify n f).modify n g = w.instances.modify n (g ∘ f) := by
    apply List.ext_getElem?
    intro m
    simp only [List.getElem?_modify]
    cases w.instances[m]? with
    | none => rfl
    | some i =>
        by_cases hm : n = m
        · simp [hm]
        · simp [hm]
  simp only [mapInstance, hmodify]

theorem mapInstance_eq_self {i : Instance} {f : Instance → Instance} (hi : w.instance? n = some i)
    (h : f i = i) : w.mapInstance n f = w := by
  have hmodify : w.instances.modify n f = w.instances := by
    apply List.ext_getElem?
    intro m
    rw [List.getElem?_modify]
    by_cases hm : n = m
    · subst hm
      rw [show w.instances[n]? = some i from hi]
      simp [h]
    · simp [hm]
  simp only [mapInstance, hmodify]

theorem passOver_passOver (w : World) (n : Nat) (rest rest' : List Event) (rs rs' : List Remark) :
    (w.passOver n rest rs).passOver n rest' rs' = w.passOver n rest' (rs ++ rs') := by
  have hinbox := mapInstance_mapInstance w n (fun i => { i with inbox := rest })
    fun i => { i with inbox := rest' }
  simp only [passOver, ← remarks_remarks]
  exact congrArg (fun v : World => (v.remarks rs).remarks rs') hinbox

section Inbox

variable {i : Instance} {rest : List Event} {rs : List Remark}

theorem instance?_passOver (hi : w.instance? n = some i) (rest : List Event) (rs : List Remark) :
    (w.passOver n rest rs).instance? n = some { i with inbox := rest } :=
  instance?_mapInstance_self (fun i => { i with inbox := rest }) hi

theorem react_passOver_snd (hi : w.instance? n = some i) (rest : List Event) (rs : List Remark)
    (e : Event) : ((w.passOver n rest rs).react n e).2 = (w.react n e).2 := by
  rw [react_result hi, react_result (instance?_passOver hi rest rs)]
  rfl

theorem told_passOver (hi : w.instance? n = some i) (rest : List Event) (rs : List Remark)
    (e : Event) : (w.passOver n rest rs).told n e = w.told n e := by
  simp only [told, hi, instance?_passOver hi rest rs]
  rfl

theorem stopReason?_passOver (w : World) (n : Nat) (i : Instance) (rest : List Event)
    (rs : List Remark) :
    (w.passOver n rest rs).stopReason? { i with inbox := rest } = w.stopReason? i := by
  have hparent : (w.passOver n rest rs).hasParentEnded { i with inbox := rest } =
      w.hasParentEnded i := by
    cases hparent : i.parent with
    | none => simp only [hasParentEnded, hparent, Option.bind_none]
    | some p =>
        have hp : (w.passOver n rest rs).instance? p =
            if n = p then (w.instance? p).map fun i => { i with inbox := rest }
            else w.instance? p := instance?_mapInstance w n p _
        simp only [hasParentEnded, hparent, Option.bind_some, hp]
        by_cases hself : n = p
        · rw [if_pos hself]
          cases w.instance? p <;> rfl
        · rw [if_neg hself]
  rw [stopReason?, hparent]
  rfl

/-- One event that waits and triggers nothing. -/
theorem resume_unheeded (hi : w.instance? n = some i) (hstop : w.stopReason? i = none)
    (hinbox : i.inbox = e :: rest) (h : (w.react n e).2 = .ok []) :
    w.resume ⟨n, [], false⟩ =
      { w.passOver n rest (w.told n e) with current := some ⟨n, [], false⟩ } := by
  have hquiet : w.passOver n rest [] = w.mapInstance n fun i => { i with inbox := rest } := by
    simp only [passOver, remarks, List.append_nil]
  have hresult : ((w.passOver n rest []).react n e).2 = .ok [] :=
    (react_passOver_snd hi rest [] e).trans h
  have hreact : (w.passOver n rest []).react n e =
      ((w.passOver n rest []).remarks (w.told n e), .ok []) := by
    have hfst := react_fst_of_isUnheeded (.inl hresult)
    rw [told_passOver hi] at hfst
    exact Prod.ext hfst hresult
  simp only [resume, hi, hstop, next, hinbox, handle]
  rw [← hquiet, hreact]
  simp only [passOver, mapInstance, remarks, List.append_nil]

end Inbox

/-- Events that wait for an instance and trigger nothing are gone after as many steps, and nothing
else has happened. -/
theorem settle_unheeded {i : Instance} {es rest : List Event}
    (hcurrent : w.current = some ⟨n, [], false⟩) (hi : w.instance? n = some i)
    (hstop : w.stopReason? i = none) (hinbox : i.inbox = es ++ rest)
    (h : ∀ e ∈ es, (w.react n e).2 = .ok []) (fuel : Nat) :
    settle (fuel + es.length) w =
      settle fuel (w.passOver n rest (es.flatMap (w.told n))) := by
  induction es generalizing w i with
  | nil =>
      have hinbox : ({ i with inbox := rest } : Instance) = i := by
        rw [← show i.inbox = rest from hinbox]
      have hsame : w.passOver n rest [] = w := by
        rw [passOver, mapInstance_eq_self hi hinbox, remarks, List.append_nil]
      rw [List.flatMap_nil, hsame]
      rfl
  | cons e later ih =>
      have hinbox : i.inbox = e :: (later ++ rest) := hinbox
      have hresume := resume_unheeded hi hstop hinbox (h e List.mem_cons_self)
      have hfollow : { w.passOver n (later ++ rest) (w.told n e) with
          current := some ⟨n, [], false⟩ } = w.passOver n (later ++ rest) (w.told n e) := by
        rw [← hcurrent]
        rfl
      rw [hfollow] at hresume
      have hi' := instance?_passOver hi (later ++ rest) (w.told n e)
      rw [List.length_cons, ← Nat.add_assoc, settle, step?, hcurrent]
      simp only [hresume]
      have hlater := ih (w := w.passOver n (later ++ rest) (w.told n e)) hcurrent hi'
        ((stopReason?_passOver w n i _ _).trans hstop) rfl
        fun e' he' => (react_passOver_snd hi _ _ e').trans (h e' (List.mem_cons_of_mem _ he'))
      rw [hlater, passOver_passOver, List.flatMap_cons,
        funext (told_passOver hi (later ++ rest) (w.told n e))]

end World

end Statechart
