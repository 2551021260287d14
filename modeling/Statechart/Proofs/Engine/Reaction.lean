import Statechart.Proofs.Engine.Reception

/-!
# What a step does with an instance

In the steps of others an instance only receives. In its own it begins a turn, executes a command,
takes the first event of its inbox, waits for one, or is over. It looks for a reason to stop when
nothing is left to do, but not when an event goes first after it has waited.

- `Instance.Goes`           : an instance whose turn goes on, or that is over
- `Instance.Reacts`         : what a step can do with an instance and the events that wait for it
- `World.receives_resume`, `World.receives_beginTurn` : turns of others
- `World.reacts_resume`, `World.reacts_beginTurn`     : its own
- `World.Step.reacts`       : a step does nothing else
-/

namespace Statechart

/-- The event that an instance took. -/
def Happening.takenBy? (n : Nat) : Happening → Option Event
  | .took m e _ => if m = n then some e else none
  | _ => none

namespace Instance

/-- The turn of an instance goes on, or the instance is over. -/
inductive Goes (i : Instance) : Instance → Option (List Command) → Prop where
  | on {j : Instance} {work : List Command} : i.Receives j → Goes i j (some work)
  | gone {j k : Instance} {phase : Phase} : (phase = .ended ∨ phase = .stuck) → i.Receives j →
      Instance.Receives { j with phase } k → Goes i k none

/-- What a step can do with an instance and what is left of its turn. The event that it takes, if it
takes one, is the first of its inbox. -/
inductive Reacts (stops : Bool) (i : Instance) :
    Option (List Command) → Option Event → Instance → Option (List Command) → Prop where
  | receive {turn : Option (List Command)} {j : Instance} :
      i.Receives j → Reacts stops i turn none j turn
  /-- Its first turn begins, and its time. -/
  | begin {j : Instance} {deadline : Option Nat} {work : List Command} : i.phase = .created →
      Instance.Receives { i with phase := .running, deadline } j →
      Reacts stops i none none j (some work)
  /-- Another turn begins. -/
  | turn {j : Instance} : i.phase = .running → i.Receives j → Reacts stops i none none j (some [])
  | work {c : Command} {rest : List Command} {active : Option State} {j : Instance}
      {turn : Option (List Command)} : Goes { i with active } j turn →
      Reacts stops i (some (c :: rest)) none j turn
  | stop {j : Instance} : stops = true → Instance.Receives { i with phase := .ended } j →
      Reacts stops i (some []) none j none
  /-- It waits for an event. -/
  | park {j : Instance} : stops = false → i.Receives j → Reacts stops i (some []) none j none
  | take {e : Event} {rest : List Event} {j : Instance} {turn turn' : Option (List Command)} :
      i.inbox = e :: rest → (turn = none ∧ i.phase = .running ∨ turn = some [] ∧ stops = false) →
      Goes { i with inbox := rest } j turn' → Reacts stops i turn (some e) j turn'

end Instance

namespace World

variable {w v u : World} {n m : Nat} {i : Instance} {label : Option Happening}

/-! ## Turns -/

/-- The turn of an instance goes on, or the instance is over. -/
def Goes (n : Nat) (i : Instance) (w v : World) : Prop :=
  w.Lasts v ∧ ∃ j, v.instance? n = some j ∧ i.Goes j (v.agenda? n)

theorem Goes.on (h : Receives n w u) (hi : w.instance? n = some i) (hlasts : u.Lasts v)
    (hsame : v.instance? n = u.instance? n) {work : List Command}
    (hagenda : v.agenda? n = some work) : Goes n i w v := by
  obtain ⟨j, hj, hij⟩ := h.kept i hi
  exact ⟨h.lasts.trans hlasts, j, hsame.trans hj, hagenda ▸ .on hij⟩

theorem Goes.of_receives (h : Receives n w u) (hi : w.instance? n = some i)
    (hgoes : ∀ j, u.instance? n = some j → Goes n j u v) : Goes n i w v := by
  obtain ⟨j, hj, hij⟩ := h.kept i hi
  obtain ⟨hlasts, k, hk, hjk⟩ := hgoes j hj
  refine ⟨h.lasts.trans hlasts, k, hk, ?_⟩
  generalize v.agenda? n = turn at hjk
  cases hjk with
  | on hreceives => exact .on (hij.trans hreceives)
  | gone hphase hbefore hafter => exact .gone hphase (hij.trans hbefore) hafter

theorem mapInstance_active (w : World) (m : Nat) :
    (w.mapInstance m fun i => { i with active := i.active }) = w := by
  unfold mapInstance
  rw [show (fun i : Instance => { i with active := i.active }) = id from rfl, List.modify_id]

/-- A step between states makes a state the active one at most. -/
theorem exists_active_executeMove (w : World) (m : Nat) (step : Move) :
    ∃ active : Instance → Option State, ∀ n, Receives n
      (w.mapInstance m fun i => { i with active := active i })
      ((instanceMachine m).executeMove w step).1 := by
  rcases executeMove_cases w m step with hmove | ⟨left, -, hmove⟩ | ⟨state, u, hu, hmoved⟩
  · refine ⟨fun i => i.active, fun n => ?_⟩
    rw [mapInstance_active, hmove]
    exact .refl n w
  · refine ⟨fun i => i.active, fun n => ?_⟩
    rw [mapInstance_active, hmove]
    exact .of_eq rfl rfl ⟨Nat.le_refl _, rfl⟩
  · obtain ⟨added, fresh, hstarted, -⟩ := Arms.startTimers (w.stateSite m state) w state.after
    rw [← hu] at hstarted
    rcases hmoved with hmove | ⟨told, hmove⟩
    · refine ⟨fun i => i.active, fun n => ?_⟩
      rw [mapInstance_active, hmove, hstarted]
      exact .of_eq rfl rfl ⟨Nat.le_refl _, rfl⟩
    · refine ⟨fun _ => some state, fun n => ?_⟩
      rw [hmove, hstarted]
      exact .of_eq rfl rfl ⟨Nat.le_refl _, rfl⟩

/-- So does a command, and all instances receive what it raises. -/
theorem exists_active_advance (w : World) (m : Nat) (c : Command) (rest : List Command) :
    ∃ active : Instance → Option State, ∀ n, Receives n
      (w.mapInstance m fun i => { i with active := active i })
      ((instanceMachine m).advance w c rest).1 := by
  rw [advance_fst]
  cases c with
  | act site action =>
      refine ⟨fun i => i.active, fun n => ?_⟩
      rw [mapInstance_active]
      exact Receives.execute w site action
  | move step => exact exists_active_executeMove w m step

/-- An instance ends. -/
theorem exists_finish (hi : w.instance? n = some i) (result : Except EngineFault Outcome) :
    w.Lasts (w.finish n result) ∧ (w.finish n result).agenda? n = none ∧
      ∃ j, (w.finish n result).instance? n = some j ∧
        Instance.Receives { i with phase := .ended } j := by
  have hended := Receives.afterFinish (n := n) hi result
  obtain ⟨j, hj, hreceives⟩ := hended.kept _ (instance?_mapInstance_self (fun i =>
    { i with phase := .ended, isParked := false, isRegistered := false }) hi)
  have hleft : Instance.Receives { i with phase := .ended }
      { i with phase := .ended, isParked := false, isRegistered := false } :=
    .of_eq rfl ⟨rfl, rfl, rfl, rfl⟩ id
  exact ⟨hended.lasts, hended.agenda, j, hj, hleft.trans hreceives⟩

/-- A turn in which something failed goes on with the next event, or the instance is over. -/
theorem goes_fail {t : Turn} (hi : w.instance? t.number = some i) (fault : EngineFault) :
    Goes t.number i w (w.fail t fault) := by
  unfold fail
  split
  · exact ⟨⟨Nat.le_refl _, rfl⟩, _,
      instance?_mapInstance_self (fun i => { i with phase := .stuck, isParked := false }) hi,
      .gone (.inr rfl) (.refl i) (.of_eq rfl ⟨rfl, rfl, rfl, rfl⟩ id)⟩
  · split
    · obtain ⟨hlasts, hagenda, j, hj, hreceives⟩ := exists_finish hi (.error fault)
      refine ⟨hlasts, j, hj, ?_⟩
      rw [hagenda]
      exact .gone (.inl rfl) (.refl i) hreceives
    · have htold := Receives.remark (n := t.number) w ⟨.warning, some (.numbered t.number),
        "failed to handle event: " ++ fault.message⟩
      exact .on htold hi ⟨Nat.le_refl _, rfl⟩ rfl
        (agenda?_of_eq (t := ⟨t.number, [], false⟩) rfl rfl)

/-- So does one in which an event is taken. -/
theorem goes_handle (hi : w.instance? n = some i) (e : Event) : Goes n i w (w.handle n e) := by
  have hreact := Receives.of_writes (n := n) (Writes.react w n e)
  unfold handle
  cases hresult : w.react n e with
  | mk u result =>
      rw [hresult] at hreact
      cases result with
      | ok work =>
          exact .on hreact hi ⟨Nat.le_refl _, rfl⟩ rfl
            (agenda?_of_eq (t := ⟨n, work, false⟩) rfl rfl)
      | error fault =>
          exact .of_receives hreact hi fun j hj => goes_fail (t := ⟨n, [], false⟩) hj fault

/-! ## Turns of others -/

theorem Receives.of_works {work : List Command} (hm : m ≠ n) (h : Works m work w v) :
    Receives n w v := by
  induction h with
  | rest _ => exact .refl n w
  | act _ => exact .execute w _ _
  | move _ =>
      obtain ⟨active, hmoved⟩ := exists_active_executeMove w m _
      exact (Receives.mapInstance_of_ne _ hm).trans (hmoved n)
  | take _ _ _ => exact (Receives.mapInstance_of_ne _ hm).trans (.of_writes (.react _ m _))
  | tell told _ ih => exact ih.trans (.of_writes (.remarks _ told))

theorem Receives.of_closes (hbefore : w.agenda? n = none) (hm : m ≠ n) (h : Closes m w v) :
    Receives n w v := by
  cases h with
  | goes work isStarting => exact (Receives.refl n w).withTurn hbefore hm
  | parks _ _ => exact (Receives.mapInstance_of_ne _ hm).endTurn hbefore
  | strands => exact (Receives.mapInstance_of_ne _ hm).endTurn hbefore
  | finishes result => exact .finish hbefore hm result
  | leaves _ => exact (Receives.refl n w).endTurn hbefore

theorem receives_resume {t : Turn} (hcurrent : w.current = some t) (hn : t.number ≠ n) :
    Receives n w (w.resume t) := by
  obtain ⟨u, hworks, hcloses⟩ := resume_cases w t
  have hdone := Receives.of_works hn hworks
  exact hdone.trans (.of_closes (hdone.agenda.trans (agenda?_of_ne hcurrent hn)) hn hcloses)

theorem receives_beginTurn (hfree : w.current = none) (hm : m ≠ n) :
    Receives n w (w.beginTurn m) := by
  have hbefore : w.agenda? n = none := agenda?_of_none hfree
  rcases beginTurn_cases w m with ⟨hsame, -⟩ | ⟨i, told, -, -, hbegun⟩ |
    ⟨i, u, -, -, hworks, hcloses⟩
  · rw [hsame]
    exact .refl n w
  · rw [hbegun]
    have htold : Receives n w (w.remarks told) := .of_writes (.remarks w told)
    exact (htold.trans (.mapInstance_of_ne _ hm)).withTurn hbefore hm
  · have hcounted : Receives n w { w with turns := w.turns + 1 } :=
      .of_eq rfl rfl ⟨Nat.le_refl _, rfl⟩
    have hdone := hcounted.trans (.of_works hm hworks)
    exact hdone.trans (.of_closes (hdone.agenda.trans hbefore) hm hcloses)

/-! ## Steps -/

theorem taken_taking? {e : Event} {rest : List Event} (hi : w.instance? n = some i)
    (hinbox : i.inbox = e :: rest) :
    (w.taking? n).bind (Happening.takenBy? n) = some e := by
  simp [taking?, hi, hinbox, Happening.takenBy?]

theorem taking?_of_nil (hi : w.instance? n = some i) (hinbox : i.inbox = []) :
    w.taking? n = none := by
  simp [taking?, hi, hinbox]

/-- Whoever takes an event, takes it for itself. -/
theorem taken_taking?_of_ne (w : World) (hm : m ≠ n) :
    (w.taking? m).bind (Happening.takenBy? n) = none := by
  cases htaking : w.taking? m with
  | none => rfl
  | some h =>
      unfold taking? at htaking
      obtain ⟨i, -, htaking⟩ := Option.bind_eq_some_iff.1 htaking
      obtain ⟨e, -, rfl⟩ := Option.map_eq_some_iff.1 htaking
      exact if_neg hm

/-- What a step does with an instance. -/
def Reacts (n : Nat) (i : Instance) (label : Option Happening) (w v : World) : Prop :=
  w.Lasts v ∧ ∃ j, v.instance? n = some j ∧
    i.Reacts (w.stopReason? i).isSome (w.agenda? n) (label.bind (Happening.takenBy? n)) j
      (v.agenda? n)

theorem Reacts.of_receives (h : Receives n w v) (hi : w.instance? n = some i)
    (hnothing : label.bind (Happening.takenBy? n) = none) : Reacts n i label w v := by
  obtain ⟨j, hj, hij⟩ := h.kept i hi
  refine ⟨h.lasts, j, hj, ?_⟩
  rw [hnothing, h.agenda]
  exact .receive hij

/-- The next event of an instance is taken. -/
theorem goes_next {e : Event} {rest : List Event} (hi : w.instance? n = some i)
    (hinbox : i.inbox = e :: rest) : Goes n { i with inbox := rest } w (w.next n i) := by
  simp only [next, hinbox]
  exact goes_handle (instance?_mapInstance_self (fun i => { i with inbox := rest }) hi) e

/-- A command is executed. -/
theorem goes_resume {t : Turn} {c : Command} {rest : List Command} (hwork : t.work = c :: rest)
    (hi : w.instance? t.number = some i) :
    ∃ active, Goes t.number { i with active } w (w.resume t) := by
  obtain ⟨active, hadvance⟩ := exists_active_advance w t.number c rest
  have hself := instance?_mapInstance_self (fun i => { i with active := active i }) hi
  have hreceives := hadvance t.number
  refine ⟨active i, ?_⟩
  change Goes t.number _ (w.mapInstance t.number fun i => { i with active := active i }) _
  unfold resume
  simp only [hwork]
  generalize (instanceMachine t.number).advance w c rest = result at hreceives
  obtain ⟨u, outcome⟩ := result
  cases outcome with
  | ok work =>
      exact .on hreceives hself ⟨Nat.le_refl _, rfl⟩ rfl
        (agenda?_of_eq (t := { t with work }) rfl rfl)
  | error fault => exact .of_receives hreceives hself fun j hj => goes_fail hj fault

theorem reacts_resume {t : Turn} (hcurrent : w.current = some t)
    (hi : w.instance? t.number = some i) :
    Reacts t.number i w.happening? w (w.resume t) := by
  have hagenda := agenda?_of_eq hcurrent rfl
  cases hwork : t.work with
  | cons c rest =>
      have hnothing : w.happening?.bind (Happening.takenBy? t.number) = none := by
        simp only [happening?, hcurrent, hwork]
        rfl
      obtain ⟨active, hlasts, j, hj, hij⟩ := goes_resume hwork hi
      refine ⟨hlasts, j, hj, ?_⟩
      rw [hnothing, hagenda, hwork]
      exact .work hij
  | nil =>
      unfold resume
      simp only [hwork, hi]
      cases hstop : w.stopReason? i with
      | some outcome =>
          have hnothing : w.happening?.bind (Happening.takenBy? t.number) = none := by
            simp [happening?, hcurrent, hwork, hi, hstop]
          obtain ⟨hlasts, hover, j, hj, hreceives⟩ := exists_finish hi (.ok outcome)
          refine ⟨hlasts, j, hj, ?_⟩
          rw [hnothing, hagenda, hwork, hover, hstop]
          exact .stop rfl hreceives
      | none =>
          have htaking : w.happening? = w.taking? t.number := by
            simp [happening?, hcurrent, hwork, hi, hstop]
          cases hinbox : i.inbox with
          | nil =>
              simp only [next, hinbox]
              refine ⟨⟨Nat.le_refl _, rfl⟩, _,
                instance?_mapInstance_self (fun i => { i with isParked := true }) hi, ?_⟩
              rw [htaking, taking?_of_nil hi hinbox, hagenda, hwork, hstop,
                agenda?_of_none (w := { w.mapInstance t.number fun i =>
                  { i with isParked := true } with current := none }) rfl]
              exact .park rfl (.of_eq rfl ⟨rfl, rfl, rfl, rfl⟩ id)
          | cons e rest =>
              obtain ⟨hlasts, j, hj, hij⟩ := goes_next hi hinbox
              refine ⟨hlasts, j, hj, ?_⟩
              rw [htaking, taken_taking? hi hinbox, hagenda, hwork, hstop]
              exact .take hinbox (.inr ⟨rfl, rfl⟩) hij

theorem reacts_beginTurn {rest : List Task} (hfree : w.current = none)
    (hready : w.ready = .turn n :: rest) (hi : w.instance? n = some i) :
    Reacts n i w.happening? w (({ w with ready := rest } : World).beginTurn n) := by
  have hagenda : w.agenda? n = none := agenda?_of_none hfree
  have hpopped : ({ w with ready := rest } : World).instance? n = some i := hi
  have hlabel : w.happening? =
      if i.phase == .running && w.choices.prefersEvent w.turns then w.taking? n else none := by
    simp only [happening?, hfree, hready, hi, Option.any_some]
  -- a turn that comes too late is dropped
  have hdropped : i.phase ≠ .running →
      i.Reacts (w.stopReason? i).isSome (w.agenda? n) (w.happening?.bind (Happening.takenBy? n)) i
        (({ w with ready := rest } : World).agenda? n) := by
    intro hphase
    have hnothing : w.happening? = none := by simp [hlabel, hphase]
    rw [hnothing]
    exact .receive (.refl i)
  unfold beginTurn
  simp only [hpopped]
  cases hphase : i.phase with
  | created =>
      refine ⟨⟨Nat.le_refl _, rfl⟩, _, instance?_mapInstance_self (fun i =>
        { i with phase := .running, deadline := w.deadline.map fun d => w.clock + d }) hpopped, ?_⟩
      rw [hlabel, hphase, hagenda]
      simp only [agenda?, Option.bind_some, if_true]
      exact .begin hphase (.refl _)
  | running =>
      simp only
      split
      · rename_i hprefers
        simp only [Nat.add_sub_cancel, Bool.and_eq_true, Bool.not_eq_true'] at hprefers
        cases hinbox : i.inbox with
        | nil => simp [hinbox] at hprefers
        | cons e es =>
            have hthere : ({ w with ready := rest, turns := w.turns + 1 } : World).instance? n =
              some i := hi
            obtain ⟨hlasts, j, hj, hij⟩ := goes_next hthere hinbox
            refine ⟨hlasts, j, hj, ?_⟩
            rw [hlabel, hphase, hprefers.1, hagenda]
            simp only [beq_self_eq_true, Bool.and_self, if_true]
            rw [taken_taking? hi hinbox]
            exact .take hinbox (.inl ⟨rfl, hphase⟩) hij
      · rename_i hprefers
        have hnothing : w.happening?.bind (Happening.takenBy? n) = none := by
          cases hinbox : i.inbox with
          | nil =>
              rw [hlabel, taking?_of_nil hi hinbox]
              split <;> rfl
          | cons e es =>
              have hlast : w.choices.prefersEvent w.turns = false := by
                simpa [hinbox] using hprefers
              simp [hlabel, hlast]
        refine ⟨⟨Nat.le_refl _, rfl⟩, i, hi, ?_⟩
        rw [hnothing, hagenda]
        simp only [agenda?, Option.bind_some, if_true]
        exact .turn hphase (.refl i)
  | ended => exact ⟨⟨Nat.le_refl _, rfl⟩, i, hi, hdropped (by rw [hphase]; decide)⟩
  | stuck => exact ⟨⟨Nat.le_refl _, rfl⟩, i, hi, hdropped (by rw [hphase]; decide)⟩

theorem taken_of_current {t : Turn} (hcurrent : w.current = some t) (hn : t.number ≠ n) :
    w.happening?.bind (Happening.takenBy? n) = none := by
  simp only [happening?, hcurrent]
  split
  · rfl
  · split
    · exact taken_taking?_of_ne w hn
    · rfl

theorem taken_of_ready {task : Task} {rest : List Task} (hfree : w.current = none)
    (hready : w.ready = task :: rest) (hn : task ≠ .turn n) :
    w.happening?.bind (Happening.takenBy? n) = none := by
  simp only [happening?, hfree, hready]
  cases task with
  | turn m =>
      simp only
      split
      · exact taken_taking?_of_ne w fun hm => hn (hm ▸ rfl)
      · rfl
  | timer id =>
      simp only
      cases (w.timerById? id).filter (·.isAwake) <;> rfl
  | job id => rfl

/-- Nothing else can happen to an instance in a step. -/
theorem Step.reacts (hstep : Step w label v) (hi : w.instance? n = some i) :
    Reacts n i label w v := by
  cases hstep with
  | ask r => exact .of_receives (.serve w r) hi rfl
  | jump time => exact .of_receives (.jump w time) hi rfl
  | wait time => exact .of_receives (.wait w time) hi rfl
  | go hgo =>
      unfold step? at hgo
      split at hgo
      · rename_i t hcurrent
        cases hgo
        by_cases hn : t.number = n
        · subst hn
          exact reacts_resume hcurrent hi
        · exact .of_receives (receives_resume hcurrent hn) hi (taken_of_current hcurrent hn)
      · rename_i hfree
        split at hgo
        · rename_i task rest hready
          cases hgo
          have hpopped : Receives n w { w with ready := rest } :=
            .of_eq rfl rfl ⟨Nat.le_refl _, rfl⟩
          by_cases hn : task = .turn n
          · subst hn
            exact reacts_beginTurn hfree hready hi
          · refine .of_receives ?_ hi (taken_of_ready hfree hready hn)
            cases task with
            | turn m =>
                exact hpopped.trans (receives_beginTurn (w := { w with ready := rest }) hfree
                  fun hm => hn (hm ▸ rfl))
            | timer id => exact hpopped.trans (.of_passes (.runTimer { w with ready := rest } id))
            | job id => exact hpopped.trans (.runJob { w with ready := rest } id)
        · cases hgo

/-- An instance that was not there before a step waits for its first turn. -/
theorem Step.joined (hstep : Step w label v) (hnone : w.instance? n = none) {j : Instance}
    (hj : v.instance? n = some j) : j.phase = .created ∧ j.deadline = none := by
  by_cases hasked : ∃ r, label = some (.asked r)
  · obtain ⟨r, rfl⟩ := hasked
    rw [hstep.eq_serve] at hj
    exact (Receives.serve w r).joined hnone j hj
  · -- on its own an engine makes no instances
    have hkin := congrArg (·[n]?) (hstep.kin fun r hr => absurd ⟨r, hr⟩ hasked)
    simp [kin_getElem?, hj, hnone] at hkin

end World

end Statechart
