import Mathlib.Data.List.Nodup
import Statechart.Engine.Basic

/-!
# Who is waiting, and for what

An instance that waits must be woken as soon as there is a reason for it to stop. Whatever gives it
a reason wakes it in the same step, so that between two steps nobody waits who should not.

- `TurnState`                 : what decides whether an instance goes on
- `TurnQueue`                 : all instances, whose turn it is, and the clock
- `TurnQueue.isStopping`      : whether there is a reason to stop
- `TurnQueue.NoLostWakeup`    : nobody waits who has a reason to stop, but for some
- `NoLostWakeup.wakeAll`    : those are woken
- `NoLostWakeup.finish`, `NoLostWakeup.park`, `NoLostWakeup.retime` : the other changes
-/

namespace Statechart

/-- What decides whether an instance goes on. -/
structure TurnState where
  phase : Phase
  isParked : Bool
  isCancelled : Bool
  /-- Whether its state is terminal. -/
  isOver : Bool
  parent : Option Nat
  deadline : Option Nat

/-- All instances, whose turns are queued, and whose turn it is. -/
structure TurnQueue where
  states : List TurnState
  turns : List Nat
  current : Option Nat
  clock : Nat
  /-- How long an instance may run. -/
  limit : Option Nat

namespace TurnQueue

variable {s : TurnQueue} {limit : Option Nat} {pending : List Nat} {n m : Nat} {v : TurnState}

def hasEnded (s : TurnQueue) (n : Nat) : Bool := s.states[n]?.any (·.phase == .ended)

/-- Whether there is a reason to stop. -/
def isStopping (s : TurnQueue) (v : TurnState) : Bool :=
  v.isOver || v.isCancelled || v.parent.any s.hasEnded ||
    v.deadline.any fun d => decide (d ≤ s.clock)

def modify (s : TurnQueue) (n : Nat) (f : TurnState → TurnState) : TurnQueue :=
  { s with states := s.states.modify n f }

/-- An instance begins, and its time starts to run. -/
def begun (s : TurnQueue) (v : TurnState) : TurnState :=
  { v with phase := .running, deadline := s.limit.map fun d => s.clock + d }

def wake (s : TurnQueue) (n : Nat) : TurnQueue :=
  if s.states[n]?.any (·.isParked) then
    { s.modify n (fun v => { v with isParked := false }) with turns := s.turns ++ [n] }
  else s

def wakeAll (s : TurnQueue) (ns : List Nat) : TurnQueue := ns.foldl wake s

/-- Queued turns are those of instances that do not wait, each once. Who waits has begun, and has no
reason to stop unless it is pending; who has begun and does not wait has its turn, now or soon. -/
structure NoLostWakeup (limit : Option Nat) (pending : List Nat) (s : TurnQueue) : Prop where
  lasts : s.limit = limit
  nodup : s.turns.Nodup
  below : ∀ n ∈ s.turns, n < s.states.length
  turn : ∀ n, s.current = some n →
    n ∉ s.turns ∧ ∃ v, s.states[n]? = some v ∧ v.phase = .running ∧ v.isParked = false
  parked : ∀ n v, s.states[n]? = some v → v.isParked = true → v.phase = .running ∧ n ∉ s.turns
  awake : ∀ n v, s.states[n]? = some v → v.isParked = true → n ∉ pending → s.isStopping v = false
  running : ∀ n v, s.states[n]? = some v → v.phase = .running → v.isParked = false →
    n ∈ s.turns ∨ s.current = some n
  timed : ∀ (n : Nat) (v : TurnState), s.states[n]? = some v → v.phase = .running →
    v.deadline.isSome = limit.isSome

/-! ## Reading -/

theorem states_modify (s : TurnQueue) (n m : Nat) (f : TurnState → TurnState) :
    (s.modify n f).states[m]? = if n = m then s.states[m]?.map f else s.states[m]? := by
  simp only [modify, List.getElem?_modify]
  split <;> simp

theorem modify_cases {f : TurnState → TurnState} (h : (s.modify n f).states[m]? = some v) :
    (n = m ∧ ∃ u, s.states[m]? = some u ∧ v = f u) ∨ (n ≠ m ∧ s.states[m]? = some v) := by
  rw [states_modify] at h
  by_cases hm : n = m
  · rw [if_pos hm] at h
    obtain ⟨u, hu, rfl⟩ := Option.map_eq_some_iff.1 h
    exact .inl ⟨hm, u, hu, rfl⟩
  · rw [if_neg hm] at h
    exact .inr ⟨hm, h⟩

theorem length_modify (s : TurnQueue) (n : Nat) (f : TurnState → TurnState) :
    (s.modify n f).states.length = s.states.length :=
  List.length_modify ..

theorem hasEnded_modify {f : TurnState → TurnState} (s : TurnQueue) (n : Nat)
    (h : ∀ v, s.states[n]? = some v → ((f v).phase == .ended) = (v.phase == .ended)) :
    (s.modify n f).hasEnded = s.hasEnded := by
  funext m
  unfold hasEnded
  rw [states_modify]
  by_cases hm : n = m
  · subst hm
    rw [if_pos rfl]
    cases hv : s.states[n]? with
    | none => rfl
    | some v => exact h v hv
  · rw [if_neg hm]

/-- A new instance has not ended, no more than one that is not there. -/
theorem hasEnded_append {added : List TurnState} (s : TurnQueue)
    (hadded : ∀ v ∈ added, v.phase = .created) :
    hasEnded { s with states := s.states ++ added } = s.hasEnded := by
  funext m
  simp only [hasEnded, List.getElem?_append]
  split
  · rfl
  · rename_i hlt
    rw [List.getElem?_eq_none (Nat.le_of_not_lt hlt)]
    cases hv : added[m - s.states.length]? with
    | none => rfl
    | some v => simp [hadded v (List.mem_of_getElem? hv)]

/-- Reasons to stop are the same if the same instances have ended. -/
theorem isStopping_congr {s' : TurnQueue} (hended : s'.hasEnded = s.hasEnded)
    (hclock : s'.clock = s.clock) (v : TurnState) : s'.isStopping v = s.isStopping v := by
  rw [isStopping, hended, hclock, isStopping]

theorem isStopping_modify {f : TurnState → TurnState} (s : TurnQueue) (n : Nat)
    (h : ∀ v, s.states[n]? = some v → ((f v).phase == .ended) = (v.phase == .ended))
    (v : TurnState) :
    (s.modify n f).isStopping v = s.isStopping v :=
  isStopping_congr (hasEnded_modify s n h) rfl v

theorem deadline_of_isStopping (h : s.isStopping v = false) {d : Nat} (hd : v.deadline = some d) :
    s.clock < d := by
  simp only [isStopping, hd, Bool.or_eq_false_iff, Option.any_some, decide_eq_false_iff_not] at h
  exact Nat.lt_of_not_le h.2

/-! ## Waking -/

theorem wakeAll_append (s : TurnQueue) (ns ms : List Nat) :
    s.wakeAll (ns ++ ms) = (s.wakeAll ns).wakeAll ms :=
  List.foldl_append

theorem wakeAll_withCurrent (s : TurnQueue) (current : Option Nat) (ns : List Nat) :
    wakeAll { s with current } ns = { s.wakeAll ns with current } := by
  induction ns generalizing s with
  | nil => rfl
  | cons n rest ih =>
      have hfirst : wake { s with current } n = { s.wake n with current } := by
        unfold wake
        split
        · rfl
        · rfl
      have hrest := ih (s.wake n)
      rw [← hfirst] at hrest
      exact hrest

namespace NoLostWakeup

/-- More instances are pending. -/
theorem weaken {others : List Nat} (h : s.NoLostWakeup limit pending)
    (hsubset : ∀ n ∈ pending, n ∈ others) : s.NoLostWakeup limit others :=
  { h with
    awake := fun n v hv hparked hfree => h.awake n v hv hparked fun hn => hfree (hsubset n hn) }

/-- An instance that was woken is pending no more. -/
theorem wake (h : s.NoLostWakeup limit (n :: pending)) : (s.wake n).NoLostWakeup limit pending := by
  unfold TurnQueue.wake
  split
  · rename_i hwaits
    obtain ⟨u, hu, hparked⟩ := (Option.any_eq_true _ _).1 hwaits
    obtain ⟨hphase, hnew⟩ := h.parked n u hu hparked
    have hstopping : ∀ v, isStopping { s.modify n (fun v => { v with isParked := false }) with
        turns := s.turns ++ [n] } v = s.isStopping v :=
      isStopping_congr (hasEnded_modify s n fun _ _ => rfl) rfl
    -- whose turn it is does not wait, so that it is another one
    have hother : s.current ≠ some n := by
      intro hcurrent
      obtain ⟨-, v, hv, -, hbusy⟩ := h.turn n hcurrent
      obtain rfl := Option.some.inj (hu.symm.trans hv)
      cases hparked.symm.trans hbusy
    refine { h with
      nodup := ?nodup, below := ?below, turn := ?turn, parked := ?parked, awake := ?awake
      running := ?running, timed := ?timed }
    case nodup =>
      -- who waits has no turn queued yet
      exact h.nodup.append (List.nodup_singleton n) (List.disjoint_singleton.2 hnew)
    case below =>
      intro m hm
      rw [length_modify]
      rcases List.mem_append.1 hm with hold | hlast
      · exact h.below m hold
      · rw [List.mem_singleton.1 hlast]
        exact (List.getElem?_eq_some_iff.1 hu).1
    case turn =>
      intro m hcurrent
      obtain ⟨hqueued, v, hv, hrunning, hbusy⟩ := h.turn m hcurrent
      have hm : n ≠ m := fun hm => hother (hm ▸ hcurrent)
      refine ⟨?_, v, ?_, hrunning, hbusy⟩
      · intro hin
        rcases List.mem_append.1 hin with hold | hlast
        · exact hqueued hold
        · exact hm (List.mem_singleton.1 hlast).symm
      · exact (states_modify s n m _).trans ((if_neg hm).trans hv)
    case parked =>
      intro m v hv hwaiting
      rcases modify_cases hv with ⟨-, u', -, rfl⟩ | ⟨hm, hv⟩
      · cases hwaiting
      · obtain ⟨hrunning, hqueued⟩ := h.parked m v hv hwaiting
        refine ⟨hrunning, fun hin => ?_⟩
        rcases List.mem_append.1 hin with hold | hlast
        · exact hqueued hold
        · exact hm (List.mem_singleton.1 hlast).symm
    case awake =>
      intro m v hv hwaiting hfree
      rcases modify_cases hv with ⟨-, u', -, rfl⟩ | ⟨hm, hv⟩
      · cases hwaiting
      · rw [hstopping]
        exact h.awake m v hv hwaiting fun hin =>
          (List.mem_cons.1 hin).elim (fun heq => hm heq.symm) hfree
    case running =>
      intro m v hv hrunning hbusy
      rcases modify_cases hv with ⟨rfl, -⟩ | ⟨hm, hv⟩
      · exact .inl (List.mem_append_right _ (List.mem_singleton_self n))
      · exact (h.running m v hv hrunning hbusy).imp_left (List.mem_append_left _)
    case timed =>
      intro m v hv hrunning
      rcases modify_cases hv with ⟨-, u', hu', rfl⟩ | ⟨-, hv⟩
      · exact h.timed m u' hu' hrunning
      · exact h.timed m v hv hrunning
  · -- who does not wait has nothing to be woken from
    rename_i hbusy
    refine { h with awake := fun m v hv hwaiting hfree => h.awake m v hv hwaiting ?_ }
    intro hin
    rcases List.mem_cons.1 hin with rfl | hin
    · exact hbusy ((Option.any_eq_true _ _).2 ⟨v, hv, hwaiting⟩)
    · exact hfree hin

/-- When all pending instances were woken, none is. -/
theorem wakeAll {ns : List Nat} (h : s.NoLostWakeup limit ns) :
    (s.wakeAll ns).NoLostWakeup limit [] := by
  induction ns generalizing s with
  | nil => exact h
  | cons n rest ih => exact ih (s := s.wake n) h.wake

/-- Nobody is harmed by being woken. -/
theorem wakeMore (h : s.NoLostWakeup limit []) (ns : List Nat) :
    (s.wakeAll ns).NoLostWakeup limit [] :=
  wakeAll (h.weaken fun _ hn => absurd hn List.not_mem_nil)

/-! ## Other changes -/

/-- The clock moves; those whose deadline passes are pending. -/
theorem retime {clock : Nat} {ns : List Nat} (h : s.NoLostWakeup limit [])
    (hdue : ∀ n v d, s.states[n]? = some v → v.isParked = true → v.deadline = some d →
      n ∉ ns → clock < d) : NoLostWakeup limit ns { s with clock } := by
  refine { h with awake := fun n v hv hparked hfree => ?_ }
  -- of the four reasons only the deadline has to do with the clock
  have hbefore := h.awake n v hv hparked List.not_mem_nil
  simp only [isStopping, Bool.or_eq_false_iff] at hbefore ⊢
  refine ⟨hbefore.1, ?_⟩
  cases hdeadline : v.deadline with
  | none => rfl
  | some d =>
      have hlater := hdue n v d hv hparked hdeadline hfree
      simpa using hlater

/-- An instance is asked to stop. -/
theorem cancel (h : s.NoLostWakeup limit []) (n : Nat) :
    (s.modify n fun v => { v with isCancelled := true }).NoLostWakeup limit [n] := by
  have hstopping : ∀ v, (s.modify n fun v => { v with isCancelled := true }).isStopping v =
      s.isStopping v := isStopping_modify s n fun _ _ => rfl
  refine { h with
    below := ?below, turn := ?turn, parked := ?parked, awake := ?awake, running := ?running
    timed := ?timed }
  case below =>
    rw [length_modify]
    exact h.below
  case turn =>
    intro m hcurrent
    obtain ⟨hqueued, v, hv, hrunning, hbusy⟩ := h.turn m hcurrent
    refine ⟨hqueued, ?_⟩
    rw [states_modify, hv]
    split
    · exact ⟨_, rfl, hrunning, hbusy⟩
    · exact ⟨v, rfl, hrunning, hbusy⟩
  case parked =>
    intro m v hv hwaiting
    rcases modify_cases hv with ⟨-, u, hu, rfl⟩ | ⟨-, hv⟩
    · exact h.parked m u hu hwaiting
    · exact h.parked m v hv hwaiting
  case awake =>
    intro m v hv hwaiting hfree
    rcases modify_cases hv with ⟨rfl, -⟩ | ⟨-, hv⟩
    · exact absurd (List.mem_singleton_self n) hfree
    · rw [hstopping]
      exact h.awake m v hv hwaiting List.not_mem_nil
  case running =>
    intro m v hv hrunning hbusy
    rcases modify_cases hv with ⟨-, u, hu, rfl⟩ | ⟨-, hv⟩
    · exact h.running m u hu hrunning hbusy
    · exact h.running m v hv hrunning hbusy
  case timed =>
    intro m v hv hrunning
    rcases modify_cases hv with ⟨-, u, hu, rfl⟩ | ⟨-, hv⟩
    · exact h.timed m u hu hrunning
    · exact h.timed m v hv hrunning

/-- Something happens to an instance in its turn, and the turn goes on or is over. Who waits for
other reasons than before is pending. -/
theorem inTurn {f : TurnState → TurnState} {current : Option Nat} {ns : List Nat}
    (h : s.NoLostWakeup limit []) (hcurrent : s.current = some n)
    (hturn : current = some n ∨ current = none)
    (hself : ∀ u, s.states[n]? = some u → u.phase = .running → u.isParked = false →
      (f u).deadline = u.deadline ∧
      (current = some n → (f u).phase = .running ∧ (f u).isParked = false) ∧
      ((f u).phase = .running → (f u).isParked = false → current = some n) ∧
      ((f u).isParked = true → (f u).phase = .running ∧ (s.modify n f).isStopping (f u) = false))
    (hothers : ∀ m v, n ≠ m → s.states[m]? = some v → v.isParked = true → m ∉ ns →
      (s.modify n f).isStopping v = false) :
    NoLostWakeup limit ns { s.modify n f with current } := by
  obtain ⟨hqueued, u, hu, hphase, hbusy⟩ := h.turn n hcurrent
  obtain ⟨hdeadline, hstays, hgoes, hwaits⟩ := hself u hu hphase hbusy
  -- the instance is known, and all others are what they were
  have hcases : ∀ m v, (s.modify n f).states[m]? = some v →
      (n = m ∧ v = f u) ∨ (n ≠ m ∧ s.states[m]? = some v) := by
    intro m v hv
    refine (modify_cases hv).imp_left ?_
    rintro ⟨rfl, u', hu', rfl⟩
    rw [Option.some.inj (hu'.symm.trans hu)]
    exact ⟨rfl, rfl⟩
  refine { h with
    below := ?below, turn := ?turn, parked := ?parked, awake := ?awake, running := ?running
    timed := ?timed }
  case below =>
    intro m hm
    rw [length_modify]
    exact h.below m hm
  case turn =>
    intro m hm
    rcases hturn with heq | hnone
    · obtain rfl := Option.some.inj (heq.symm.trans hm)
      exact ⟨hqueued, f u, by rw [states_modify, if_pos rfl, hu]; rfl, hstays heq⟩
    · cases hnone.symm.trans hm
  case parked =>
    intro m v hv hparked
    rcases hcases m v hv with ⟨rfl, rfl⟩ | ⟨-, hv⟩
    · exact ⟨(hwaits hparked).1, hqueued⟩
    · exact h.parked m v hv hparked
  case awake =>
    intro m v hv hparked hfree
    rcases hcases m v hv with ⟨rfl, rfl⟩ | ⟨hm, hv⟩
    · exact (hwaits hparked).2
    · exact hothers m v hm hv hparked hfree
  case running =>
    intro m v hv hrunning hfree
    rcases hcases m v hv with ⟨rfl, rfl⟩ | ⟨hm, hv⟩
    · exact .inr (hgoes hrunning hfree)
    · refine (h.running m v hv hrunning hfree).imp_right fun heq => ?_
      exact absurd (Option.some.inj (hcurrent.symm.trans heq)) hm
  case timed =>
    intro m v hv hrunning
    rcases hcases m v hv with ⟨rfl, rfl⟩ | ⟨-, hv⟩
    · rw [hdeadline]
      exact h.timed n u hu hphase
    · exact h.timed m v hv hrunning

/-- A state becomes the active one. -/
theorem enter (h : s.NoLostWakeup limit []) (hcurrent : s.current = some n) (isOver : Bool) :
    (s.modify n fun v => { v with isOver }).NoLostWakeup limit [] := by
  have hstopping : ∀ v, (s.modify n fun v => { v with isOver }).isStopping v = s.isStopping v :=
    isStopping_modify s n fun _ _ => rfl
  have hentered : NoLostWakeup limit []
      { s.modify n (fun v => { v with isOver }) with current := s.current } := by
    refine h.inTurn hcurrent (.inl hcurrent) ?_ ?_
    · intro u hu hphase hbusy
      exact ⟨rfl, fun _ => ⟨hphase, hbusy⟩, fun _ _ => hcurrent, fun hparked => by
        cases hbusy.symm.trans hparked⟩
    · intro m v _ hv hparked _
      rw [hstopping]
      exact h.awake m v hv hparked List.not_mem_nil
  exact hentered

/-- The turn is over, and the instance waits. -/
theorem park (h : s.NoLostWakeup limit []) (hcurrent : s.current = some n)
    (hgoes : ∀ u, s.states[n]? = some u → s.isStopping u = false) :
    NoLostWakeup limit [] { s.modify n (fun v => { v with isParked := true }) with
      current := none } := by
  have hstopping : ∀ v, (s.modify n fun v => { v with isParked := true }).isStopping v =
      s.isStopping v := isStopping_modify s n fun _ _ => rfl
  refine h.inTurn hcurrent (.inr rfl) ?_ ?_
  · intro u hu hphase _
    refine ⟨rfl, (fun hturn => by cases hturn), (fun _ hbusy => by cases hbusy), fun _ => ?_⟩
    rw [hstopping]
    exact ⟨hphase, hgoes u hu⟩
  · intro m v _ hv hparked _
    rw [hstopping]
    exact h.awake m v hv hparked List.not_mem_nil

/-- The instance can go no further. -/
theorem strand (h : s.NoLostWakeup limit []) (hcurrent : s.current = some n) :
    NoLostWakeup limit [] { s.modify n (fun v => { v with phase := .stuck, isParked := false }) with
      current := none } := by
  obtain ⟨-, u, hu, hphase, -⟩ := h.turn n hcurrent
  have hstopping : ∀ v, (s.modify n fun v =>
      { v with phase := .stuck, isParked := false }).isStopping v = s.isStopping v := by
    refine isStopping_modify s n fun v hv => ?_
    rw [Option.some.inj (hv.symm.trans hu), hphase]
    rfl
  refine h.inTurn hcurrent (.inr rfl) ?_ ?_
  · intro u _ _ _
    exact ⟨rfl, (fun hturn => by cases hturn), (fun hstuck => by cases hstuck),
      fun hparked => by cases hparked⟩
  · intro m v _ hv hparked _
    rw [hstopping]
    exact h.awake m v hv hparked List.not_mem_nil

/-- The instance ends, and those nested in it are pending. -/
theorem finish {ns : List Nat} (h : s.NoLostWakeup limit []) (hcurrent : s.current = some n)
    (hchildren : ∀ m v, s.states[m]? = some v → v.parent = some n → m ∈ ns) :
    NoLostWakeup limit ns { s.modify n (fun v => { v with phase := .ended, isParked := false }) with
      current := none } := by
  refine h.inTurn hcurrent (.inr rfl) ?_ ?_
  · intro u _ _ _
    exact ⟨rfl, (fun hturn => by cases hturn), (fun hended => by cases hended),
      fun hparked => by cases hparked⟩
  · intro m v _ hv hparked hfree
    have hbefore := h.awake m v hv hparked List.not_mem_nil
    -- nobody else's parent is one that has ended just now
    have hparent : v.parent.any (s.modify n fun v =>
        { v with phase := .ended, isParked := false }).hasEnded = v.parent.any s.hasEnded := by
      cases hp : v.parent with
      | none => rfl
      | some p =>
          have hne : n ≠ p := fun heq => hfree (hchildren m v hv (heq ▸ hp))
          simp only [Option.any_some, hasEnded, states_modify, if_neg hne]
    rw [isStopping, hparent]
    exact hbefore

/-! ## Turns that begin -/

/-- Nobody has two turns queued. -/
theorem rest {ns : List Nat} (h : s.NoLostWakeup limit pending) (hturns : s.turns = n :: ns) :
    n ∉ ns ∧ ns.Nodup ∧ ∀ m ∈ ns, m ∈ s.turns := by
  have hnodup := h.nodup
  rw [hturns, List.nodup_cons] at hnodup
  exact ⟨hnodup.1, hnodup.2, fun m hm => hturns ▸ List.mem_cons_of_mem n hm⟩

/-- Whose turn is queued does not wait. -/
theorem isParked_of_turn {ns : List Nat} (h : s.NoLostWakeup limit pending)
    (hturns : s.turns = n :: ns) (hv : s.states[n]? = some v) : v.isParked = false := by
  cases hparked : v.isParked with
  | false => rfl
  | true => exact absurd (hturns ▸ List.mem_cons_self) (h.parked n v hv hparked).2

/-- The turn of an instance begins. -/
theorem take {ns : List Nat} (h : s.NoLostWakeup limit []) (hfree : s.current = none)
    (hturns : s.turns = n :: ns) (hv : s.states[n]? = some v) (hphase : v.phase = .running) :
    NoLostWakeup limit [] { s with turns := ns, current := some n } := by
  obtain ⟨hlast, hnodup, hsub⟩ := h.rest hturns
  have hbusy := h.isParked_of_turn hturns hv
  refine ⟨h.lasts, hnodup, fun m hm => h.below m (hsub m hm), ?_, ?_, h.awake, ?_, h.timed⟩
  · intro m hm
    obtain rfl := Option.some.inj hm
    exact ⟨hlast, v, hv, hphase, hbusy⟩
  · intro m u hu hparked
    obtain ⟨hrunning, hqueued⟩ := h.parked m u hu hparked
    exact ⟨hrunning, fun hm => hqueued (hsub m hm)⟩
  · -- whose turn was first in the queue has it now
    intro m u hu hrunning hwaits
    rcases h.running m u hu hrunning hwaits with hqueued | hcurrent
    · rw [hturns] at hqueued
      rcases List.mem_cons.1 hqueued with rfl | hlater
      · exact .inr rfl
      · exact .inl hlater
    · cases hfree.symm.trans hcurrent

/-- An instance whose first turn is queued begins. -/
theorem start (h : s.NoLostWakeup limit []) (hqueued : n ∈ s.turns) (hv : s.states[n]? = some v)
    (hphase : v.phase = .created) (hbusy : v.isParked = false) :
    (s.modify n s.begun).NoLostWakeup limit [] := by
  have hstopping : ∀ u, (s.modify n s.begun).isStopping u = s.isStopping u := by
    refine isStopping_modify s n fun u hu => ?_
    rw [Option.some.inj (hu.symm.trans hv), hphase]
    rfl
  -- whoever waits is another one
  have hother : ∀ (m : Nat) (u : TurnState), (s.modify n s.begun).states[m]? = some u →
      u.isParked = true → s.states[m]? = some u := by
    intro m u hu hparked
    rcases modify_cases hu with ⟨rfl, u', hu', rfl⟩ | ⟨-, hu⟩
    · rw [Option.some.inj (hu'.symm.trans hv)] at hparked
      cases hbusy.symm.trans hparked
    · exact hu
  refine { h with
    below := ?below, turn := ?turn, parked := ?parked, awake := ?awake, running := ?running
    timed := ?timed }
  case below =>
    rw [length_modify]
    exact h.below
  case turn =>
    intro m hcurrent
    obtain ⟨hwaits, u, hu, hrest⟩ := h.turn m hcurrent
    have hm : n ≠ m := fun hm => hwaits (hm ▸ hqueued)
    exact ⟨hwaits, u, by rw [states_modify, if_neg hm, hu], hrest⟩
  case parked =>
    intro m u hu hparked
    exact h.parked m u (hother m u hu hparked) hparked
  case awake =>
    intro m u hu hparked hpending
    rw [hstopping]
    exact h.awake m u (hother m u hu hparked) hparked hpending
  case running =>
    intro m u hu hrunning hwaits
    rcases modify_cases hu with ⟨rfl, -⟩ | ⟨-, hu⟩
    · exact .inl hqueued
    · exact h.running m u hu hrunning hwaits
  case timed =>
    intro m u hu hrunning
    rcases modify_cases hu with ⟨-, u', -, rfl⟩ | ⟨-, hu⟩
    · rw [← h.lasts, begun, Option.isSome_map]
    · exact h.timed m u hu hrunning

/-- The first turn of an instance begins. -/
theorem begin {ns : List Nat} (h : s.NoLostWakeup limit []) (hfree : s.current = none)
    (hturns : s.turns = n :: ns) (hv : s.states[n]? = some v) (hphase : v.phase = .created) :
    NoLostWakeup limit [] { s.modify n s.begun with turns := ns, current := some n } := by
  have hqueued : n ∈ s.turns := hturns ▸ List.mem_cons_self
  have hstarted := h.start hqueued hv hphase (h.isParked_of_turn hturns hv)
  have hbegun : (s.modify n s.begun).states[n]? = some (s.begun v) := by
    rw [states_modify, if_pos rfl, hv, Option.map_some]
  exact hstarted.take hfree hturns hbegun rfl

/-- There is no turn for an instance that has ended, or is not there. -/
theorem skip {ns : List Nat} (h : s.NoLostWakeup limit []) (hturns : s.turns = n :: ns)
    (hover : ∀ v, s.states[n]? = some v → v.phase ≠ .running) :
    NoLostWakeup limit [] { s with turns := ns } := by
  obtain ⟨hlast, hnodup, hsub⟩ := h.rest hturns
  refine { h with
    nodup := hnodup, below := fun m hm => h.below m (hsub m hm), turn := ?turn, parked := ?parked
    running := ?running }
  case turn =>
    intro m hm
    obtain ⟨hqueued, hrest⟩ := h.turn m hm
    exact ⟨fun hin => hqueued (hsub m hin), hrest⟩
  case parked =>
    intro m u hu hparked
    obtain ⟨hrunning, hqueued⟩ := h.parked m u hu hparked
    exact ⟨hrunning, fun hm => hqueued (hsub m hm)⟩
  case running =>
    intro m u hu hrunning hwaits
    refine (h.running m u hu hrunning hwaits).imp_left fun hqueued => ?_
    rw [hturns] at hqueued
    rcases List.mem_cons.1 hqueued with rfl | hlater
    · exact absurd hrunning (hover u hu)
    · exact hlater

/-! ## New instances -/

/-- Instances are added, and their first turns are queued. -/
theorem found {added : List TurnState} (h : s.NoLostWakeup limit [])
    (hadded : ∀ v ∈ added, v.phase = .created ∧ v.isParked = false) :
    NoLostWakeup limit [] { s with
      states := s.states ++ added
      turns := s.turns ++ List.range' s.states.length added.length } := by
  have hcases : ∀ (m : Nat) (v : TurnState), (s.states ++ added)[m]? = some v →
      s.states[m]? = some v ∨ (v.phase = .created ∧ v.isParked = false) := by
    intro m v hv
    rw [List.getElem?_append] at hv
    split at hv
    · exact .inl hv
    · exact .inr (hadded v (List.mem_of_getElem? hv))
  -- new numbers are above all old ones
  have hnew : ∀ m ∈ List.range' s.states.length added.length, s.states.length ≤ m ∧
      m < s.states.length + added.length := fun m hm => by
    have hbounds := List.mem_range'_1.1 hm
    exact ⟨hbounds.1, hbounds.2⟩
  have hold : ∀ m v, s.states[m]? = some v →
      m ∉ List.range' s.states.length added.length := by
    intro m v hv hm
    exact absurd (List.getElem?_eq_some_iff.1 hv).1 (Nat.not_lt.2 (hnew m hm).1)
  refine { h with
    nodup := ?nodup, below := ?below, turn := ?turn, parked := ?parked, awake := ?awake
    running := ?running, timed := ?timed }
  case nodup =>
    refine h.nodup.append List.nodup_range' fun m hm hm' => ?_
    exact absurd (h.below m hm) (Nat.not_lt.2 (hnew m hm').1)
  case below =>
    intro m hm
    rw [List.length_append]
    rcases List.mem_append.1 hm with hqueued | hm
    · exact Nat.lt_of_lt_of_le (h.below m hqueued) (Nat.le_add_right _ _)
    · exact (hnew m hm).2
  case turn =>
    intro m hm
    obtain ⟨hqueued, v, hv, hrest⟩ := h.turn m hm
    refine ⟨fun hin => ?_, v, ?_, hrest⟩
    · exact (List.mem_append.1 hin).elim hqueued (hold m v hv)
    · exact (List.getElem?_append_left (List.getElem?_eq_some_iff.1 hv).1).trans hv
  case parked =>
    intro m v hv hparked
    rcases hcases m v hv with hv | ⟨-, hbusy⟩
    · obtain ⟨hrunning, hqueued⟩ := h.parked m v hv hparked
      exact ⟨hrunning, fun hin => (List.mem_append.1 hin).elim hqueued (hold m v hv)⟩
    · cases hbusy.symm.trans hparked
  case awake =>
    intro m v hv hparked hpending
    rcases hcases m v hv with hv | ⟨-, hbusy⟩
    · have hended := hasEnded_append s fun u hu => (hadded u hu).1
      exact (isStopping_congr hended rfl v).trans (h.awake m v hv hparked hpending)
    · cases hbusy.symm.trans hparked
  case running =>
    intro m v hv hrunning hwaits
    rcases hcases m v hv with hv | ⟨hphase, -⟩
    · exact (h.running m v hv hrunning hwaits).imp_left (List.mem_append_left _)
    · cases hphase.symm.trans hrunning
  case timed =>
    intro m v hv hrunning
    rcases hcases m v hv with hv | ⟨hphase, -⟩
    · exact h.timed m v hv hrunning
    · cases hphase.symm.trans hrunning

end NoLostWakeup

end TurnQueue

end Statechart
