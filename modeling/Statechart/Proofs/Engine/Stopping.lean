import Statechart.Proofs.Engine.Reaction

/-!
# Requests to stop

An instance looks for a reason to stop before every event but one: when it has waited, an event may
win over a request to stop that is there at the same time. After this event it looks again, so that
it takes one event at most once it was told to stop, whatever wins and however many events wait.

- `Instance.allowance`          : how many events may be taken before the next look
- `Reacts.inbox`, `Reacts.kept` : what a step keeps of an instance
- `Reacts.allowance_le`         : with a reason to stop, every event uses up the allowance
- `World.isToldToStop`          : whether an instance was told to stop
- `World.taken`                 : the events that an instance takes in a run
- `World.reaction_of_run`       : what an instance takes after it was told to stop
-/

namespace Statechart

/-! ## What a step keeps -/

namespace Instance

variable {stops : Bool} {i j : Instance} {turn turn' : Option (List Command)} {taken : Option Event}

/-- Who has ended has no turn, and whose first turn is still to come has no deadline yet. -/
structure IsPhased (i : Instance) (turn : Option (List Command)) : Prop where
  ended : i.phase = .ended → turn = none
  created : i.phase = .created → i.deadline = none

/-- How many events may be taken before the next look for a reason to stop. -/
def allowance (i : Instance) (turn : Option (List Command)) : Nat :=
  if turn = none ∧ i.phase = .running then 1 else 0

theorem allowance_of_some (i : Instance) (work : List Command) : i.allowance (some work) = 0 := by
  simp [allowance]

namespace Goes

theorem inbox (h : i.Goes j turn) : ∃ es, j.inbox = i.inbox ++ es := by
  cases h with
  | on hreceives =>
      obtain ⟨es, hes, -⟩ := hreceives.inbox
      exact ⟨es, hes⟩
  | gone _ hbefore hafter =>
      obtain ⟨es, hes, -⟩ := hbefore.inbox
      obtain ⟨fs, hfs, -⟩ := hafter.inbox
      exact ⟨es ++ fs, by rw [hfs, hes, List.append_assoc]⟩

theorem kept (h : i.Goes j turn) : j.placement = i.placement ∧ j.deadline = i.deadline ∧
    (i.isCancelled = true → j.isCancelled = true) := by
  cases h with
  | on hreceives => exact ⟨hreceives.placement, hreceives.deadline, hreceives.isCancelled⟩
  | gone _ hbefore hafter =>
      exact ⟨hafter.placement.trans hbefore.placement, hafter.deadline.trans hbefore.deadline,
        fun hcancelled => hafter.isCancelled (hbefore.isCancelled hcancelled)⟩

theorem isPhased (h : i.Goes j turn) (hi : i.phase ≠ .ended)
    (hcreated : i.phase = .created → i.deadline = none) : j.IsPhased turn := by
  cases h with
  | on hreceives =>
      refine ⟨fun hended => absurd (hreceives.phase.symm.trans hended) hi, fun hfirst => ?_⟩
      exact hreceives.deadline.trans (hcreated (hreceives.phase.symm.trans hfirst))
  | gone hphase _ hafter =>
      refine ⟨fun _ => rfl, fun hfirst => ?_⟩
      rcases hphase with rfl | rfl <;> cases hafter.phase.symm.trans hfirst

theorem allowance_eq (h : i.Goes j turn) : j.allowance turn = 0 := by
  cases h with
  | on hreceives => exact allowance_of_some j _
  | gone hphase _ hafter =>
      have hover : j.phase ≠ .running := by
        rcases hphase with rfl | rfl <;> rw [hafter.phase] <;> simp
      simp [allowance, hover]

end Goes

namespace Reacts

/-- An event that is taken is taken from the front of the inbox, and others come in at the end. -/
theorem inbox (h : i.Reacts stops turn taken j turn') :
    ∃ es, taken.toList ++ j.inbox = i.inbox ++ es := by
  have hreceived : ∀ {k : Instance}, k.Receives j → k.inbox = i.inbox →
      ∃ es, none.toList ++ j.inbox = i.inbox ++ es := by
    intro k hreceives hk
    obtain ⟨es, hes, -⟩ := hreceives.inbox
    exact ⟨es, by rw [Option.toList_none, List.nil_append, hes, hk]⟩
  cases h with
  | receive hreceives => exact hreceived hreceives rfl
  | begin _ hreceives => exact hreceived hreceives rfl
  | turn _ hreceives => exact hreceived hreceives rfl
  | work hgoes =>
      obtain ⟨es, hes⟩ := hgoes.inbox
      exact ⟨es, by rw [Option.toList_none, List.nil_append, hes]⟩
  | stop _ hreceives => exact hreceived hreceives rfl
  | park _ hreceives => exact hreceived hreceives rfl
  | take hinbox _ hgoes =>
      obtain ⟨es, hes⟩ := hgoes.inbox
      exact ⟨es, by rw [Option.toList_some, List.singleton_append, hes, hinbox, List.cons_append]⟩

/-- A request to stop is not taken back, the time that is left is fixed at the first turn, and the
variables stay where they are. -/
theorem kept (h : i.Reacts stops turn taken j turn') : j.placement = i.placement ∧
    (i.phase ≠ .created → j.deadline = i.deadline) ∧
    (i.isCancelled = true → j.isCancelled = true) := by
  cases h with
  | receive hreceives =>
      exact ⟨hreceives.placement, fun _ => hreceives.deadline, hreceives.isCancelled⟩
  | begin hphase hreceives =>
      exact ⟨hreceives.placement, fun hbegun => absurd hphase hbegun, hreceives.isCancelled⟩
  | turn _ hreceives =>
      exact ⟨hreceives.placement, fun _ => hreceives.deadline, hreceives.isCancelled⟩
  | work hgoes => exact ⟨hgoes.kept.1, fun _ => hgoes.kept.2.1, hgoes.kept.2.2⟩
  | stop _ hreceives =>
      exact ⟨hreceives.placement, fun _ => hreceives.deadline, hreceives.isCancelled⟩
  | park _ hreceives =>
      exact ⟨hreceives.placement, fun _ => hreceives.deadline, hreceives.isCancelled⟩
  | take _ _ hgoes => exact ⟨hgoes.kept.1, fun _ => hgoes.kept.2.1, hgoes.kept.2.2⟩

theorem isPhased (h : i.Reacts stops turn taken j turn') (hi : i.IsPhased turn) :
    j.IsPhased turn' := by
  -- whose turn it is has not ended
  have hlive : ∀ work, turn = some work → i.phase ≠ .ended := by
    rintro work rfl hended
    cases hi.ended hended
  cases h with
  | receive hreceives =>
      exact ⟨fun hended => hi.ended (hreceives.phase.symm.trans hended), fun hfirst =>
        hreceives.deadline.trans (hi.created (hreceives.phase.symm.trans hfirst))⟩
  | begin _ hreceives =>
      have hrunning : j.phase = .running := hreceives.phase
      exact ⟨fun hended => (by cases hrunning.symm.trans hended), fun hfirst => (by
        cases hrunning.symm.trans hfirst)⟩
  | turn hphase hreceives =>
      have hrunning := hreceives.phase.trans hphase
      exact ⟨fun hended => (by cases hrunning.symm.trans hended), fun hfirst => (by
        cases hrunning.symm.trans hfirst)⟩
  | work hgoes => exact hgoes.isPhased (hlive _ rfl) hi.created
  | stop _ hreceives =>
      exact ⟨fun _ => rfl, fun hfirst => by cases hreceives.phase.symm.trans hfirst⟩
  | park _ hreceives =>
      exact ⟨fun _ => rfl, fun hfirst =>
        hreceives.deadline.trans (hi.created (hreceives.phase.symm.trans hfirst))⟩
  | take _ hwhen hgoes =>
      refine hgoes.isPhased (fun hended => ?_) hi.created
      rcases hwhen with ⟨-, hrunning⟩ | ⟨hturn, -⟩
      · cases hrunning.symm.trans hended
      · exact hlive _ hturn hended

/-- Who has ended takes no event, and none comes in. -/
theorem of_ended (h : i.Reacts stops turn taken j turn') (hi : i.IsPhased turn)
    (hended : i.phase = .ended) : taken = none ∧ j.phase = .ended ∧ j.inbox = i.inbox := by
  have hturn := hi.ended hended
  cases h with
  | receive hreceives =>
      obtain ⟨es, hes, hnone⟩ := hreceives.inbox
      have hclosed : i.isOpen = false := by
        rw [isOpen, hended]
        rfl
      refine ⟨rfl, hreceives.phase.trans hended, ?_⟩
      rw [hes, hnone hclosed, List.append_nil]
  | begin hphase _ => cases hphase.symm.trans hended
  | turn hphase _ => cases hphase.symm.trans hended
  | work _ => cases hturn
  | stop _ _ => cases hturn
  | park _ _ => cases hturn
  | take _ hwhen _ =>
      rcases hwhen with ⟨-, hrunning⟩ | ⟨htop, -⟩
      · cases hrunning.symm.trans hended
      · cases hturn.symm.trans htop

/-- Who looks for a reason to stop and has one ends before the next event. -/
theorem of_stops (h : i.Reacts stops turn taken j turn') (hstops : stops = true)
    (hturn : turn = some []) : taken = none ∧ ((turn' = some [] ∧ i.Receives j) ∨
      j.phase = .ended) := by
  cases h with
  | receive hreceives => exact ⟨rfl, .inl ⟨hturn, hreceives⟩⟩
  | begin _ _ => cases hturn
  | turn _ _ => cases hturn
  | work _ => cases hturn
  | stop _ hreceives => exact ⟨rfl, .inr hreceives.phase⟩
  | park hgoes _ => cases hgoes.symm.trans hstops
  | take _ hwhen _ =>
      rcases hwhen with ⟨hnone, -⟩ | ⟨-, hgoes⟩
      · cases hnone.symm.trans hturn
      · cases hgoes.symm.trans hstops

/-- With a reason to stop, an event that is taken uses up the allowance. -/
theorem allowance_le (h : i.Reacts stops turn taken j turn') (hstops : stops = true) :
    taken.toList.length + j.allowance turn' ≤ i.allowance turn := by
  cases h with
  | receive hreceives =>
      rw [allowance, hreceives.phase]
      exact Nat.le_of_eq (Nat.zero_add _)
  | begin _ _ =>
      rw [allowance_of_some]
      exact Nat.zero_le _
  | turn _ _ =>
      rw [allowance_of_some]
      exact Nat.zero_le _
  | work hgoes =>
      rw [hgoes.allowance_eq]
      exact Nat.zero_le _
  | stop _ hreceives =>
      rw [allowance, hreceives.phase]
      exact Nat.zero_le _
  | park hgoes _ => cases hgoes.symm.trans hstops
  | take _ hwhen hgoes =>
      rcases hwhen with ⟨rfl, hrunning⟩ | ⟨-, hstays⟩
      · rw [hgoes.allowance_eq, allowance, if_pos ⟨rfl, hrunning⟩]
        exact Nat.le_refl _
      · cases hstays.symm.trans hstops

end Reacts

end Instance

namespace World

variable {w v : World} {n : Nat} {i : Instance} {label : Option Happening} {hs : List Happening}

/-! ## Reasons to stop -/

/-- Whether an instance was told to stop: by a request, by the end of the instance it is nested in,
or because its time is over. -/
def isToldToStop (w : World) (i : Instance) : Bool :=
  i.isCancelled || w.hasParentEnded i || i.deadline.any fun d => decide (d ≤ w.clock)

theorem stopReason?_of_isTerminal (h : i.active.any (·.isTerminal) = true) :
    w.stopReason? i = some .done := by
  rw [stopReason?, if_pos h]

theorem isSome_stopReason? (h : w.isToldToStop i = true) : (w.stopReason? i).isSome = true := by
  simp only [isToldToStop, Bool.or_eq_true] at h
  unfold stopReason?
  split
  · rfl
  · rcases h with (hcancelled | hparent) | hdeadline
    · rw [if_pos hcancelled]
      rfl
    · rw [if_pos hparent]
      split <;> rfl
    · rw [if_pos hdeadline]
      split
      · rfl
      · split <;> rfl

def IsPhased (w : World) : Prop :=
  ∀ n i, w.instance? n = some i → i.IsPhased (w.agenda? n)

theorem IsNew.isPhased (h : w.IsNew) : w.IsPhased := by
  intro n i hi
  simp [instance?, h.instances] at hi

theorem Step.isPhased (hstep : Step w label v) (hw : w.IsPhased) : v.IsPhased := by
  intro n j hj
  cases hi : w.instance? n with
  | none =>
      obtain ⟨hphase, hdeadline⟩ := hstep.joined hi hj
      exact ⟨fun hended => (by cases hphase.symm.trans hended), fun _ => hdeadline⟩
  | some i =>
      obtain ⟨-, j', hj', hij⟩ := hstep.reacts hi
      obtain rfl := Option.some.inj (hj.symm.trans hj')
      exact hij.isPhased (hw n i hi)

theorem Run.isPhased (hrun : Run w hs v) (hw : w.IsPhased) : v.IsPhased := by
  induction hrun with
  | start => exact hw
  | step _ hstep ih => exact hstep.isPhased ih

/-- Whoever was told to stop was told for good. -/
theorem Step.isToldToStop {j : Instance} (hstep : Step w label v) (hw : w.IsPhased)
    (hi : w.instance? n = some i) (hj : v.instance? n = some j)
    (htold : w.isToldToStop i = true) : v.isToldToStop j = true := by
  obtain ⟨hlasts, j', hj', hij⟩ := hstep.reacts hi
  obtain rfl := Option.some.inj (hj.symm.trans hj')
  obtain ⟨hplacement, hdeadline, hcancelled⟩ := hij.kept
  have hparent : j.parent = i.parent := congrArg Placement.parent hplacement
  simp only [World.isToldToStop, Bool.or_eq_true] at htold ⊢
  rcases htold with (htold | htold) | htold
  · exact .inl (.inl (hcancelled htold))
  · -- a parent that has ended stays so
    refine .inl (.inr ?_)
    unfold hasParentEnded at htold ⊢
    split at htold
    · rename_i p hp
      obtain ⟨m, hm, hpm⟩ := Option.bind_eq_some_iff.1 hp
      obtain ⟨-, q, hq, hpq⟩ := hstep.reacts hpm
      have hended := (hpq.of_ended (hw m p hpm) (by simpa [Instance.hasEnded] using htold)).2.1
      rw [hparent, hm, Option.bind_some, hq]
      simp [Instance.hasEnded, hended]
    · cases htold
  · refine .inr ?_
    -- who has a deadline has begun, so that it is fixed
    have hbegun : i.phase ≠ .created := by
      intro hcreated
      rw [(hw n i hi).created hcreated] at htold
      cases htold
    obtain ⟨d, hd, hpassed⟩ := (Option.any_eq_true _ _).1 htold
    rw [hdeadline hbegun, hd]
    simp only [Option.any_some, decide_eq_true_eq] at hpassed ⊢
    exact Nat.le_trans hpassed hlasts.clock

/-! ## Runs -/

/-- The events that an instance takes in a history, the first one first. -/
def taken (n : Nat) (hs : List Happening) : List Event :=
  hs.reverse.filterMap (Happening.takenBy? n)

theorem taken_append (n : Nat) (label : Option Happening) (hs : List Happening) :
    taken n (label.toList ++ hs) =
      taken n hs ++ (label.bind (Happening.takenBy? n)).toList := by
  unfold taken
  rw [List.reverse_append, List.filterMap_append]
  cases label with
  | none => rfl
  | some h =>
      simp only [Option.toList_some, List.reverse_singleton, Option.bind_some]
      cases hh : Happening.takenBy? n h <;> simp [hh]

/-- What an instance takes in a run comes from the front of its inbox. -/
theorem Run.taken_inbox (hrun : Run w hs v) (hi : w.instance? n = some i) :
    ∃ j posted, v.instance? n = some j ∧ taken n hs ++ j.inbox = i.inbox ++ posted := by
  induction hrun with
  | start => exact ⟨i, [], hi, by simp [taken]⟩
  | @step hs label v u _ hstep ih =>
      obtain ⟨j, posted, hj, hbefore⟩ := ih
      obtain ⟨-, k, hk, hjk⟩ := hstep.reacts hj
      obtain ⟨es, hes⟩ := hjk.inbox
      refine ⟨k, posted ++ es, hk, ?_⟩
      rw [taken_append, List.append_assoc, hes, ← List.append_assoc, hbefore, List.append_assoc]

/-- Once an instance has ended nothing changes about that, or about its inbox. -/
theorem Run.ended (hrun : Run w hs v) (hw : w.IsPhased) (hi : w.instance? n = some i)
    (hended : i.phase = .ended) :
    taken n hs = [] ∧ ∃ j, v.instance? n = some j ∧ j.phase = .ended ∧ j.inbox = i.inbox := by
  induction hrun with
  | start => exact ⟨rfl, i, hi, hended, rfl⟩
  | @step hs label v u hbefore hstep ih =>
      obtain ⟨hnone, j, hj, hover, hinbox⟩ := ih
      obtain ⟨-, k, hk, hjk⟩ := hstep.reacts hj
      obtain ⟨hnothing, hstays, hsame⟩ := hjk.of_ended (hbefore.isPhased hw n j hj) hover
      refine ⟨?_, k, hk, hstays, hsame.trans hinbox⟩
      rw [taken_append, hnone, hnothing]
      rfl

/-- An instance that looks for a reason to stop when its state is terminal takes nothing more. -/
theorem Run.taken_of_isTerminal (hrun : Run w hs v) (hw : w.IsPhased)
    (hi : w.instance? n = some i) (hturn : w.agenda? n = some [])
    (hterminal : i.active.any (·.isTerminal) = true) :
    taken n hs = [] ∧ ∃ j, v.instance? n = some j ∧
      ((v.agenda? n = some [] ∧ j.active = i.active) ∨ j.phase = .ended) := by
  induction hrun with
  | start => exact ⟨rfl, i, hi, .inl ⟨hturn, rfl⟩⟩
  | @step hs label v u hbefore hstep ih =>
      obtain ⟨hnone, j, hj, hcases⟩ := ih
      obtain ⟨-, k, hk, hjk⟩ := hstep.reacts hj
      rcases hcases with ⟨htop, hactive⟩ | hover
      · have hreason : (v.stopReason? j).isSome = true := by
          rw [stopReason?_of_isTerminal (hactive ▸ hterminal)]
          rfl
        obtain ⟨hnothing, hlater⟩ := hjk.of_stops hreason htop
        refine ⟨?_, k, hk, hlater.imp_left fun h => ⟨h.1, h.2.active.trans hactive⟩⟩
        rw [taken_append, hnone, hnothing]
        rfl
      · obtain ⟨hnothing, hstays, -⟩ := hjk.of_ended (hbefore.isPhased hw n j hj) hover
        refine ⟨?_, k, hk, .inr hstays⟩
        rw [taken_append, hnone, hnothing]
        rfl

/-- Every event that is taken after the request uses up some of the allowance. -/
theorem Run.taken_le (hrun : Run w hs v) (hw : w.IsPhased) (hi : w.instance? n = some i)
    (htold : w.isToldToStop i = true) : ∃ j, v.instance? n = some j ∧ v.isToldToStop j = true ∧
      (taken n hs).length + j.allowance (v.agenda? n) ≤ i.allowance (w.agenda? n) := by
  induction hrun with
  | start => exact ⟨i, hi, htold, Nat.le_of_eq (Nat.zero_add _)⟩
  | @step hs label v u hbefore hstep ih =>
      obtain ⟨j, hj, hstill, hle⟩ := ih
      obtain ⟨-, k, hk, hjk⟩ := hstep.reacts hj
      refine ⟨k, hk, hstep.isToldToStop (hbefore.isPhased hw) hj hk hstill, ?_⟩
      have hnext := hjk.allowance_le (isSome_stopReason? hstill)
      rw [taken_append, List.length_append]
      omega

/-- Who has ended refuses every event. -/
theorem offer_of_ended (hi : w.instance? n = some i) (hended : i.phase = .ended) (e : Event) :
    w.offer (.numbered n) e = (w, false) := by
  have hover : i.hasEnded = true := by simp [Instance.hasEnded, hended]
  by_cases he : e.channel = .internal
  · exact offer_of_hasEnded hi he hover
  · simp [offer, hi, recipients, he, Instance.isOpen, hended]

/-- After it was told to stop, an instance takes one event at most, whichever of the two wins when
an event and a request are there at the same time. When it looks for a reason to stop and its state
is terminal, it takes none and ends. Once it has ended it takes none, its inbox stays as it is, and
it refuses every event. What it takes in any run comes from the front of its inbox. -/
theorem reaction_of_run {w₀ : World} {older newer : List Happening} (hnew : w₀.IsNew)
    (hbefore : Run w₀ older w) (hafter : Run w newer v) (hi : w.instance? n = some i) :
    ∃ j posted, v.instance? n = some j ∧ taken n newer ++ j.inbox = i.inbox ++ posted ∧
      (w.isToldToStop i = true → (taken n newer).length ≤ 1) ∧
      (w.agenda? n = some [] → i.active.any (·.isTerminal) = true →
        taken n newer = [] ∧ w.step? = some (w.finish n (.ok .done))) ∧
      (i.phase = .ended → taken n newer = [] ∧ j.phase = .ended ∧ j.inbox = i.inbox ∧
        ∀ e, v.offer (.numbered n) e = (v, false)) := by
  have hw : w.IsPhased := hbefore.isPhased hnew.isPhased
  obtain ⟨j, posted, hj, hinbox⟩ := hafter.taken_inbox hi
  refine ⟨j, posted, hj, hinbox, fun htold => ?_, fun hturn hterminal => ?_, fun hended => ?_⟩
  · obtain ⟨k, -, -, hle⟩ := hafter.taken_le hw hi htold
    have hone : i.allowance (w.agenda? n) ≤ 1 := by
      unfold Instance.allowance
      split
      · exact Nat.le_refl 1
      · exact Nat.zero_le 1
    omega
  · refine ⟨(hafter.taken_of_isTerminal hw hi hturn hterminal).1, ?_⟩
    obtain ⟨t, hcurrent, ht⟩ := Option.bind_eq_some_iff.1 hturn
    split at ht
    · rename_i hn
      subst hn
      simp only [step?, hcurrent, resume, Option.some.inj ht, hi,
        stopReason?_of_isTerminal hterminal]
    · cases ht
  · obtain ⟨hnone, k, hk, hover, hsame⟩ := hafter.ended hw hi hended
    obtain rfl := Option.some.inj (hj.symm.trans hk)
    exact ⟨hnone, hover, hsame, offer_of_ended hj hover⟩

/-! ### An instance that is cancelled -/

/-- An instance in a world in which events go first. -/
def waitingLeaf : World := (trace 20 ((bare .eventsFirst).serve (.place leafGraph .empty none))).2

/-- It is offered two events, and then it is cancelled. -/
def stoppedLeaf : World :=
  ((waitingLeaf.serve (.offer (.numbered 0) probe)).serve
    (.offer (.numbered 0) probe)).serve (.cancel 0)

def endedLeaf : List Happening × World := trace 20 stoppedLeaf

/-- It takes the first event, and ends before the second. -/
theorem endedLeaf_reaction :
    (taken 0 endedLeaf.1).length = 1 ∧ ∃ j, endedLeaf.2.instance? 0 = some j ∧
      j.inbox.length = 1 ∧
      ∀ e, endedLeaf.2.offer (.numbered 0) e = (endedLeaf.2, false) := by
  have hnew : (bare .eventsFirst).IsNew := engine_isNew _ _ _ _ _
  have hopened : Run (bare .eventsFirst) _ waitingLeaf :=
    (Run.single (.ask (bare .eventsFirst) _)).trans (run_trace 20 _)
  have hbusy : Run (bare .eventsFirst) _ stoppedLeaf :=
    ((hopened.step (.ask waitingLeaf (.offer (.numbered 0) probe))).step
      (.ask _ (.offer (.numbered 0) probe))).step (.ask _ (.cancel 0))
  have hgone : Run stoppedLeaf endedLeaf.1 endedLeaf.2 := run_trace 20 stoppedLeaf
  have htold : (stoppedLeaf.instance? 0).any stoppedLeaf.isToldToStop = true := by decide +kernel
  obtain ⟨i, hi, hstop⟩ := (Option.any_eq_true _ _).1 htold
  obtain ⟨j, posted, hj, -, hone, -, -⟩ := reaction_of_run hnew hbusy hgone hi
  have hleast : (taken 0 endedLeaf.1).isEmpty = false := by decide +kernel
  have hleft : (endedLeaf.2.instance? 0).any (fun i =>
      i.inbox.length == 1 && i.phase == .ended) = true := by decide +kernel
  rw [hj, Option.any_some, Bool.and_eq_true, beq_iff_eq, beq_iff_eq] at hleft
  -- from then on it is an instance that has ended
  obtain ⟨k, -, hk, -, -, -, hover⟩ := reaction_of_run hnew (hbusy.trans hgone) .start hj
  refine ⟨?_, j, hj, hleft.1, (hover hleft.2).2.2.2⟩
  have hmost := hone hstop
  have hsome : taken 0 endedLeaf.1 ≠ [] := by
    intro hempty
    rw [hempty] at hleast
    cases hleast
  exact Nat.le_antisymm hmost (List.length_pos_iff.2 hsome)

end World

end Statechart
