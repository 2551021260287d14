import Statechart.Proofs.Worklist.Effects

/-!
# Worklists in parts

What a command gives rise to is put in front of the commands that wait. So a worklist is drained
part by part, as if every command were expanded in full, depth first, before the next one is looked
at. A step between states that fails ends all of it.

- `Machine.ComesTo`             : what a worklist comes to, with enough fuel
- `Machine.ComesTo.unique`      : it comes to one end only
- `Machine.Expands`             : commands are expanded recursively
- `Machine.Drains.append`, `Machine.Drains.append_fault`, `Machine.Drains.split` : a worklist in two
- `Machine.expands_iff`         : draining is recursive expansion
- `Machine.worklists_compose`   : both, for the drains of the machine itself
-/

namespace Statechart

namespace Machine

variable {σ : Type} {m : Machine σ}

/-! ## What worklists come to -/

/-- With enough fuel a worklist comes to `d`, and `es` is what the machine has written down by then
if it writes down what is done to it. -/
def ComesTo (m : Machine σ) (s : σ) (work : List Command) (es : List Effect) (d : Drained σ) :
    Prop :=
  ∃ fuel, m.drain fuel s work = some d ∧
    m.traced.drain fuel (s, []) work = some ⟨(d.final, es), d.left, d.outcome⟩

theorem comesTo_iff {s : σ} {work : List Command} {es : List Effect} {d : Drained σ} :
    m.ComesTo s work es d ↔ ∃ n, m.Drains n s work es d := by
  constructor
  · rintro ⟨fuel, hdrain, htraced⟩
    obtain ⟨n, es', hn, hd⟩ := exists_drains hdrain
    have hes : some (Drained.mk (d.final, [] ++ es') d.left d.outcome) =
        some ⟨(d.final, es), d.left, d.outcome⟩ := (hd.traced hn []).symm.trans htraced
    cases hes
    exact ⟨n, hd⟩
  · rintro ⟨n, hd⟩
    exact ⟨n, hd.drain (Nat.le_refl n), hd.traced (Nat.le_refl n) []⟩

/-- There is only one end that a worklist comes to. -/
theorem ComesTo.unique {s : σ} {work : List Command} {es es' : List Effect} {d d' : Drained σ}
    (h : m.ComesTo s work es d) (h' : m.ComesTo s work es' d') : es = es' ∧ d = d' := by
  obtain ⟨n, hd⟩ := comesTo_iff.1 h
  obtain ⟨k, hd'⟩ := comesTo_iff.1 h'
  -- the fuel of both is enough for either
  have hsame :=
    (hd.traced (Nat.le_add_right n k) []).symm.trans (hd'.traced (Nat.le_add_left k n) [])
  obtain ⟨final, left, outcome⟩ := d
  obtain ⟨final', left', outcome'⟩ := d'
  cases hsame
  exact ⟨rfl, rfl⟩

/-- Commands are expanded depth first: all that a command gives rise to is expanded before the
commands beside it. Nothing is expanded any more after a step between states that fails. -/
inductive Expands (m : Machine σ) :
    σ → List Command → List Effect → σ → Except EngineFault Unit → Prop where
  | done (s : σ) : Expands m s [] [] s (.ok ())
  | step {s t u v : σ} {c : Command} {next rest : List Command} {es es' : List Effect}
      {outcome : Except EngineFault Unit} :
      m.execute s c = (t, .ok next) → Expands m t next es u (.ok ()) →
        Expands m u rest es' v outcome →
        Expands m s (c :: rest) (m.effectsOf s c ++ (es ++ es')) v outcome
  | inner {s t u : σ} {c : Command} {next rest : List Command} {es : List Effect}
      {fault : EngineFault} :
      m.execute s c = (t, .ok next) → Expands m t next es u (.error fault) →
        Expands m s (c :: rest) (m.effectsOf s c ++ es) u (.error fault)
  | fault {s t : σ} {step : Move} {rest : List Command} {fault : EngineFault} :
      m.executeMove s step = (t, .error fault) →
        Expands m s (.move step :: rest) (m.effectsOf s (.move step)) t (.error fault)

/-! ## Worklists in two parts -/

/-- An action is passed over if it fails. -/
theorem exists_move_of_fault {s t : σ} {c : Command} {fault : EngineFault}
    (h : m.execute s c = (t, .error fault)) :
    ∃ step, c = .move step ∧ m.executeMove s step = (t, .error fault) := by
  cases c with
  | act site action => cases h
  | move step => exact ⟨step, rfl, h⟩

theorem Drains.append {n k : Nat} {s : σ} {front back : List Command} {es es' : List Effect}
    {e d : Drained σ} (h : m.Drains n s front es e) (hok : e.outcome = .ok ())
    (h' : m.Drains k e.final back es' d) : m.Drains (n + k) s (front ++ back) (es ++ es') d := by
  induction h with
  | done s =>
      rw [Nat.zero_add]
      exact h'
  | @step n s t c next rest es e hexec _ ih =>
      have hrest := ih hok h'
      rw [List.append_assoc] at hrest
      rw [Nat.add_right_comm, List.cons_append, List.append_assoc]
      exact .step hexec hrest
  | fault _ => cases hok

/-- What comes behind a step that fails is left as it is. -/
theorem Drains.append_fault {n : Nat} {s : σ} {front : List Command} {es : List Effect}
    {e : Drained σ} {fault : EngineFault} (h : m.Drains n s front es e)
    (hfault : e.outcome = .error fault) (back : List Command) :
    m.Drains n s (front ++ back) es ⟨e.final, e.left ++ back, .error fault⟩ := by
  induction h with
  | done s => cases hfault
  | @step n s t c next rest es e hexec _ ih =>
      have hrest := ih hfault
      rw [List.append_assoc] at hrest
      exact .step hexec hrest
  | fault hexec =>
      cases hfault
      exact .fault hexec

/-- A worklist in two parts is drained to the end of the first part and then on, or up to a step
that fails in the first part. -/
theorem Drains.split {n : Nat} {s : σ} {front back : List Command} {es : List Effect}
    {d : Drained σ} (h : m.Drains n s (front ++ back) es d) :
    (∃ k j t es₁ es₂, n = k + j ∧ m.Completes k s front es₁ t ∧ m.Drains j t back es₂ d ∧
      es = es₁ ++ es₂) ∨
    ∃ t left fault, m.Drains n s front es ⟨t, left, .error fault⟩ ∧
      d = ⟨t, left ++ back, .error fault⟩ := by
  -- on the steps: the commands that a command of the first part gives rise to belong to it too
  induction n generalizing s front es with
  | zero =>
      cases front with
      | nil => exact .inl ⟨0, 0, s, [], es, rfl, .done s, h, rfl⟩
      | cons c rest => cases h
  | succ n ih =>
      cases front with
      | nil => exact .inl ⟨0, n + 1, s, [], es, (Nat.zero_add _).symm, .done s, h, rfl⟩
      | cons c rest =>
          rw [List.cons_append] at h
          cases h with
          | step hexec hrest =>
              rw [← List.append_assoc] at hrest
              rcases ih hrest with ⟨k, j, t, es₁, es₂, rfl, hfront, hback, rfl⟩ |
                ⟨t, left, fault, hfront, rfl⟩
              · exact .inl ⟨k + 1, j, t, _, es₂, Nat.add_right_comm k j 1, .step hexec hfront,
                  hback, (List.append_assoc _ _ _).symm⟩
              · exact .inr ⟨t, left, fault, .step hexec hfront, rfl⟩
          | fault hexec => exact .inr ⟨_, rest, _, .fault hexec, rfl⟩

/-! ## Recursive expansion -/

theorem Expands.drains {s t : σ} {work : List Command} {es : List Effect}
    {outcome : Except EngineFault Unit} (h : m.Expands s work es t outcome) :
    ∃ n left, m.Drains n s work es ⟨t, left, outcome⟩ := by
  induction h with
  | done s => exact ⟨0, [], .done s⟩
  | step hexec _ _ ihnext ihrest =>
      obtain ⟨n, left, hnext⟩ := ihnext
      obtain ⟨k, left', hrest⟩ := ihrest
      exact ⟨n + k + 1, left', .step hexec (hnext.append rfl hrest)⟩
  | @inner s t u c next rest es fault hexec _ ih =>
      obtain ⟨n, left, hnext⟩ := ih
      exact ⟨n + 1, left ++ rest, .step hexec (hnext.append_fault rfl rest)⟩
  | @fault s t step rest fault hexec => exact ⟨1, rest, .fault hexec⟩

theorem Drains.expands {n : Nat} {s : σ} {work : List Command} {es : List Effect} {d : Drained σ}
    (h : m.Drains n s work es d) : m.Expands s work es d.final d.outcome := by
  -- on the steps: what a command gives rise to and what comes after it are drained in fewer
  induction n using Nat.strongRecOn generalizing s work es d with
  | ind n ih =>
      cases h with
      | done s => exact .done s
      | @step n _ t c next rest es _ hexec hwork =>
          rcases hwork.split with ⟨k, j, u, es₁, es₂, rfl, hnext, hrest, rfl⟩ |
            ⟨u, left, fault, hnext, rfl⟩
          · exact .step hexec (ih k (by omega) hnext) (ih j (by omega) hrest)
          · have hfailed : m.Expands t next es u (.error fault) := ih n (by omega) hnext
            exact .inner hexec hfailed
      | fault hexec =>
          obtain ⟨step, rfl, hmove⟩ := exists_move_of_fault hexec
          exact .fault hmove

theorem expands_iff {s t : σ} {work : List Command} {es : List Effect}
    {outcome : Except EngineFault Unit} :
    m.Expands s work es t outcome ↔ ∃ left, m.ComesTo s work es ⟨t, left, outcome⟩ := by
  constructor
  · intro h
    obtain ⟨n, left, hdrains⟩ := h.drains
    exact ⟨left, comesTo_iff.2 ⟨n, hdrains⟩⟩
  · rintro ⟨left, h⟩
    obtain ⟨n, hdrains⟩ := comesTo_iff.1 h
    exact hdrains.expands

/-- A worklist in two parts comes to the end if the first part comes to its end and the second
part, from there, to its own: to the same configuration, and with the effects of both parts, one
after the other. If a step of the first part fails, all of it ends there, in the same
configuration and with the same effects; nothing is done of the second part. So a worklist comes
to what its recursive expansion comes to. -/
theorem worklists_compose (m : Machine σ) (s : σ) (front back : List Command) (es : List Effect) :
    (∀ d, m.ComesTo s (front ++ back) es d ↔
      (∃ t es₁ es₂, m.ComesTo s front es₁ ⟨t, [], .ok ()⟩ ∧ m.ComesTo t back es₂ d ∧
        es = es₁ ++ es₂) ∨
      ∃ t left fault, m.ComesTo s front es ⟨t, left, .error fault⟩ ∧
        d = ⟨t, left ++ back, .error fault⟩) ∧
    ∀ work t outcome,
      (∃ left, m.ComesTo s work es ⟨t, left, outcome⟩) ↔ m.Expands s work es t outcome := by
  refine ⟨fun d => ⟨fun h => ?_, fun h => ?_⟩, fun work t outcome => expands_iff.symm⟩
  · obtain ⟨n, hdrains⟩ := comesTo_iff.1 h
    rcases hdrains.split with ⟨k, j, t, es₁, es₂, -, hfront, hback, hes⟩ |
      ⟨t, left, fault, hfront, hd⟩
    · exact .inl ⟨t, es₁, es₂, comesTo_iff.2 ⟨k, hfront⟩, comesTo_iff.2 ⟨j, hback⟩, hes⟩
    · exact .inr ⟨t, left, fault, comesTo_iff.2 ⟨n, hfront⟩, hd⟩
  · rcases h with ⟨t, es₁, es₂, hfront, hback, rfl⟩ | ⟨t, left, fault, hfront, rfl⟩
    · obtain ⟨k, hfront⟩ := comesTo_iff.1 hfront
      obtain ⟨j, hback⟩ := comesTo_iff.1 hback
      exact comesTo_iff.2 ⟨k + j, hfront.append rfl hback⟩
    · obtain ⟨n, hfront⟩ := comesTo_iff.1 hfront
      exact comesTo_iff.2 ⟨n, hfront.append_fault rfl back⟩

end Machine

end Statechart
