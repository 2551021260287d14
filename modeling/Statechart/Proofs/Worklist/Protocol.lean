import Statechart.Proofs.Worklist.Effects

/-!
# The protocol of transitions

What a transition does is nowhere written as a sequence: it comes from commands that put others in
front of those that wait. Here the sequence is written down, for machines of any kind.

- `Machine.Does`     : a list of actions at a site, depth first
- `Machine.Crosses`  : from one state to another, up to the transition that follows
- `Machine.Transits` : a transition with all that follow it
- `Machine.transits_of_completes` : a worklist with one transition does just this
-/

namespace Statechart

/-- The actions of a transition; one that is taken for its else target does none. -/
def Selected.actions (t : Selected) : List Action :=
  if t.isElse then [] else t.transition.actions

namespace Machine

variable {σ : Type} {m : Machine σ}

/-! ## Lists of actions -/

/-- A list of actions is done at a site. What an action gives rise to is done before the next
action of the list; an action that fails is passed over. -/
inductive Does (m : Machine σ) (site : Site) : σ → List Action → List Effect → σ → Prop where
  | nil (s : σ) : Does m site s [] [] s
  | cons {s t u v : σ} {action : Action} {next rest : List Action} {es es' : List Effect} :
      m.perform s site action = (t, .ok next) → Does m site t next es u →
        Does m site u rest es' v →
        Does m site s (action :: rest) (.did site action :: (es ++ es')) v
  | failed {s t u : σ} {action : Action} {fault : EngineFault} {rest : List Action}
      {es : List Effect} :
      m.perform s site action = (t, .error fault) →
        Does m site (m.remark t (Actor.failure site action fault)) rest es u →
        Does m site s (action :: rest) (.did site action :: es) u

/-- There are no other effects than actions at the site. -/
theorem Does.did {site : Site} {s u : σ} {as : List Action} {es : List Effect}
    (h : m.Does site s as es u) : ∀ e ∈ es, ∃ action, e = .did site action := by
  induction h with
  | nil s =>
      intro e he
      cases he
  | @cons s t u v action next rest es es' _ _ _ ihnext ihrest =>
      intro e he
      rcases List.mem_cons.1 he with rfl | he
      · exact ⟨action, rfl⟩
      · rcases List.mem_append.1 he with he | he
        · exact ihnext e he
        · exact ihrest e he
  | @failed s t u action fault rest es _ _ ih =>
      intro e he
      rcases List.mem_cons.1 he with rfl | he
      · exact ⟨action, rfl⟩
      · exact ih e he

/-- Actions that were done as one list were done as two. -/
theorem Does.split {site : Site} {s u : σ} {front back : List Action} {es : List Effect}
    (h : m.Does site s (front ++ back) es u) :
    ∃ t es₁ es₂, m.Does site s front es₁ t ∧ m.Does site t back es₂ u ∧ es = es₁ ++ es₂ := by
  -- what an action gives rise to belongs to the part in which the action is
  induction front generalizing s es with
  | nil => exact ⟨s, [], es, .nil s, h, rfl⟩
  | cons action rest ih =>
      cases h with
      | cons hperform hnext hrest =>
          obtain ⟨t, es₁, es₂, hfront, hback, rfl⟩ := ih hrest
          exact ⟨t, _, es₂, .cons hperform hnext hfront, hback, by simp⟩
      | failed hperform hrest =>
          obtain ⟨t, es₁, es₂, hfront, hback, rfl⟩ := ih hrest
          exact ⟨t, _, es₂, .failed hperform hfront, hback, rfl⟩

theorem actions_append (site : Site) (front back : List Action) :
    Statechart.actions site (front ++ back) =
      Statechart.actions site front ++ Statechart.actions site back := by
  simp [Statechart.actions]

/-- Actions in front of a worklist are done before anything else of it. -/
theorem Drains.actions {n : Nat} {site : Site} {s : σ} {as : List Action} {rest : List Command}
    {es : List Effect} {d : Drained σ}
    (h : m.Drains n s (Statechart.actions site as ++ rest) es d) :
    ∃ k t es₁ es₂, k ≤ n ∧ m.Does site s as es₁ t ∧ m.Drains k t rest es₂ d ∧
      es = es₁ ++ es₂ := by
  -- the commands that an action gives rise to are actions at the same site, so that the
  -- worklist keeps its form while it is drained
  induction n generalizing s as es with
  | zero =>
      cases as with
      | nil => exact ⟨0, s, [], es, Nat.le_refl _, .nil s, h, rfl⟩
      | cons action tail => cases h
  | succ n ih =>
      cases as with
      | nil => exact ⟨n + 1, s, [], es, Nat.le_refl _, .nil s, h, rfl⟩
      | cons action tail =>
          generalize hwork : Statechart.actions site (action :: tail) ++ rest = work at h
          simp only [Statechart.actions, List.map_cons, List.cons_append] at hwork
          cases h with
          | step hexec hrest =>
              obtain ⟨rfl, rfl⟩ := List.cons.inj hwork
              simp only [execute, Actor.execute] at hexec
              split at hexec
              · rename_i t next hperform
                cases hexec
                rw [← List.append_assoc] at hrest
                change m.Drains n t ((Statechart.actions site next ++ Statechart.actions site tail)
                  ++ rest) _ d at hrest
                rw [← actions_append] at hrest
                obtain ⟨k, v, es₁, es₂, hk, hdoes, hd, rfl⟩ := ih hrest
                obtain ⟨u, es₃, es₄, hnext, htail, rfl⟩ := hdoes.split
                exact ⟨k, v, _, es₂, by omega, .cons hperform hnext htail, hd, by
                  simp [effectsOf]⟩
              · rename_i t fault hperform
                cases hexec
                obtain ⟨k, v, es₁, es₂, hk, hdoes, hd, rfl⟩ := ih hrest
                exact ⟨k, v, _, es₂, by omega, .failed hperform hdoes, hd, by simp [effectsOf]⟩
          | fault hexec =>
              obtain ⟨rfl, rfl⟩ := List.cons.inj hwork
              simp only [execute] at hexec
              cases hexec

/-! ## Transitions -/

/-- A transition leads from one state to another: the timers and tasks of the old state are
stopped; its exit actions, the actions of the transition, the entry actions of the new state and
those during it are done; its timers are started; it becomes active. `follow` is the transition
that waits for nothing there, if there is one. -/
inductive Crosses (m : Machine σ) (current next : State) (t : Selected) (follow : Option Selected) :
    σ → List Effect → σ → Prop where
  | intro {s s₁ s₂ s₃ s₄ s₅ s₆ s₇ : σ} {exits acts entries durings : List Effect} :
      m.cancelTasks (m.stopTimers s) = s₁ →
        m.Does (m.stateSite s₁ current) s₁ current.exit exits s₂ →
        m.Does (m.machineSite s) s₂ t.actions acts s₃ →
        m.Does (m.stateSite s₃ next) s₃ next.entry entries s₄ →
        m.Does (m.duringSite s₃ next) s₄ next.during durings s₅ →
        m.startTimers s₅ next = (s₆, .ok ()) →
        m.selectAlways (m.setActive s₆ next) next = (s₇, .ok follow) →
        Crosses m current next t follow s
          ([.stopTimers, .cancelTasks] ++ exits ++ acts ++ entries ++ durings ++
            [.startTimers next, .activate next]) s₇

/-- A transition with all that follow it: one without a target only does its actions; any other
leads to its target, and goes on with the transition that waits for nothing there. -/
inductive Transits (m : Machine σ) : σ → Selected → List Effect → σ → Prop where
  | inside {s u : σ} {t : Selected} {es : List Effect} :
      t.target? = none → m.Does (m.machineSite s) s t.actions es u → Transits m s t es u
  | across {s u : σ} {t : Selected} {target : String} {current next : State} {es : List Effect} :
      t.target? = some target → m.active? s = some current → m.state? s target = some next →
        Crosses m current next t none s es u → Transits m s t es u
  | onward {s u v : σ} {t follow : Selected} {target : String} {current next : State}
      {es es' : List Effect} :
      t.target? = some target → m.active? s = some current → m.state? s target = some next →
        Crosses m current next t (some follow) s es u → Transits m u follow es' v →
        Transits m s t (es ++ es') v

/-- What executing a transition gives rise to. -/
theorem execute_transit_inv {s s' : σ} {t : Selected} {next : List Command}
    (h : m.execute s (.move (.transit t)) = (s', .ok next)) :
    s' = s ∧
      ((t.target? = none ∧ next = Statechart.actions (m.machineSite s) t.actions) ∨
        ∃ target current state, t.target? = some target ∧ m.active? s = some current ∧
          m.state? s target = some state ∧
          next = .move (.exit current) ::
            (Statechart.actions (m.machineSite s) t.actions ++ [.move (.enter state)])) := by
  have hacts : (if t.isElse then [] else
      Statechart.actions (m.machineSite s) t.transition.actions) =
        Statechart.actions (m.machineSite s) t.actions := by
    unfold Selected.actions
    split <;> rfl
  simp only [execute, executeMove, hacts] at h
  split at h
  · rename_i htarget
    cases h
    exact ⟨rfl, .inl ⟨htarget, rfl⟩⟩
  · rename_i target htarget
    split at h
    · cases h
    · rename_i state hstate
      split at h
      · cases h
      · rename_i current hcurrent
        cases h
        exact ⟨rfl, .inr ⟨target, current, state, htarget, hcurrent, hstate, rfl⟩⟩

/-- What executing the change to a state gives rise to. -/
theorem execute_change_inv {s u : σ} {state : State} {next : List Command}
    (h : m.execute s (.move (.change state)) = (u, .ok next)) :
    ∃ t follow, m.startTimers s state = (t, .ok ()) ∧
      m.selectAlways (m.setActive t state) state = (u, .ok follow) ∧
      next = (follow.map fun selected => Command.move (.transit selected)).toList := by
  simp only [execute, executeMove] at h
  split at h
  · cases h
  · rename_i t hstart
    split at h
    · cases h
    · rename_i hselect
      cases h
      exact ⟨t, none, hstart, hselect, rfl⟩
    · rename_i selected hselect
      cases h
      exact ⟨t, some selected, hstart, hselect, rfl⟩

/-- Leaving a state by a transition and entering its target, up to what follows. -/
theorem crosses_of_completes {n : Nat} {s u : σ} {t : Selected} {current state : State}
    {es : List Effect}
    (h : m.Completes n s (.move (.exit current) ::
      (Statechart.actions (m.machineSite s) t.actions ++ [.move (.enter state)])) es u) :
    ∃ k v follow es₁ es₂, k < n ∧ m.Crosses current state t follow s es₁ v ∧
      m.Completes k v (follow.map fun selected => Command.move (.transit selected)).toList es₂ u ∧
      es = es₁ ++ es₂ := by
  -- one command after the other: leave the old state, ...
  obtain ⟨n₀, s₁, _, es₀, rfl, hexit, h₀, rfl⟩ := h.cons_inv
  obtain ⟨hs₁, hnext⟩ := Prod.mk.inj hexit
  cases hnext
  obtain ⟨n₁, s₂, exits, es₁, hn₁, hexits, h₁, rfl⟩ := Drains.actions h₀
  -- ... act, ...
  obtain ⟨n₂, s₃, acts, es₂, hn₂, hacts, h₂, rfl⟩ := Drains.actions h₁
  -- ... enter the new state, ...
  obtain ⟨n₃, _, _, es₃, rfl, henter, h₃, rfl⟩ := Completes.cons_inv h₂
  obtain ⟨rfl, hnext⟩ := Prod.mk.inj henter
  cases hnext
  rw [List.append_nil, List.append_assoc] at h₃
  obtain ⟨n₄, s₄, entries, es₄, hn₄, hentries, h₄, rfl⟩ := Drains.actions h₃
  obtain ⟨n₅, s₅, durings, es₅, hn₅, hdurings, h₅, rfl⟩ := Drains.actions h₄
  -- ... and change to it
  obtain ⟨n₆, s₇, _, es₆, rfl, hchange, h₆, rfl⟩ := Completes.cons_inv h₅
  obtain ⟨s₆, follow, hstart, hselect, rfl⟩ := execute_change_inv hchange
  rw [List.append_nil] at h₆
  refine ⟨n₆, s₇, follow, _, es₆, by omega,
    .intro hs₁ (hs₁ ▸ hexits) hacts hentries hdurings hstart hselect, h₆, ?_⟩
  simp [effectsOf, hstart]

/-- A worklist with one transition that is drained to its end does what the protocol says. -/
theorem transits_of_completes {n : Nat} {s u : σ} {t : Selected} {es : List Effect}
    (h : m.Completes n s [.move (.transit t)] es u) : m.Transits s t es u := by
  -- the transition that follows is drained in fewer steps
  induction n using Nat.strongRecOn generalizing s t es with
  | ind n ih =>
      obtain ⟨k, s', next, es', rfl, hexec, hnext, rfl⟩ := h.cons_inv
      obtain ⟨rfl, hcases⟩ := execute_transit_inv hexec
      rcases hcases with ⟨htarget, rfl⟩ | ⟨target, current, state, htarget, hcurrent, hstate, rfl⟩
      · obtain ⟨_, v, es₁, es₂, _, hdoes, hend, rfl⟩ := Drains.actions hnext
        obtain ⟨rfl, rfl⟩ := Completes.nil_inv hend
        simpa [effectsOf] using Transits.inside htarget hdoes
      · rw [List.append_nil] at hnext
        obtain ⟨j, v, follow, es₁, es₂, hj, hcross, hrest, rfl⟩ := crosses_of_completes hnext
        cases follow with
        | none =>
            obtain ⟨rfl, rfl⟩ := Completes.nil_inv hrest
            simpa [effectsOf] using Transits.across htarget hcurrent hstate hcross
        | some follow =>
            have hfollow := ih j (by omega) hrest
            simpa [effectsOf] using Transits.onward htarget hcurrent hstate hcross hfollow

end Machine

end Statechart
