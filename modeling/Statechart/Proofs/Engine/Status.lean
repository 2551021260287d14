import Statechart.Proofs.Engine.RunState

/-!
# The states of all runs

The run states of all instances, seen from the world: what the instances are, which timers there
are, and whose turn it is. In a turn, only what belongs to one instance changes.

- `World.status`            : what of a world run states are made of
- `Status.runState?`        : the run state of an instance
- `Status.Local`            : two statuses differ only in what belongs to one instance
- `Status.IsTidy`           : timers are told apart, and the turn is that of a running instance
- `Status.Advances`         : every run state goes one step further
- `Status.Local.advances`   : it is enough to look at the one instance
-/

namespace Statechart

structure Status where
  controls : List Control
  keys : List TimerKey
  current : Option Turn
  fresh : Nat

def World.status (w : World) : Status := ⟨w.controls, w.timers.map Timer.key, w.current, w.fresh⟩

/-- It is a part of the other side of the world. -/
theorem World.status_eq (w : World) :
    w.status = ⟨w.core.controls, w.core.timers.map Timer.key, w.core.current, w.core.fresh⟩ := by
  simp only [status, core, List.map_map]
  rfl

theorem World.status_of_core {w w' : World} (h : w'.core = w.core) : w'.status = w.status := by
  rw [status_eq, h, status_eq]

theorem World.status_mapInstance {f : Instance → Instance} {g : Control → Control} (w : World)
    (n : Nat) (h : ∀ i, (f i).control = g i.control) :
    (w.mapInstance n f).status = { w.status with controls := w.status.controls.modify n g } := by
  simp only [status, ← controls_mapInstance w n h]
  rfl

namespace Status

def keysOf (s : Status) (p : Party) : List TimerKey := s.keys.filter fun k => k.owner == p

/-- The worklist of an instance, if it is its turn. -/
def workOf (s : Status) (n : Nat) : List Command :=
  match s.current with
  | some t => if t.number = n then t.work else []
  | none => []

end Status

def Control.runState (c : Control) (timers : List TimerKey) (moves : List Move) : RunState :=
  ⟨c.graph, c.active, c.phase, timers, moves⟩

namespace Status

def runState? (s : Status) (n : Nat) : Option RunState :=
  s.controls[n]?.map fun c =>
    c.runState (s.keysOf (.numbered n)) ((s.workOf n).filterMap Command.move?)

theorem runState?_of_control {s : Status} {n : Nat} {c : Control} (h : s.controls[n]? = some c) :
    s.runState? n =
      some (c.runState (s.keysOf (.numbered n)) ((s.workOf n).filterMap Command.move?)) := by
  simp [runState?, h]

/-! ## Turns -/

def withTurn (s : Status) (turn : Option Turn) : Status := { s with current := turn }

theorem workOf_withTurn (s : Status) (n : Nat) (work : List Command) (isStarting : Bool) :
    (s.withTurn (some ⟨n, work, isStarting⟩)).workOf n = work := by
  simp [workOf, withTurn]

theorem workOf_of_current {s : Status} {t : Turn} (h : s.current = some t) :
    s.workOf t.number = t.work := by
  simp [workOf, h]

theorem workOf_of_none {s : Status} (n : Nat) (h : s.current = none) : s.workOf n = [] := by
  simp [workOf, h]

/-- The worklist before a turn, and at its end. -/
theorem workOf_of_turn {s : Status} {n : Nat}
    (hturn : ∀ t, s.current = some t → t.number = n ∧ t.work = []) : s.workOf n = [] := by
  unfold workOf
  split
  · rename_i t ht
    rw [(hturn t ht).2]
    exact ite_self _
  · rfl

/-! ## Differences -/

/-- Two statuses differ only in what belongs to one instance, apart from whose turn it is. -/
structure Local (m : Nat) (s s' : Status) : Prop where
  length : s'.controls.length = s.controls.length
  controls : ∀ n, n ≠ m → s'.controls[n]? = s.controls[n]?
  keysOf : ∀ p, p ≠ .numbered m → s'.keysOf p = s.keysOf p
  origin : ∀ k ∈ s'.keys,
    k ∈ s.keys ∨ (s.fresh ≤ k.id ∧ k.id < s'.fresh ∧ k.owner = .numbered m)
  nodup : (s.keys.map (·.id)).Nodup → (∀ k ∈ s.keys, k.id < s.fresh) → (s'.keys.map (·.id)).Nodup
  fresh : s.fresh ≤ s'.fresh

namespace Local

variable {m : Nat} {s s' s'' : Status}

theorem of_eq (hcontrols : s'.controls = s.controls) (hkeys : s'.keys = s.keys)
    (hfresh : s.fresh ≤ s'.fresh) : Local m s s' where
  length := by rw [hcontrols]
  controls := fun _ _ => by rw [hcontrols]
  keysOf := fun _ _ => by rw [Status.keysOf, hkeys, Status.keysOf]
  origin := fun _ hk => .inl (hkeys ▸ hk)
  nodup := fun h _ => hkeys ▸ h
  fresh := hfresh

theorem refl (s : Status) : Local m s s := of_eq rfl rfl (Nat.le_refl _)

theorem below (h : Local m s s') (hbelow : ∀ k ∈ s.keys, k.id < s.fresh) :
    ∀ k ∈ s'.keys, k.id < s'.fresh := by
  intro k hk
  -- identities only grow
  rcases h.origin k hk with hold | ⟨-, hlt, -⟩
  · exact Nat.lt_of_lt_of_le (hbelow k hold) h.fresh
  · exact hlt

theorem trans (h : Local m s s') (h' : Local m s' s'') : Local m s s'' where
  length := h'.length.trans h.length
  controls := fun n hn => (h'.controls n hn).trans (h.controls n hn)
  keysOf := fun p hp => (h'.keysOf p hp).trans (h.keysOf p hp)
  origin := by
    intro k hk
    rcases h'.origin k hk with hk | ⟨hge, hlt, howner⟩
    · rcases h.origin k hk with hk | ⟨hge, hlt, howner⟩
      · exact .inl hk
      · exact .inr ⟨hge, Nat.lt_of_lt_of_le hlt h'.fresh, howner⟩
    · exact .inr ⟨Nat.le_trans h.fresh hge, hlt, howner⟩
  nodup := fun hnodup hbelow => h'.nodup (h.nodup hnodup hbelow) (h.below hbelow)
  fresh := Nat.le_trans h.fresh h'.fresh

/-- What an instance is has changed. -/
theorem modify (s : Status) (m : Nat) (f : Control → Control) :
    Local m s { s with controls := s.controls.modify m f } where
  length := List.length_modify ..
  controls := fun _ hn => List.getElem?_modify_ne _ _ hn.symm
  keysOf := fun _ _ => rfl
  origin := fun _ hk => .inl hk
  nodup := fun h _ => h
  fresh := Nat.le_refl _

/-- Timers of an instance are gone. -/
theorem filter (s : Status) (m : Nat) (keep : TimerKey → Bool)
    (hkeep : ∀ k ∈ s.keys, k.owner ≠ .numbered m → keep k = true) :
    Local m s { s with keys := s.keys.filter keep } where
  length := rfl
  controls := fun _ _ => rfl
  keysOf := by
    intro p hp
    simp only [Status.keysOf, List.filter_filter]
    refine List.filter_congr fun k hk => ?_
    cases howner : k.owner == p with
    | false => rfl
    | true =>
        rw [beq_iff_eq] at howner
        rw [hkeep k hk (howner ▸ hp)]
        rfl
  origin := fun _ hk => .inl (List.mem_of_mem_filter hk)
  nodup := fun h _ => h.sublist (List.filter_sublist.map _)
  fresh := Nat.le_refl _

/-- An instance has a new timer. -/
theorem push (s : Status) (m : Nat) (name : String) :
    Local m s
      { s with keys := s.keys ++ [⟨s.fresh, .numbered m, name⟩], fresh := s.fresh + 1 } where
  length := rfl
  controls := fun _ _ => rfl
  keysOf := by
    intro p hp
    have hne : (Party.numbered m == p) = false := beq_eq_false_iff_ne.2 hp.symm
    simp [Status.keysOf, List.filter_append, hne]
  origin := by
    intro k hk
    rcases List.mem_append.1 hk with hold | hnew
    · exact .inl hold
    · rw [List.mem_singleton.1 hnew]
      exact .inr ⟨Nat.le_refl _, Nat.lt_succ_self _, rfl⟩
  nodup := by
    intro hnodup hbelow
    rw [List.map_append, List.nodup_append]
    refine ⟨hnodup, by simp, ?_⟩
    intro id hid other hother
    obtain ⟨k, hk, rfl⟩ := List.mem_map.1 hid
    simp only [List.map_cons, List.map_nil, List.mem_singleton] at hother
    rw [hother]
    exact Nat.ne_of_lt (hbelow k hk)
  fresh := Nat.le_succ _

end Local

/-! ## Tidy statuses -/

/-- Actions are done for an instance. -/
def IsWorkOf (n : Nat) (work : List Command) : Prop :=
  ∀ site action, .act site action ∈ work → site.owner = .numbered n

/-- Timers are told apart by their identities and belong to instances, and the turn is that of an
instance that is running. -/
structure IsTidy (s : Status) : Prop where
  nodup : (s.keys.map (·.id)).Nodup
  below : ∀ k ∈ s.keys, k.id < s.fresh
  owned : ∀ k ∈ s.keys, ∀ n, k.owner = .numbered n → n < s.controls.length
  running : ∀ t, s.current = some t →
    ∃ c, s.controls[t.number]? = some c ∧ c.phase = .running
  work : ∀ t, s.current = some t → IsWorkOf t.number t.work

/-! ## Advances -/

/-- Every run state goes one step further, and those that are new are of instances that have not
begun. -/
structure Advances (s : Status) (label : Option Happening) (s' : Status) : Prop where
  tidy : s'.IsTidy
  runState : ∀ n a, s.runState? n = some a →
    ∃ b, s'.runState? n = some b ∧ RunState.Step n a label b
  new : ∀ n b, s.runState? n = none → s'.runState? n = some b →
    b.IsNew ∧ ∃ strict, b.graph.IsBuilt strict
  known : ∀ n h, label = some h → h.number? = some n → (s.runState? n).isSome
  origin : ∀ k ∈ s'.keys, k ∈ s.keys ∨ s.fresh ≤ k.id
  fresh : s.fresh ≤ s'.fresh

theorem runState?_isSome {s : Status} {n : Nat} :
    (s.runState? n).isSome = true ↔ n < s.controls.length := by
  simp [runState?]

/-- Nothing changes that run states are made of. -/
theorem IsTidy.advances {s : Status} {label : Option Happening} (htidy : s.IsTidy)
    (hlabel : ∀ h, label = some h → h.number? = none) : s.Advances label s where
  tidy := htidy
  runState := fun n a ha => ⟨a, ha, .stay fun h heq => by simp [hlabel h heq]⟩
  new := fun n b hnone hsome => by rw [hnone] at hsome; cases hsome
  known := fun n h heq hn => by rw [hlabel h heq] at hn; cases hn
  origin := fun k hk => .inl hk
  fresh := Nat.le_refl _

/-- The run state of an instance whose turn it is not. -/
theorem workOf_of_ne {s : Status} {m n : Nat} (hturn : ∀ t, s.current = some t → t.number = m)
    (hn : n ≠ m) : s.workOf n = [] := by
  unfold workOf
  split
  · rename_i t hcurrent
    exact if_neg fun heq => hn (heq.symm.trans (hturn t hcurrent))
  · rfl

theorem Local.runState?_of_ne {m n : Nat} {s s' : Status} (h : Local m s s')
    (hturn : ∀ t, s.current = some t → t.number = m)
    (hturn' : ∀ t, s'.current = some t → t.number = m) (hn : n ≠ m) :
    s'.runState? n = s.runState? n := by
  have hparty : Party.numbered n ≠ .numbered m := fun heq => hn (Party.numbered.inj heq)
  simp only [runState?, h.controls n hn, h.keysOf _ hparty, workOf_of_ne hturn hn,
    workOf_of_ne hturn' hn]

/-- A step in which only what belongs to one instance changes. -/
theorem Local.advances {m : Nat} {s s' : Status} {label : Option Happening} {c c' : Control}
    (h : Local m s s') (htidy : s.IsTidy) (hc : s.controls[m]? = some c)
    (hc' : s'.controls[m]? = some c')
    (hturn : ∀ t, s.current = some t → t.number = m)
    (hturn' : ∀ t, s'.current = some t →
      t.number = m ∧ c'.phase = .running ∧ IsWorkOf m t.work)
    (hlabel : ∀ h, label = some h → h.number? = some m)
    (hstep : RunState.Step m
      (c.runState (s.keysOf (.numbered m)) ((s.workOf m).filterMap Command.move?)) label
      (c'.runState (s'.keysOf (.numbered m)) ((s'.workOf m).filterMap Command.move?))) :
    s.Advances label s' := by
  have hlt : m < s.controls.length := (List.getElem?_eq_some_iff.1 hc).1
  have hothers : ∀ n, n ≠ m → s'.runState? n = s.runState? n := fun n hn =>
    h.runState?_of_ne hturn (fun t ht => (hturn' t ht).1) hn
  refine ⟨⟨h.nodup htidy.nodup htidy.below, h.below htidy.below, ?_, ?_, ?_⟩, ?_, ?_, ?_, ?_,
    h.fresh⟩
  · intro k hk n hn
    rw [h.length]
    rcases h.origin k hk with hold | ⟨-, -, howner⟩
    · exact htidy.owned k hold n hn
    · rw [hn] at howner
      exact Party.numbered.inj howner ▸ hlt
  · intro t ht
    obtain ⟨rfl, hphase, -⟩ := hturn' t ht
    exact ⟨c', hc', hphase⟩
  · intro t ht
    obtain ⟨rfl, -, hwork⟩ := hturn' t ht
    exact hwork
  · intro n a ha
    by_cases hn : n = m
    · subst hn
      rw [runState?_of_control hc] at ha
      cases ha
      exact ⟨_, runState?_of_control hc', hstep⟩
    · refine ⟨a, (hothers n hn).trans ha, .stay fun h heq hnumber => hn ?_⟩
      rw [hlabel h heq] at hnumber
      exact (Option.some.inj hnumber).symm
  · -- nobody is new, since nobody was added
    intro n b hnone hsome
    have hn : n ≠ m := by
      rintro rfl
      rw [runState?_of_control hc] at hnone
      cases hnone
    rw [hothers n hn, hnone] at hsome
    cases hsome
  · intro n h heq hnumber
    rw [hlabel h heq] at hnumber
    cases hnumber
    exact runState?_isSome.2 hlt
  · intro k hk
    rcases h.origin k hk with hold | ⟨hnew, -, -⟩
    · exact .inl hold
    · exact .inr hnew

/-- A step after which an instance has a turn. -/
theorem Local.advances_withTurn {m : Nat} {s s' : Status} {label : Option Happening}
    {c c' : Control} {work : List Command} {isStarting : Bool} (h : Local m s s')
    (htidy : s.IsTidy) (hc : s.controls[m]? = some c) (hc' : s'.controls[m]? = some c')
    (hturn : ∀ t, s.current = some t → t.number = m) (hrunning : c'.phase = .running)
    (hwork : IsWorkOf m work) (hlabel : ∀ h, label = some h → h.number? = some m)
    (hstep : RunState.Step m
      (c.runState (s.keysOf (.numbered m)) ((s.workOf m).filterMap Command.move?)) label
      (c'.runState (s'.keysOf (.numbered m)) (work.filterMap Command.move?))) :
    s.Advances label (s'.withTurn (some ⟨m, work, isStarting⟩)) := by
  have hlocal : Local m s (s'.withTurn (some ⟨m, work, isStarting⟩)) :=
    h.trans (.of_eq rfl rfl (Nat.le_refl _))
  refine hlocal.advances htidy hc hc' hturn (fun t ht => ?_) hlabel ?_
  · cases ht
    exact ⟨rfl, hrunning, hwork⟩
  · rw [workOf_withTurn]
    exact hstep

/-- A step after which nobody has a turn. -/
theorem Local.advances_endTurn {m : Nat} {s s' : Status} {label : Option Happening}
    {c c' : Control} (h : Local m s s') (htidy : s.IsTidy) (hc : s.controls[m]? = some c)
    (hc' : s'.controls[m]? = some c') (hturn : ∀ t, s.current = some t → t.number = m)
    (hnone : s'.current = none) (hlabel : ∀ h, label = some h → h.number? = some m)
    (hstep : RunState.Step m
      (c.runState (s.keysOf (.numbered m)) ((s.workOf m).filterMap Command.move?)) label
      (c'.runState (s'.keysOf (.numbered m)) [])) :
    s.Advances label s' := by
  refine h.advances htidy hc hc' hturn (fun t ht => ?_) hlabel ?_
  · rw [hnone] at ht
    cases ht
  · rw [workOf_of_none m hnone]
    exact hstep

end Status

/-! ## New instances -/

/-- New instances are those that have not begun. -/
theorem World.Grows.advances {w w' : World} {label : Option Happening}
    (h : Grows (fun g => ∃ strict, g.IsBuilt strict) w w') (htidy : w.status.IsTidy)
    (hlabel : ∀ h, label = some h → h.number? = none) : w.status.Advances label w'.status := by
  obtain ⟨added, hcore, hadded⟩ := h
  have hstatus : w'.status = { w.status with controls := w.controls ++ added } := by
    rw [World.status_eq, hcore, World.status_eq]
  rw [hstatus]
  have hold : ∀ n c, w.controls[n]? = some c → (w.controls ++ added)[n]? = some c :=
    fun n c hc => by rw [List.getElem?_append_left (List.getElem?_eq_some_iff.1 hc).1, hc]
  refine ⟨⟨htidy.nodup, htidy.below, ?_, ?_, htidy.work⟩, ?_, ?_, ?_, fun k hk => .inl hk,
    Nat.le_refl _⟩
  · intro k hk n hn
    exact Nat.lt_of_lt_of_le (htidy.owned k hk n hn) (by simp [status])
  · intro t ht
    obtain ⟨c, hc, hphase⟩ := htidy.running t ht
    exact ⟨c, hold _ c hc, hphase⟩
  · intro n a ha
    obtain ⟨c, hc, rfl⟩ := Option.map_eq_some_iff.1 ha
    exact ⟨_, Status.runState?_of_control (hold n c hc), .stay fun h heq => by
      simp [hlabel h heq]⟩
  · intro n b hnone hsome
    obtain ⟨c, hc, rfl⟩ := Option.map_eq_some_iff.1 hsome
    -- who is new comes after those that were there
    have hge : w.controls.length ≤ n := by
      have hnot := mt Status.runState?_isSome.2 (by rw [hnone]; exact Bool.false_ne_true)
      exact Nat.le_of_not_lt hnot
    have hmem : c ∈ added := by
      have hget : (w.controls ++ added)[n]? = some c := hc
      rw [List.getElem?_append_right hge] at hget
      exact List.mem_of_getElem? hget
    refine ⟨⟨(hadded c hmem).1.active, (hadded c hmem).1.phase, ?_, ?_⟩, (hadded c hmem).2⟩
    · -- a timer belongs to an instance that was there before
      refine List.filter_eq_nil_iff.2 fun k hk howner => ?_
      have hlt := htidy.owned k hk n (beq_iff_eq.1 howner)
      exact absurd hge (Nat.not_le.2 hlt)
    · -- the turn is that of an instance that was there before
      have hnot : ∀ t, w.current = some t → t.number ≠ n := by
        rintro t ht rfl
        obtain ⟨_, hget, -⟩ := htidy.running t ht
        exact absurd hge (Nat.not_le.2 (List.getElem?_eq_some_iff.1 hget).1)
      have hwork : Status.workOf { w.status with controls := w.controls ++ added } n = [] := by
        simp only [Status.workOf, status]
        split
        · rename_i t ht
          exact if_neg (hnot t ht)
        · rfl
      rw [hwork]
      rfl
  · intro n h heq hnumber
    rw [hlabel h heq] at hnumber
    cases hnumber

end Statechart
