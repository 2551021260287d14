import Statechart.Proofs.Engine.Changes

/-!
# The registry and the bus

An instance is registered, listens to the bus and holds its subscriptions from its beginning to its
end. Subscriptions are only counted, and several instances share them, so that every end has to
take back exactly what the beginning has added.

- `Topology.Accounts`      : listeners and counts are those of the registered instances
- `Accounts.enrol`, `Accounts.dismiss` : beginnings and ends keep the accounts
- `Topology.IsEnlisted`    : who is registered has not ended
- `Topology.IsOrderly`     : who is registered is alive
- `World.registry_of_run` : both for every run, read off the world
-/

namespace Statechart

/-! ## Counting -/

/-- One entry of a list is changed. -/
theorem countP_modify {α : Type} {as : List α} {n : Nat} {a : α} (h : as[n]? = some a)
    (f : α → α) (q : α → Bool) :
    (as.modify n f).countP q + (if q a then 1 else 0) =
      as.countP q + (if q (f a) then 1 else 0) := by
  induction as generalizing n with
  | nil => cases h
  | cons first rest ih =>
      cases n with
      | zero =>
          cases h
          simp only [List.modify_zero_cons, List.countP_cons]
          omega
      | succ n =>
          have hrest := ih (n := n) (by simpa using h)
          simp only [List.modify_succ_cons, List.countP_cons]
          omega

/-- Whether a pattern is subscribed to for an instance. -/
def Profile.subscribes (pattern : String) (p : Profile) : Bool :=
  p.isRegistered && p.graph.subscribesTo pattern

/-- The instance is registered from its beginning to its end. -/
def Profile.IsEnlisted (p : Profile) : Prop := p.isRegistered = true ↔ p.phase ≠ .ended

/-- The instance is registered from its beginning to its end, and it is not stranded. -/
structure Profile.IsOrderly (p : Profile) : Prop where
  phase : p.phase ≠ .stuck
  isRegistered_iff : p.isRegistered = true ↔ p.phase ≠ .ended

namespace Topology

variable {s s' : Topology} {bus : Bus} {n : Nat} {p : Profile}

def IsRegistered (s : Topology) (n : Nat) : Prop :=
  ∃ p, s.profiles[n]? = some p ∧ p.isRegistered = true

theorem isRegistered_modify {f : Profile → Profile} (hp : s.profiles[n]? = some p)
    (hprofiles : s'.profiles = s.profiles.modify n f) (m : Nat) :
    s'.IsRegistered m ↔ if m = n then (f p).isRegistered = true else s.IsRegistered m := by
  unfold IsRegistered
  rw [hprofiles, List.getElem?_modify]
  by_cases hm : m = n
  · subst hm
    simp [hp]
  · simp [hm, Ne.symm hm]

/-! ## Accounts -/

/-- The bus is one without instances, with the listeners and the subscriptions of the registered
instances added to it. -/
structure Accounts (bus : Bus) (s : Topology) : Prop where
  listeners : ∀ q, q ∈ s.bus.listeners ↔ ∃ n, s.IsRegistered n ∧ q = .numbered n
  count : ∀ pattern, s.bus.count pattern =
    bus.count pattern + s.profiles.countP (Profile.subscribes pattern)
  tight : s.bus.IsTight

namespace Accounts

/-- The accounts change with the profile of one instance. -/
theorem modify {f : Profile → Profile} (h : Accounts bus s) (hp : s.profiles[n]? = some p)
    (hprofiles : s'.profiles = s.profiles.modify n f)
    (hlisteners : ∀ q, q ∈ s'.bus.listeners ↔
      if q = .numbered n then (f p).isRegistered = true else q ∈ s.bus.listeners)
    (hcount : ∀ pattern, s'.bus.count pattern + (if p.subscribes pattern then 1 else 0) =
      s.bus.count pattern + (if (f p).subscribes pattern then 1 else 0))
    (htight : s'.bus.IsTight) : Accounts bus s' := by
  refine ⟨fun q => (hlisteners q).trans ?_, fun pattern => ?_, htight⟩
  · by_cases hq : q = .numbered n
    · subst hq
      simp [isRegistered_modify hp hprofiles]
    · rw [if_neg hq, h.listeners q]
      refine exists_congr fun m => and_congr_left fun hm => ?_
      have hne : m ≠ n := fun heq => hq (heq ▸ hm)
      rw [isRegistered_modify hp hprofiles, if_neg hne]
  · -- both sides change by what the one instance subscribes to
    have hone := hcount pattern
    have hall := countP_modify hp f (Profile.subscribes pattern)
    rw [h.count pattern] at hone
    rw [hprofiles]
    omega

theorem withPhase (h : Accounts bus s) (hp : s.profiles[n]? = some p) (phase : Phase) :
    Accounts bus (s.withPhase n phase) := by
  refine h.modify hp rfl (fun q => ?_) (fun _ => rfl) h.tight
  by_cases hq : q = .numbered n
  · -- whether it is registered does not depend on its phase
    subst hq
    rw [if_pos rfl]
    refine (h.listeners _).trans ⟨?_, fun hknown => ⟨n, ⟨p, hp, hknown⟩, rfl⟩⟩
    rintro ⟨m, ⟨q, hq, hknown⟩, hm⟩
    cases hm
    cases hp.symm.trans hq
    exact hknown
  · rw [if_neg hq]
    rfl

/-- An instance becomes known. -/
theorem enrol (h : Accounts bus s) (hp : s.profiles[n]? = some p)
    (hknown : p.isRegistered = false) : Accounts bus (s.enrol n) := by
  have hsame := s.bus.subscriptions_addListener (.numbered n)
  have hcount : ∀ pattern, (s.bus.addListener (.numbered n)).count pattern =
      s.bus.count pattern := fun pattern => by
    rw [Bus.count, Bus.count, hsame]
  have htight : (s.bus.addListener (.numbered n)).IsTight := fun pattern => by
    rw [hsame]
    exact h.tight pattern
  rw [enrol_eq hp]
  refine h.modify hp rfl (fun q => ?_) (fun pattern => ?_) (htight.subscribeAll _)
  · rw [Bus.listeners_subscribeAll, Bus.mem_addListener]
    by_cases hq : q = .numbered n <;> simp [hq]
  · rw [Bus.count_subscribeAll p.graph.nodup_events, hcount]
    simp [Profile.subscribes, hknown, Graph.subscribesTo]

/-- An instance ends. -/
theorem dismiss (h : Accounts bus s) (hp : s.profiles[n]? = some p)
    (hknown : p.isRegistered = true) : Accounts bus (s.dismiss n) := by
  rw [dismiss_eq hp]
  refine h.modify hp rfl (fun q => ?_) (fun pattern => ?_) (h.tight.unsubscribeAll _)
  · rw [Bus.mem_removeListener, Bus.listeners_unsubscribeAll]
    by_cases hq : q = .numbered n <;> simp [hq]
  · have hback :
        ((s.bus.unsubscribeAll p.graph.events).removeListener (.numbered n)).count pattern =
          s.bus.count pattern - if p.graph.subscribesTo pattern then 1 else 0 :=
      Bus.count_unsubscribeAll p.graph.nodup_events s.bus pattern
    have hown : p.subscribes pattern = p.graph.subscribesTo pattern := by
      simp [Profile.subscribes, hknown]
    have hnone : ({ p with phase := .ended, isRegistered := false } : Profile).subscribes pattern =
        false := rfl
    rw [hback, hown, hnone]
    -- what is taken back was counted
    cases hsubscribed : p.graph.subscribesTo pattern with
    | false => rfl
    | true =>
        have hpos : 0 < s.profiles.countP (Profile.subscribes pattern) :=
          List.countP_pos_iff.2 ⟨p, List.mem_of_getElem? hp, hown.trans hsubscribed⟩
        have hcount := h.count pattern
        simp only [if_true, Bool.false_eq_true, if_false]
        omega

end Accounts

/-! ## New instances -/

theorem newcomers_eq (s s' : Topology) :
    s.newcomers s' =
      List.range' s.profiles.length (s'.profiles.length - s.profiles.length) := by
  simp [newcomers, List.range_eq_range']

theorem mem_newcomers {m : Nat} :
    m ∈ s.newcomers s' ↔ s.profiles.length ≤ m ∧ m < s'.profiles.length := by
  rw [newcomers_eq, List.mem_range'_1]
  omega

theorem nodup_newcomers (s s' : Topology) : (s.newcomers s').Nodup := by
  rw [newcomers_eq]
  exact List.nodup_range'

theorem profiles_enrol (s : Topology) (n m : Nat) :
    (s.enrol n).profiles[m]? =
      s.profiles[m]?.map fun p => if n = m then { p with isRegistered := true } else p := by
  unfold enrol
  cases hp : s.profiles[n]? with
  | none =>
      by_cases hm : n = m
      · subst hm
        simp [hp]
      · simp [hm]
  | some p =>
      simp only [List.getElem?_modify]
      split <;> simp

theorem profiles_enrolAll (ns : List Nat) (s : Topology) (m : Nat) :
    (ns.foldl enrol s).profiles[m]? =
      s.profiles[m]?.map fun p => if m ∈ ns then { p with isRegistered := true } else p := by
  induction ns generalizing s with
  | nil => simp
  | cons n rest ih =>
      rw [List.foldl_cons, ih, profiles_enrol]
      cases s.profiles[m]? with
      | none => rfl
      | some p =>
          by_cases hn : n = m
          · simp [hn]
          · simp [hn, Ne.symm hn]

namespace Accounts

/-- Instances that nobody knows become known, each once. -/
theorem enrolAll {ns : List Nat} (h : Accounts bus s) (hnodup : ns.Nodup)
    (hfree : ∀ n ∈ ns, ∃ p, s.profiles[n]? = some p ∧ p.isRegistered = false) :
    Accounts bus (ns.foldl Topology.enrol s) := by
  induction ns generalizing s with
  | nil => exact h
  | cons n rest ih =>
      obtain ⟨hnotMem, hrest⟩ := List.nodup_cons.1 hnodup
      obtain ⟨p, hp, hknown⟩ := hfree n List.mem_cons_self
      refine ih (h.enrol hp hknown) hrest fun m hm => ?_
      have hne : n ≠ m := fun heq => hnotMem (heq ▸ hm)
      obtain ⟨q, hq, hq'⟩ := hfree m (List.mem_cons_of_mem _ hm)
      exact ⟨q, by rw [profiles_enrol, hq]; simp [hne], hq'⟩

/-- Instances that nobody knows are not accounted for. -/
theorem grows (h : Accounts bus s) (hgrows : s.Grows s') : Accounts bus s' := by
  obtain ⟨added, kin, more, rfl, hadded⟩ := hgrows
  refine ⟨fun q => (h.listeners q).trans ?_, fun pattern => ?_, h.tight⟩
  · refine exists_congr fun m => and_congr_left fun _ => ⟨?_, ?_⟩
    · rintro ⟨p, hp, hknown⟩
      exact ⟨p, (List.getElem?_append_left (List.getElem?_eq_some_iff.1 hp).1).trans hp, hknown⟩
    · rintro ⟨p, hp, hknown⟩
      by_cases hold : m < s.profiles.length
      · exact ⟨p, (List.getElem?_append_left hold).symm.trans hp, hknown⟩
      · -- who was added is unknown
        have hnew := (List.getElem?_append_right (Nat.le_of_not_lt hold)).symm.trans hp
        rw [(hadded p (List.mem_of_getElem? hnew)).2.1] at hknown
        cases hknown
  · have hnone : added.countP (Profile.subscribes pattern) = 0 :=
      List.countP_eq_zero.2 fun p hp => by simp [Profile.subscribes, (hadded p hp).2.1]
    rw [List.countP_append, hnone]
    exact h.count pattern

end Accounts

/-- The instances that were added. -/
theorem Grows.of_mem_newcomers (h : s.Grows s') {m : Nat} (hm : m ∈ s.newcomers s') :
    ∃ p, s'.profiles[m]? = some p ∧ p.phase = .created ∧ p.isRegistered = false := by
  obtain ⟨hge, hlt⟩ := mem_newcomers.1 hm
  obtain ⟨added, kin, more, rfl, hadded⟩ := h
  have hnew : (s.profiles ++ added)[m]? = added[m - s.profiles.length]? :=
    List.getElem?_append_right hge
  have hp := List.getElem?_eq_getElem hlt
  obtain ⟨hphase, hknown, -⟩ := hadded _ (List.mem_of_getElem? (hnew.symm.trans hp))
  exact ⟨_, hp, hphase, hknown⟩

/-! ## Order -/

/-- Every instance is registered from its beginning to its end. -/
def IsEnlisted (s : Topology) : Prop :=
  ∀ (n : Nat) (p : Profile), s.profiles[n]? = some p → p.IsEnlisted

/-- Every instance is orderly. -/
def IsOrderly (s : Topology) : Prop :=
  ∀ (n : Nat) (p : Profile), s.profiles[n]? = some p → p.IsOrderly

theorem IsOrderly.isEnlisted (h : s.IsOrderly) : s.IsEnlisted :=
  fun n p hp => (h n p hp).isRegistered_iff

section Everywhere

variable {P : Profile → Prop}

/-- What holds of all instances holds on if it holds of the one that changes. -/
theorem forall_modify {f : Profile → Profile}
    (h : ∀ (n : Nat) (p : Profile), s.profiles[n]? = some p → P p)
    (hp : s.profiles[n]? = some p) (hprofiles : s'.profiles = s.profiles.modify n f)
    (hf : P (f p)) (m : Nat) (q : Profile) (hq : s'.profiles[m]? = some q) : P q := by
  rw [hprofiles, List.getElem?_modify] at hq
  obtain ⟨q', hq', rfl⟩ := Option.map_eq_some_iff.1 hq
  split
  · rename_i hn
    subst hn
    cases hp.symm.trans hq'
    exact hf
  · exact h m q' hq'

/-- It holds on if it holds of new instances as soon as they are known. -/
theorem forall_found (h : ∀ (n : Nat) (p : Profile), s.profiles[n]? = some p → P p)
    (hgrows : s.Grows s')
    (hnew : ∀ p : Profile, p.phase = .created → P { p with isRegistered := true }) (m : Nat)
    (q : Profile) (hq : ((s.newcomers s').foldl enrol s').profiles[m]? = some q) : P q := by
  rw [profiles_enrolAll] at hq
  obtain ⟨q', hq', rfl⟩ := Option.map_eq_some_iff.1 hq
  by_cases hm : m ∈ s.newcomers s'
  · obtain ⟨r, hr, hphase, -⟩ := hgrows.of_mem_newcomers hm
    cases hr.symm.trans hq'
    rw [if_pos hm]
    exact hnew q' hphase
  · rw [if_neg hm]
    have hold : m < s.profiles.length := by
      have hlt := (List.getElem?_eq_some_iff.1 hq').1
      exact Nat.lt_of_not_le fun hge => hm (mem_newcomers.2 ⟨hge, hlt⟩)
    obtain ⟨added, kin, more, rfl, -⟩ := hgrows
    exact h m q' ((List.getElem?_append_left hold).symm.trans hq')

end Everywhere

variable {label : Option Happening}

/-- All changes keep instances registered from their beginning to their end. -/
theorem Change.isEnlisted (h : s.Change label s') (henlisted : s.IsEnlisted) :
    s'.IsEnlisted := by
  cases h with
  | stay => exact henlisted
  | begin hp hphase =>
      have hknown := henlisted _ _ hp
      refine forall_modify henlisted hp rfl ?_
      simpa [Profile.IsEnlisted, hphase] using hknown
  | strand hp hphase =>
      -- the instance was running, and it stays registered for good
      have hknown := henlisted _ _ hp
      refine forall_modify henlisted hp rfl ?_
      simpa [Profile.IsEnlisted, hphase] using hknown
  | dismiss hp =>
      rw [dismiss_eq hp]
      exact forall_modify henlisted hp rfl (by simp [Profile.IsEnlisted])
  | found hgrows =>
      exact forall_found henlisted hgrows fun p hphase => by simp [Profile.IsEnlisted, hphase]
  | write memory => exact henlisted

/-- Without a delay that never ends all changes keep the order. -/
theorem Change.isOrderly (h : s.Change label s') (horderly : s.IsOrderly)
    (hfinite : ∀ h name, label = some h → h.fault? ≠ some (.endlessDelay name)) :
    s'.IsOrderly := by
  cases h with
  | stay => exact horderly
  | begin hp hphase =>
      obtain ⟨-, hiff⟩ := horderly _ _ hp
      refine forall_modify horderly hp rfl ⟨by simp, ?_⟩
      simpa [hphase] using hiff
  | strand _ _ hlabel hfault => exact absurd hfault (hfinite _ _ hlabel)
  | dismiss hp =>
      rw [dismiss_eq hp]
      exact forall_modify horderly hp rfl ⟨by simp, by simp⟩
  | found hgrows =>
      exact forall_found horderly hgrows fun p hphase => ⟨by simp [hphase], by simp [hphase]⟩
  | write memory => exact horderly

/-- All changes keep the accounts. -/
theorem Change.accounts (h : s.Change label s') (haccounts : Accounts bus s)
    (henlisted : s.IsEnlisted) : Accounts bus s' := by
  cases h with
  | stay => exact haccounts
  | begin hp hphase => exact haccounts.withPhase hp .running
  | strand hp => exact haccounts.withPhase hp .stuck
  | dismiss hp hphase =>
      -- it has not ended before, so it is registered, and there is something to take back
      exact haccounts.dismiss hp ((henlisted _ _ hp).2 (by simp [hphase]))
  | found hgrows =>
      refine (haccounts.grows hgrows).enrolAll (nodup_newcomers _ _) fun m hm => ?_
      obtain ⟨p, hp, -, hknown⟩ := hgrows.of_mem_newcomers hm
      exact ⟨p, hp, hknown⟩
  | write memory => exact ⟨haccounts.listeners, haccounts.count, haccounts.tight⟩

end Topology

/-! ## Runs -/

namespace World

variable {w₀ w : World} {hs : List Happening} {bus : Bus}

/-- The accounts are kept through every run. -/
theorem Run.isAccounted (hrun : Run w₀ hs w) (htidy : w₀.status.IsTidy)
    (haccounts : w₀.topology.Accounts bus) (henlisted : w₀.topology.IsEnlisted)
    (hbuilt : ∀ r, .asked r ∈ hs → r.IsBuilt) :
    w.topology.Accounts bus ∧ w.topology.IsEnlisted := by
  induction hrun with
  | start => exact ⟨haccounts, henlisted⟩
  | step hbefore hstep ih =>
      obtain ⟨-, hold⟩ := isBuilt_of_toList hbuilt
      obtain ⟨hkept, hknown⟩ := ih hold
      have hchange := hstep.changes (hbefore.isTidy htidy hold)
      exact ⟨hchange.accounts hkept hknown, hchange.isEnlisted hknown⟩

/-- In a run in which no delay is without end the order is kept, too. -/
theorem Run.accounts (hrun : Run w₀ hs w) (htidy : w₀.status.IsTidy)
    (haccounts : w₀.topology.Accounts bus) (horderly : w₀.topology.IsOrderly)
    (hbuilt : ∀ r, .asked r ∈ hs → r.IsBuilt)
    (hfinite : ∀ h ∈ hs, ∀ name, h.fault? ≠ some (.endlessDelay name)) :
    w.topology.Accounts bus ∧ w.topology.IsOrderly := by
  refine ⟨(hrun.isAccounted htidy haccounts horderly.isEnlisted hbuilt).1, ?_⟩
  -- only the order needs that no delay is without end
  induction hrun with
  | start => exact horderly
  | @step _ label _ _ hbefore hstep ih =>
      obtain ⟨-, hold⟩ := isBuilt_of_toList hbuilt
      have hordered := ih hold fun h hh => hfinite h (List.mem_append_right _ hh)
      refine (hstep.changes (hbefore.isTidy htidy hold)).isOrderly hordered ?_
      rintro h name rfl
      exact hfinite h (by simp) name

/-! ## Reading the world -/

theorem mem_registered {n : Nat} :
    n ∈ w.registered ↔ ∃ i, w.instance? n = some i ∧ i.isRegistered = true := by
  simp only [registered, List.mem_filterMap, Prod.exists, List.mem_zipIdx_iff_getElem?]
  constructor
  · rintro ⟨i, m, hi, hm⟩
    split at hm
    · rename_i hknown
      cases hm
      exact ⟨i, hi, hknown⟩
    · cases hm
  · rintro ⟨i, hi, hknown⟩
    exact ⟨i, n, hi, by simp [hknown]⟩

theorem isRegistered_iff_mem {n : Nat} : w.topology.IsRegistered n ↔ n ∈ w.registered := by
  rw [mem_registered]
  unfold Topology.IsRegistered
  rw [topology_profiles_getElem?]
  cases w.instance? n with
  | none => simp
  | some i => simp [Instance.profile]

theorem isOpen_of_hasEnded {i : Instance} (h : i.hasEnded = true) : i.isOpen = false := by
  rw [Instance.hasEnded, beq_iff_eq] at h
  simp [Instance.isOpen, h]

/-- Who takes events is registered. -/
theorem isRegistered_of_isOpen (h : w.topology.IsEnlisted) {n : Nat} {i : Instance}
    (hi : w.instance? n = some i) (hopen : i.isOpen = true) : i.isRegistered = true := by
  refine (h n i.profile (profile_of_instance? hi)).2 fun hphase => ?_
  have hended : i.hasEnded = true := beq_iff_eq.2 hphase
  rw [isOpen_of_hasEnded hended] at hopen
  cases hopen

/-- Without a stranded instance the registered ones are those that take events. -/
theorem isRegistered_eq_isOpen (h : w.topology.IsOrderly) {n : Nat} {i : Instance}
    (hi : w.instance? n = some i) : i.isRegistered = i.isOpen := by
  obtain ⟨hphase, hiff⟩ := h n i.profile (profile_of_instance? hi)
  simp only [Instance.profile] at hphase hiff
  rw [Bool.eq_iff_iff, hiff]
  unfold Instance.isOpen
  cases hi : i.phase <;> simp_all

theorem isRegistered_eq_isOpen_of_mem (h : w.topology.IsOrderly) {i : Instance}
    (hi : i ∈ w.instances) : i.isRegistered = i.isOpen := by
  obtain ⟨n, hn⟩ := List.mem_iff_getElem?.1 hi
  exact isRegistered_eq_isOpen h hn

/-! ### Accounts -/

theorem mem_listeners_iff (h : w.topology.Accounts bus) (p : Party) :
    p ∈ w.bus.listeners ↔ ∃ n ∈ w.registered, p = .numbered n := by
  refine (h.listeners p).trans (exists_congr fun n => and_congr_left fun _ => ?_)
  exact isRegistered_iff_mem

theorem count_eq (h : w.topology.Accounts bus) (pattern : String) :
    w.bus.count pattern = bus.count pattern +
      w.instances.countP fun i => i.isRegistered && i.graph.subscribesTo pattern := by
  have hcount : w.topology.profiles.countP (Profile.subscribes pattern) =
      w.instances.countP fun i => i.isRegistered && i.graph.subscribesTo pattern :=
    List.countP_map
  rw [← hcount]
  exact h.count pattern

/-- A pattern to which no registered instance subscribes. -/
theorem count_of_idle (h : w.topology.Accounts bus) {pattern : String}
    (hidle : ∀ i ∈ w.instances, i.isRegistered = true → i.graph.subscribesTo pattern = false) :
    w.bus.count pattern = bus.count pattern := by
  have hzero : w.instances.countP (fun i =>
      i.isRegistered && i.graph.subscribesTo pattern) = 0 := by
    refine List.countP_eq_zero.2 fun i hi hboth => ?_
    obtain ⟨hknown, hsubscribes⟩ := Bool.and_eq_true_iff.1 hboth
    rw [hidle i hi hknown] at hsubscribes
    cases hsubscribes
  rw [count_eq h, hzero, Nat.add_zero]

/-- Without registered instances nothing is left of any of them. -/
theorem bus_of_registered_nil (h : w.topology.Accounts bus) (htight : bus.IsTight)
    (hnone : w.registered = []) :
    w.bus.listeners = [] ∧ w.bus.subscriptions = bus.subscriptions := by
  have hfree : ∀ n, n ∉ w.registered := fun n hn => by
    rw [hnone] at hn
    cases hn
  constructor
  · refine List.eq_nil_iff_forall_not_mem.2 fun p hp => ?_
    obtain ⟨n, hn, -⟩ := (mem_listeners_iff h p).1 hp
    exact hfree n hn
  · have hown : w.bus.IsTight := h.tight
    refine hown.subscriptions_eq htight fun pattern => count_of_idle h fun i hi hknown => ?_
    obtain ⟨n, hn⟩ := List.mem_iff_getElem?.1 hi
    exact absurd (mem_registered.2 ⟨i, hn, hknown⟩) (hfree n)

section Engines

variable (memory : Memory) (root : LayerId) (c : Configuration) (services : Registry Float)
  (choices : Choices)

theorem engine_isTight : (engine memory root c services choices).bus.IsTight :=
  List.foldlRecOn (motive := Bus.IsTight) openSources _
    (fun _ => by simp [ofMemory, Bus.ofCapacity]) fun _ hb source _ => hb.subscribe source wildcard

theorem engine_accounts :
    (engine memory root c services choices).topology.Accounts
      (engine memory root c services choices).bus := by
  refine ⟨fun q => ?_, fun pattern => rfl, engine_isTight memory root c services choices⟩
  have hnone : ∀ n, ¬ (engine memory root c services choices).topology.IsRegistered n := by
    rintro n ⟨p, hp, -⟩
    cases hp
  simp only [hnone, false_and, exists_false, iff_false]
  exact List.not_mem_nil

theorem engine_count (pattern : String) :
    (engine memory root c services choices).bus.count pattern =
      (if subject Channel.global.name wildcard = pattern then 1 else 0) +
        if subject Channel.peripheral.name wildcard = pattern then 1 else 0 := by
  have hbus : (engine memory root c services choices).bus =
      ((Bus.ofCapacity c.execution.eventCapacity).subscribe Channel.global.name wildcard).subscribe
        Channel.peripheral.name wildcard := rfl
  have hempty : (Bus.ofCapacity c.execution.eventCapacity).count pattern = 0 := rfl
  rw [hbus, Bus.count_subscribe, Bus.count_subscribe, hempty, Nat.zero_add]

theorem engine_count_event (event : String) :
    (engine memory root c services choices).bus.count (subject wildcard event) = 0 := by
  have hglobal : subject wildcard event ≠ subject Channel.global.name wildcard :=
    subject_wildcard_ne (by simp [openSources]) event
  have hperipheral : subject wildcard event ≠ subject Channel.peripheral.name wildcard :=
    subject_wildcard_ne (by simp [openSources]) event
  rw [engine_count, if_neg hglobal.symm, if_neg hperipheral.symm]

theorem engine_count_open {source : String} (h : source ∈ openSources) :
    (engine memory root c services choices).bus.count (subject source wildcard) = 1 := by
  rw [engine_count]
  simp only [openSources, List.mem_cons, List.not_mem_nil, or_false] at h
  rcases h with rfl | rfl
  · rfl
  · rfl

theorem engine_isOrderly : (engine memory root c services choices).topology.IsOrderly := by
  intro n p hp
  cases hp

variable {memory root c services choices}

/-- At any time of a run in which no delay is without end, the registered instances are those that
take events, and they are the listeners. For every event there are as many subscriptions as such
instances with a transition on it, and the events for everybody are subscribed to once. Without
registered instances the bus is as it was in the beginning. -/
theorem registry_of_run (hrun : Run (engine memory root c services choices) hs w)
    (hbuilt : ∀ r, .asked r ∈ hs → r.IsBuilt)
    (hfinite : ∀ h ∈ hs, ∀ name, h.fault? ≠ some (.endlessDelay name)) :
    (∀ n, n ∈ w.registered ↔ ∃ i, w.instance? n = some i ∧ i.isOpen = true) ∧
      (∀ p, p ∈ w.bus.listeners ↔ ∃ n ∈ w.registered, p = .numbered n) ∧
      (∀ event, w.bus.count (subject wildcard event) =
        w.instances.countP fun i => i.isOpen && i.graph.handles event) ∧
      (∀ source ∈ [Channel.global.name, Channel.peripheral.name],
        w.bus.count (subject source wildcard) = 1) ∧
      (w.registered = [] → w.bus.listeners = [] ∧
        w.bus.subscriptions = (engine memory root c services choices).bus.subscriptions) := by
  obtain ⟨haccounts, horderly⟩ :=
    hrun.accounts (engine_isNew memory root c services choices).isTidy
      (engine_accounts memory root c services choices)
      (engine_isOrderly memory root c services choices) hbuilt hfinite
  refine ⟨fun n => ?_, mem_listeners_iff haccounts, fun event => ?_, fun source hsource => ?_,
    bus_of_registered_nil haccounts (engine_isTight memory root c services choices)⟩
  · rw [mem_registered]
    exact exists_congr fun i => and_congr_right fun hi => by
      rw [isRegistered_eq_isOpen horderly hi]
  · rw [count_eq haccounts, engine_count_event, Nat.zero_add]
    refine List.countP_congr fun i hi => ?_
    rw [isRegistered_eq_isOpen_of_mem horderly hi, Graph.subscribesTo_subject]
  · rw [count_of_idle haccounts fun i _ _ => Graph.subscribesTo_open hsource i.graph,
      engine_count_open memory root c services choices hsource]

end Engines

/-! ### Two instances -/

/-- A graph with two states, of which the second one is terminal. -/
def twoStates : Description.Graph :=
  { name := "two states", isAbstract := false, locals := [], nested := []
    states :=
      [{ name := "open", isInitial := true, isTerminal := false, entry := [], exit := []
         during := [], after := [], on := [⟨"push", ⟨some "shut", [], [], none⟩⟩], always := []
         locals := [] },
        { name := "shut", isInitial := false, isTerminal := true, entry := [], exit := []
          during := [], after := [], on := [], always := [], locals := [] }] }

def twoInstances : List Request :=
  [.place (.ofBuilt true twoStates (by decide +kernel)) .empty none,
    .place (.ofBuilt true twoStates (by decide +kernel)) .empty none]

theorem twoInstances_isBuilt {r : Request} (h : r ∈ twoInstances) : r.IsBuilt := by
  simp only [twoInstances, List.mem_cons, List.not_mem_nil, or_false] at h
  rcases h with rfl | rfl
  · exact ⟨true, Graph.ofBuilt_isBuilt true twoStates _⟩
  · exact ⟨true, Graph.ofBuilt_isBuilt true twoStates _⟩

/-- The first of the two is asked to stop before it takes an event that is there already. -/
def cancelled : World :=
  ((attend 20 (bare .eventsFirst) twoInstances).2.serve
    (.offer (.numbered 0) ⟨"push", .internal, []⟩)).serve (.cancel 0)

def cancelledRun : List Happening × World :=
  let first := trace 20 cancelled
  (first.1 ++ [.asked (.cancel 0), .asked (.offer (.numbered 0) ⟨"push", .internal, []⟩)] ++
    (attend 20 (bare .eventsFirst) twoInstances).1, first.2)

theorem run_cancelled : Run (bare .eventsFirst) cancelledRun.1 cancelledRun.2 := by
  have hasked := ((run_attend 20 (bare .eventsFirst) twoInstances).step
    (.ask _ (.offer (.numbered 0) ⟨"push", .internal, []⟩))).step (.ask _ (.cancel 0))
  have hall := hasked.trans (run_trace 20 cancelled)
  simpa [cancelledRun, List.append_assoc] using hall

/-- It takes the event all the same, and then only the other one is left. -/
theorem cancelled_registry :
    (cancelledRun.2.instance? 0).any (fun i => i.inbox.isEmpty) = true ∧
      cancelledRun.2.registered = [1] ∧
      (∀ p, p ∈ cancelledRun.2.bus.listeners ↔ p = .numbered 1) ∧
      cancelledRun.2.bus.count (subject wildcard "push") = 1 ∧
      cancelledRun.2.bus.count (subject Channel.global.name wildcard) = 1 := by
  have hbuilt : ∀ r, .asked r ∈ cancelledRun.1 → r.IsBuilt := by
    intro r hr
    simp only [cancelledRun, List.append_assoc, List.mem_append, List.mem_cons,
      List.not_mem_nil, or_false] at hr
    rcases hr with hr | (hr | hr) | hr
    · exact absurd hr (asked_notMem_trace _ _ _)
    · cases hr
      trivial
    · cases hr
      trivial
    · exact twoInstances_isBuilt (mem_of_asked_attend hr)
  have hnone : cancelledRun.1.all (fun h => h.fault?.isNone) = true := by decide +kernel
  have hfinite : ∀ h ∈ cancelledRun.1, ∀ name, h.fault? ≠ some (.endlessDelay name) := by
    intro h hh name hfault
    have hthis := List.all_eq_true.1 hnone h hh
    rw [hfault] at hthis
    cases hthis
  have hregistered : cancelledRun.2.registered = [1] := by decide +kernel
  have hopen : cancelledRun.2.instances.countP (fun i =>
      i.isOpen && i.graph.handles "push") = 1 := by decide +kernel
  obtain ⟨-, hlisteners, hevents, hopenly, -⟩ := registry_of_run run_cancelled hbuilt hfinite
  refine ⟨by decide +kernel, hregistered, fun p => ?_, (hevents "push").trans hopen,
    hopenly _ List.mem_cons_self⟩
  rw [hlisteners p, hregistered]
  simp

end World

end Statechart
