import Mathlib.Data.List.Nodup
import Mathlib.Logic.Relation
import Statechart.Proofs.Engine.Delivery
import Statechart.Proofs.Engine.Kinship
import Statechart.Proofs.Engine.Registry

/-!
# Whom internal events reach

An internal event goes from an instance to those nested in it, and on from each of them, until it
comes to one that has ended. In a forest nobody is met twice.

- `World.Descends`      : one instance is nested in another one, or is the same
- `World.Reaches`       : an internal event for the one is for the other, too
- `World.mem_audience`  : the audience of an internal event are those whom it reaches
- `World.nodup_audience` : each of them once
- `World.internal_of_run` : what an internal event does at any time of a run
-/

namespace Statechart

namespace World

open Relation

variable {w : World} {p c n m s : Nat} {i : Instance}

/-! ## Who is nested in whom -/

/-- The one instance is nested in the other one, with none between them. -/
def IsParent (w : World) (p c : Nat) : Prop := ∃ i, w.instance? c = some i ∧ i.parent = some p

/-- The one instance is nested in the other one at any depth, or it is the same. -/
def Descends (w : World) (n m : Nat) : Prop := ReflTransGen w.IsParent n m

/-- An instance that has not ended passes internal events on to those nested in it, even if it is
stranded and takes none itself. -/
def PassesTo (w : World) (p c : Nat) : Prop :=
  w.IsParent p c ∧ ∃ i, w.instance? p = some i ∧ i.hasEnded = false

/-- The one instance takes events, and from the other one down to it no instance has ended. -/
def Reaches (w : World) (n m : Nat) : Prop := ReflTransGen w.PassesTo n m ∧ w.isOpenAt m = true

theorem isParent_iff : w.IsParent p c ↔ parentIn w.kin c = some p := by
  rw [parentIn, kin_getElem?, Option.bind_map]
  exact Option.bind_eq_some_iff.symm

theorem nestedIn_kin (hi : w.instance? p = some i) : nestedIn w.kin p = i.nested := by
  rw [nestedIn, kin_getElem?, hi]
  rfl

theorem descends_of_passesTo (h : ReflTransGen w.PassesTo n m) : w.Descends n m :=
  ReflTransGen.mono (fun _ _ hstep => hstep.1) n m h

/-- From an instance that has ended nothing is passed on. -/
theorem eq_of_hasEnded (hi : w.instance? n = some i) (hended : i.hasEnded = true)
    (h : ReflTransGen w.PassesTo n m) : n = m := by
  rcases h.cases_head with rfl | ⟨c, ⟨-, j, hj, hlive⟩, -⟩
  · rfl
  · cases hi.symm.trans hj
    rw [hended] at hlive
    cases hlive

theorem isParent_unique {q : Nat} (h : w.IsParent p c) (h' : w.IsParent q c) : p = q := by
  obtain ⟨i, hi, hp⟩ := h
  obtain ⟨j, hj, hq⟩ := h'
  cases hi.symm.trans hj
  exact Option.some.inj (hp.symm.trans hq)

/-- Of two instances in which a third one is nested one is nested in the other. -/
theorem descends_total (h : w.Descends n c) (h' : w.Descends m c) :
    w.Descends n m ∨ w.Descends m n := by
  have hunique : Relator.RightUnique (Function.swap w.IsParent) :=
    fun _ _ _ h h' => isParent_unique h h'
  rcases ReflTransGen.total_of_right_unique hunique h.swap h'.swap with h | h
  · exact .inr h.swap
  · exact .inl h.swap

section Forest

variable (hforest : IsForest [] w.kin)

include hforest

theorem mem_nested_iff (hi : w.instance? p = some i) : c ∈ i.nested ↔ w.IsParent p c := by
  rw [isParent_iff, ← nestedIn_kin hi]
  exact ⟨fun h => (hforest.child p c h).2, fun h =>
    (hforest.parent c p h).2.resolve_left List.not_mem_nil⟩

theorem lt_of_isParent (h : w.IsParent p c) : p < c :=
  (hforest.parent c p (isParent_iff.1 h)).1

theorem le_of_descends (h : w.Descends n m) : n ≤ m := by
  induction h with
  | refl => exact Nat.le_refl n
  | tail _ hstep ih => exact Nat.le_trans ih (Nat.le_of_lt (lt_of_isParent hforest hstep))

/-- Nobody is nested in those that are nested in it. -/
theorem eq_of_descends (h : w.Descends n m) (h' : w.Descends m n) : n = m :=
  Nat.le_antisymm (le_of_descends hforest h) (le_of_descends hforest h')

/-- What is nested in two instances with one parent cannot be. -/
theorem eq_of_siblings {d : Nat} (hc : w.IsParent p c) (hd : w.IsParent p d)
    (hcm : w.Descends c m) (hdm : w.Descends d m) : c = d := by
  have hup : ∀ {c d}, w.IsParent p c → w.IsParent p d → w.Descends c d → c = d := by
    intro c d hc hd h
    rcases ReflTransGen.cases_tail h with rfl | ⟨q, hcq, hq⟩
    · rfl
    · -- the way down leads over the parent, which is older
      obtain rfl := isParent_unique hd hq
      have hle := le_of_descends hforest hcq
      have hlt := lt_of_isParent hforest hc
      omega
  rcases descends_total hcm hdm with h | h
  · exact hup hc hd h
  · exact (hup hd hc h).symm

/-! ## The audience -/

/-- The nested instances that are asked are those that pass the event on or take it. -/
theorem reaches_succ (henlisted : w.topology.IsEnlisted) (hi : w.instance? n = some i)
    (hlive : i.hasEnded = false) :
    w.Reaches n m ↔ (∃ c ∈ i.nested, ∃ j, w.instance? c = some j ∧ j.isRegistered = true ∧
      w.Reaches c m) ∨ (n = m ∧ i.isOpen = true) := by
  constructor
  · rintro ⟨hpath, hopen⟩
    rcases hpath.cases_head with rfl | ⟨c, hstep, hrest⟩
    · rw [isOpenAt_of_instance? hi] at hopen
      exact .inr ⟨rfl, hopen⟩
    · obtain ⟨j, hj, hp⟩ := hstep.1
      refine .inl ⟨c, (mem_nested_iff hforest hi).2 hstep.1, j, hj, ?_, hrest, hopen⟩
      -- one that has ended would be the last, but it does not take the event
      refine (henlisted c j.profile (profile_of_instance? hj)).2 fun hended => ?_
      have hended : j.hasEnded = true := beq_iff_eq.2 hended
      obtain rfl := eq_of_hasEnded hj hended hrest
      rw [isOpenAt_of_instance? hj, isOpen_of_hasEnded hended] at hopen
      cases hopen
  · rintro (⟨c, hc, j, -, -, hpath, hopen⟩ | ⟨rfl, hopen⟩)
    · have hparent := (mem_nested_iff hforest hi).1 hc
      exact ⟨hpath.head ⟨hparent, i, hi, hlive⟩, hopen⟩
    · exact ⟨.refl, by rwa [isOpenAt_of_instance? hi]⟩

theorem mem_audience (henlisted : w.topology.IsEnlisted) {depth : Nat}
    (hi : w.instance? n = some i) (hdepth : w.instances.length ≤ depth + n) :
    m ∈ audience w.instances depth n ↔ w.Reaches n m := by
  have hthere : n < w.instances.length := (List.getElem?_eq_some_iff.1 hi).1
  -- instances are younger the deeper they are, so that the depth suffices all the way down
  induction depth generalizing n i with
  | zero => omega
  | succ depth ih =>
      rw [audience_succ w.instances depth n hi]
      cases hlive : i.hasEnded with
      | true =>
          simp only [if_true, List.not_mem_nil, false_iff]
          rintro ⟨hpath, hopen⟩
          obtain rfl := eq_of_hasEnded hi hlive hpath
          rw [isOpenAt_of_instance? hi, isOpen_of_hasEnded hlive] at hopen
          cases hopen
      | false =>
          rw [reaches_succ hforest henlisted hi hlive, if_neg Bool.false_ne_true, List.mem_append,
            mem_ite_singleton, List.mem_flatMap]
          refine or_congr_left (exists_congr fun c => and_congr_right fun hc => ?_)
          obtain ⟨j, hj, hparent⟩ := (mem_nested_iff hforest hi).1 hc
          have hyounger : n < c := lt_of_isParent hforest ⟨j, hj, hparent⟩
          have hchild := ih hj (by omega) (List.getElem?_eq_some_iff.1 hj).1
          have hj' : w.instances[c]? = some j := hj
          rw [hj', Option.any_some]
          cases hknown : j.isRegistered with
          | true =>
              rw [if_pos rfl]
              refine hchild.trans ⟨fun h => ⟨j, hj, hknown, h⟩, ?_⟩
              rintro ⟨_, -, -, h⟩
              exact h
          | false =>
              rw [if_neg Bool.false_ne_true]
              refine ⟨fun h => absurd h List.not_mem_nil, ?_⟩
              rintro ⟨j', hj', hknown', -⟩
              cases hj.symm.trans hj'
              rw [hknown] at hknown'
              cases hknown'

theorem nodup_audience (henlisted : w.topology.IsEnlisted) {depth : Nat}
    (hi : w.instance? n = some i) (hdepth : w.instances.length ≤ depth + n) :
    (audience w.instances depth n).Nodup := by
  induction depth generalizing n i with
  | zero => exact List.nodup_nil
  | succ depth ih =>
      have hchild : ∀ c ∈ i.nested, w.IsParent n c ∧
          (∀ m ∈ audience w.instances depth c, w.Descends c m) ∧
          (audience w.instances depth c).Nodup := by
        intro c hc
        have hparent := (mem_nested_iff hforest hi).1 hc
        obtain ⟨j, hj, _⟩ := id hparent
        have hyounger : n < c := lt_of_isParent hforest hparent
        have hdepth' : w.instances.length ≤ depth + c := by omega
        refine ⟨hparent, fun m hm => ?_, ih hj hdepth'⟩
        exact descends_of_passesTo ((mem_audience hforest henlisted hj hdepth').1 hm).1
      have hasked : ∀ c m, m ∈ (if w.instances[c]?.any (·.isRegistered) then
          audience w.instances depth c else []) → m ∈ audience w.instances depth c := by
        intro c m hm
        split at hm
        · exact hm
        · cases hm
      rw [audience_succ w.instances depth n hi]
      split
      · exact List.nodup_nil
      · refine List.nodup_append.2 ⟨List.nodup_flatMap.2 ⟨fun c hc => ?_, ?_⟩, ?_, ?_⟩
        · split
          · exact (hchild c hc).2.2
          · exact List.nodup_nil
        · -- what is below different nested instances is different
          have hnested : i.nested.Nodup := nestedIn_kin hi ▸ hforest.nodup n
          refine List.Pairwise.imp_of_mem (fun {c d} hc hd hne => ?_) hnested
          intro m hm hm'
          have hcm := (hchild c hc).2.1 m (hasked c m hm)
          have hdm := (hchild d hd).2.1 m (hasked d m hm')
          exact hne (eq_of_siblings hforest (hchild c hc).1 (hchild d hd).1 hcm hdm)
        · cases i.isOpen <;> simp
        · -- the instance is older than those below it
          rintro m hm m' hm' rfl
          obtain ⟨c, hc, hm⟩ := List.mem_flatMap.1 hm
          obtain ⟨rfl, -⟩ := mem_ite_singleton.1 hm'
          have hle := le_of_descends hforest ((hchild c hc).2.1 n (hasked c n hm))
          have hlt := lt_of_isParent hforest (hchild c hc).1
          omega

end Forest

/-! ## Internal events -/

theorem offer_internal {e : Event} (hi : w.instance? n = some i) (he : e.channel = .internal) :
    w.offer (.numbered n) e =
      ((audience w.instances w.instances.length n).foldl (post e) w, i.isOpen) := by
  simp only [offer, hi, recipients, if_pos he]

/-- An instance that has ended refuses the event, and it is nobody's. -/
theorem offer_of_hasEnded {e : Event} (hi : w.instance? n = some i) (he : e.channel = .internal)
    (hended : i.hasEnded = true) : w.offer (.numbered n) e = (w, false) := by
  have hnobody : audience w.instances w.instances.length n = [] := by
    have hthere := (List.getElem?_eq_some_iff.1 hi).1
    obtain ⟨depth, hdepth⟩ := Nat.exists_eq_add_one_of_ne_zero (Nat.ne_zero_of_lt hthere)
    rw [hdepth, audience_succ w.instances depth n hi, if_pos hended]
  rw [offer_internal hi he, hnobody, isOpen_of_hasEnded hended]
  rfl

/-- An event is at the end of the inbox once of those whom it reaches, and of nobody else. -/
theorem inbox?_offer_internal {e : Event} (hforest : IsForest [] w.kin)
    (henlisted : w.topology.IsEnlisted) (hi : w.instance? n = some i)
    (he : e.channel = .internal) {j : Instance} (hj : w.instance? m = some j) :
    (w.Reaches n m → (w.offer (.numbered n) e).1.inbox? m = some (j.inbox ++ [e])) ∧
      (¬ w.Reaches n m → (w.offer (.numbered n) e).1.inbox? m = some j.inbox) := by
  have hdepth : w.instances.length ≤ w.instances.length + n := Nat.le_add_right _ _
  have hmem := mem_audience (m := m) hforest henlisted hi hdepth
  have hposted : (w.offer (.numbered n) e).1.inbox? m = some (j.inbox ++
      List.replicate ((audience w.instances w.instances.length n).count m) e) := by
    rw [offer_internal hi he, inbox?_postAll, inbox?, hj]
    rfl
  rw [hposted]
  constructor
  · intro hreaches
    rw [List.count_eq_one_of_mem (nodup_audience hforest henlisted hi hdepth) (hmem.2 hreaches)]
    rfl
  · intro hreaches
    rw [List.count_eq_zero.2 (mt hmem.1 hreaches), List.replicate_zero, List.append_nil]

section Engines

variable {memory : Memory} {root : LayerId} {c : Configuration} {services : Registry Float}
  {choices : Choices} {hs : List Happening} {e : Event}

/-- At any time of a run an internal event that is offered to an instance is for exactly those
whom it reaches: the instance itself and what is nested in it, as far as no instance between has
ended, and as far as they take events. Each of them gets it once, nobody else gets it, and it is
not on the bus. An instance that has ended refuses it. The event comes to nobody in whom the
instance is nested, and to nobody beside it. -/
theorem internal_of_run (hrun : NestedRun (engine memory root c services choices) hs w)
    (hbuilt : ∀ r, .asked r ∈ hs → r.IsBuilt) (hi : w.instance? n = some i)
    (he : e.channel = .internal) :
    (w.offer (.numbered n) e).2 = i.isOpen ∧
      (i.hasEnded = true → w.offer (.numbered n) e = (w, false)) ∧
      (w.offer (.numbered n) e).1.bus = w.bus ∧
      (∀ m j, w.instance? m = some j →
        (w.Reaches n m → (w.offer (.numbered n) e).1.inbox? m = some (j.inbox ++ [e])) ∧
        (¬ w.Reaches n m → (w.offer (.numbered n) e).1.inbox? m = some j.inbox)) ∧
      (∀ m, w.Descends m n → m ≠ n → ¬ w.Reaches n m) ∧
      (∀ s m, ¬ w.Descends s n → ¬ w.Descends n s → w.Descends s m → ¬ w.Reaches n m) := by
  have hnew := engine_isNew memory root c services choices
  have hforest : IsForest [] w.kin := hrun.isForest hnew
  have henlisted : w.topology.IsEnlisted :=
    (hrun.run.isAccounted hnew.isTidy (engine_accounts memory root c services choices)
      (engine_isOrderly memory root c services choices).isEnlisted hbuilt).2
  refine ⟨by rw [offer_internal hi he], offer_of_hasEnded hi he, ?_, fun m j hj =>
    inbox?_offer_internal hforest henlisted hi he hj, ?_, ?_⟩
  · obtain ⟨_, _, _, _, hframe, -⟩ := (Delivers.offer w (.numbered n) e).frame
    rw [hframe, Bus.publishAll_nil]
  · intro m hup hne hreaches
    exact hne (eq_of_descends hforest hup (descends_of_passesTo hreaches.1))
  · intro s m hsn hns hsm hreaches
    exact (descends_total hsm (descends_of_passesTo hreaches.1)).elim hsn hns

end Engines

/-! ### Machines in machines -/

/-- A machine that ignores all events. -/
def leafMachine : Description.Graph :=
  { name := "leaf", isAbstract := false, locals := [], nested := []
    states :=
      [{ name := "waiting", isInitial := true, isTerminal := false, entry := [], exit := []
         during := [], after := [], on := [], always := [], locals := [] }] }

/-- A machine that can end, with one nested in it. -/
def middleMachine : Description.Graph :=
  { name := "middle", isAbstract := false, locals := [], nested := [leafMachine]
    states :=
      [{ name := "idle", isInitial := true, isTerminal := false, entry := [], exit := []
         during := [], after := [], on := [⟨"finish", ⟨some "done", [], [], none⟩⟩], always := []
         locals := [] },
        { name := "done", isInitial := false, isTerminal := true, entry := [], exit := []
          during := [], after := [], on := [], always := [], locals := [] }] }

def outerMachine : Description.Graph :=
  { leafMachine with name := "outer", nested := [middleMachine] }

def outerGraph : Graph := .ofBuilt true outerMachine (by decide +kernel)

def leafGraph : Graph := .ofBuilt true leafMachine (by decide +kernel)

/-- Serves a request until nothing is ready. -/
def settled (w : World) (r : Request) : World := (trace 40 (w.serve r)).2

/-- Three instances, each but the first nested in another one. -/
def nestedWorld : World := settled bare (.place outerGraph .empty none)

/-- A fourth one is nested in the first. -/
def widenedWorld : World := settled nestedWorld (.place leafGraph .empty (some 0))

/-- The second one has ended, and so has the third one. -/
def endedWorld : World := settled widenedWorld (.offer (.numbered 1) ⟨"finish", .internal, []⟩)

/-- A fifth one is nested in the second, and has not begun yet. -/
def lateWorld : World := endedWorld.serve (.place leafGraph .empty (some 1))

def probe : Event := ⟨"probe", .internal, []⟩

theorem lateWorld_run : ∃ hs, NestedRun bare hs lateWorld ∧ ∀ r, .asked r ∈ hs → r.IsBuilt := by
  have hnew : bare.Nests (.place outerGraph .empty none) := fun _ hp => by cases hp
  have hwidened : nestedWorld.Nests (.place leafGraph .empty (some 0)) := by
    rintro p ⟨⟩
    decide +kernel
  have hended : widenedWorld.Nests (.offer (.numbered 1) ⟨"finish", .internal, []⟩) :=
    fun _ hp => by cases hp
  have hlate : endedWorld.Nests (.place leafGraph .empty (some 1)) := by
    rintro p ⟨⟩
    decide +kernel
  have hrun := ((NestedRun.start.serve hnew 40).serve hwidened 40).serve hended 40
  refine ⟨_, hrun.step (.ask _ (.place leafGraph .empty (some 1))) fun r hr => ?_, fun r hr => ?_⟩
  · cases hr
    exact hlate
  · simp only [Option.toList_some, List.cons_append, List.nil_append, List.mem_cons,
      List.mem_append, asked_notMem_trace, false_or, List.not_mem_nil, or_false,
      Happening.asked.injEq] at hr
    rcases hr with rfl | rfl | rfl | rfl
    · exact ⟨true, Graph.ofBuilt_isBuilt true leafMachine _⟩
    · trivial
    · exact ⟨true, Graph.ofBuilt_isBuilt true leafMachine _⟩
    · exact ⟨true, Graph.ofBuilt_isBuilt true outerMachine _⟩

/-- What is seen of an instance from outside. -/
def glance (i : Instance) : Option Nat × Bool × Bool × Bool :=
  (i.parent, i.hasEnded, i.isOpen, i.inbox.isEmpty)

theorem lateWorld_glances :
    lateWorld.instances.map glance =
      [(none, false, true, true), (some 0, true, false, true), (some 1, true, false, true),
        (some 0, false, true, true), (some 1, false, true, true)] := by
  decide +kernel

/-- An event for the first instance is for the fourth one, too, but not for the fifth one, as the
second one has ended; there it is refused. -/
theorem lateWorld_internal :
    (lateWorld.offer (.numbered 0) probe).2 = true ∧
      lateWorld.offer (.numbered 1) probe = (lateWorld, false) ∧
      (lateWorld.offer (.numbered 0) probe).1.inbox? 0 = some [probe] ∧
      (lateWorld.offer (.numbered 0) probe).1.inbox? 3 = some [probe] ∧
      (lateWorld.offer (.numbered 0) probe).1.inbox? 4 = some [] := by
  obtain ⟨hs, hrun, hbuilt⟩ := lateWorld_run
  have hglance : ∀ n, (lateWorld.instance? n).map glance =
      [(none, false, true, true), (some 0, true, false, true), (some 1, true, false, true),
        (some 0, false, true, true), (some 1, false, true, true)][n]? := by
    intro n
    rw [← lateWorld_glances, List.getElem?_map]
    rfl
  have hsee : ∀ {n parent hasEnded isOpen isEmpty},
      (lateWorld.instance? n).map glance = some (parent, hasEnded, isOpen, isEmpty) →
      ∃ i, lateWorld.instance? n = some i ∧ i.parent = parent ∧ i.hasEnded = hasEnded ∧
        i.isOpen = isOpen ∧ i.inbox.isEmpty = isEmpty := by
    intro n parent hasEnded isOpen isEmpty h
    obtain ⟨i, hi, hseen⟩ := Option.map_eq_some_iff.1 h
    cases hseen
    exact ⟨i, hi, rfl, rfl, rfl, rfl⟩
  obtain ⟨outer, houter, -, hlive, hopen, hempty⟩ := hsee (hglance 0)
  obtain ⟨middle, hmiddle, -, hended, -, -⟩ := hsee (hglance 1)
  obtain ⟨leaf, hleaf, hinside, -, hleafOpen, hleafEmpty⟩ := hsee (hglance 3)
  obtain ⟨late, hlate, hbehind, -, -, hlateEmpty⟩ := hsee (hglance 4)
  obtain ⟨htaken, -, -, hinboxes, -, -⟩ := internal_of_run hrun hbuilt houter (e := probe) rfl
  obtain ⟨-, hrefused, -⟩ := internal_of_run hrun hbuilt hmiddle (e := probe) rfl
  have hself : lateWorld.Reaches 0 0 := ⟨.refl, by rwa [isOpenAt_of_instance? houter]⟩
  have hwithin : lateWorld.Reaches 0 3 :=
    ⟨.single ⟨⟨leaf, hleaf, hinside⟩, outer, houter, hlive⟩,
      by rwa [isOpenAt_of_instance? hleaf]⟩
  -- the way to the last instance leads over one that has ended
  have hbeyond : ¬ lateWorld.Reaches 0 4 := by
    rintro ⟨hpath, -⟩
    rcases ReflTransGen.cases_tail hpath with h | ⟨q, -, hparent, i, hi, hlive⟩
    · cases h
    · obtain rfl := isParent_unique hparent ⟨late, hlate, hbehind⟩
      cases hmiddle.symm.trans hi
      rw [hended] at hlive
      cases hlive
  refine ⟨htaken.trans hopen, hrefused hended, ?_, ?_, ?_⟩
  · rw [(hinboxes 0 outer houter).1 hself, List.isEmpty_iff.1 hempty]
    rfl
  · rw [(hinboxes 3 leaf hleaf).1 hwithin, List.isEmpty_iff.1 hleafEmpty]
    rfl
  · rw [(hinboxes 4 late hlate).2 hbeyond, List.isEmpty_iff.1 hlateEmpty]

end World

end Statechart
