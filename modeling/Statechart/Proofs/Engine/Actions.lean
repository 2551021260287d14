import Statechart.Engine.Rehearsal
import Statechart.Proofs.Engine.Decisions
import Statechart.Proofs.Engine.Transition
import Statechart.Proofs.Worklist.Actions

/-!
# Actions with a machine and without

Timers and responses are followed by actions that no machine waits for. They come to the same as in
the turn of an instance: the same effects in the same order, and the same world. Neither way do
they move anything.

- `Machine.ActsIn.actor_matches` : a machine acts as its world does
- `rehearsalMachine_actsIn`      : rehearsals act in a world, too
- `Machine.ActsIn.drains_alike`  : worklists of actions
-/

namespace Statechart

/-- In a rehearsal nothing is written down of actions. -/
theorem rehearsalMachine_actsIn :
    rehearsalMachine.ActsIn Rehearsal.world fun r => (r.active, r.protocol) where
  perform _ _ _ := rfl
  remark _ _ := rfl
  control_perform _ _ _ := rfl
  control_remark _ _ := rfl
  active? h := (Prod.mk.inj h).1

namespace Machine.ActsIn

variable {σ κ : Type} {m : Machine σ} {world : σ → World} {control : σ → κ}

theorem unfolds (h : m.ActsIn world control) : m.toActor.Unfolds := by
  intro s site action t next hperform
  have hworld := h.perform s site action
  rw [hperform] at hworld
  exact World.unfolds (world s) site action (world t) next hworld

theorem actor_matches (h : m.ActsIn world control) :
    Actor.Matches (fun s w => world s = w) m.toActor worldActor := by
  refine ⟨fun {s w} hst site action => ?_, fun {s w} hst r => ?_⟩
  · subst hst
    have hworld := h.perform s site action
    exact ⟨congrArg Prod.fst hworld.symm, congrArg Prod.snd hworld.symm⟩
  · subst hst
    exact h.remark s r

theorem of_doesAll (h : m.ActsIn world control) {s t : σ} {work : List (Site × Action)}
    {es : List Effect} (hdoes : m.DoesAll s work es t) :
    World.Spares es (world s) (world t) ∧ control t = control s := by
  induction hdoes with
  | nil s => exact ⟨.refl _, rfl⟩
  | cons hfirst _ ih =>
      exact ⟨(spares_of_does h hfirst).trans ih.1, ih.2.trans (control_of_does h hfirst)⟩

/-- A worklist of actions comes to its end, in no more steps than there are actions in it, whatever
they write. A machine ends without a fault, where it was, and none of its own operations is used:
all effects are actions. Its timers are lost by resets only. Without the machine, its world comes
to the same end, with the same effects in the same order. -/
theorem drains_alike (h : m.ActsIn world control) (s : σ) (work : List (Site × Action)) :
    ∃ es t,
      es.length ≤ totalWeight (work.map (·.2)) ∧
      (∀ e ∈ es, ∃ site action, e = .did site action) ∧
      (∀ fuel, es.length ≤ fuel →
        m.drain fuel s (acts work) = some ⟨t, [], .ok ()⟩ ∧
        m.traced.drain fuel (s, []) (acts work) = some ⟨(t, es), [], .ok ()⟩ ∧
        worldActor.drain fuel (world s) (acts work) = some (world t) ∧
        worldActor.traced.drain fuel (world s, []) (acts work) = some (world t, es)) ∧
      control t = control s ∧
      m.active? t = m.active? s ∧
      (world s).Spares es (world t) := by
  obtain ⟨es, t, hdoes⟩ := exists_doesAll h.unfolds s work
  obtain ⟨hspares, hcontrol⟩ := h.of_doesAll hdoes
  refine ⟨es, t, hdoes.length_le h.unfolds, hdoes.did, fun fuel hfuel => ?_, hcontrol,
    h.active? hcontrol, hspares⟩
  have hdetached := hdoes.ends_detached hfuel
  have hwritten := (hdoes.traced []).ends_detached hfuel
  refine ⟨hdoes.ends hfuel, (hdoes.traced []).ends hfuel, ?_, ?_⟩
  · -- the actions of the machine are those of its world
    obtain ⟨w, hdrain, hw⟩ := h.actor_matches.exists_drain rfl hdetached
    rw [hdrain, hw]
  · rw [toActor_traced] at hwritten
    obtain ⟨⟨w, written⟩, hdrain, hw, hes⟩ :=
      h.actor_matches.traced.exists_drain (t := (world s, [])) ⟨rfl, rfl⟩ hwritten
    rw [hdrain]
    exact congrArg some (Prod.ext hw.symm hes.symm)

end Machine.ActsIn

/-! ### A trial -/

namespace Worker

/-- The worker is idle, and its timer runs. -/
def timed : World := ((instanceMachine 0).startTimers world idle).1

/-- A case that is chosen and one that is not, a timer that there is not, and the one there is. -/
def chores : List (Site × Action) :=
  [(timed.machineSite 0, .choose (.ofLiteral (.bool true))
      [(.ofLiteral (.bool true), raise "chosen"), (.ofLiteral (.bool false), raise "passed")]),
    (timed.machineSite 0, .resetTimeout "tock"),
    (timed.stateSite 0 idle, .resetTimeout "tick")]

end Worker

open Worker in
/-- With the worker and without it there are four effects, though one of them fails. The timer is
lost by the last one. -/
theorem chores_alike :
    (instanceMachine 0).ActsIn id World.controls ∧
      ∃ es t,
        (instanceMachine 0).drain 20 timed (acts chores) = some ⟨t, [], .ok ()⟩ ∧
        worldActor.traced.drain 20 (timed, []) (acts chores) = some (t, es) ∧
        es.length = 4 ∧ timed.timers.length = 1 ∧ t.timers.length = 0 ∧ timed.Spares es t := by
  have hacts := instanceMachine_actsIn 0
  obtain ⟨es, t, hlength, -, hdrains, -, -, hspares⟩ :=
    hacts.drains_alike timed chores
  have hweight : totalWeight (chores.map (·.2)) = 5 := by decide +kernel
  have hfuel : es.length ≤ 20 := by omega
  obtain ⟨hdrain, -, -, htraced⟩ := hdrains 20 hfuel
  have hwritten : worldActor.traced.drain 20 (timed, []) (acts chores) = some (t, es) := htraced
  have hcounts : (worldActor.traced.drain 20 (timed, []) (acts chores)).map
      (fun d => (d.2.length, d.1.timers.length)) = some (4, 0) := by
    decide +kernel
  have htimers : timed.timers.length = 1 := by decide +kernel
  rw [hwritten] at hcounts
  obtain ⟨heffects, hlost⟩ := Prod.mk.inj (Option.some.inj hcounts)
  exact ⟨hacts, es, t, hdrain, hwritten, heffects, htimers, hlost, hspares⟩

end Statechart
