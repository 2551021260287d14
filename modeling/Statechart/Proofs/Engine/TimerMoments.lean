import Statechart.Proofs.Engine.Run

/-!
# When timers fire

A timer fires whole periods after its start, on a clock that shows whole milliseconds. How far it
is tells how often it has fired.

- `firingTimes`          : the times of the first firings
- `FiresUntil`           : a timer fires at these times as far as a moment, and at no others
- `TimerStage.IsOnTime`  : how far a timer is after some firings
- `Timer.firesUntil`     : then it has fired as far as now
-/

namespace Statechart

/-! ## Whole milliseconds -/

theorem milliNanos_pos : 0 < milliNanos := by decide

namespace World

theorem le_wholeMillis (time : Nat) : time ≤ wholeMillis time := by
  unfold wholeMillis milliNanos
  omega

theorem wholeMillis_lt (time : Nat) : wholeMillis time < time + milliNanos := by
  unfold wholeMillis milliNanos
  omega

theorem wholeMillis_add (time millis : Nat) :
    wholeMillis (time + millis * milliNanos) = wholeMillis time + millis * milliNanos := by
  unfold wholeMillis milliNanos
  omega

@[simp]
theorem wholeMillis_wholeMillis (time : Nat) :
    wholeMillis (wholeMillis time) = wholeMillis time := by
  unfold wholeMillis milliNanos
  omega

/-- A whole millisecond is not passed by before the millisecond is over in which a time lies. -/
theorem wholeMillis_le_iff {time moment : Nat} :
    wholeMillis time ≤ wholeMillis moment ↔ time ≤ wholeMillis moment := by
  unfold wholeMillis milliNanos
  omega

end World

/-! ## Firings -/

/-- The moment of a firing: some periods after the end of the millisecond of the start. -/
def firingTime (since period count : Nat) : Nat := World.wholeMillis since + count * period

/-- The moments of the first firings, the last one first. -/
def firingTimes (since period : Nat) : Nat → List Nat
  | 0 => []
  | count + 1 => firingTime since period (count + 1) :: firingTimes since period count

/-- A timer fires once at the end of every period that is over before a moment, and at the moment
itself unless it still waits for its turn then. It fires at no other times, and never if its first
period would end past all moments. -/
structure FiresUntil (since period horizon moment : Nat) (isWaiting : Bool) (times : List Nat) :
    Prop where
  once : times.Nodup
  mem_iff : ∀ time, time ∈ times ↔ since + period < horizon ∧
    (∃ k, time = firingTime since period (k + 1)) ∧
      (time < moment ∨ time = moment ∧ isWaiting = false)

section Times

variable {since period count time : Nat}

theorem firingTime_lt (hperiod : 0 < period) {k n : Nat} :
    firingTime since period k < firingTime since period n ↔ k < n := by
  rw [firingTime, firingTime, Nat.add_lt_add_iff_left]
  exact Nat.mul_lt_mul_right hperiod

theorem mem_firingTimes :
    time ∈ firingTimes since period count ↔
      ∃ k < count, time = firingTime since period (k + 1) := by
  induction count with
  | zero => simp [firingTimes]
  | succ count ih =>
      rw [firingTimes, List.mem_cons, ih]
      constructor
      · rintro (rfl | ⟨k, hk, rfl⟩)
        · exact ⟨count, Nat.lt_succ_self count, rfl⟩
        · exact ⟨k, Nat.lt_succ_of_lt hk, rfl⟩
      · rintro ⟨k, hk, rfl⟩
        rcases Nat.lt_succ_iff_lt_or_eq.1 hk with hlt | rfl
        · exact .inr ⟨k, hlt, rfl⟩
        · exact .inl rfl

theorem nodup_firingTimes (hperiod : 0 < period) : (firingTimes since period count).Nodup := by
  induction count with
  | zero => exact List.nodup_nil
  | succ count ih =>
      refine List.nodup_cons.2 ⟨fun hmem => ?_, ih⟩
      -- all others are earlier
      obtain ⟨k, hk, heq⟩ := mem_firingTimes.1 hmem
      have hlt : firingTime since period (k + 1) < firingTime since period (count + 1) :=
        (firingTime_lt hperiod).2 (Nat.succ_lt_succ hk)
      exact Nat.ne_of_lt hlt heq.symm

/-- What is due after some periods is seen at the end of the millisecond. -/
theorem wholeMillis_due {millis : Nat} (hperiod : period = millis * milliNanos)
    (since count : Nat) :
    World.wholeMillis (since + count * period) = firingTime since period count := by
  rw [firingTime, hperiod, ← Nat.mul_assoc, World.wholeMillis_add]

/-- All firings before a moment are those of the periods that are over. -/
theorem firesUntil_firingTimes {horizon moment : Nat} {isWaiting : Bool} (hperiod : 0 < period)
    (hbegun : since + period < horizon)
    (hover : ∀ k < count, firingTime since period (k + 1) < moment ∨
      firingTime since period (k + 1) = moment ∧ isWaiting = false)
    (hnext : moment < firingTime since period (count + 1) ∨
      moment = firingTime since period (count + 1) ∧ isWaiting = true) :
    FiresUntil since period horizon moment isWaiting (firingTimes since period count) := by
  refine ⟨nodup_firingTimes hperiod, fun time => mem_firingTimes.trans ⟨?_, ?_⟩⟩
  · rintro ⟨k, hk, rfl⟩
    exact ⟨hbegun, ⟨k, rfl⟩, hover k hk⟩
  · rintro ⟨-, ⟨k, rfl⟩, hreached⟩
    refine ⟨k, ?_, rfl⟩
    have hbefore : firingTime since period (k + 1) < firingTime since period (count + 1) := by
      rcases hnext with hlater | ⟨rfl, hwaits⟩
      · rcases hreached with hlt | ⟨heq, -⟩
        · exact Nat.lt_trans hlt hlater
        · exact heq ▸ hlater
      · rcases hreached with hlt | ⟨-, hpolled⟩
        · exact hlt
        · cases hwaits.symm.trans hpolled
    exact Nat.lt_of_succ_lt_succ ((firingTime_lt hperiod).1 hbefore)

/-- A timer that never fires, since it was started just now or cannot begin. -/
theorem firesUntil_nil {horizon moment : Nat} {isWaiting : Bool}
    (h : moment ≤ since ∨ horizon ≤ since + period) (hperiod : 0 < period) :
    FiresUntil since period horizon moment isWaiting [] := by
  refine ⟨List.nodup_nil, fun time => ⟨fun hmem => absurd hmem List.not_mem_nil, ?_⟩⟩
  rintro ⟨hbegun, ⟨k, rfl⟩, hreached⟩
  have hsince := World.le_wholeMillis since
  have hfirst : 0 < (k + 1) * period := Nat.mul_pos k.succ_pos hperiod
  rw [firingTime] at hreached
  omega

end Times

/-! ## How far a timer is -/

/-- How far a timer is that has been started at a time and has fired some times since. -/
inductive TimerStage.IsOnTime (period since horizon clock : Nat) : Nat → TimerStage → Prop where
  /-- It begins before the clock moves. -/
  | fresh : clock = since → IsOnTime period since horizon clock 0 .fresh
  | asleep {count : Nat} : since + period < horizon →
      (0 < count → firingTime since period count ≤ clock) →
        clock < firingTime since period (count + 1) →
          IsOnTime period since horizon clock count (.asleep (since + (count + 1) * period))
  /-- It fires before the clock moves. -/
  | awake {count : Nat} : since + period < horizon →
      clock = firingTime since period (count + 1) →
        IsOnTime period since horizon clock count (.awake (since + (count + 1) * period))
  /-- The first period would end past all moments. -/
  | lost : horizon ≤ since + period → IsOnTime period since horizon clock 0 .lost

/-- A timer that is on time has fired as far as now; if it waits to fire, it will do so now. -/
theorem Timer.firesUntil {t : Timer} {since horizon clock count : Nat}
    (h : t.stage.IsOnTime t.period since horizon clock count) (hperiod : 0 < t.period) :
    FiresUntil since t.period horizon clock t.isAwake (firingTimes since t.period count) := by
  rw [isAwake]
  generalize t.stage = stage at h
  cases h with
  | fresh heq => exact firesUntil_nil (.inl (Nat.le_of_eq heq)) hperiod
  | @asleep count hbegun hlast hnext =>
      refine firesUntil_firingTimes hperiod hbegun (fun k hk => ?_) (.inl hnext)
      have hle : firingTime since t.period (k + 1) ≤ firingTime since t.period count := by
        rcases Nat.lt_or_eq_of_le (Nat.succ_le_of_lt hk) with hlt | heq
        · exact Nat.le_of_lt ((firingTime_lt hperiod).2 hlt)
        · exact Nat.le_of_eq (congrArg _ heq)
      have hreached := Nat.le_trans hle (hlast (Nat.zero_lt_of_lt hk))
      exact (Nat.lt_or_eq_of_le hreached).imp_right fun heq => ⟨heq, rfl⟩
  | awake hbegun heq =>
      refine firesUntil_firingTimes hperiod hbegun (fun k hk => .inl ?_) (.inr ⟨heq, rfl⟩)
      rw [heq]
      exact (firingTime_lt hperiod).2 (Nat.succ_lt_succ hk)
  | lost hlost => exact firesUntil_nil (.inr hlost) hperiod

end Statechart
