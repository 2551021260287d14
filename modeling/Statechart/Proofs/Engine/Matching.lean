import Mathlib.Data.List.Infix
import Mathlib.Data.List.Induction
import Mathlib.Data.List.Nodup
import Statechart.Proofs.Engine.Delivery
import Statechart.Proofs.Engine.Subscriptions

/-!
# What subscriptions select

A bus keeps a subscription as one text, source and name with a point between them, and reads the
text up to its first point when an event is published. So the histories of two subscriptions with
one text are one, and a source with a point in it is read as a shorter source with a longer name.

- `Bus.Call`, `Bus.after`     : a bus after everything that was asked of it
- `Bus.IsHeld`                : a subscription that was added more often than removed
- `Bus.isSubscribed_after`    : a text is subscribed to if a subscription that is held matches it
- `Bus.Reads`                 : a text and what the bus takes it for
- `World.send_of_calls`       : who is offered an event, after any history of the bus
-/

namespace Statechart

/-- The source that an event is published under. -/
def Event.publisher (e : Event) (source : Party) : String :=
  match e.channel with
  | .external => source.id
  | channel => channel.name

theorem subjectOf_publisher {e : Event} (h : e.channel ≠ .internal) (source : Party) :
    subjectOf e source.id = .ok (subject (e.publisher source) e.name) := by
  unfold subjectOf Event.publisher
  cases hchannel : e.channel with
  | internal => exact absurd hchannel h
  | external => rfl
  | global => rfl
  | peripheral => rfl

namespace Bus

/-! ## Histories -/

/-- What can be asked of a bus. -/
inductive Call where
  | subscribe (source name : String)
  | unsubscribe (source name : String)
  | add (p : Party)
  | remove (p : Party)
  | publish (e : Event) (source : Party)
  | observe

def serve (b : Bus) : Call → Bus
  | .subscribe source name => b.subscribe source name
  | .unsubscribe source name => b.unsubscribe source name
  | .add p => b.addListener p
  | .remove p => b.removeListener p
  | .publish e source => b.publish e source
  | .observe => b.observe.2

/-- A look at the bus only moves the mark of what was seen. -/
theorem exists_seen_observe (b : Bus) : ∃ seen, b.observe.2 = { b with seen } := by
  simp only [observe]
  split
  · exact ⟨_, rfl⟩
  · exact ⟨_, rfl⟩

/-- A new bus after some calls. -/
def after (capacity : Nat) (calls : List Call) : Bus := calls.foldl serve (ofCapacity capacity)

theorem after_concat (capacity : Nat) (calls : List Call) (call : Call) :
    after capacity (calls ++ [call]) = (after capacity calls).serve call := by
  rw [after, List.foldl_concat, after]

/-- The subscription that a call adds. -/
def Call.added? : Call → Option (String × String)
  | .subscribe source name => some (source, name)
  | _ => none

/-- The subscription that a call removes. -/
def Call.removed? : Call → Option (String × String)
  | .unsubscribe source name => some (source, name)
  | _ => none

def added (calls : List Call) : List (String × String) := calls.filterMap Call.added?

def removed (calls : List Call) : List (String × String) := calls.filterMap Call.removed?

theorem added_concat (calls : List Call) (call : Call) :
    added (calls ++ [call]) = added calls ++ call.added?.toList := by
  rw [added, List.filterMap_append, added]
  cases call <;> rfl

theorem removed_concat (calls : List Call) (call : Call) :
    removed (calls ++ [call]) = removed calls ++ call.removed?.toList := by
  rw [removed, List.filterMap_append, removed]
  cases call <;> rfl

/-- At no time a subscription was removed more often than added. -/
def IsBalanced (calls : List Call) : Prop :=
  ∀ before ∈ calls.inits, ∀ subscription ∈ removed before,
    (removed before).count subscription ≤ (added before).count subscription

instance (calls : List Call) : Decidable (IsBalanced calls) :=
  inferInstanceAs (Decidable (∀ before ∈ calls.inits, ∀ subscription ∈ removed before,
    (removed before).count subscription ≤ (added before).count subscription))

/-- A subscription was added more often than removed. -/
def IsHeld (calls : List Call) (source name : String) : Prop :=
  (removed calls).count (source, name) < (added calls).count (source, name)

instance (calls : List Call) (source name : String) : Decidable (IsHeld calls source name) :=
  inferInstanceAs (Decidable (_ < _))

/-- A listener was added and not removed since. -/
def IsListening (calls : List Call) (p : Party) : Prop :=
  ∃ before later, calls = before ++ .add p :: later ∧ .remove p ∉ later

theorem IsBalanced.before {calls : List Call} {call : Call} (h : IsBalanced (calls ++ [call])) :
    IsBalanced calls := by
  intro before hbefore
  apply h before
  rw [List.mem_inits] at hbefore ⊢
  exact hbefore.trans (List.prefix_append calls [call])

/-- What is removed was held. -/
theorem IsBalanced.isHeld {calls : List Call} {source name : String}
    (h : IsBalanced (calls ++ [.unsubscribe source name])) : IsHeld calls source name := by
  have hnow := h (calls ++ [.unsubscribe source name]) (by simp) (source, name)
    (by simp [removed_concat, Call.removed?])
  rw [IsHeld, ← Nat.succ_le_iff]
  simpa [removed_concat, added_concat, Call.removed?, Call.added?] using hnow

/-! ## Subscriptions that are left -/

/-- What a call does to the subscriptions. -/
def Call.keep (left : List (String × String)) : Call → List (String × String)
  | .subscribe source name => (source, name) :: left
  | .unsubscribe source name => left.erase (source, name)
  | _ => left

/-- The subscriptions that are left, each as often as it is held. -/
def left (calls : List Call) : List (String × String) := calls.foldl Call.keep []

theorem left_concat (calls : List Call) (call : Call) :
    left (calls ++ [call]) = call.keep (left calls) := by
  rw [left, List.foldl_concat, left]

/-- What is left of a subscription and what was removed is what was added. -/
theorem count_left {calls : List Call} (h : IsBalanced calls) (subscription : String × String) :
    (left calls).count subscription + (removed calls).count subscription =
      (added calls).count subscription := by
  induction calls using List.reverseRecOn with
  | nil => rfl
  | append_singleton calls call ih =>
      have hbefore := ih h.before
      rw [left_concat, removed_concat, added_concat]
      cases call with
      | subscribe source name =>
          simp only [Call.keep, Call.removed?, Call.added?, Option.toList, List.append_nil,
            List.count_append, List.count_cons, List.count_nil]
          omega
      | unsubscribe source name =>
          -- by the balance there is one left to be erased
          have hheld : IsHeld calls source name := h.isHeld
          simp only [Call.keep, Call.removed?, Call.added?, Option.toList, List.append_nil,
            List.count_append, List.count_erase, List.count_singleton]
          by_cases hsame : (source, name) = subscription
          · subst hsame
            simp only [IsHeld] at hheld
            simp only [beq_self_eq_true, if_true]
            omega
          · simp only [beq_eq_false_iff_ne.2 hsame, Bool.false_eq_true, if_false]
            omega
      | add | remove | publish | observe =>
          simpa [Call.keep, Call.removed?, Call.added?] using hbefore

theorem mem_left {calls : List Call} (h : IsBalanced calls) {source name : String} :
    (source, name) ∈ left calls ↔ IsHeld calls source name := by
  have hcount := count_left h (source, name)
  rw [← List.count_pos_iff, IsHeld]
  omega

/-- A bus counts subscriptions by their texts. -/
theorem count_after {calls : List Call} (h : IsBalanced calls) (capacity : Nat)
    (pattern : String) :
    (after capacity calls).count pattern =
      (left calls).countP fun subscription => subject subscription.1 subscription.2 == pattern := by
  induction calls using List.reverseRecOn with
  | nil => rfl
  | append_singleton calls call ih =>
      have hbefore := ih h.before
      rw [after_concat, left_concat]
      cases call with
      | subscribe source name =>
          rw [serve, count_subscribe, hbefore, Call.keep, List.countP_cons]
          simp only [beq_iff_eq]
      | unsubscribe source name =>
          have hleft : (source, name) ∈ left calls := (mem_left h.before).2 h.isHeld
          -- taking one of several subscriptions with the same text leaves the others
          have hone := (List.perm_cons_erase hleft).countP_eq
            fun subscription => subject subscription.1 subscription.2 == pattern
          rw [List.countP_cons] at hone
          simp only [beq_iff_eq] at hone
          rw [serve, count_unsubscribe, hbefore, hone, Call.keep]
          exact Nat.add_sub_cancel _ _
      | add p =>
          exact (congrArg (fun t => (t.get? pattern).getD 0)
            (subscriptions_addListener _ p)).trans hbefore
      | remove => exact hbefore
      | publish => exact hbefore
      | observe =>
          obtain ⟨seen, hseen⟩ := exists_seen_observe (after capacity calls)
          rw [serve, hseen]
          exact hbefore

theorem isTight_after (capacity : Nat) (calls : List Call) : (after capacity calls).IsTight := by
  induction calls using List.reverseRecOn with
  | nil =>
      intro pattern heq
      cases heq
  | append_singleton calls call ih =>
      rw [after_concat]
      cases call with
      | subscribe source name => exact ih.subscribe source name
      | unsubscribe source name => exact ih.unsubscribe source name
      | add p =>
          intro pattern
          rw [serve, subscriptions_addListener]
          exact ih pattern
      | remove => exact ih
      | publish => exact ih
      | observe =>
          obtain ⟨seen, hseen⟩ := exists_seen_observe (after capacity calls)
          rw [serve, hseen]
          exact ih

/-- A text is subscribed to if a pattern that is subscribed to matches it. -/
theorem IsTight.isSubscribed_iff {b : Bus} (h : b.IsTight) (text : String) :
    b.isSubscribed text = true ↔
      ∃ pattern, 0 < b.count pattern ∧ matchesSubject pattern text = true := by
  rw [isSubscribed, List.any_eq_true]
  constructor
  · rintro ⟨⟨pattern, k⟩, hentry, hmatches⟩
    have hget : b.subscriptions.get? pattern = some k := Table.mem_entries_iff.1 hentry
    have hk : k ≠ 0 := fun hzero => h pattern (hzero ▸ hget)
    refine ⟨pattern, ?_, hmatches⟩
    rw [count, hget]
    exact Nat.pos_of_ne_zero hk
  · rintro ⟨pattern, hcount, hmatches⟩
    cases hget : b.subscriptions.get? pattern with
    | none =>
        rw [count, hget] at hcount
        exact absurd hcount (Nat.lt_irrefl 0)
    | some k => exact ⟨(pattern, k), Table.mem_entries_iff.2 hget, hmatches⟩

/-- A text is subscribed to if a subscription that is held matches it. -/
theorem isSubscribed_after {calls : List Call} (h : IsBalanced calls) (capacity : Nat)
    (text : String) :
    (after capacity calls).isSubscribed text = true ↔
      ∃ source name, IsHeld calls source name ∧ matchesSubject (subject source name) text := by
  rw [(isTight_after capacity calls).isSubscribed_iff]
  constructor
  · rintro ⟨pattern, hcount, hmatches⟩
    rw [count_after h, List.countP_pos_iff] at hcount
    obtain ⟨⟨source, name⟩, hleft, hpattern⟩ := hcount
    rw [beq_iff_eq] at hpattern
    exact ⟨source, name, (mem_left h).1 hleft, hpattern ▸ hmatches⟩
  · rintro ⟨source, name, hheld, hmatches⟩
    refine ⟨subject source name, ?_, hmatches⟩
    rw [count_after h, List.countP_pos_iff]
    exact ⟨(source, name), (mem_left h).2 hheld, beq_self_eq_true _⟩

/-! ## Listeners -/

theorem listeners_subscribe (b : Bus) (source name : String) :
    (b.subscribe source name).listeners = b.listeners := rfl

theorem listeners_unsubscribe (b : Bus) (source name : String) :
    (b.unsubscribe source name).listeners = b.listeners := by
  simp only [unsubscribe]
  split <;> rfl

theorem nodup_addListener {b : Bus} (h : b.listeners.Nodup) (p : Party) :
    (b.addListener p).listeners.Nodup := by
  unfold addListener
  split
  · exact h
  · rename_i hnew
    exact h.append (List.nodup_singleton p) (List.disjoint_singleton.2 hnew)

/-- The last call about a party says whether it listens. -/
theorem isListening_concat (calls : List Call) (call : Call) (p : Party) :
    IsListening (calls ++ [call]) p ↔ call = .add p ∨ (call ≠ .remove p ∧ IsListening calls p) := by
  constructor
  · rintro ⟨before, later, hcalls, hkept⟩
    -- the last call is the one that added the party, or a later one that did not remove it
    cases later using List.reverseRecOn with
    | nil =>
        have hlast : calls = before ∧ call = .add p := by simpa using hcalls
        exact .inl hlast.2
    | append_singleton later last =>
        have hlast : calls ++ [call] = (before ++ .add p :: later) ++ [last] := by
          simpa using hcalls
        obtain ⟨hearlier, hsame⟩ := List.append_inj' hlast rfl
        simp only [List.cons.injEq, and_true] at hsame
        subst hsame
        rw [List.mem_append, not_or] at hkept
        exact .inr ⟨fun heq => hkept.2 (heq ▸ List.mem_singleton_self _),
          before, later, hearlier, hkept.1⟩
  · rintro (rfl | ⟨hne, before, later, rfl, hkept⟩)
    · exact ⟨calls, [], rfl, List.not_mem_nil⟩
    · refine ⟨before, later ++ [call], by simp, ?_⟩
      rw [List.mem_append, not_or, List.mem_singleton]
      exact ⟨hkept, fun heq => hne heq.symm⟩

theorem nodup_listeners_after (capacity : Nat) (calls : List Call) :
    (after capacity calls).listeners.Nodup := by
  induction calls using List.reverseRecOn with
  | nil => exact List.nodup_nil
  | append_singleton calls call ih =>
      rw [after_concat]
      cases call with
      | subscribe => exact ih
      | unsubscribe source name => exact (listeners_unsubscribe _ source name).symm ▸ ih
      | add p => exact nodup_addListener ih p
      | remove p => exact ih.filter _
      | publish => exact ih
      | observe =>
          obtain ⟨seen, hseen⟩ := exists_seen_observe (after capacity calls)
          rw [serve, hseen]
          exact ih

/-- A party listens if it was added and not removed since. -/
theorem mem_listeners_after (capacity : Nat) (calls : List Call) (p : Party) :
    p ∈ (after capacity calls).listeners ↔ IsListening calls p := by
  induction calls using List.reverseRecOn with
  | nil => simp [after, ofCapacity, IsListening]
  | append_singleton calls call ih =>
      rw [after_concat, isListening_concat, ← ih]
      cases call with
      | subscribe => simp [serve, listeners_subscribe]
      | unsubscribe => simp [serve, listeners_unsubscribe]
      | add q => simp [serve, mem_addListener, eq_comm]
      | remove q => simp [serve, mem_removeListener, eq_comm]
      | publish => simp [serve, publish]
      | observe =>
          obtain ⟨seen, hseen⟩ := exists_seen_observe (after capacity calls)
          simp [serve, hseen]

/-! ## Texts -/

/-- What the bus takes a text for: a source up to the first point, and a name behind it. -/
def Reads (text source name : String) : Prop := subject source name = text ∧ '.' ∉ source.toList

/-- A subscription covers the events of a source and a name. -/
def Covers (wantedSource wantedName source name : String) : Prop :=
  (wantedSource = wildcard ∨ wantedSource = source) ∧ (wantedName = wildcard ∨ wantedName = name)

theorem reads_subject {source : String} (h : '.' ∉ source.toList) (name : String) :
    Reads (subject source name) source name := ⟨rfl, h⟩

/-- Whatever the source and the name are, the bus takes their text for something. -/
theorem exists_reads (source name : String) :
    ∃ source' name', Reads (subject source name) source' name' := by
  have hpoint : '.' ∈ (subject source name).toList := by simp [subject]
  -- the text is cut at its first point, wherever the source ends
  obtain ⟨before, later, htext, hfirst⟩ := List.eq_append_cons_of_mem hpoint
  refine ⟨String.ofList before, String.ofList later, ?_, ?_⟩
  · apply String.toList_inj.1
    calc (subject (String.ofList before) (String.ofList later)).toList
        = before ++ '.' :: later := by simp [subject]
      _ = (subject source name).toList := htext.symm
  · rw [String.toList_ofList]
    exact hfirst

theorem matchesPart_iff (wanted part : String) :
    matchesPart wanted.toList part.toList = true ↔ wanted = wildcard ∨ wanted = part := by
  simp only [matchesPart, Bool.or_eq_true, beq_iff_eq, String.toList_inj]

/-- Texts match as they are read. -/
theorem matchesSubject_of_reads {pattern text wantedSource wantedName source name : String}
    (hpattern : Reads pattern wantedSource wantedName) (htext : Reads text source name) :
    matchesSubject pattern text = true ↔ Covers wantedSource wantedName source name := by
  rw [← hpattern.1, ← htext.1, matchesSubject_subject hpattern.2 htext.2, Bool.and_eq_true,
    matchesPart_iff, matchesPart_iff]
  rfl

/-- A subscription that is held covers a source and a name. -/
def IsWanted (calls : List Call) (source name : String) : Prop :=
  ∃ wantedSource wantedName, IsHeld calls wantedSource wantedName ∧
    Covers wantedSource wantedName source name

/-- A subscription that is held covers a source and a name, both as they are read. -/
def IsTaken (calls : List Call) (source name : String) : Prop :=
  ∃ wantedSource wantedName readSource readName source' name',
    IsHeld calls wantedSource wantedName ∧
    Reads (subject wantedSource wantedName) readSource readName ∧
    Reads (subject source name) source' name' ∧
    Covers readSource readName source' name'

/-- The bus goes by what it takes subscriptions and events for. -/
theorem isSubscribed_iff_isTaken {calls : List Call} (h : IsBalanced calls) (capacity : Nat)
    (source name : String) :
    (after capacity calls).isSubscribed (subject source name) = true ↔
      IsTaken calls source name := by
  rw [isSubscribed_after h]
  constructor
  · rintro ⟨wantedSource, wantedName, hheld, hmatches⟩
    obtain ⟨readSource, readName, hpattern⟩ := exists_reads wantedSource wantedName
    obtain ⟨source', name', htext⟩ := exists_reads source name
    exact ⟨wantedSource, wantedName, readSource, readName, source', name', hheld, hpattern, htext,
      (matchesSubject_of_reads hpattern htext).1 hmatches⟩
  · rintro ⟨wantedSource, wantedName, readSource, readName, source', name', hheld, hpattern, htext,
      hcovers⟩
    exact ⟨wantedSource, wantedName, hheld, (matchesSubject_of_reads hpattern htext).2 hcovers⟩

/-- Without points in sources everything is taken for what it is. -/
theorem isSubscribed_iff_isWanted {calls : List Call} {source : String} (h : IsBalanced calls)
    (capacity : Nat) (name : String) (hsource : '.' ∉ source.toList)
    (hheld : ∀ wantedSource wantedName, IsHeld calls wantedSource wantedName →
      '.' ∉ wantedSource.toList) :
    (after capacity calls).isSubscribed (subject source name) = true ↔
      IsWanted calls source name := by
  rw [isSubscribed_after h]
  have hcovers : ∀ wantedSource wantedName, IsHeld calls wantedSource wantedName →
      (matchesSubject (subject wantedSource wantedName) (subject source name) = true ↔
        Covers wantedSource wantedName source name) := by
    intro wantedSource wantedName hwanted
    exact matchesSubject_of_reads (reads_subject (hheld _ _ hwanted) wantedName)
      (reads_subject hsource name)
  constructor
  · rintro ⟨wantedSource, wantedName, hwanted, hmatches⟩
    exact ⟨wantedSource, wantedName, hwanted, (hcovers _ _ hwanted).1 hmatches⟩
  · rintro ⟨wantedSource, wantedName, hwanted, hcover⟩
    exact ⟨wantedSource, wantedName, hwanted, (hcovers _ _ hwanted).2 hcover⟩

end Bus

namespace World

/-! ## Receipts -/

/-- What a party outside of the engine notes of an event. -/
def noted (w : World) (e : Event) : Party → List Receipt
  | .named name =>
      match w.recorders.find? fun r => r.name == name with
      | some _ => [⟨name, w.clock, e⟩]
      | none => []
  | .numbered _ => []

/-- An event that is posted changes inboxes and what is ready. -/
theorem exists_postAll (e : Event) (w : World) (ns : List Nat) :
    ∃ instances ready, ns.foldl (post e) w = { w with instances, ready } := by
  induction ns generalizing w with
  | nil => exact ⟨w.instances, w.ready, rfl⟩
  | cons n rest ih =>
      have hone : ∃ instances ready, post e w n = { w with instances, ready } := by
        unfold post wake
        split
        · split
          · exact ⟨_, _, rfl⟩
          · exact ⟨_, _, rfl⟩
        · exact ⟨_, _, rfl⟩
      obtain ⟨instances, ready, hpost⟩ := hone
      obtain ⟨instances', ready', hrest⟩ := ih (post e w n)
      refine ⟨instances', ready', ?_⟩
      rw [List.foldl_cons, hrest, hpost]

/-- An event that is offered is posted, or noted. -/
theorem exists_offer (w : World) (p : Party) (e : Event) :
    ∃ instances ready, (w.offer p e).1 =
      { w with instances, ready, receipts := w.receipts ++ w.noted e p } := by
  cases p with
  | named name =>
      refine ⟨w.instances, w.ready, ?_⟩
      simp only [offer, noted]
      cases w.recorders.find? fun r => r.name == name with
      | some r => rfl
      | none => exact congrArg (fun receipts => { w with receipts }) (List.append_nil _).symm
  | numbered n =>
      simp only [offer, noted, List.append_nil]
      cases w.instance? n with
      | some i => exact exists_postAll e w _
      | none => exact ⟨w.instances, w.ready, rfl⟩

theorem receipts_offerAll (e : Event) (w : World) (ps : List Party) :
    (ps.foldl (fun w p => (w.offer p e).1) w).receipts = w.receipts ++ ps.flatMap (w.noted e) := by
  induction ps generalizing w with
  | nil => simp
  | cons p rest ih =>
      obtain ⟨instances, ready, hoffer⟩ := exists_offer w p e
      have hnoted : (w.offer p e).1.noted e = w.noted e := by
        rw [hoffer]
        funext q
        cases q <;> rfl
      rw [List.foldl_cons, ih, hnoted, hoffer, List.flatMap_cons, List.append_assoc]

/-! ## Sending -/

section Calls

variable {calls : List Bus.Call} {capacity : Nat} {w : World} {e : Event}

/-- After any calls an event is offered, once each, to those parties that listen, if the bus takes a
subscription that is held for one that covers the event; and to nobody else. As long as the sources
have no points, this is a subscription that covers the event. -/
theorem send_of_calls (hcalls : Bus.IsBalanced calls) (hbus : w.bus = Bus.after capacity calls)
    (hchannel : e.channel ≠ .internal) (source : Party) :
    ∃ audience : List Party,
      (∃ v : World, v = audience.foldl (fun w p => (w.offer p e).1) w ∧
        w.send source e = ({ v with bus := v.bus.publish e source }, .ok ())) ∧
      audience.Nodup ∧
      (∀ p, p ∈ audience ↔
        Bus.IsListening calls p ∧ Bus.IsTaken calls (e.publisher source) e.name) ∧
      ('.' ∉ (e.publisher source).toList →
        (∀ wantedSource wantedName, Bus.IsHeld calls wantedSource wantedName →
          '.' ∉ wantedSource.toList) →
        ∀ p, p ∈ audience ↔
          Bus.IsListening calls p ∧ Bus.IsWanted calls (e.publisher source) e.name) ∧
      (w.send source e).1.receipts = w.receipts ++ audience.flatMap (w.noted e) ∧
      ∀ n, (w.send source e).1.inbox? n = (w.inbox? n).map
        (· ++ if .numbered n ∈ audience ∧ w.isOpenAt n = true then [e] else []) := by
  have hroute := w.bus.route_of_subject (subjectOf_publisher hchannel source)
  -- either all that listen or nobody, once the text of the event is matched
  generalize haudience : (if w.bus.isSubscribed (subject (e.publisher source) e.name)
    then w.bus.listeners else []) = audience at hroute
  have hsend : w.send source e =
      ({ audience.foldl (fun w p => (w.offer p e).1) w with
          bus := (audience.foldl (fun w p => (w.offer p e).1) w).bus.publish e source },
        .ok ()) := by
    simp only [send, hroute]
  have hnodup : audience.Nodup := by
    rw [← haudience]
    split
    · exact hbus ▸ Bus.nodup_listeners_after capacity calls
    · exact List.nodup_nil
  have hmember : ∀ p, p ∈ audience ↔ Bus.IsListening calls p ∧
      (Bus.after capacity calls).isSubscribed (subject (e.publisher source) e.name) = true := by
    intro p
    rw [← haudience, hbus, ← Bus.mem_listeners_after capacity calls p]
    cases (Bus.after capacity calls).isSubscribed (subject (e.publisher source) e.name) <;> simp
  refine ⟨audience, ⟨_, rfl, hsend⟩, hnodup, ?_, ?_, ?_, ?_⟩
  · intro p
    rw [hmember p, Bus.isSubscribed_iff_isTaken hcalls]
  · intro hsource hheld p
    rw [hmember p, Bus.isSubscribed_iff_isWanted hcalls capacity e.name hsource hheld]
  · rw [hsend]
    exact receipts_offerAll e w audience
  · intro n
    rw [hsend]
    refine (inbox?_offerAll hchannel w audience n).trans ?_
    -- nobody is listed twice
    rw [List.Nodup.count hnodup]
    cases w.isOpenAt n <;> by_cases hin : Party.numbered n ∈ audience <;> simp [hin]

end Calls

/-! ### Two trials -/

/-- A stand-alone bus with two parties that note what they get. -/
def counter (calls : List Bus.Call) : World :=
  { ((ofMemory ⟨[], ⟨⟨"store", true, .empty⟩, .fresh⟩⟩ 64 .empty .optimal).record "left"
      true).record "right" true with
    bus := Bus.after 64 calls }

def news : Event := ⟨"news", .external, []⟩

/-- One of two parties is gone, and so is one of two subscriptions to the news of anybody. -/
def kiosk : List Bus.Call :=
  [.add (.named "left"), .subscribe wildcard "news", .add (.named "right"),
    .subscribe "town" wildcard, .subscribe wildcard "news", .unsubscribe wildcard "news",
    .remove (.named "right")]

theorem kiosk_send :
    Bus.IsBalanced kiosk ∧ ∃ audience : List Party,
      (∃ v : World, v = audience.foldl (fun w p => (w.offer p news).1) (counter kiosk) ∧
        (counter kiosk).send (.named "village") news =
          ({ v with bus := v.bus.publish news (.named "village") }, .ok ())) ∧
      audience.Nodup ∧ .named "left" ∈ audience ∧ .named "right" ∉ audience := by
  have hbalanced : Bus.IsBalanced kiosk := by decide +kernel
  have hbus : (counter kiosk).bus = Bus.after 64 kiosk := rfl
  obtain ⟨audience, hsend, hnodup, -, hwanted, -⟩ :=
    send_of_calls (e := news) hbalanced hbus (by decide) (.named "village")
  have hsources : ∀ wantedSource wantedName, Bus.IsHeld kiosk wantedSource wantedName →
      '.' ∉ wantedSource.toList := by
    intro wantedSource wantedName hheld
    have hleft := (Bus.mem_left hbalanced).2 hheld
    have hall : ∀ subscription ∈ Bus.left kiosk, '.' ∉ subscription.1.toList := by decide +kernel
    exact hall _ hleft
  have hmember := hwanted (by decide +kernel) hsources
  refine ⟨hbalanced, audience, hsend, hnodup, (hmember _).2 ⟨⟨[], kiosk.tail, rfl, ?_⟩, ?_⟩, ?_⟩
  · simp [kiosk]
  · exact ⟨wildcard, "news", by decide +kernel, .inl rfl, .inr rfl⟩
  · intro hright
    have hlistens := (Bus.mem_listeners_after 64 kiosk _).2 ((hmember _).1 hright).1
    have hgone : Party.named "right" ∉ (Bus.after 64 kiosk).listeners := by decide +kernel
    exact hgone hlistens

/-- Whoever waits for the news of anybody. -/
def reader : List Bus.Call := [.add (.named "left"), .subscribe wildcard "news"]

/-- Whoever waits for other news of one source. -/
def stranger : List Bus.Call := [.add (.named "left"), .subscribe "town" "hall.news"]

/-- News from a source with a point in it are missed by those that want the news of anybody, and
reach those that want other news of another source. -/
theorem news_of_point :
    (Bus.IsBalanced reader ∧ Bus.IsListening reader (.named "left") ∧
      Bus.IsWanted reader (news.publisher (.named "town.hall")) news.name ∧
      ((counter reader).send (.named "town.hall") news).1.receipts.length = 0) ∧
    (Bus.IsBalanced stranger ∧ Bus.IsListening stranger (.named "left") ∧
      ¬ Bus.IsWanted stranger (news.publisher (.named "town.hall")) news.name ∧
      ((counter stranger).send (.named "town.hall") news).1.receipts.length = 1) := by
  have hstranger : Bus.IsBalanced stranger := by decide +kernel
  refine ⟨⟨by decide +kernel, ⟨[], reader.tail, rfl, by simp [reader]⟩,
    ⟨wildcard, news.name, by decide +kernel, .inl rfl, .inr rfl⟩, by decide +kernel⟩,
    hstranger, ⟨[], stranger.tail, rfl, by simp [stranger]⟩, ?_, by decide +kernel⟩
  rintro ⟨wantedSource, wantedName, hheld, hcovers⟩
  have hleft := (Bus.mem_left hstranger).2 hheld
  have honly : (wantedSource, wantedName) = ("town", "hall.news") := by
    simpa [Bus.left, stranger, Bus.Call.keep] using hleft
  cases honly
  exact absurd hcovers.2 (by decide +kernel)

end World

end Statechart
