import Statechart.Proofs.Engine.Topology

/-!
# Inboxes

What an event does to inboxes: posted to some instances it is at the end of the inbox of each of
them, as often as the instance is among them. Events for the bus are offered to the listeners, one
after the other, and taken by those that are open.

- `World.inbox?`          : the events that an instance has not taken yet
- `World.inbox?_postAll`  : an event for some instances
- `World.inbox?_offer`    : an event that is not internal, offered to a party
- `World.inbox?_send`     : an event on the bus
-/

namespace Statechart

namespace World

variable {w v : World} {e : Event}

/-- The events that an instance has not taken yet. -/
def inbox? (w : World) (n : Nat) : Option (List Event) := (w.instance? n).map (·.inbox)

theorem isOpenAt_of_topology (h : v.topology = w.topology) (n : Nat) :
    v.isOpenAt n = w.isOpenAt n := by
  have hopen : ∀ u : World, u.isOpenAt n =
      u.topology.profiles[n]?.any fun p => p.phase == .created || p.phase == .running := by
    intro u
    have hprofile : u.topology.profiles[n]? = (u.instance? n).map Instance.profile :=
      profiles_getElem? u n
    rw [hprofile, Option.any_map]
    rfl
  rw [hopen, hopen, h]

/-! ## Posting -/

theorem inbox?_wake (w : World) (n m : Nat) : (w.wake n).inbox? m = w.inbox? m := by
  unfold wake
  split
  · split
    · change ((w.mapInstance n fun i => { i with isParked := false }).instance? m).map _ = _
      rw [instance?_mapInstance, inbox?]
      split <;> cases w.instance? m <;> rfl
    · rfl
  · rfl

theorem inbox?_post (e : Event) (w : World) (n m : Nat) :
    (post e w n).inbox? m = (w.inbox? m).map (· ++ List.replicate ([n].count m) e) := by
  rw [post, inbox?_wake, inbox?, instance?_mapInstance, inbox?]
  by_cases h : n = m
  · subst h
    cases w.instance? n <;> simp
  · cases w.instance? m <;> simp [h]

/-- What comes later is behind what came first. -/
theorem inbox_append_append (inbox : Option (List Event)) (es fs : List Event) :
    (inbox.map (· ++ es)).map (· ++ fs) = inbox.map (· ++ (es ++ fs)) := by
  cases inbox with
  | none => rfl
  | some events => exact congrArg some (List.append_assoc events es fs)

/-- An event is at the end of the inbox of each instance, as often as the instance is listed. -/
theorem inbox?_postAll (e : Event) (w : World) (ns : List Nat) (m : Nat) :
    (ns.foldl (post e) w).inbox? m =
      (w.inbox? m).map (· ++ List.replicate (ns.count m) e) := by
  induction ns generalizing w with
  | nil => cases hinbox : w.inbox? m <;> simp [hinbox]
  | cons n rest ih =>
      rw [List.foldl_cons, ih, inbox?_post, inbox_append_append, List.replicate_append_replicate,
        ← List.count_append]
      rfl

/-! ## Offers -/

/-- An event that is not internal is for the instance alone. -/
theorem inbox?_offer (h : e.channel ≠ .internal) (w : World) (p : Party) (m : Nat) :
    (w.offer p e).1.inbox? m = (w.inbox? m).map
      (· ++ List.replicate (if w.isOpenAt m then [p].count (.numbered m) else 0) e) := by
  cases p with
  | named name =>
      have hnobody : [Party.named name].count (.numbered m) = 0 := by simp
      have hkept : (w.offer (.named name) e).1.inbox? m = w.inbox? m := by
        simp only [offer]
        split <;> rfl
      rw [hkept, hnobody]
      cases w.inbox? m <;> simp
  | numbered n =>
      have hcount : [Party.numbered n].count (.numbered m) = [n].count m := by
        simp [List.count_singleton]
      rw [hcount]
      simp only [offer]
      split
      · rename_i i hi
        simp only [inbox?_postAll, recipients, if_neg h, hi]
        by_cases hm : n = m
        · subst hm
          simp only [isOpenAt, hi, Option.any_some]
          cases i.isOpen <;> rfl
        · cases i.isOpen <;> simp [hm]
      · rename_i hnone
        by_cases hm : n = m
        · subst hm
          simp [inbox?, hnone]
        · cases w.inbox? m <;> simp [hm]

/-- An event is offered to some parties, one after the other. -/
theorem inbox?_offerAll (h : e.channel ≠ .internal) (w : World) (ps : List Party) (m : Nat) :
    (ps.foldl (fun w p => (w.offer p e).1) w).inbox? m = (w.inbox? m).map
      (· ++ List.replicate (if w.isOpenAt m then ps.count (.numbered m) else 0) e) := by
  induction ps generalizing w with
  | nil => cases hinbox : w.inbox? m <;> simp [hinbox]
  | cons p rest ih =>
      -- whoever was open is open, so that the portions add up
      have hopen := isOpenAt_of_topology (Delivers.offer w p e).topology_eq m
      rw [List.foldl_cons, ih, hopen, inbox?_offer h, inbox_append_append,
        List.replicate_append_replicate]
      cases w.isOpenAt m with
      | false => rfl
      | true =>
          simp only [if_true]
          rw [← List.count_append]
          rfl

/-! ## Sending -/

/-- Who listens gets an event from the bus, if a subscription matches. -/
theorem inbox?_send {source : Party} {text : String} (h : e.channel ≠ .internal)
    (hsubject : subjectOf e source.id = .ok text) (w : World) (m : Nat) :
    (w.send source e).1.inbox? m = (w.inbox? m).map (· ++ List.replicate
      (if w.isOpenAt m && w.bus.isSubscribed text then w.bus.listeners.count (.numbered m)
        else 0) e) := by
  simp only [send, Bus.route_of_subject w.bus hsubject]
  refine (inbox?_offerAll h w _ m).trans ?_
  cases w.isOpenAt m <;> cases w.bus.isSubscribed text <;> rfl

end World

end Statechart
