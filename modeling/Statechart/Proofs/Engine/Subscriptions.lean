import Statechart.Engine.Basic
import Statechart.Table.Lemmas

/-!
# Subscriptions

Subscriptions are counted under their patterns. An instance subscribes once to every event that its
graph reacts to, and what it subscribes to it can take back.

- `matchesSubject_subject`     : patterns match part by part
- `Bus.mem_addListener`, `Bus.mem_removeListener` : listeners
- `Bus.count_subscribe`, `Bus.count_unsubscribe` : one subscription
- `Bus.count_subscribeAll`, `Bus.count_unsubscribeAll` : those of a whole graph
- `Bus.IsTight`               : patterns without subscriptions are forgotten
- `Graph.mem_events_iff`      : the events that a graph reacts to
-/

namespace Statechart

/-! ## Patterns -/

theorem subject_injective (source : String) : Function.Injective (subject source) := by
  intro name other h
  have hlists := congrArg String.toList h
  simp only [subject, String.toList_append, List.append_assoc] at hlists
  exact String.toList_inj.1 (List.append_cancel_left (List.append_cancel_left hlists))

/-- Events of any source are not those for everybody. -/
theorem subject_wildcard_ne {source : String} (h : source ∈ World.openSources) (name : String) :
    subject wildcard name ≠ subject source wildcard := by
  intro heq
  have hhead := congrArg (fun s : String => s.toList.head?) heq
  simp only [World.openSources, List.mem_cons, List.not_mem_nil, or_false] at h
  rcases h with rfl | rfl <;>
    simp [subject, wildcard, Channel.name, String.toList_append] at hhead

/-- A source without a point is what is before the first point. -/
theorem cut?_subject {source : String} (h : '.' ∉ source.toList) (name : String) :
    cut? (subject source name).toList = some (source.toList, name.toList) := by
  have hcut : ∀ (before after : List Char), '.' ∉ before →
      cut? (before ++ '.' :: after) = some (before, after) := by
    intro before after hbefore
    induction before with
    | nil => rfl
    | cons c rest ih =>
        have hc : c ≠ '.' := fun heq => hbefore (heq ▸ List.mem_cons_self)
        have hrest : '.' ∉ rest := fun hin => hbefore (List.mem_cons_of_mem c hin)
        rw [List.cons_append, cut?, ih hrest, Option.map_some]
        exact hc
  have hlist : (subject source name).toList = source.toList ++ '.' :: name.toList := by
    simp [subject]
  rw [hlist]
  exact hcut _ _ h

/-- A pattern matches a subject part by part, if neither source has a point. -/
theorem matchesSubject_subject {source source' : String} (h : '.' ∉ source.toList)
    (h' : '.' ∉ source'.toList) (name name' : String) :
    matchesSubject (subject source name) (subject source' name') =
      (matchesPart source.toList source'.toList && matchesPart name.toList name'.toList) := by
  simp only [matchesSubject, cut?_subject h, cut?_subject h']

theorem matchesPart_wildcard (part : List Char) : matchesPart wildcard.toList part = true := by
  simp [matchesPart]

theorem matchesPart_self (part : List Char) : matchesPart part part = true := by
  simp [matchesPart]

/-- Instances have names without points. -/
theorem point_notMem_id (n : Nat) : '.' ∉ (Party.numbered n).id.toList := by
  have hdigits : '.' ∉ (toString n).toList := by
    rw [Nat.toString_eq_ofList_toDigits, String.toList_ofList]
    intro hpoint
    have hdigit := Nat.isDigit_of_mem_toDigits (by decide) (by decide) hpoint
    exact absurd hdigit (by decide)
  simpa [Party.id] using hdigits

/-! ## Events of a graph -/

namespace Table

theorem get?_foldl_insert (entries : List (String × α)) (t : Table α) (name : String) :
    ((entries.foldl (fun t entry => t.insert entry.1 entry.2) t).get? name).isSome =
      ((t.get? name).isSome || entries.any fun entry => entry.1 == name) := by
  induction entries generalizing t with
  | nil => simp
  | cons head rest ih =>
      rw [List.foldl_cons, ih, get?_insert, List.any_cons]
      by_cases h : head.1 = name
      · simp [h]
      · simp [h, beq_eq_false_iff_ne.2 h]

/-- The names of a table that is made of a list are those of the list. -/
theorem isSome_get?_ofList (entries : List (String × α)) (name : String) :
    ((ofList entries).get? name).isSome = entries.any fun entry => entry.1 == name := by
  rw [ofList, get?_foldl_insert]
  rfl

theorem nodup_names (t : Table α) : (t.entries.map (·.1)).Nodup :=
  List.Pairwise.map _ (fun _ _ hlt heq => Std.lt_irrefl (heq ▸ hlt)) t.inOrder

end Table

namespace Graph

theorem nodup_events (g : Graph) : g.events.Nodup := Table.nodup_names _

/-- A graph reacts to an event if a state of it has a transition on the event. -/
theorem mem_events_iff {g : Graph} {event : String} :
    event ∈ g.events ↔ ∃ s ∈ g.states, ∃ t ∈ s.on, t.event = some event := by
  have hnames : event ∈ g.events ↔
      ((Table.ofList (g.states.flatMap fun s => s.events.map fun e => (e, ()))).get?
        event).isSome = true := by
    rw [Option.isSome_iff_exists]
    simp only [events, List.mem_map, Prod.exists, ← Table.mem_entries_iff]
    simp
  rw [hnames, Table.isSome_get?_ofList, List.any_eq_true]
  constructor
  · rintro ⟨entry, hentry, hname⟩
    obtain ⟨s, hs, hentry⟩ := List.mem_flatMap.1 hentry
    obtain ⟨own, hown, rfl⟩ := List.mem_map.1 hentry
    obtain ⟨t, ht, hevent⟩ := List.mem_filterMap.1 hown
    exact ⟨s, hs, t, ht, hevent.trans (congrArg some (beq_iff_eq.1 hname))⟩
  · rintro ⟨s, hs, t, ht, hevent⟩
    have hown : event ∈ s.events := List.mem_filterMap.2 ⟨t, ht, hevent⟩
    exact ⟨(event, ()), List.mem_flatMap.2 ⟨s, hs, List.mem_map.2 ⟨event, hown, rfl⟩⟩,
      beq_self_eq_true event⟩

/-- Whether a state of the graph has a transition on an event. -/
def handles (g : Graph) (event : String) : Bool :=
  g.states.any fun s => s.on.any fun t => t.event == some event

/-- Whether the instances of a graph subscribe to a pattern. -/
def subscribesTo (g : Graph) (pattern : String) : Bool :=
  g.events.any fun event => subject wildcard event == pattern

theorem subscribesTo_subject (g : Graph) (event : String) :
    g.subscribesTo (subject wildcard event) = g.handles event := by
  have hsame : ∀ e, (subject wildcard e == subject wildcard event) = (e == event) := fun e => by
    rw [Bool.eq_iff_iff, beq_iff_eq, beq_iff_eq, (subject_injective wildcard).eq_iff]
  rw [Bool.eq_iff_iff]
  simp only [subscribesTo, hsame, List.any_beq', List.elem_eq_mem, decide_eq_true_eq,
    mem_events_iff]
  simp [handles]

/-- No instance subscribes to all events of a source for everybody. -/
theorem subscribesTo_open {source : String} (h : source ∈ World.openSources) (g : Graph) :
    g.subscribesTo (subject source wildcard) = false :=
  List.any_eq_false.2 fun event _ heq => subject_wildcard_ne h event (beq_iff_eq.1 heq)

end Graph

namespace Bus

/-! ## Listeners -/

theorem mem_addListener {b : Bus} {p q : Party} :
    q ∈ (b.addListener p).listeners ↔ q = p ∨ q ∈ b.listeners := by
  unfold addListener
  split
  · rename_i hp
    exact ⟨.inr, fun h => h.elim (fun heq => heq ▸ hp) id⟩
  · rw [List.mem_append, List.mem_singleton]
    exact or_comm

theorem subscriptions_addListener (b : Bus) (p : Party) :
    (b.addListener p).subscriptions = b.subscriptions := by
  unfold addListener
  split <;> rfl

theorem mem_removeListener {b : Bus} {p q : Party} :
    q ∈ (b.removeListener p).listeners ↔ q ≠ p ∧ q ∈ b.listeners := by
  simp [removeListener, and_comm]

/-! ## Single subscriptions -/

theorem count_subscribe (b : Bus) (source name pattern : String) :
    (b.subscribe source name).count pattern =
      b.count pattern + if subject source name = pattern then 1 else 0 := by
  simp only [subscribe, count, Table.get?_insert]
  split
  · rename_i h
    simp [h]
  · simp

theorem count_unsubscribe (b : Bus) (source name pattern : String) :
    (b.unsubscribe source name).count pattern =
      b.count pattern - if subject source name = pattern then 1 else 0 := by
  unfold unsubscribe
  by_cases h : subject source name = pattern
  · subst h
    by_cases hle : b.count (subject source name) ≤ 1
    · have hnone : b.count (subject source name) - 1 = 0 := Nat.sub_eq_zero_of_le hle
      simp [hle, hnone]
      simp [count]
    · simp [hle]
      simp [count]
  · simp only [h, if_false, Nat.sub_zero]
    split <;> simp [count, Table.get?_erase, Table.get?_insert, h]

/-- No pattern is kept without subscriptions. -/
def IsTight (b : Bus) : Prop := ∀ pattern, b.subscriptions.get? pattern ≠ some 0

theorem IsTight.subscribe {b : Bus} (h : b.IsTight) (source name : String) :
    (b.subscribe source name).IsTight := by
  intro pattern
  simp only [Bus.subscribe, Table.get?_insert]
  split
  · simp
  · exact h pattern

theorem IsTight.unsubscribe {b : Bus} (h : b.IsTight) (source name : String) :
    (b.unsubscribe source name).IsTight := by
  intro pattern
  simp only [Bus.unsubscribe]
  split
  · rw [Table.get?_erase]
    split
    · simp
    · exact h pattern
  · rw [Table.get?_insert]
    split
    · intro heq
      have hzero := Option.some.inj heq
      omega
    · exact h pattern

/-- Without idle patterns the subscriptions are known by their counts. -/
theorem IsTight.subscriptions_eq {b b' : Bus} (h : b.IsTight) (h' : b'.IsTight)
    (hcount : ∀ pattern, b.count pattern = b'.count pattern) :
    b.subscriptions = b'.subscriptions := by
  refine Table.ext_get? fun pattern => ?_
  have hpattern := hcount pattern
  have hb := h pattern
  have hb' := h' pattern
  unfold count at hpattern
  cases hget : b.subscriptions.get? pattern <;> cases hget' : b'.subscriptions.get? pattern <;>
    simp_all

/-! ## Subscriptions of a graph -/

/-- All events, of any source. -/
def subscribeAll (b : Bus) (events : List String) : Bus :=
  events.foldl (fun b event => b.subscribe wildcard event) b

def unsubscribeAll (b : Bus) (events : List String) : Bus :=
  events.foldl (fun b event => b.unsubscribe wildcard event) b

section Graphs

variable {events : List String}

/-- Events that differ have patterns that differ. -/
theorem any_subject_of_notMem {event : String} (h : event ∉ events) :
    (events.any fun e => subject wildcard e == subject wildcard event) = false :=
  List.any_eq_false.2 fun _ he heq =>
    h (subject_injective wildcard (beq_iff_eq.1 heq) ▸ he)

theorem count_subscribeAll (hnodup : events.Nodup) (b : Bus) (pattern : String) :
    (b.subscribeAll events).count pattern =
      b.count pattern + if events.any fun e => subject wildcard e == pattern then 1 else 0 := by
  induction events generalizing b with
  | nil => rfl
  | cons event rest ih =>
      obtain ⟨hnotMem, hrest⟩ := List.nodup_cons.1 hnodup
      have hlater := ih hrest (b.subscribe wildcard event)
      simp only [subscribeAll, List.foldl_cons] at hlater ⊢
      rw [hlater, count_subscribe]
      by_cases h : subject wildcard event = pattern
      · subst h
        simp [any_subject_of_notMem hnotMem]
      · simp [h, beq_eq_false_iff_ne.2 h]

theorem count_unsubscribeAll (hnodup : events.Nodup) (b : Bus) (pattern : String) :
    (b.unsubscribeAll events).count pattern =
      b.count pattern - if events.any fun e => subject wildcard e == pattern then 1 else 0 := by
  induction events generalizing b with
  | nil => rfl
  | cons event rest ih =>
      obtain ⟨hnotMem, hrest⟩ := List.nodup_cons.1 hnodup
      have hlater := ih hrest (b.unsubscribe wildcard event)
      simp only [unsubscribeAll, List.foldl_cons] at hlater ⊢
      rw [hlater, count_unsubscribe]
      by_cases h : subject wildcard event = pattern
      · subst h
        simp [any_subject_of_notMem hnotMem]
      · simp [h, beq_eq_false_iff_ne.2 h]

theorem IsTight.subscribeAll {b : Bus} (h : b.IsTight) (events : List String) :
    (b.subscribeAll events).IsTight :=
  List.foldlRecOn events _ h fun _ hb event _ => hb.subscribe wildcard event

theorem IsTight.unsubscribeAll {b : Bus} (h : b.IsTight) (events : List String) :
    (b.unsubscribeAll events).IsTight :=
  List.foldlRecOn events _ h fun _ hb event _ => hb.unsubscribe wildcard event

theorem listeners_subscribeAll (b : Bus) (events : List String) :
    (b.subscribeAll events).listeners = b.listeners := by
  induction events generalizing b with
  | nil => rfl
  | cons event rest ih => exact ih (b.subscribe wildcard event)

theorem listeners_unsubscribeAll (b : Bus) (events : List String) :
    (b.unsubscribeAll events).listeners = b.listeners := by
  induction events generalizing b with
  | nil => rfl
  | cons event rest ih =>
      have hfirst : (b.unsubscribe wildcard event).listeners = b.listeners := by
        simp only [unsubscribe]
        split <;> rfl
      exact (ih (b.unsubscribe wildcard event)).trans hfirst

end Graphs

end Bus

end Statechart
