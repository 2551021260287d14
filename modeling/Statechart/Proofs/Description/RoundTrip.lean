import Statechart.Description.Written
import Statechart.Proofs.Description.Canonical

/-!
# Writing and reading descriptions

A description that holds values proper is read again from what is written of it, down to every
action and every nested graph. A field that is left out when it is empty is read as empty.

- `optional?_unlessEmpty`, `optional?_unlessAbsent` : fields that may be left out
- `Action.read?_toValue`, `Graph.read?_toValue`     : reading undoes writing
- `Collaboration.read?_toValue`                     : also for machines that share variables
-/

namespace Statechart
namespace Description

open Shape

/-! ## Fields that may be left out -/

section Fields

variable {name own : String} {fields : List (String × Value)}

theorem bind_of_eq_some {x : Option α} {f : α → Option β} {a : α} {r : Option β} (h : x = some a)
    (hrest : f a = r) : (x >>= f) = r := by
  rw [h, ← hrest]
  rfl

@[simp]
theorem written_unlessEmpty_of_ne (h : own ≠ name) (items : List Value) :
    written name (unlessEmpty own items) = [] := by
  unfold unlessEmpty
  split
  · rfl
  · rw [written_cons, if_neg h, written_nil]

@[simp]
theorem written_unlessAbsent_of_ne (h : own ≠ name) (s : Option String) :
    written name (unlessAbsent own s) = [] := by
  cases s with
  | none => rfl
  | some s => rw [unlessAbsent, written_cons, if_neg h, written_nil]

theorem required?_eq_some {read : Value → Option α} {v : Value} {a : α}
    (hwritten : written name fields = [v]) (h : read v = some a) :
    required? name read fields = some a := by
  rw [required?, hwritten]
  exact h

theorem optional?_eq_some {default : α} {read : Value → Option α} {v : Value} {a : α}
    (hwritten : written name fields = [v]) (h : read v = some a) :
    optional? name default read fields = some a := by
  rw [optional?, hwritten]
  exact h

theorem readList?_map {read : Value → Option α} {toValue : α → Value} {as : List α}
    (h : ∀ a ∈ as, read (toValue a) = some a) :
    readList? read (.list (as.map toValue)) = some as := by
  rw [readList?, List.mapM_map]
  induction as with
  | nil => rfl
  | cons a rest ih =>
      obtain ⟨ha, hrest⟩ := List.forall_mem_cons.1 h
      rw [List.mapM_cons, ih hrest, Function.comp_apply, ha]
      rfl

/-- A list that is left out when it is empty is read again. -/
theorem optional?_unlessEmpty {read : Value → Option α} {toValue : α → Value} {as : List α}
    (hwritten : written name fields = written name (unlessEmpty name (as.map toValue)))
    (h : ∀ a ∈ as, read (toValue a) = some a) :
    optional? name [] (readList? read) fields = some as := by
  rw [optional?, hwritten]
  cases as with
  | nil => rfl
  | cons a rest =>
      simp only [unlessEmpty, List.map_cons, List.isEmpty_cons, written_cons, written_nil,
        Bool.false_eq_true, if_false, if_true]
      exact readList?_map h

/-- A text that is left out when it is absent is read again. -/
theorem optional?_unlessAbsent {s : Option String}
    (hwritten : written name fields = written name (unlessAbsent name s)) :
    optional? name none (readNullable? readText?) fields = some s := by
  rw [optional?, hwritten]
  cases s with
  | none => rfl
  | some s =>
      rw [unlessAbsent, written_cons, if_pos rfl, written_nil]
      rfl

end Fields

/-! ## Actions -/

theorem Variable.read?_toValue {v : Variable} (h : v.IsCanonical) : read? v.toValue = some v := by
  refine bind_of_eq_some rfl ?_
  refine bind_of_eq_some (required?_eq_some (v := .text v.name) (by simp) rfl) ?_
  exact bind_of_eq_some (required?_eq_some (by simp) (congrArg some h)) rfl

theorem Channel.read?_name (c : Channel) :
    (readWord? isVoid (.text c.name) >>= Channel.ofName?) = some c := by
  cases c <;> rfl

theorem Event.read?_toValue {e : Event} (h : e.IsCanonical) : read? e.toValue = some e := by
  refine bind_of_eq_some rfl ?_
  refine bind_of_eq_some (required?_eq_some (v := .text e.name) (by simp) rfl) ?_
  refine bind_of_eq_some (optional?_eq_some (by simp) (Channel.read?_name e.channel)) ?_
  exact bind_of_eq_some
    (optional?_unlessEmpty (by simp) fun v hv => Variable.read?_toValue (h v hv)) rfl

theorem casesToValues_eq (cases : List (Value × Action)) :
    casesToValues cases =
      cases.map fun c => .record [("case", c.1), ("action", c.2.toValue)] := by
  induction cases with
  | nil => rfl
  | cons c rest ih => rw [casesToValues, ih, List.map_cons]

theorem readList?_casesToValues {read : Value → Option Action} {cases : List (Value × Action)}
    (hlabels : ∀ c ∈ cases, c.1.canonical = c.1)
    (hactions : ∀ c ∈ cases, read c.2.toValue = some c.2) :
    readList? (readCase? read) (.list (casesToValues cases)) = some cases := by
  rw [casesToValues_eq]
  refine readList?_map fun c hc => ?_
  refine bind_of_eq_some rfl ?_
  refine bind_of_eq_some (required?_eq_some (by simp) (congrArg some (hlabels c hc))) ?_
  exact bind_of_eq_some (required?_eq_some (by simp) (hactions c hc)) rfl

/-- What is written of an action is read as that action. -/
theorem Action.read?_toValue {a : Action} (h : a.IsCanonical) (byPlace : Bool) :
    Action.read? byPlace a.toValue = some a := by
  induction h generalizing byPlace with
  | assign hdeclared =>
      rw [toValue, read?_record]
      refine bind_of_eq_some (required?_eq_some (v := .text "assign") (by simp) rfl) ?_
      exact bind_of_eq_some
        (required?_eq_some (by simp) (Variable.read?_toValue hdeclared)) rfl
  | create hdeclared persistent =>
      rw [toValue, read?_record]
      refine bind_of_eq_some (required?_eq_some (v := .text "create") (by simp) rfl) ?_
      refine bind_of_eq_some
        (required?_eq_some (by simp) (Variable.read?_toValue hdeclared)) ?_
      exact bind_of_eq_some (optional?_eq_some (v := .bool persistent) (by simp) rfl) rfl
  | invoke hinput hdone service isLocal output =>
      rw [toValue, read?_record]
      refine bind_of_eq_some (required?_eq_some (v := .text "invoke") (by simp) rfl) ?_
      refine bind_of_eq_some (required?_eq_some (v := .text service) (by simp) rfl) ?_
      refine bind_of_eq_some (optional?_eq_some (v := .bool isLocal) (by simp) rfl) ?_
      refine bind_of_eq_some (optional?_eq_some (by simp)
        (readList?_map fun v hv => Variable.read?_toValue (hinput v hv))) ?_
      refine bind_of_eq_some (optional?_eq_some (by simp)
        (readList?_map fun s (_ : s ∈ output) => (rfl : readText? (.text s) = some s))) ?_
      exact bind_of_eq_some (optional?_eq_some (by simp)
        (readList?_map fun e he => Event.read?_toValue (hdone e he))) rfl
  | choose hvalue hlabels _ ih =>
      rw [toValue, read?_record]
      refine bind_of_eq_some (required?_eq_some (v := .text "match") (by simp) rfl) ?_
      refine bind_of_eq_some (required?_eq_some (by simp) (congrArg some hvalue)) ?_
      exact bind_of_eq_some (required?_eq_some (by simp)
        (readList?_casesToValues hlabels fun c hc => ih c hc true)) rfl
  | raise hevent =>
      rw [toValue, read?_record]
      refine bind_of_eq_some (required?_eq_some (v := .text "raise") (by simp) rfl) ?_
      exact bind_of_eq_some (required?_eq_some (by simp) (Event.read?_toValue hevent)) rfl
  | timeout hdelay _ name ih =>
      rw [toValue, read?_record]
      refine bind_of_eq_some (required?_eq_some (v := .text "timeout") (by simp) rfl) ?_
      refine bind_of_eq_some (required?_eq_some (v := .text name) (by simp) rfl) ?_
      refine bind_of_eq_some (required?_eq_some (by simp) (congrArg some hdelay)) ?_
      exact bind_of_eq_some (required?_eq_some (by simp) (ih true)) rfl
  | resetTimeout timeout =>
      rw [toValue, read?_record]
      refine bind_of_eq_some (required?_eq_some (v := .text "timeout_reset") (by simp) rfl) ?_
      exact bind_of_eq_some (required?_eq_some (v := .text timeout) (by simp) rfl) rfl

/-! ## Graphs -/

/-- What is written of a transition is read again, also with another field before it. -/
theorem Transition.ofFields?_toFields {t : Transition} (h : t.IsCanonical) (byPlace : Bool)
    {fields : List (String × Value)}
    (hfields : ∀ name ∈ ["target", "guards", "actions", "else"],
      written name fields = written name t.toFields) :
    ofFields? byPlace fields = some t := by
  simp only [List.forall_mem_cons] at hfields
  obtain ⟨htarget, hguards, hactions, helse, -⟩ := hfields
  refine bind_of_eq_some (optional?_unlessAbsent (s := t.target)
    (htarget.trans (by simp [toFields]))) ?_
  refine bind_of_eq_some (optional?_unlessEmpty (hguards.trans (by simp [toFields]))
    fun s (_ : s ∈ t.guards) => (rfl : readText? (.text s) = some s)) ?_
  refine bind_of_eq_some (optional?_unlessEmpty (hactions.trans (by simp [toFields]))
    fun a ha => Action.read?_toValue (h a ha) byPlace) ?_
  exact bind_of_eq_some (optional?_unlessAbsent (s := t.otherwise)
    (helse.trans (by simp [toFields]))) rfl

theorem Transition.read?_toValue {t : Transition} (h : t.IsCanonical) :
    read? t.toValue = some t :=
  bind_of_eq_some rfl (ofFields?_toFields h false fun _ _ => rfl)

theorem Trigger.read?_toValue {t : Trigger} (h : t.transition.IsCanonical) :
    read? t.toValue = some t := by
  refine bind_of_eq_some rfl ?_
  refine bind_of_eq_some
    (required?_eq_some (v := .text t.event) (by simp [Transition.toFields]) rfl) ?_
  exact bind_of_eq_some (Transition.ofFields?_toFields h true (by simp)) rfl

theorem State.read?_toValue {s : State} (h : s.IsCanonical) : read? s.toValue = some s := by
  refine bind_of_eq_some rfl ?_
  refine bind_of_eq_some (required?_eq_some (v := .text s.name) (by simp) rfl) ?_
  refine bind_of_eq_some (optional?_eq_some (v := .bool s.isInitial) (by simp) rfl) ?_
  refine bind_of_eq_some (optional?_eq_some (v := .bool s.isTerminal) (by simp) rfl) ?_
  refine bind_of_eq_some
    (optional?_unlessEmpty (by simp) fun a ha => Action.read?_toValue (h.entry a ha) false) ?_
  refine bind_of_eq_some
    (optional?_unlessEmpty (by simp) fun a ha => Action.read?_toValue (h.exit a ha) false) ?_
  refine bind_of_eq_some
    (optional?_unlessEmpty (by simp) fun a ha => Action.read?_toValue (h.during a ha) false) ?_
  refine bind_of_eq_some
    (optional?_unlessEmpty (by simp) fun a ha => Action.read?_toValue (h.after a ha) false) ?_
  refine bind_of_eq_some
    (optional?_unlessEmpty (by simp) fun t ht => Trigger.read?_toValue (h.on t ht)) ?_
  refine bind_of_eq_some
    (optional?_unlessEmpty (by simp) fun t ht => Transition.read?_toValue (h.always t ht)) ?_
  exact bind_of_eq_some
    (optional?_unlessEmpty (by simp) fun v hv => Variable.read?_toValue (h.locals v hv)) rfl

theorem graphsToValues_eq (graphs : List Graph) :
    graphsToValues graphs = graphs.map Graph.toValue := by
  induction graphs with
  | nil => rfl
  | cons g rest ih => rw [graphsToValues, ih, List.map_cons]

/-- What is written of a graph is read as that graph. -/
theorem Graph.read?_toValue {g : Graph} (h : g.IsCanonical) : Graph.read? g.toValue = some g := by
  induction h with
  | intro hlocals hstates _ name isAbstract ih =>
      rw [toValue, read?_record, graphsToValues_eq]
      refine bind_of_eq_some (required?_eq_some (v := .text name) (by simp) rfl) ?_
      refine bind_of_eq_some (optional?_eq_some (v := .bool isAbstract) (by simp) rfl) ?_
      refine bind_of_eq_some
        (optional?_unlessEmpty (by simp) fun v hv => Variable.read?_toValue (hlocals v hv)) ?_
      refine bind_of_eq_some (required?_eq_some (by simp)
        (readList?_map fun s hs => State.read?_toValue (hstates s hs))) ?_
      exact bind_of_eq_some (optional?_unlessEmpty (by simp) ih) rfl

theorem Collaboration.read?_toValue {c : Collaboration}
    (hpersistent : ∀ v ∈ c.persistent, v.IsCanonical)
    (hmachines : ∀ g ∈ c.machines, g.IsCanonical) : read? c.toValue = some c := by
  rw [toValue, graphsToValues_eq]
  refine bind_of_eq_some rfl ?_
  refine bind_of_eq_some (required?_eq_some (v := .text c.name) (by simp) rfl) ?_
  refine bind_of_eq_some
    (optional?_unlessEmpty (by simp) fun v hv => Variable.read?_toValue (hpersistent v hv)) ?_
  exact bind_of_eq_some (required?_eq_some (by simp)
    (readList?_map fun g hg => Graph.read?_toValue (hmachines g hg))) rfl

end Description
end Statechart
