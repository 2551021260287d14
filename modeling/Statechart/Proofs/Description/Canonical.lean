import Statechart.Proofs.Description.Reading

/-!
# Descriptions with values proper

A description that was read holds values in canonical form, whatever the document was like. These
are the descriptions that have a written form to be read again.

- `Action.IsCanonical`, `Graph.IsCanonical`     : every value that is held is in canonical form
- `Shape.Yields`                                : what a reader makes of values has a property
- `Action.yields_read?`, `Graph.yields_read?`   : what was read is canonical
-/

namespace Statechart

/-! ## Results of readers -/

namespace Shape

/-- Whatever a reader returns has a property. -/
def Yields (read : σ → Option α) (p : α → Prop) : Prop := ∀ v a, read v = some a → p a

section Yields

variable {read : Value → Option α} {p : α → Prop} {name : String}

theorem Yields.readList? (h : Yields read p) : Yields (readList? read) fun as => ∀ a ∈ as, p a := by
  intro v as hread
  cases v with
  | list items =>
      rw [Shape.readList?] at hread
      induction items generalizing as with
      | nil =>
          cases hread
          exact List.forall_mem_nil _
      | cons item rest ih =>
          simp only [List.mapM_cons, Option.bind_eq_bind, Option.bind_eq_some_iff] at hread
          obtain ⟨a, ha, others, hothers, hread⟩ := hread
          cases hread
          exact List.forall_mem_cons.2 ⟨h item a ha, ih others hothers⟩
  | _ => cases hread

theorem Yields.required? (h : Yields read p) : Yields (required? name read) p := by
  intro fields a hread
  unfold Shape.required? at hread
  split at hread
  · exact h _ a hread
  · cases hread

theorem Yields.optional? (h : Yields read p) {default : α} (hdefault : p default) :
    Yields (optional? name default read) p := by
  intro fields a hread
  unfold Shape.optional? at hread
  split at hread
  · cases hread
    exact hdefault
  · exact h _ a hread
  · cases hread

theorem Yields.items (h : Yields read p) :
    Yields (Shape.optional? name [] (Shape.readList? read)) fun as => ∀ a ∈ as, p a :=
  h.readList?.optional? (List.forall_mem_nil _)

end Yields

theorem yields_readAny? : Yields readAny? fun v => v.canonical = v := by
  intro v a hread
  cases hread
  exact v.canonical_canonical

end Shape

namespace Description

open Shape

/-! ## Actions -/

def Variable.IsCanonical (v : Variable) : Prop := v.value.canonical = v.value

def Event.IsCanonical (e : Event) : Prop := ∀ v ∈ e.data, v.IsCanonical

inductive Action.IsCanonical : Action → Prop where
  | assign {declared : Variable} (hdeclared : declared.IsCanonical) :
      IsCanonical (.assign declared)
  | create {declared : Variable} (hdeclared : declared.IsCanonical) (persistent : Bool) :
      IsCanonical (.create declared persistent)
  | invoke {input : List Variable} {done : List Event} (hinput : ∀ v ∈ input, v.IsCanonical)
      (hdone : ∀ e ∈ done, e.IsCanonical) (service : String) (isLocal : Bool)
      (output : List String) : IsCanonical (.invoke service isLocal input output done)
  | choose {value : Value} {cases : List (Value × Action)} (hvalue : value.canonical = value)
      (hlabels : ∀ c ∈ cases, c.1.canonical = c.1) (hactions : ∀ c ∈ cases, IsCanonical c.2) :
      IsCanonical (.choose value cases)
  | raise {event : Event} (hevent : event.IsCanonical) : IsCanonical (.raise event)
  | timeout {delay : Value} {action : Action} (hdelay : delay.canonical = delay)
      (haction : IsCanonical action) (name : String) : IsCanonical (.timeout name delay action)
  | resetTimeout (timeout : String) : IsCanonical (.resetTimeout timeout)

theorem Variable.yields_read? : Yields Variable.read? Variable.IsCanonical := by
  intro v a hread
  simp only [Variable.read?, Option.bind_eq_bind, Option.bind_eq_some_iff] at hread
  obtain ⟨fields, -, name, -, value, hvalue, hread⟩ := hread
  cases hread
  exact yields_readAny?.required? fields value hvalue

theorem Event.yields_read? : Yields Event.read? Event.IsCanonical := by
  intro v a hread
  simp only [Event.read?, Option.bind_eq_bind, Option.bind_eq_some_iff] at hread
  obtain ⟨fields, -, name, -, channel, -, data, hdata, hread⟩ := hread
  cases hread
  exact Variable.yields_read?.items fields data hdata

theorem yields_readCase? {read : Value → Option Action} (h : Yields read Action.IsCanonical) :
    Yields (readCase? read) fun c => c.1.canonical = c.1 ∧ c.2.IsCanonical := by
  intro v a hread
  simp only [readCase?, Option.bind_eq_bind, Option.bind_eq_some_iff] at hread
  obtain ⟨fields, -, value, hvalue, action, haction, hread⟩ := hread
  cases hread
  exact ⟨yields_readAny?.required? fields value hvalue, h.required? fields action haction⟩

theorem Action.yields_ofKind? {read : Value → Option Action} (h : Yields read IsCanonical)
    (kind : String) : Yields (ofKind? read kind) IsCanonical := by
  intro fields a hread
  unfold ofKind? at hread
  split at hread
  · simp only [Option.bind_eq_bind, Option.bind_eq_some_iff] at hread
    obtain ⟨declared, hdeclared, hread⟩ := hread
    cases hread
    exact .assign (Variable.yields_read?.required? fields declared hdeclared)
  split at hread
  · simp only [Option.bind_eq_bind, Option.bind_eq_some_iff] at hread
    obtain ⟨declared, hdeclared, persistent, -, hread⟩ := hread
    cases hread
    exact .create (Variable.yields_read?.required? fields declared hdeclared) persistent
  split at hread
  · simp only [Option.bind_eq_bind, Option.bind_eq_some_iff] at hread
    obtain ⟨service, -, isLocal, -, input, hinput, output, -, done, hdone, hread⟩ := hread
    cases hread
    exact .invoke (Variable.yields_read?.items fields input hinput)
      (Event.yields_read?.items fields done hdone) service isLocal output
  split at hread
  · simp only [Option.bind_eq_bind, Option.bind_eq_some_iff] at hread
    obtain ⟨value, hvalue, cases, hcases, hread⟩ := hread
    cases hread
    have hall := (yields_readCase? h).readList?.required? fields cases hcases
    exact .choose (yields_readAny?.required? fields value hvalue) (fun c hc => (hall c hc).1)
      fun c hc => (hall c hc).2
  split at hread
  · simp only [Option.bind_eq_bind, Option.bind_eq_some_iff] at hread
    obtain ⟨event, hevent, hread⟩ := hread
    cases hread
    exact .raise (Event.yields_read?.required? fields event hevent)
  split at hread
  · simp only [Option.bind_eq_bind, Option.bind_eq_some_iff] at hread
    obtain ⟨name, -, delay, hdelay, action, haction, hread⟩ := hread
    cases hread
    exact .timeout (yields_readAny?.required? fields delay hdelay)
      (h.required? fields action haction) name
  split at hread
  · simp only [Option.bind_eq_bind, Option.bind_eq_some_iff] at hread
    obtain ⟨timeout, -, hread⟩ := hread
    cases hread
    exact .resetTimeout timeout
  · cases hread

theorem Action.yields_ofValue? (n : Nat) (byPlace : Bool) :
    Yields (ofValue? n byPlace) IsCanonical := by
  induction n generalizing byPlace with
  | zero => exact nofun
  | succ n ih =>
      intro v a hread
      simp only [ofValue?, ofFields?, Option.bind_eq_bind, Option.bind_eq_some_iff] at hread
      obtain ⟨fields, -, kind, -, hread⟩ := hread
      exact yields_ofKind? (ih true) kind fields a hread

/-- What was read as an action is canonical. -/
theorem Action.yields_read? (byPlace : Bool) : Yields (Action.read? byPlace) IsCanonical :=
  fun v => yields_ofValue? (v.depth + 1) byPlace v

/-! ## Graphs -/

def Transition.IsCanonical (t : Transition) : Prop := ∀ a ∈ t.actions, a.IsCanonical

structure State.IsCanonical (s : State) : Prop where
  entry : ∀ a ∈ s.entry, a.IsCanonical
  exit : ∀ a ∈ s.exit, a.IsCanonical
  during : ∀ a ∈ s.during, a.IsCanonical
  after : ∀ a ∈ s.after, a.IsCanonical
  on : ∀ t ∈ s.on, t.transition.IsCanonical
  always : ∀ t ∈ s.always, t.IsCanonical
  locals : ∀ v ∈ s.locals, v.IsCanonical

inductive Graph.IsCanonical : Graph → Prop where
  | intro {locals : List Variable} {states : List State} {nested : List Graph}
      (hlocals : ∀ v ∈ locals, v.IsCanonical) (hstates : ∀ s ∈ states, s.IsCanonical)
      (hnested : ∀ g ∈ nested, IsCanonical g) (name : String) (isAbstract : Bool) :
      IsCanonical ⟨name, isAbstract, locals, states, nested⟩

theorem Transition.yields_ofFields? (byPlace : Bool) :
    Yields (ofFields? byPlace) IsCanonical := by
  intro fields a hread
  simp only [ofFields?, Option.bind_eq_bind, Option.bind_eq_some_iff] at hread
  obtain ⟨target, -, guards, -, actions, hactions, otherwise, -, hread⟩ := hread
  cases hread
  exact (Action.yields_read? byPlace).items fields actions hactions

theorem Transition.yields_read? : Yields Transition.read? IsCanonical := by
  intro v a hread
  simp only [Transition.read?, Option.bind_eq_bind, Option.bind_eq_some_iff] at hread
  obtain ⟨fields, -, hread⟩ := hread
  exact yields_ofFields? false fields a hread

theorem Trigger.yields_read? : Yields Trigger.read? fun t => t.transition.IsCanonical := by
  intro v a hread
  simp only [Trigger.read?, Option.bind_eq_bind, Option.bind_eq_some_iff] at hread
  obtain ⟨fields, -, event, -, transition, htransition, hread⟩ := hread
  cases hread
  exact Transition.yields_ofFields? true fields transition htransition

theorem State.yields_read? : Yields State.read? State.IsCanonical := by
  intro v a hread
  simp only [State.read?, Option.bind_eq_bind, Option.bind_eq_some_iff] at hread
  obtain ⟨fields, -, name, -, isInitial, -, isTerminal, -, entry, hentry, exit, hexit,
    during, hduring, after, hafter, on, hon, always, halways, locals, hlocals, hread⟩ := hread
  cases hread
  have haction := Action.yields_read? false
  exact ⟨haction.items fields entry hentry, haction.items fields exit hexit,
    haction.items fields during hduring, haction.items fields after hafter,
    Trigger.yields_read?.items fields on hon, Transition.yields_read?.items fields always halways,
    Variable.yields_read?.items fields locals hlocals⟩

theorem Graph.yields_ofValue? (n : Nat) : Yields (ofValue? n) IsCanonical := by
  induction n with
  | zero => exact nofun
  | succ n ih =>
      intro v a hread
      simp only [ofValue?, ofFields?, Option.bind_eq_bind, Option.bind_eq_some_iff] at hread
      obtain ⟨fields, -, name, -, isAbstract, -, locals, hlocals, states, hstates, nested,
        hnested, hread⟩ := hread
      cases hread
      exact .intro (Variable.yields_read?.items fields locals hlocals)
        (State.yields_read?.readList?.required? fields states hstates)
        (ih.items fields nested hnested) name isAbstract

/-- What was read as a graph is canonical. -/
theorem Graph.yields_read? : Yields Graph.read? IsCanonical :=
  fun v => yields_ofValue? (v.depth + 1) v

end Description
end Statechart
