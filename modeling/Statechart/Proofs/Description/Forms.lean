import Mathlib.Data.Option.Basic
import Statechart.Proofs.Description.Reading

/-!
# Forms of descriptions

What may stand in the places of a document that describes a graph: which fields are known there,
what is expected under them, and what may be left out because it is the default.

- `Form`                  : what is expected in a place
- `Form.fields?`          : the known fields of a record of that form
- `Form.read?`            : the reader of the place
- `Field.Agrees`          : two records agree on a field
- `Form.read?_record`     : records that agree on the known fields are read alike
-/

namespace Statechart
namespace Description

open Shape

inductive Form where
  /-- Any value; all its fields count. -/
  | any
  | text
  | flag
  | kind (byPlace : Bool)
  | channel
  /-- A text, or null. -/
  | optionalText
  | list (item : Form)
  | declaration
  | event
  | action (byPlace : Bool)
  | case
  | transition
  | trigger
  | state
  | graph
  | collaboration

/-! ## Known fields -/

structure Field where
  name : String
  form : Form
  /-- What a field that may be left out stands for when it is. -/
  default : Option Value

namespace Field

def needed (name : String) (form : Form) : Field := ⟨name, form, none⟩

def flag (name : String) : Field := ⟨name, .flag, some (.bool false)⟩

def items (name : String) (item : Form) : Field := ⟨name, .list item, some (.list [])⟩

def maybe (name : String) : Field := ⟨name, .optionalText, some .null⟩

/-- Events are internal unless their channel is written down. -/
def channel : Field := ⟨"channel", .channel, some (.text Channel.internal.name)⟩

end Field

/-- The fields of an action of a kind, apart from the kind. -/
def Action.fields (kind : String) : List Field :=
  if kind = "assign" then [.needed "variable" .declaration]
  else if kind = "create" then [.needed "variable" .declaration, .flag "persistent"]
  else if kind = "invoke" then
    [.needed "service_type" .text, .flag "is_local", .items "input" .declaration,
      .items "output" .text, .items "done" .event]
  else if kind = "match" then [.needed "value" .any, .needed "cases" (.list .case)]
  else if kind = "raise" then [.needed "event" .event]
  else if kind = "timeout" then
    [.needed "name" .text, .needed "delay" .any, .needed "action" (.action true)]
  else if kind = "timeout_reset" then [.needed "action" .text]
  else []

def Transition.fields (byPlace : Bool) : List Field :=
  [.maybe "target", .items "guards" .text, .items "actions" (.action byPlace), .maybe "else"]

def State.fields : List Field :=
  [.needed "name" .text, .flag "initial", .flag "terminal", .items "entry" (.action false),
    .items "exit" (.action false), .items "while" (.action false),
    .items "after" (.action false), .items "on" .trigger, .items "always" .transition,
    .items "local" .declaration]

namespace Form

/-- The fields that are known in a record, which for actions depend on the kind written in it.
There are none for what is no record, and of any value no field is passed over. -/
def fields? : Form → List (String × Value) → Option (List Field)
  | .declaration, _ => some [.needed "name" .text, .needed "value" .any]
  | .event, _ => some [.needed "name" .text, .channel, .items "data" .declaration]
  | .action byPlace, fields =>
      some (.needed "type" (.kind byPlace) ::
        ((required? "type" (readKind? byPlace) fields).map Action.fields).getD [])
  | .case, _ => some [.needed "case" .any, .needed "action" (.action true)]
  | .transition, _ => some (Transition.fields false)
  | .trigger, _ => some (.needed "event" .text :: Transition.fields true)
  | .state, _ => some State.fields
  | .graph, _ =>
      some [.needed "name" .text, .flag "abstract", .items "local" .declaration,
        .needed "states" (.list .state), .items "nested" .graph]
  | .collaboration, _ =>
      some [.needed "name" .text, .items "persistent" .declaration,
        .needed "machines" (.list .graph)]
  | _, _ => none

/-- The form of the items of a list. -/
def item? : Form → Option Form
  | .any => some .any
  | .list item => some item
  | _ => none

/-! ## Readers -/

/-- What a place of a form describes. -/
def Content : Form → Type
  | .any => Value
  | .text => String
  | .flag => Bool
  | .kind _ => String
  | .channel => Channel
  | .optionalText => Option String
  | .list item => List item.Content
  | .declaration => Variable
  | .event => Event
  | .action _ => Action
  | .case => Value × Action
  | .transition => Transition
  | .trigger => Trigger
  | .state => State
  | .graph => Graph
  | .collaboration => Collaboration

def read? : (f : Form) → Value → Option f.Content
  | .any => readAny?
  | .text => readText?
  | .flag => readBool?
  | .kind byPlace => readKind? byPlace
  | .channel => fun v => readWord? isVoid v >>= Channel.ofName?
  | .optionalText => readNullable? readText?
  | .list item => readList? item.read?
  | .declaration => Variable.read?
  | .event => Event.read?
  | .action byPlace => Action.read? byPlace
  | .case => readCase? (Action.read? true)
  | .transition => Transition.read?
  | .trigger => Trigger.read?
  | .state => State.read?
  | .graph => Graph.read?
  | .collaboration => Collaboration.read?

end Form

/-! ## Agreement -/

/-- A field is read alike from two records, be it there or left out. -/
def Field.Agrees (field : Field) (fields others : List (String × Value)) : Prop :=
  match field.default with
  | none =>
      required? field.name field.form.read? fields = required? field.name field.form.read? others
  | some default =>
      ∀ content, field.form.read? default = some content →
        optional? field.name content field.form.read? fields =
          optional? field.name content field.form.read? others

namespace Field

variable {field : Field} {name : String} {form : Form} {fields others : List (String × Value)}

theorem Agrees.of_answers
    (h : ((written field.name fields).map field.form.read?).Perm
      ((written field.name others).map field.form.read?)) : field.Agrees fields others := by
  unfold Agrees
  cases field.default with
  | none => exact required?_of_answers h
  | some default => exact fun content _ => optional?_of_answers content h

theorem Agrees.of_written (h : written field.name fields = written field.name others) :
    field.Agrees fields others :=
  .of_answers (.of_eq (by rw [h]))

/-- A field that is left out agrees with one that is spelled as its default. -/
theorem Agrees.of_default {default : Value} (hdefault : field.default = some default)
    (hname : field.name ∉ fields.map (·.1)) :
    field.Agrees fields ((field.name, default) :: fields) := by
  unfold Agrees
  rw [hdefault]
  intro content hcontent
  rw [optional?, optional?, written_cons, if_pos rfl, written_eq_nil hname]
  exact hcontent.symm

theorem Agrees.needed (h : (needed name form).Agrees fields others) :
    required? name form.read? fields = required? name form.read? others := h

theorem Agrees.flag (h : (flag name).Agrees fields others) :
    optional? name false readBool? fields = optional? name false readBool? others := h false rfl

theorem Agrees.items (h : (items name form).Agrees fields others) :
    optional? name [] (readList? form.read?) fields =
      optional? name [] (readList? form.read?) others := h [] rfl

theorem Agrees.maybe (h : (maybe name).Agrees fields others) :
    optional? name none (readNullable? readText?) fields =
      optional? name none (readNullable? readText?) others := h none rfl

theorem Agrees.channel (h : channel.Agrees fields others) :
    optional? "channel" .internal (fun v => readWord? isVoid v >>= Channel.ofName?) fields =
      optional? "channel" .internal (fun v => readWord? isVoid v >>= Channel.ofName?) others :=
  h .internal rfl

end Field

/-! ## Records that agree -/

section Records

variable {fields others : List (String × Value)}

theorem Action.ofKind?_agree {kind : String}
    (h : ∀ field ∈ Action.fields kind, field.Agrees fields others) :
    ofKind? (Action.read? true) kind fields = ofKind? (Action.read? true) kind others := by
  -- the reader and the table of fields try the kinds in one order
  unfold ofKind?
  split
  · subst_vars
    simp only [Action.fields, reduceIte, List.forall_mem_cons] at h
    obtain ⟨declared, -⟩ := h
    exact Option.bind_congr' declared.needed fun _ _ => rfl
  split
  · subst_vars
    simp only [Action.fields, reduceIte, String.reduceEq, List.forall_mem_cons] at h
    obtain ⟨declared, persistent, -⟩ := h
    refine Option.bind_congr' declared.needed fun _ _ => ?_
    exact Option.bind_congr' persistent.flag fun _ _ => rfl
  split
  · subst_vars
    simp only [Action.fields, reduceIte, String.reduceEq, List.forall_mem_cons] at h
    obtain ⟨service, isLocal, input, output, done, -⟩ := h
    refine Option.bind_congr' service.needed fun _ _ => ?_
    refine Option.bind_congr' isLocal.flag fun _ _ => ?_
    refine Option.bind_congr' input.items fun _ _ => ?_
    refine Option.bind_congr' output.items fun _ _ => ?_
    exact Option.bind_congr' done.items fun _ _ => rfl
  split
  · subst_vars
    simp only [Action.fields, reduceIte, String.reduceEq, List.forall_mem_cons] at h
    obtain ⟨value, cases, -⟩ := h
    refine Option.bind_congr' value.needed fun _ _ => ?_
    exact Option.bind_congr' cases.needed fun _ _ => rfl
  split
  · subst_vars
    simp only [Action.fields, reduceIte, String.reduceEq, List.forall_mem_cons] at h
    obtain ⟨event, -⟩ := h
    exact Option.bind_congr' event.needed fun _ _ => rfl
  split
  · subst_vars
    simp only [Action.fields, reduceIte, String.reduceEq, List.forall_mem_cons] at h
    obtain ⟨name, delay, action, -⟩ := h
    refine Option.bind_congr' name.needed fun _ _ => ?_
    refine Option.bind_congr' delay.needed fun _ _ => ?_
    exact Option.bind_congr' action.needed fun _ _ => rfl
  split
  · subst_vars
    simp only [Action.fields, reduceIte, String.reduceEq, List.forall_mem_cons] at h
    obtain ⟨timeout, -⟩ := h
    exact Option.bind_congr' timeout.needed fun _ _ => rfl
  · rfl

theorem Action.ofFields?_agree {byPlace : Bool}
    (h : ∀ known, (Form.action byPlace).fields? fields = some known →
      ∀ field ∈ known, field.Agrees fields others) :
    ofFields? (Action.read? true) byPlace fields =
      ofFields? (Action.read? true) byPlace others := by
  obtain ⟨hkind, hrest⟩ := List.forall_mem_cons.1 (h _ rfl)
  have hothers : required? "type" (readKind? byPlace) fields =
      required? "type" (readKind? byPlace) others := hkind.needed
  unfold ofFields?
  rw [← hothers]
  -- what else counts depends on the kind, which is the same in both records
  cases hread : required? "type" (readKind? byPlace) fields with
  | none => rfl
  | some kind =>
      rw [hread] at hrest
      exact ofKind?_agree hrest

theorem Transition.ofFields?_agree {byPlace : Bool}
    (h : ∀ field ∈ Transition.fields byPlace, field.Agrees fields others) :
    ofFields? byPlace fields = ofFields? byPlace others := by
  simp only [Transition.fields, List.forall_mem_cons] at h
  obtain ⟨target, guards, actions, otherwise, -⟩ := h
  refine Option.bind_congr' target.maybe fun _ _ => ?_
  refine Option.bind_congr' guards.items fun _ _ => ?_
  refine Option.bind_congr' actions.items fun _ _ => ?_
  exact Option.bind_congr' otherwise.maybe fun _ _ => rfl

theorem readFields?_bind_congr {read : List (String × Value) → Option α}
    (h : read fields = read others) :
    (readFields? (.record fields) >>= read) = (readFields? (.record others) >>= read) := h

/-- Records that agree on the fields known in the first of them are read alike. -/
theorem Form.read?_record {f : Form} {known : List Field} (hknown : f.fields? fields = some known)
    (h : ∀ field ∈ known, field.Agrees fields others) :
    f.read? (.record fields) = f.read? (.record others) := by
  cases f with
  | declaration =>
      cases hknown
      simp only [List.forall_mem_cons] at h
      obtain ⟨name, value, -⟩ := h
      refine readFields?_bind_congr ?_
      refine Option.bind_congr' name.needed fun _ _ => ?_
      exact Option.bind_congr' value.needed fun _ _ => rfl
  | event =>
      cases hknown
      simp only [List.forall_mem_cons] at h
      obtain ⟨name, channel, data, -⟩ := h
      refine readFields?_bind_congr ?_
      refine Option.bind_congr' name.needed fun _ _ => ?_
      refine Option.bind_congr' channel.channel fun _ _ => ?_
      exact Option.bind_congr' data.items fun _ _ => rfl
  | action byPlace =>
      rw [read?, Action.read?_record, Action.read?_record]
      refine Action.ofFields?_agree fun known' hknown' => ?_
      cases hknown.symm.trans hknown'
      exact h
  | case =>
      cases hknown
      simp only [List.forall_mem_cons] at h
      obtain ⟨value, action, -⟩ := h
      refine readFields?_bind_congr ?_
      refine Option.bind_congr' value.needed fun _ _ => ?_
      exact Option.bind_congr' action.needed fun _ _ => rfl
  | transition =>
      cases hknown
      exact readFields?_bind_congr (Transition.ofFields?_agree h)
  | trigger =>
      cases hknown
      obtain ⟨event, hrest⟩ := List.forall_mem_cons.1 h
      refine readFields?_bind_congr ?_
      refine Option.bind_congr' event.needed fun _ _ => ?_
      exact Option.bind_congr' (Transition.ofFields?_agree hrest) fun _ _ => rfl
  | state =>
      cases hknown
      simp only [State.fields, List.forall_mem_cons] at h
      obtain ⟨name, initial, terminal, entry, exit, during, after, on, always, locals, -⟩ := h
      refine readFields?_bind_congr ?_
      refine Option.bind_congr' name.needed fun _ _ => ?_
      refine Option.bind_congr' initial.flag fun _ _ => ?_
      refine Option.bind_congr' terminal.flag fun _ _ => ?_
      refine Option.bind_congr' entry.items fun _ _ => ?_
      refine Option.bind_congr' exit.items fun _ _ => ?_
      refine Option.bind_congr' during.items fun _ _ => ?_
      refine Option.bind_congr' after.items fun _ _ => ?_
      refine Option.bind_congr' on.items fun _ _ => ?_
      refine Option.bind_congr' always.items fun _ _ => ?_
      exact Option.bind_congr' locals.items fun _ _ => rfl
  | graph =>
      cases hknown
      simp only [List.forall_mem_cons] at h
      obtain ⟨name, isAbstract, locals, states, nested, -⟩ := h
      rw [read?, Graph.read?_record, Graph.read?_record]
      refine Option.bind_congr' name.needed fun _ _ => ?_
      refine Option.bind_congr' isAbstract.flag fun _ _ => ?_
      refine Option.bind_congr' locals.items fun _ _ => ?_
      refine Option.bind_congr' states.needed fun _ _ => ?_
      exact Option.bind_congr' nested.items fun _ _ => rfl
  | collaboration =>
      cases hknown
      simp only [List.forall_mem_cons] at h
      obtain ⟨name, persistent, machines, -⟩ := h
      refine readFields?_bind_congr ?_
      refine Option.bind_congr' name.needed fun _ _ => ?_
      refine Option.bind_congr' persistent.items fun _ _ => ?_
      exact Option.bind_congr' machines.needed fun _ _ => rfl
  | _ => cases hknown

end Records

end Description
end Statechart
