import Statechart.Proofs.Description.Alike
import Statechart.Proofs.Description.RoundTrip
import Statechart.Proofs.Graph.Fidelity
import Statechart.Value.Decidable

/-!
# The identity of a graph

A graph that was built is built again from its written form, and documents that are alike build
one graph: its checksum belongs to the description and not to the document it was read from.

- `Spells`                         : the fields that are written, and their order
- `Graph.hasDistinctNames_toValue` : no record in a written form repeats a name
- `Graph.description_of_ofValue`   : a graph keeps the description it was built from
- `Graph.round_trips`              : reading, writing and building again
-/

namespace Statechart
namespace Description

open Shape

/-! ## Names in what is written -/

/-- Fields with some of the given names, in that order, whose values repeat no name. -/
structure Spells (names : List String) (fields : List (String × Value)) : Prop where
  names : (fields.map (·.1)).Sublist names
  members : ∀ field ∈ fields, field.2.HasDistinctNames

namespace Spells

variable {names others : List String} {fields rest : List (String × Value)} {name : String}

theorem nil : Spells [] [] := ⟨.slnil, nofun⟩

theorem cons {v : Value} (hv : v.HasDistinctNames) (h : Spells names fields) :
    Spells (name :: names) ((name, v) :: fields) :=
  ⟨h.names.cons_cons name, List.forall_mem_cons.2 ⟨hv, h.members⟩⟩

theorem append (h : Spells names fields) (h' : Spells others rest) :
    Spells (names ++ others) (fields ++ rest) := by
  refine ⟨?_, List.forall_mem_append.2 ⟨h.members, h'.members⟩⟩
  rw [List.map_append]
  exact h.names.append h'.names

theorem unlessEmpty {items : List Value} (h : ∀ item ∈ items, item.HasDistinctNames) :
    Spells [name] (unlessEmpty name items) := by
  unfold Description.unlessEmpty
  split
  · exact ⟨List.nil_sublist _, nofun⟩
  · exact nil.cons (.list h)

theorem unlessAbsent (s : Option String) : Spells [name] (unlessAbsent name s) := by
  cases s with
  | none => exact ⟨List.nil_sublist _, nofun⟩
  | some s => exact nil.cons (.text s)

theorem record (h : Spells names fields) (hnames : names.Nodup) :
    (Value.record fields).HasDistinctNames :=
  .record (hnames.sublist h.names) h.members

end Spells

theorem hasDistinctNames_of_canonical {v : Value} (h : v.canonical = v) : v.HasDistinctNames :=
  h ▸ v.hasDistinctNames_canonical

theorem Variable.hasDistinctNames_toValue {v : Variable} (h : v.IsCanonical) :
    v.toValue.HasDistinctNames := by
  have hvalue : v.value.HasDistinctNames := hasDistinctNames_of_canonical h
  exact ((Spells.nil.cons hvalue).cons (.text v.name)).record (by decide)

theorem Variable.hasDistinctNames_map {vs : List Variable} (h : ∀ v ∈ vs, v.IsCanonical) :
    ∀ item ∈ vs.map toValue, item.HasDistinctNames :=
  List.forall_mem_map.2 fun v hv => hasDistinctNames_toValue (h v hv)

theorem Event.hasDistinctNames_toValue {e : Event} (h : e.IsCanonical) :
    e.toValue.HasDistinctNames :=
  (Spells.nil.cons (.text _)).cons (.text e.name)
    |>.append (.unlessEmpty (Variable.hasDistinctNames_map h))
    |>.record (by decide)

theorem Action.hasDistinctNames_toValue {a : Action} (h : a.IsCanonical) :
    a.toValue.HasDistinctNames := by
  induction h with
  | assign hdeclared =>
      rw [toValue]
      exact ((Spells.nil.cons (Variable.hasDistinctNames_toValue hdeclared)).cons
        (.text _)).record (by decide)
  | create hdeclared persistent =>
      rw [toValue]
      exact (((Spells.nil.cons (.bool persistent)).cons
        (Variable.hasDistinctNames_toValue hdeclared)).cons (.text _)).record (by decide)
  | invoke hinput hdone service isLocal output =>
      have houtput : ∀ item ∈ output.map Value.text, item.HasDistinctNames :=
        List.forall_mem_map.2 fun s _ => .text s
      have hdone := List.forall_mem_map.2 fun e he => Event.hasDistinctNames_toValue (hdone e he)
      rw [toValue]
      exact Spells.nil.cons (.list hdone)
        |>.cons (.list houtput)
        |>.cons (.list (Variable.hasDistinctNames_map hinput))
        |>.cons (.bool isLocal)
        |>.cons (.text service)
        |>.cons (.text _)
        |>.record (by decide)
  | choose hvalue hlabels _ ih =>
      rename_i value cases _
      have hcases : ∀ item ∈ casesToValues cases, item.HasDistinctNames := by
        rw [casesToValues_eq]
        exact List.forall_mem_map.2 fun c hc =>
          ((Spells.nil.cons (ih c hc)).cons
            (hasDistinctNames_of_canonical (hlabels c hc))).record (by decide)
      rw [toValue]
      exact (((Spells.nil.cons (.list hcases)).cons (hasDistinctNames_of_canonical hvalue)).cons
        (.text _)).record (by decide)
  | raise hevent =>
      rw [toValue]
      exact ((Spells.nil.cons (Event.hasDistinctNames_toValue hevent)).cons (.text _)).record
        (by decide)
  | timeout hdelay _ name ih =>
      rw [toValue]
      exact ((((Spells.nil.cons ih).cons (hasDistinctNames_of_canonical hdelay)).cons
        (.text name)).cons (.text _)).record (by decide)
  | resetTimeout timeout =>
      rw [toValue]
      exact ((Spells.nil.cons (.text timeout)).cons (.text _)).record (by decide)

theorem Action.hasDistinctNames_map {as : List Action} (h : ∀ a ∈ as, a.IsCanonical) :
    ∀ item ∈ as.map toValue, item.HasDistinctNames :=
  List.forall_mem_map.2 fun a ha => hasDistinctNames_toValue (h a ha)

theorem Transition.spells_toFields {t : Transition} (h : t.IsCanonical) :
    Spells ["target", "guards", "actions", "else"] t.toFields :=
  Spells.unlessAbsent t.target
    |>.append (.unlessEmpty (List.forall_mem_map.2 fun s _ => .text s))
    |>.append (.unlessEmpty (Action.hasDistinctNames_map h))
    |>.append (.unlessAbsent t.otherwise)

theorem Transition.hasDistinctNames_toValue {t : Transition} (h : t.IsCanonical) :
    t.toValue.HasDistinctNames :=
  (spells_toFields h).record (by decide)

theorem Trigger.hasDistinctNames_toValue {t : Trigger} (h : t.transition.IsCanonical) :
    t.toValue.HasDistinctNames :=
  ((Transition.spells_toFields h).cons (.text t.event)).record (by decide)

theorem State.hasDistinctNames_toValue {s : State} (h : s.IsCanonical) :
    s.toValue.HasDistinctNames := by
  have hnamed : Spells ["name", "initial", "terminal"] [("name", .text s.name),
      ("initial", .bool s.isInitial), ("terminal", .bool s.isTerminal)] :=
    ((Spells.nil.cons (.bool _)).cons (.bool _)).cons (.text _)
  have hon := List.forall_mem_map.2 fun t ht => Trigger.hasDistinctNames_toValue (h.on t ht)
  have halways := List.forall_mem_map.2 fun t ht =>
    Transition.hasDistinctNames_toValue (h.always t ht)
  exact hnamed
    |>.append (.unlessEmpty (Action.hasDistinctNames_map h.entry))
    |>.append (.unlessEmpty (Action.hasDistinctNames_map h.exit))
    |>.append (.unlessEmpty (Action.hasDistinctNames_map h.during))
    |>.append (.unlessEmpty (Action.hasDistinctNames_map h.after))
    |>.append (.unlessEmpty hon)
    |>.append (.unlessEmpty halways)
    |>.append (.unlessEmpty (Variable.hasDistinctNames_map h.locals))
    |>.record (by decide)

/-- No record in what is written of a graph repeats a name. -/
theorem Graph.hasDistinctNames_toValue {g : Graph} (h : g.IsCanonical) :
    g.toValue.HasDistinctNames := by
  induction h with
  | intro hlocals hstates _ name isAbstract ih =>
      have hstates :=
        List.forall_mem_map.2 fun s hs => State.hasDistinctNames_toValue (hstates s hs)
      rw [toValue, graphsToValues_eq]
      exact (Spells.nil.cons (.bool isAbstract)).cons (.text name)
        |>.append (.unlessEmpty (Variable.hasDistinctNames_map hlocals))
        |>.append (Spells.nil.cons (.list hstates))
        |>.append (.unlessEmpty (List.forall_mem_map.2 ih))
        |>.record (by decide)

/-- The fields of the written form may be sorted, as in a value proper. -/
theorem Graph.read?_canonical_toValue {g : Graph} (h : g.IsCanonical) :
    Graph.read? g.toValue.canonical = some g :=
  (Form.read?_canonical (hasDistinctNames_toValue h) .graph).trans (read?_toValue h)

end Description

/-! ## Built graphs -/

namespace Graph

/-- A graph keeps the description it was built from. -/
theorem description_of_ofValue {strict : Bool} {v : Value} {g : Graph}
    (h : ofValue strict v = .ok g) :
    Description.Graph.read? v = some g.description ∧ build strict g.description = .ok g := by
  unfold ofValue at h
  split at h
  · rename_i d hread
    obtain ⟨-, -, -, -, hdescription, -⟩ := describes_of_build h
    rw [hdescription]
    exact ⟨hread, h⟩
  · cases h

/-- A description of values proper, as every description is that was read, is read again from what
is written of it, be the fields sorted or not. What was accepted as a graph is accepted again in
its written form, as the same graph with the same description and checksum. Documents that differ
only in the order of fields, in unknown fields and in fields spelled as their default are accepted
as the same graph or refused alike, and whatever they are accepted as has one checksum. -/
theorem round_trips :
    (∀ d : Description.Graph, d.IsCanonical →
      Description.Graph.read? d.toValue = some d ∧
        Description.Graph.read? d.toValue.canonical = some d) ∧
    (∀ (strict : Bool) (v : Value) (g : Graph), ofValue strict v = .ok g →
      Description.Graph.read? v = some g.description ∧ g.description.IsCanonical ∧
        ofValue strict g.description.toValue = .ok g ∧
        ofValue strict g.description.toValue.canonical = .ok g) ∧
    (∀ v w : Value, Description.Alike .graph v w →
      (∀ strict, ofValue strict v = ofValue strict w) ∧
        ∀ strict strict' g g', ofValue strict v = .ok g → ofValue strict' w = .ok g' →
          g.checksum = g'.checksum) := by
  refine ⟨fun d hd => ?_, fun strict v g hg => ?_, fun v w halike => ?_⟩
  · exact ⟨Description.Graph.read?_toValue hd, Description.Graph.read?_canonical_toValue hd⟩
  · obtain ⟨hread, hbuild⟩ := description_of_ofValue hg
    have hcanonical := Description.Graph.yields_read? v g.description hread
    refine ⟨hread, hcanonical, ?_, ?_⟩
    · rw [ofValue, Description.Graph.read?_toValue hcanonical]
      exact hbuild
    · rw [ofValue, Description.Graph.read?_canonical_toValue hcanonical]
      exact hbuild
  · have hread : Description.Graph.read? v = Description.Graph.read? w := halike.read?_eq
    refine ⟨fun strict => by rw [ofValue, ofValue, hread], ?_⟩
    intro strict strict' g g' hg hg'
    have hsame : some g.description = some g'.description :=
      (description_of_ofValue hg).1.symm.trans (hread.trans (description_of_ofValue hg').1)
    rw [checksum, checksum, Option.some.inj hsame]

/-- A beacon says that it is dark. -/
def beacon (event : List (String × Value)) : List (String × Value) :=
  [("name", .text "beacon"),
    ("states", .list [.record [("name", .text "off"), ("initial", .bool true),
      ("entry", .list [.record [("type", .text "raise"), ("event", .record event)]])]])]

def plainBeacon : Value := .record (beacon [("name", .text "dark")])

/-- The same with an unknown field, two defaults that are spelled, and everything in turn. -/
def fullBeacon : Value :=
  .record (("colour", .text "red") :: ("nested", .list []) ::
    (beacon [("channel", .text "internal"), ("name", .text "dark")]).reverse)

open Description in
theorem plainBeacon_alike : Alike .graph plainBeacon fullBeacon := by
  let dark : List (String × Value) := [("name", .text "dark")]
  let full : List (String × Value) := ("channel", .text "internal") :: dark
  let beacon' : List (String × Value) := ("nested", .list []) :: beacon full
  have hevent : Alike .event (.record dark) (.record full) :=
    .spelled .channel _ rfl (.tail _ (.head _)) rfl (by decide)
  -- the event stands in an action of a state
  have hstates : Alike (.list .state) ((beacon dark)[1]).2 ((beacon full)[1]).2 :=
    .item [] [] rfl <|
      .field (.items "entry" (.action false)) [("name", .text "off"), ("initial", .bool true)] []
        rfl (.tail _ (.tail _ (.tail _ (.head _)))) <|
        .item [] [] rfl <|
          .field (.needed "event" .event) [("type", .text "raise")] [] rfl (.tail _ (.head _))
            hevent
  have hbeacon : Alike .graph plainBeacon (.record (beacon full)) :=
    .field (.needed "states" (.list .state)) [("name", .text "beacon")] [] rfl
      (.tail _ (.tail _ (.tail _ (.head _)))) hstates
  have hnested : Alike .graph (.record (beacon full)) (.record beacon') :=
    .spelled (.items "nested" .graph) _ rfl
      (.tail _ (.tail _ (.tail _ (.tail _ (.head _))))) rfl (by decide)
  have hcolour : Alike .graph (.record beacon') (.record (("colour", .text "red") :: beacon')) :=
    .unknown "colour" (.text "red") rfl (by decide)
  have horder : Alike .graph (.record (("colour", .text "red") :: beacon')) fullBeacon :=
    .order (((List.reverse_perm _).symm.cons _).cons _) (by decide)
  exact ((hbeacon.trans hnested).trans hcolour).trans horder

/-- The fuller document is the same graph, and so is what is written of it. -/
theorem round_trips_beacon :
    Description.Alike .graph plainBeacon fullBeacon ∧
      ∃ g, ofValue false plainBeacon = .ok g ∧ ofValue false fullBeacon = .ok g ∧
        g.description.IsCanonical ∧
        Description.Graph.read? g.description.toValue = some g.description ∧
        ofValue false g.description.toValue.canonical = .ok g := by
  obtain ⟨hwritten, hbuilt, halike⟩ := round_trips
  obtain ⟨g, hg⟩ : ∃ g, ofValue false plainBeacon = .ok g := ⟨_, rfl⟩
  obtain ⟨-, hcanonical, -, hagain⟩ := hbuilt false plainBeacon g hg
  have hfull : ofValue false fullBeacon = .ok g :=
    ((halike _ _ plainBeacon_alike).1 false).symm.trans hg
  exact ⟨plainBeacon_alike, g, hg, hfull, hcanonical, (hwritten g.description hcanonical).1, hagain⟩

end Graph
end Statechart
