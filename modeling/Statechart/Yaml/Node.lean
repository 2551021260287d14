import Statechart.Yaml.Plain
import Statechart.Yaml.Scalar

/-!
# Nodes of configuration files

What a file holds: scalars, lists and records. A node may be written once and referred to later.
What a scalar stands for is decided by who reads it.

- `Node`                : scalars, lists, records and references
- `Document`            : a node with all nodes that are referred to
- `Document.resolve`    : the node that a reference stands for
- `Document.fields?`, `Document.items?`, `Document.scalar?` : what a node stands for
-/

namespace Statechart
namespace Yaml

inductive Node where
  | scalar (text : String) (style : Style) (tag : Option String)
  | list (items : List Node)
  | record (fields : List (Node × Node))
  /-- Another node, by its number. -/
  | reference (number : Nat)

/-- The beginning of the tags for kinds of scalars. -/
def kindTag : String := "tag:yaml.org,2002:"

namespace Node

/-- A node of which nothing is written. -/
def blank : Node := .scalar "" .plain none

/-- The texts of plain scalars count, and those of literal scalars that are tagged as their kind. -/
def plain? (kind : String) : Node → Option String
  | .scalar text .plain _ => some text
  | .scalar text .literal (some tag) =>
      if tag = kindTag ++ kind then some text else none
  | _ => none

/-- Every scalar is text, quoted or not. -/
def text? : Node → Option String
  | .scalar text _ _ => some text
  | _ => none

/-- A word may also be written as the tag of nothing. -/
def word? : Node → Option String
  | .scalar text style tag =>
      match tag.map String.toList with
      | some ('!' :: word) =>
          if style = .plain ∧ isNothing text then some (String.ofList word) else none
      | _ => some text
  | _ => none

/-- Whether nothing is written, which makes an empty list or record. -/
def isBlank : Node → Bool
  | .scalar text style _ => text == "" && style == .plain
  | _ => false

end Node

structure Document where
  root : Node
  /-- The nodes with a name, by their numbers; none of them is a reference. -/
  named : List (Nat × Node)

namespace Document

def resolve (d : Document) (n : Node) : Node :=
  match n with
  | .reference number => ((d.named.find? fun entry => entry.1 == number).map (·.2)).getD .blank
  | n => n

/-- Names are scalars. -/
def fields? (d : Document) (n : Node) : Option (List (String × Node)) :=
  match d.resolve n with
  | .record fields =>
      fields.mapM fun (key, value) => (d.resolve key).text?.map fun name => (name, value)
  | n => if n.isBlank then some [] else none

def items? (d : Document) (n : Node) : Option (List Node) :=
  match d.resolve n with
  | .list items => some items
  | n => if n.isBlank then some [] else none

/-- A scalar of some kind; `read` decides on its text. -/
def scalar? (d : Document) (kind : String) (read : String → Option α) (n : Node) : Option α :=
  ((d.resolve n).plain? kind).bind read

end Document

end Yaml
end Statechart
