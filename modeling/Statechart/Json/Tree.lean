import Statechart.Value.Basic

/-!
# Parts of documents

A document may be well written and yet hold pieces without a value: numbers beyond all doubles,
halves of surrogate pairs, containers nested too deeply. This only matters in the parts that count.

- `Tree`          : what is written in a document
- `Part`          : which fields of it count
- `Tree.select?`  : the value of the parts that count
- `Tree.value?`   : the value of everything
-/

namespace Statechart
namespace Json

inductive Tree where
  | null
  | bool (b : Bool)
  /-- Without a value if no double is as large. -/
  | number (value : Option Number)
  /-- Without a value if a surrogate stands alone. -/
  | text (value : Option String)
  | list (items : List Tree)
  | record (fields : List (Option String × Tree))

inductive Part where
  | whole
  /-- The same part of each item. -/
  | list (item : Part)
  /-- Fields that count; all others are passed over. -/
  | record (fields : List (String × Part))

namespace Part

def item : Part → Part
  | .list p => p
  | _ => .whole

/-- What counts of a field, if the field counts. -/
def field? : Part → String → Option Part
  | .record fields, name => (fields.find? fun entry => entry.1 == name).map (·.2)
  | _, _ => some .whole

end Part

mutual

/-- The value of the parts that count. Fields keep their written order, repeated names included.
Containers are nested less deeply than `depth`. -/
def Tree.select? (depth : Nat) (part : Part) : Tree → Option Value
  | .null => some .null
  | .bool b => some (.bool b)
  | .number value => value.map .number
  | .text value => value.map .text
  | .list items =>
      if depth ≤ 1 then none else (selectItems? (depth - 1) part.item items).map .list
  | .record fields =>
      if depth ≤ 1 then none else (selectFields? (depth - 1) part fields).map .record

def selectItems? (depth : Nat) (part : Part) : List Tree → Option (List Value)
  | [] => some []
  | item :: rest => do
      let item ← item.select? depth part
      let rest ← selectItems? depth part rest
      some (item :: rest)

/-- Also a name that is passed over must have a value. -/
def selectFields? (depth : Nat) (part : Part) :
    List (Option String × Tree) → Option (List (String × Value))
  | [] => some []
  | (none, _) :: _ => none
  | (some name, tree) :: rest =>
      match part.field? name with
      | none => selectFields? depth part rest
      | some part' => do
          let value ← tree.select? depth part'
          let rest ← selectFields? depth part rest
          some ((name, value) :: rest)

end

/-- The value of a whole document. -/
def Tree.value? (depth : Nat) (t : Tree) : Option Value := t.select? depth .whole

end Json
end Statechart
