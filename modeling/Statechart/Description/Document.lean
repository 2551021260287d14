import Statechart.Description.Reading

/-!
# Descriptions in documents

What counts of the document of a collaboration. The pieces of actions and of transitions on events
all count, known or not; elsewhere unknown fields are passed over without being read.

- `Collaboration.part`     : the part of a document that counts
- `Collaboration.ofText?`  : the value of that part
-/

namespace Statechart
namespace Description

open Json

/-- Fields that count with everything under them. -/
def wholeFields (names : List String) : List (String × Part) :=
  names.map fun name => (name, .whole)

def Variable.part : Part := .record (wholeFields ["name", "value"])

def Transition.part : Part := .record (wholeFields ["target", "guards", "actions", "else"])

def State.part : Part :=
  .record <|
    wholeFields ["name", "initial", "terminal", "entry", "exit", "while", "after", "on"] ++
      [("always", .list Transition.part), ("local", .list Variable.part)]

/-- The part of a graph that holds graphs up to some depth. -/
def Graph.part : Nat → Part
  | 0 => .whole
  | depth + 1 =>
      .record <|
        wholeFields ["name", "abstract"] ++
          [("local", .list Variable.part), ("states", .list State.part),
            ("nested", .list (Graph.part depth))]

def Collaboration.part : Part :=
  .record
    [("name", .whole), ("persistent", .list Variable.part),
      ("machines", .list (Graph.part nestingLimit))]

/-- The value of a document, as far as it counts. -/
def Collaboration.ofText? (text : String) : Option Value := readPart? Collaboration.part text

end Description
end Statechart
