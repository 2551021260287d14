import Statechart.CommandLine.Arguments

/-!
# Help

What the command says about itself.

- `Manual`       : the parts of a help text
- `Manual.text`  : the parts laid out in columns
- `Topic.manual` : the help on a topic
- `versionText`  : name and version of the command
-/

namespace Statechart
namespace CommandLine

/-! ## Layout -/

/-- Something that is explained. -/
structure Explained where
  /-- A short form in front of the label, or as many blanks. -/
  lead : String
  label : String
  text : String
  deriving DecidableEq, Repr

structure Manual where
  about : String
  usage : String
  sections : List (String × List Explained)
  deriving DecidableEq, Repr

/-- How many columns lines may have. -/
def lineWidth : Nat := 100

def blanks (n : Nat) : String := String.ofList (List.replicate n ' ')

/-- The width of the widest label. -/
def labelWidth (entries : List Explained) : Nat :=
  entries.foldl (fun width e => max width e.label.length) 0

/-- Where labels take more than two fifths of the line, and a text does not fit into the rest, all
texts stand below their labels. -/
def standBelow (entries : List Explained) : Bool :=
  let taken := labelWidth entries + 12
  entries.any fun e =>
    decide (taken ≤ lineWidth) && decide (2 * lineWidth < 5 * taken) &&
      decide (lineWidth - taken < e.text.length)

def entryLine (entries : List Explained) (e : Explained) : String :=
  if standBelow entries then "  " ++ e.lead ++ e.label ++ "\n" ++ blanks 10 ++ e.text ++ "\n"
  else
    "  " ++ e.lead ++ e.label ++ blanks (labelWidth entries - e.label.length) ++ "  " ++ e.text ++
      "\n"

def sectionText (title : String) (entries : List Explained) : String :=
  "\n" ++ title ++ ":\n" ++ String.join (entries.map (entryLine entries))

def Manual.text (m : Manual) : String :=
  m.about ++ "\n\nUsage: " ++ m.usage ++ "\n" ++
    String.join (m.sections.map fun (title, entries) => sectionText title entries)

/-! ## Contents -/

def commandName : String := "csm"

def versionText : String := commandName ++ " 0.1.0\n"

/-- The short and the long form of an option, and what stands for its value. -/
def explainFlag (f : Flag) (placeholder text : String) : Explained :=
  { lead :=
      match f.letter with
      | some letter => String.ofList ['-', letter, ',', ' ']
      | none => blanks 4
    label := "--" ++ f.word ++ placeholder
    text }

def helpEntry : Explained := explainFlag helpFlag "" "Print help"

/-- The variable that stands in for an argument, with its value. -/
def variableNote (env : Environment) (name : String) : String :=
  " [env: " ++ name ++ "=" ++ (env name).getD "" ++ "]"

namespace Topic

def about : Topic → String
  | .everything => "Runtime for collaborative state machines"
  | .run => "Run a collaborative state machine until all instances terminate"
  | .validate => "Build and validate a machine description without running it"
  | .configuration => "Write the effective configuration as YAML"
  | .help => "Print this message or the help of the given subcommand(s)"

def machineEntry (note : String) : Explained :=
  ⟨"", "<MACHINE>", "Machine description (JSON)" ++ note⟩

def manual (env : Environment) (topic : Topic) : Manual :=
  match topic with
  | .everything =>
      ⟨topic.about, commandName ++ " [OPTIONS] <COMMAND>",
        [("Commands",
            [⟨"", "run", about .run⟩, ⟨"", "validate", about .validate⟩,
              ⟨"", "config", about .configuration⟩, ⟨"", "help", about .help⟩]),
          ("Options",
            [explainFlag configFlag " <CONFIG>"
                ("Configuration file (YAML)" ++ variableNote env configVariable),
              helpEntry, explainFlag versionFlag "" "Print version"])]⟩
  | .run =>
      ⟨topic.about, commandName ++ " run [OPTIONS] <MACHINE>",
        [("Arguments", [machineEntry (variableNote env machineVariable)]),
          ("Options",
            [explainFlag timeoutFlag " <TIMEOUT_SECS>"
                "Give up waiting after this many seconds (0 = wait forever) [default: 0]",
              helpEntry])]⟩
  | .validate =>
      ⟨topic.about, commandName ++ " validate [OPTIONS] <MACHINE>",
        [("Arguments", [machineEntry ""]),
          ("Options",
            [explainFlag strictFlag "" "Reject states declaring two transitions for the same event",
              helpEntry])]⟩
  | .configuration =>
      ⟨topic.about, commandName ++ " config [OPTIONS]",
        [("Options",
            [explainFlag outputFlag " <OUTPUT>" "Output file (stdout if omitted)", helpEntry])]⟩
  | .help =>
      ⟨topic.about, commandName ++ " help [COMMAND]...",
        [("Arguments", [⟨"", "[COMMAND]...", "Print help for the subcommand(s)"⟩])]⟩

end Topic

end CommandLine
end Statechart
