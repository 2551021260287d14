import Statechart.Configuration.Basic

/-!
# Arguments

What is asked for on the command line. Options may stand before or after words and may be written
with their value in one argument, as in `--output=file` and `-ofile`. Arguments count from left to
right: a question is answered even if something is missing after it.

- `Flag`, `Grammar`    : the options of a command, and how many words it takes
- `Scan`, `scan?`      : what is found among arguments
- `Demand`             : an invocation, or a question
- `Demand.read?`       : the demand that arguments and environment stand for
-/

namespace Statechart
namespace CommandLine

/-! ## Options -/

/-- What an option does. -/
inductive Effect where
  /-- Is there or not. -/
  | switch
  /-- Takes a path, which is not empty. -/
  | path
  /-- Takes a whole number. -/
  | number
  | help
  | version
  deriving DecidableEq, Repr

namespace Effect

def takesValue : Effect → Bool
  | .path => true
  | .number => true
  | _ => false

def accepts : Effect → String → Bool
  | .path, value => value != ""
  | .number, value => (Environment.count? value).isSome
  | _, _ => true

end Effect

structure Flag where
  /-- The letter after one dash. -/
  letter : Option Char
  /-- The word after two dashes. -/
  word : String
  effect : Effect
  deriving DecidableEq, Repr

def helpFlag : Flag := ⟨some 'h', "help", .help⟩

def versionFlag : Flag := ⟨some 'V', "version", .version⟩

def configFlag : Flag := ⟨some 'c', "config", .path⟩

def timeoutFlag : Flag := ⟨some 't', "timeout-secs", .number⟩

def strictFlag : Flag := ⟨none, "strict", .switch⟩

def outputFlag : Flag := ⟨some 'o', "output", .path⟩

/-! ## Scanning -/

structure Grammar where
  flags : List Flag
  /-- How many words may stand there; without a bound, everything from the first word on is a
  word. -/
  words : Option Nat
  deriving DecidableEq, Repr

inductive Question where
  | help
  | version
  deriving DecidableEq, Repr

structure Scan where
  /-- The options by their words. -/
  found : List (String × String)
  words : List String
  /-- The option that waits for its value. -/
  pending : Option Flag
  /-- Whether everything that follows is a word. -/
  onlyWords : Bool
  /-- The first question; nothing after it counts. -/
  question : Option Question
  deriving DecidableEq, Repr

namespace Scan

def start : Scan := ⟨[], [], none, false, none⟩

def value? (s : Scan) (word : String) : Option String := valueOf? word s.found

/-- An option may be given once, with a value that it accepts. -/
def add? (s : Scan) (f : Flag) (value : String) : Option Scan :=
  if (s.value? f.word).isSome || !f.effect.accepts value then none
  else some { s with found := s.found ++ [(f.word, value)], pending := none }

/-- A word takes no more than its place. Where words are counted they are paths; where they are not,
the first one follows no double dash. -/
def addWord? (s : Scan) (g : Grammar) (word : String) : Option Scan :=
  let s' := { s with words := s.words ++ [word] }
  match g.words with
  | none => if s.onlyWords && s.words.isEmpty then none else some { s' with onlyWords := true }
  | some n => if s.words.length < n && word != "" then some s' else none

/-- An option with the value written to it, if there is one. -/
def addFlag? (s : Scan) (f : Flag) (value : Option (List Char)) : Option Scan :=
  match f.effect.takesValue, value with
  | true, some v => s.add? f (String.ofList v)
  | true, none => some { s with pending := some f }
  | false, some _ => none
  | false, none =>
      match f.effect with
      | .help => some { s with question := some .help }
      | .version => some { s with question := some .version }
      | _ => s.add? f ""

/-- Letters after one dash: an option with its value, or options without values. -/
def addLetters? (g : Grammar) : Scan → List Char → Option Scan
  | s, [] => some s
  | s, letter :: rest =>
      match g.flags.find? fun f => f.letter == some letter with
      | none => none
      | some f =>
          if f.effect.takesValue then
            s.addFlag? f <|
              match rest with
              | [] => none
              | '=' :: v => some v
              | v => some v
          else
            match s.addFlag? f none with
            | some s => if s.question.isSome then some s else addLetters? g s rest
            | none => none

end Scan

/-- The parts before and after the first equals sign. -/
def splitValue : List Char → List Char × Option (List Char)
  | [] => ([], none)
  | '=' :: rest => ([], some rest)
  | c :: rest =>
      let (name, value) := splitValue rest
      (c :: name, value)

/-- One more argument. -/
def scanOne? (g : Grammar) (s : Scan) (arg : String) : Option Scan :=
  if s.question.isSome then some s
  else
    match s.pending, arg.toList with
    | some f, cs =>
        -- a value may be a single dash, but no option
        match cs with
        | '-' :: _ :: _ => none
        | _ => s.add? f arg
    | none, cs =>
        if s.onlyWords then s.addWord? g arg
        else
          match cs with
          | ['-', '-'] => some { s with onlyWords := true }
          | '-' :: '-' :: rest =>
              let (name, value) := splitValue rest
              match g.flags.find? fun f => f.word == String.ofList name with
              | some f => s.addFlag? f value
              | none => none
          | '-' :: letter :: rest => s.addLetters? g (letter :: rest)
          | _ => s.addWord? g arg

/-- What is found among arguments; an option must not lack its value. -/
def scan? (g : Grammar) (args : List String) : Option Scan := do
  let s ← args.foldlM (scanOne? g) Scan.start
  if s.question.isSome || s.pending.isNone then some s else none

/-! ## Demands -/

inductive Order where
  /-- Runs the machines of a file; zero seconds means that they may run for ever. -/
  | run (machines : String) (timeoutSeconds : Nat)
  | validate (machines : String) (strict : Bool)
  /-- Writes the configuration to a file or to the output. -/
  | configuration (output : Option String)
  deriving DecidableEq, Repr

structure Invocation where
  /-- The configuration file. -/
  configuration : Option String
  order : Order
  deriving DecidableEq, Repr

/-- What help is about. -/
inductive Topic where
  | everything
  | run
  | validate
  | configuration
  | help
  deriving DecidableEq, Repr

inductive Demand where
  | invoke (invocation : Invocation)
  | help (topic : Topic)
  | version
  deriving DecidableEq, Repr

namespace Topic

def ofName? : String → Option Topic
  | "run" => some .run
  | "validate" => some .validate
  | "config" => some .configuration
  | "help" => some .help
  | _ => none

/-- The grammar of the arguments after an order. -/
def grammar : Topic → Grammar
  | .everything => ⟨[configFlag, helpFlag, versionFlag], none⟩
  | .run => ⟨[timeoutFlag, helpFlag], some 1⟩
  | .validate => ⟨[strictFlag, helpFlag], some 1⟩
  | .configuration => ⟨[outputFlag, helpFlag], some 0⟩
  | .help => ⟨[], none⟩

end Topic

def machineVariable : String := "CSM_MACHINE"

def configVariable : String := "CSM_CONFIG"

/-- A path in the environment, if there is a variable for it, is not empty. -/
def Environment.path? (env : Environment) (name : String) : Option (Option String) :=
  match env name with
  | some "" => none
  | path => some path

namespace Order

/-- The order that a complete scan stands for. -/
def ofScan? (env : Environment) (s : Scan) : Topic → Option Order
  | .run => do
      let machines ←
        match s.words.head? with
        | some word => some word
        | none => (Environment.path? env machineVariable).join
      let seconds := ((s.value? timeoutFlag.word).bind Environment.count?).getD 0
      some (.run machines seconds)
  | .validate => s.words.head?.map fun word => .validate word (s.value? strictFlag.word).isSome
  | .configuration => some (.configuration (s.value? outputFlag.word))
  | _ => none

end Order

namespace Demand

/-- The name of one order, or none, after the word `help`. -/
def readHelp? : List String → Option Demand
  | [] => some (.help .everything)
  | [name] => (Topic.ofName? name).map .help
  | _ => none

/-- Options for all orders stand before the order. -/
def read? (env : Environment) (args : List String) : Option Demand := do
  let s ← scan? (Topic.grammar .everything) args
  match s.question, s.words with
  | some .help, _ => some (.help .everything)
  | some .version, _ => some .version
  | none, [] => none
  | none, name :: args =>
      let topic ← Topic.ofName? name
      if topic = .help then readHelp? args
      else
        let inner ← scan? topic.grammar args
        match inner.question with
        | some _ => some (.help topic)
        | none =>
            let order ← Order.ofScan? env inner topic
            let fallback ← Environment.path? env configVariable
            some (.invoke ⟨s.value? configFlag.word <|> fallback, order⟩)

end Demand

end CommandLine
end Statechart
