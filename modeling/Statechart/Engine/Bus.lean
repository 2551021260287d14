import Statechart.Engine.Party
import Statechart.Event

/-!
# The event bus

Events other than internal ones are published under a subject, `source.name`. When a subscription
matches the subject the event is offered to every listener. Observers see every event.

- `subjectOf`       : the subject of an event
- `matchesSubject`  : whether a pattern matches a subject; `*` matches any part
- `Bus`             : listeners, subscriptions and what was published
- `Bus.route`       : who is offered an event
- `Bus.observe`     : what an observer sees when it looks
-/

namespace Statechart

/-! ## Subjects -/

/-- Any source or any name. -/
def wildcard : String := "*"

def subject (source name : String) : String := source ++ "." ++ name

/-- Events for everybody are published under a source of their own. -/
def subjectOf (e : Event) (source : String) : Except EngineFault String :=
  match e.channel with
  | .external => .ok (subject source e.name)
  | .global => .ok (subject Channel.global.name e.name)
  | .peripheral => .ok (subject Channel.peripheral.name e.name)
  | .internal => .error (.internalEvent e.name)

/-- The parts before and after the first point. -/
def cut? : List Char → Option (List Char × List Char)
  | [] => none
  | '.' :: rest => some ([], rest)
  | c :: rest => (cut? rest).map fun (before, after) => (c :: before, after)

def matchesPart (pattern part : List Char) : Bool :=
  pattern == wildcard.toList || pattern == part

def matchesSubject (pattern subject : String) : Bool :=
  match cut? pattern.toList, cut? subject.toList with
  | some (wantedSource, wantedName), some (source, name) =>
      matchesPart wantedSource source && matchesPart wantedName name
  | _, _ => false

/-! ## The bus -/

/-- An event as observers see it. -/
structure Sighting where
  source : Party
  event : Event

structure Bus where
  listeners : List Party
  /-- How often each pattern is subscribed to. -/
  subscriptions : Table Nat
  /-- Everything ever published. -/
  published : List Sighting
  /-- How much of it has been seen. -/
  seen : Nat
  /-- How far observers may fall behind. -/
  capacity : Nat

namespace Bus

def ofCapacity (capacity : Nat) : Bus := ⟨[], .empty, [], 0, capacity⟩

/-! ### Listeners -/

def addListener (b : Bus) (p : Party) : Bus :=
  if p ∈ b.listeners then b else { b with listeners := b.listeners ++ [p] }

def removeListener (b : Bus) (p : Party) : Bus :=
  { b with listeners := b.listeners.filter fun q => q != p }

/-! ### Subscriptions -/

/-- How often a pattern is subscribed to. -/
def count (b : Bus) (pattern : String) : Nat := (b.subscriptions.get? pattern).getD 0

def subscribe (b : Bus) (source name : String) : Bus :=
  let pattern := subject source name
  { b with subscriptions := b.subscriptions.insert pattern (b.count pattern + 1) }

/-- A pattern without subscriptions is forgotten. -/
def unsubscribe (b : Bus) (source name : String) : Bus :=
  let pattern := subject source name
  if b.count pattern ≤ 1 then { b with subscriptions := b.subscriptions.erase pattern }
  else { b with subscriptions := b.subscriptions.insert pattern (b.count pattern - 1) }

def isSubscribed (b : Bus) (subject : String) : Bool :=
  b.subscriptions.entries.any fun entry => matchesSubject entry.1 subject

/-! ### Events -/

/-- The parties that are offered an event. -/
def route (b : Bus) (e : Event) (source : Party) : Except EngineFault (List Party) := do
  let subject ← subjectOf e source.id
  .ok (if b.isSubscribed subject then b.listeners else [])

def publish (b : Bus) (e : Event) (source : Party) : Bus :=
  { b with published := b.published ++ [⟨source, e⟩] }

/-- The least power of two that is not below a number, which is how many events are held. -/
def roundUp (n : Nat) : Nat := if n ≤ 1 then 1 else Nat.pow 2 ((n - 1).log2 + 1)

/-- Shows everything that was published since the last look. If that is more than the capacity
holds, nothing is shown, and only the latest events are kept for the next look. -/
def observe (b : Bus) : List Sighting × Bus :=
  let waiting := b.published.drop b.seen
  let held := roundUp b.capacity
  if waiting.length ≤ held then (waiting, { b with seen := b.published.length })
  else ([], { b with seen := b.published.length - held })

end Bus

end Statechart
