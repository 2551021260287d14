import Statechart.Context.Layer
import Statechart.Proofs.Table.Scan

/-!
# Calls on layers

What can be asked of a layer, as data, so that histories of calls can be told apart by what was
called and what was answered.

- `Access`, `Answer`     : a call and its answer
- `Layer.access`         : makes a call on a layer
- `Backing.access`       : makes a call through a namespace of the store
- `Change.apply_eq`      : a change of a table is made or refused by its key alone
- `Layer.commit_eq`      : the same for the store, where the directory may be missing
-/

namespace Statechart

inductive Access where
  | get (name : String)
  | contains (name : String)
  | list
  | create (name : String) (value : Value)
  | assign (name : String) (value : Value)
  | delete (name : String)

inductive Answer where
  | found (outcome : Except ContextFault Value)
  | holds (yes : Bool)
  | listed (outcome : Except ContextFault (List (String × Value)))
  | written (outcome : Except ContextFault Nat)
  | deleted (outcome : Except ContextFault Unit)

namespace Layer

def access (backing : Backing) (l : Layer) : Access → Layer × Backing × Answer
  | .get name => (l, backing, .found (l.get backing name))
  | .contains name => (l, backing, .holds (l.contains backing name))
  | .list => (l, backing, .listed (l.list backing))
  | .create name value =>
      let (l, backing, outcome) := l.create backing name value
      (l, backing, .written outcome)
  | .assign name value =>
      let (l, backing, outcome) := l.assign backing name value
      (l, backing, .written outcome)
  | .delete name =>
      let (l, backing, outcome) := l.delete backing name
      (l, backing, .deleted outcome)

end Layer

/-- A call through a namespace of the store. -/
def Backing.access (b : Backing) (space : String) (c : Access) : Backing × Answer :=
  ((Layer.durable space).access b c).2

/-! ## Keys -/

namespace Layer

theorem toList_key (space name : String) :
    (key space name).toList = (key space "").toList ++ name.toList := by
  simp [key]

/-- Names of one namespace have the same key only if they are the same. -/
theorem key_eq_key_iff {space name own : String} : key space name = key space own ↔ name = own := by
  rw [← String.toList_inj, toList_key space name, toList_key space own,
    List.append_cancel_left_eq, String.toList_inj]

/-- The keys of a namespace are those that begin with its stem. -/
theorem isPrefix_iff_exists_key {space key' : String} :
    (key space "").toList <+: key'.toList ↔ ∃ name, key' = key space name := by
  constructor
  · rintro ⟨rest, hrest⟩
    refine ⟨String.ofList rest, String.toList_inj.1 ?_⟩
    rw [toList_key, String.toList_ofList, hrest]
  · rintro ⟨name, rfl⟩
    rw [toList_key space name]
    exact List.prefix_append _ _

end Layer

/-! ## Changes of the store -/

namespace Change

def key : Change → String
  | .create key _ => key
  | .put key _ => key
  | .delete key => key

/-- What is under the key afterwards. -/
def value? : Change → Option Value
  | .create _ value => some value
  | .put _ value => some value
  | .delete _ => none

/-- Whether something has to be under the key before. -/
def replaces : Change → Bool
  | .create _ _ => false
  | .put _ _ => true
  | .delete _ => true

def refusal : Change → StorageFault
  | .create key _ => .keyExists key
  | .put key _ => .keyNotFound key
  | .delete key => .keyNotFound key

/-- The changed table. -/
def result (c : Change) (t : Table Value) : Table Value :=
  match c.value? with
  | some value => t.insert c.key value
  | none => t.erase c.key

def written (c : Change) : Nat :=
  match c.value? with
  | some value => value.encodedSize
  | none => 0

/-- Every change asks whether its key is there, and is made or refused. -/
theorem apply_eq (c : Change) (t : Table Value) :
    c.apply t =
      if t.contains c.key = c.replaces then .ok (c.result t, c.written) else .error c.refusal := by
  cases c with
  | create own value =>
      cases hown : t.contains own <;>
        simp [apply, key, replaces, refusal, result, value?, written, hown]
  | put own value =>
      cases hown : t.contains own <;>
        simp [apply, key, replaces, refusal, result, value?, written, hown]
  | delete own =>
      cases hown : t.contains own <;>
        simp [apply, key, replaces, refusal, result, value?, written, hown]

/-- A change leaves all other keys alone. -/
theorem get?_result (c : Change) (t : Table Value) (name : String) :
    (c.result t).get? name = if c.key = name then c.value? else t.get? name := by
  unfold result
  split
  · rename_i value hvalue
    rw [Table.get?_insert, hvalue]
  · rename_i hvalue
    rw [Table.get?_erase, hvalue]

end Change

/-- The store and the disk with another table, saved. -/
def Backing.saved (b : Backing) (t : Table Value) : Backing :=
  ⟨{ b.store with table := t },
    { b.disk with draft := none, file := some (StoreFile.ofTable b.disk.now t).render }⟩

/-- A change is made if its key allows it and the directory is there; otherwise nothing changes. -/
theorem Layer.commit_eq (b : Backing) (c : Change) (name : String) :
    commit b c name =
      if b.store.contains c.key = c.replaces then
        if b.disk.isPresent then (b.saved (c.result b.store.table), .ok c.written)
        else (b, .error (.backend (.storage (.io .notFound))))
      else (b, .error (faultOf name c.refusal)) := by
  obtain ⟨s, ⟨isPresent, file, draft, now⟩⟩ := b
  simp only [commit, Store.commit, c.apply_eq, Store.contains]
  by_cases hkey : s.table.contains c.key = c.replaces
  · simp only [hkey, if_true, Store.save, Disk.save]
    cases isPresent with
    | false => rfl
    | true => rfl
  · simp only [hkey, if_false]
    rfl

end Statechart
