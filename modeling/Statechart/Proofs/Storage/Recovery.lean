import Statechart.Storage.Store
import Statechart.Value.Decidable

/-!
# What a directory holds after failures and stops

Every call saves a copy of the entries before the copy becomes the table, and the copy replaces the
store file in one step. So whatever happens on the way, the directory holds the entries of the last
call that succeeded, or those of the one call that was stopped.

- `Disk.Holds`          : opening the directory yields the entries of a table
- `Store.commit_cases`  : a call either fails and changes no entries, or its draft is the store file
- `Store.calls`         : a sequence of calls, each of which may fail on the way
- `Store.settled`       : the entries after the last call that succeeded
- `Store.calls_holds`   : what the directory holds after a sequence of calls
-/

namespace Statechart

deriving instance DecidableEq for StoreFile

/-! ## What a directory holds -/

/-- Opening the directory yields the entries of a table. -/
def Disk.Holds (d : Disk) (t : Table Value) : Prop :=
  ∀ path syncs, (Store.load path syncs d).2 = .ok ⟨path, syncs, t⟩

namespace StoreFile

/-- The path only matters for what is said about a bad file. -/
theorem check_eq_ok_iff {f : StoreFile} {path : String} {t : Table Value} :
    f.check path = .ok t ↔ f.version = currentVersion ∧ checksumOf f.table = f.checksum ∧
      f.table = t := by
  unfold check
  split
  · rename_i hversion
    simp [hversion]
  · rename_i hversion
    simp only
    split
    · rename_i hsum
      simp [hsum]
    · rename_i hsum
      simp_all

/-- A store file that was made for a table passes its own checks. -/
theorem check_ofTable (now : Int) (t : Table Value) (path : String) :
    (ofTable now t).check path = .ok t :=
  check_eq_ok_iff.2 ⟨rfl, rfl, rfl⟩

end StoreFile

namespace Disk

theorem holds_of_file_eq_none {d : Disk} (h : d.file = none) : d.Holds .empty := by
  intro path syncs
  simp [Store.load, createDirectory, h]

theorem holds_of_read {d : Disk} {content : String} {f : StoreFile} {t : Table Value}
    (hfile : d.file = some content) (hread : StoreFile.read? content = some f)
    (hcheck : ∀ path, f.check path = .ok t) : d.Holds t := by
  intro path syncs
  simp [Store.load, createDirectory, hfile, hread, hcheck, Except.map]

/-- Only the store file counts. -/
theorem Holds.of_file_eq {d d' : Disk} {t : Table Value} (h : d.Holds t)
    (hfile : d'.file = d.file) : d'.Holds t := by
  intro path syncs
  have hload : (Store.load path syncs d').2 = (Store.load path syncs d).2 := by
    simp only [Store.load, createDirectory, hfile]
    split
    · rfl
    · split <;> rfl
  exact hload.trans (h path syncs)

/-- A directory that was opened once can be opened again. -/
theorem holds_of_load {path : String} {syncs : Bool} {d d' : Disk} {s : Store}
    (h : Store.load path syncs d = (d', .ok s)) : d'.Holds s.table := by
  simp only [Store.load] at h
  split at h
  · rename_i hnone
    cases h
    exact holds_of_file_eq_none hnone
  · rename_i content hsome
    split at h
    · cases h
    · rename_i f hread
      obtain ⟨hd, hs⟩ := Prod.mk.inj h
      subst hd
      cases hcheck : f.check (Store.filePath ⟨path, syncs, .empty⟩) with
      | error fault =>
          rw [hcheck] at hs
          cases hs
      | ok t =>
          rw [hcheck] at hs
          cases hs
          have hgood := StoreFile.check_eq_ok_iff.1 hcheck
          exact holds_of_read hsome hread fun p => StoreFile.check_eq_ok_iff.2 hgood

/-- A save that breaks off leaves the store file alone; any other puts the content in its place. -/
theorem save_cases (d : Disk) (content : String) (syncs : Bool) (broken : Option SaveBreak) :
    (∃ d' fault, d.save content syncs broken = (d', .error fault) ∧ d'.file = d.file) ∨
      ∃ d', d.save content syncs broken = (d', .ok ()) ∧ d'.file = some content := by
  unfold save
  split
  · -- only a save that is not broken off replaces the store file
    cases broken with
    | none => exact .inr ⟨_, rfl, rfl⟩
    | some step =>
        cases step with
        | creating => exact .inl ⟨_, _, rfl, rfl⟩
        | writing count => exact .inl ⟨_, _, rfl, rfl⟩
        | syncing =>
            cases syncs with
            | false => exact .inr ⟨_, rfl, rfl⟩
            | true => exact .inl ⟨_, _, rfl, rfl⟩
        | replacing => exact .inl ⟨_, _, rfl, rfl⟩
  · exact .inl ⟨_, _, rfl, rfl⟩

end Disk

/-! ## One call -/

/-- A call on an open store: the time of day, the change asked for, and where its save breaks off,
be it that the step fails or that everything stops there. -/
structure Call where
  now : Int
  change : Change
  broken : Option SaveBreak

namespace Store

/-- A call fails and leaves the entries and the store file as they are, or it succeeds, and memory
and store file have the changed entries. -/
theorem commit_cases (s : Store) (d : Disk) (c : Change) (broken : Option SaveBreak) :
    (∃ d' fault, s.commit d c broken = (s, d', .error fault) ∧ d'.file = d.file) ∨
      ∃ t written d', c.apply s.table = .ok (t, written) ∧
        s.commit d c broken = ({ s with table := t }, d', .ok written) ∧
        d'.file = some (StoreFile.ofTable d.now t).render := by
  unfold commit
  cases happly : c.apply s.table with
  | error fault => exact .inl ⟨d, fault, rfl, rfl⟩
  | ok changed =>
      obtain ⟨t, written⟩ := changed
      rcases Disk.save_cases d (StoreFile.ofTable d.now t).render s.syncs broken with
        ⟨d', fault, hsave, hfile⟩ | ⟨d', hsave, hfile⟩
      · refine .inl ⟨d', .io fault, ?_, hfile⟩
        simp only [save, hsave]
        rfl
      · refine .inr ⟨t, written, d', rfl, ?_, hfile⟩
        simp only [save, hsave]
        rfl

/-- What a call leaves of the store and of the disk, and its answer. -/
def call (s : Store) (d : Disk) (c : Call) : Store × Disk × Except StorageFault Nat :=
  s.commit { d with now := c.now } c.change c.broken

/-- The store file that a call makes of the changed entries, if the change is allowed. -/
def draft? (s : Store) (c : Call) : Option StoreFile :=
  match c.change.apply s.table with
  | .ok (t, _) => some (.ofTable c.now t)
  | .error _ => none

/-- What the directory holds after one call, finished or stopped: the entries in memory. -/
theorem call_holds {s : Store} {d : Disk} (c : Call) (hd : d.Holds s.table)
    (hread : ∀ f ∈ s.draft? c, StoreFile.read? f.render = some f) :
    (s.call d c).2.1.Holds (s.call d c).1.table := by
  unfold call
  rcases commit_cases s { d with now := c.now } c.change c.broken with
    ⟨d', fault, hcall, hfile⟩ | ⟨t, written, d', happly, hcall, hfile⟩
  · rw [hcall]
    exact hd.of_file_eq hfile
  · rw [hcall]
    have hdraft : StoreFile.ofTable c.now t ∈ s.draft? c := by
      simp [draft?, happly]
    exact Disk.holds_of_read hfile (hread _ hdraft) (StoreFile.check_ofTable c.now t)

/-- A call that fails leaves the whole store as it was. -/
theorem call_of_error {s : Store} {d : Disk} {c : Call} {fault : StorageFault}
    (h : (s.call d c).2.2 = .error fault) : (s.call d c).1 = s := by
  unfold call at h ⊢
  rcases commit_cases s { d with now := c.now } c.change c.broken with
    ⟨d', _, hcall, _⟩ | ⟨t, written, d', _, hcall, _⟩
  · rw [hcall]
  · rw [hcall] at h
    cases h

/-- After a call the entries are those from before it, or the changed ones. -/
theorem call_table (s : Store) (d : Disk) (c : Call) :
    (s.call d c).1.table = s.table ∨
      ∃ written, c.change.apply s.table = .ok ((s.call d c).1.table, written) := by
  unfold call
  rcases commit_cases s { d with now := c.now } c.change c.broken with
    ⟨d', _, hcall, _⟩ | ⟨t, written, d', happly, hcall, _⟩
  · rw [hcall]
    exact .inl rfl
  · rw [hcall]
    exact .inr ⟨written, happly⟩

/-! ## Sequences of calls -/

/-- A sequence of calls, one after the other. -/
def calls : Store → Disk → List Call → Store × Disk
  | s, d, [] => (s, d)
  | s, d, c :: rest => calls (s.call d c).1 (s.call d c).2.1 rest

/-- The store files that a sequence of calls makes. -/
def drafts : Store → Disk → List Call → List StoreFile
  | _, _, [] => []
  | s, d, c :: rest => (s.draft? c).toList ++ drafts (s.call d c).1 (s.call d c).2.1 rest

/-- The entries that the last successful call of a sequence left in memory; `t` if there is none. -/
def settled (t : Table Value) : Store → Disk → List Call → Table Value
  | _, _, [] => t
  | s, d, c :: rest =>
      match s.call d c with
      | (s', d', .ok _) => settled s'.table s' d' rest
      | (s', d', .error _) => settled t s' d' rest

theorem drafts_append (s : Store) (d : Disk) (history more : List Call) :
    s.drafts d (history ++ more) =
      s.drafts d history ++ (s.calls d history).1.drafts (s.calls d history).2 more := by
  induction history generalizing s d with
  | nil => rfl
  | cons c rest ih => simp [drafts, calls, ih]

/-- The entries in memory are those of the last successful call. -/
theorem calls_table (s : Store) (d : Disk) (history : List Call) :
    (s.calls d history).1.table = settled s.table s d history := by
  induction history generalizing s d with
  | nil => rfl
  | cons c rest ih =>
      simp only [calls, settled]
      rw [ih]
      split
      · rename_i s' d' written hcall
        rw [hcall]
      · rename_i s' d' fault hcall
        have herror : (s.call d c).2.2 = .error fault := by rw [hcall]
        have hs : s' = s := by
          have h := call_of_error herror
          rw [hcall] at h
          exact h
        rw [hcall, hs]

/-- The entries in memory are always those that the directory holds. -/
theorem calls_holds {s : Store} {d : Disk} (history : List Call) (hd : d.Holds s.table)
    (hread : ∀ f ∈ s.drafts d history, StoreFile.read? f.render = some f) :
    (s.calls d history).2.Holds (s.calls d history).1.table := by
  induction history generalizing s d with
  | nil => exact hd
  | cons c rest ih =>
      simp only [drafts, List.mem_append, Option.mem_toList] at hread
      have hcall : (s.call d c).2.1.Holds (s.call d c).1.table :=
        call_holds c hd fun f hf => hread f (.inl hf)
      exact ih hcall fun f hf => hread f (.inr hf)

/-- Failures and stops are atomic. A directory is opened and used for any history of calls that may
each fail at any step of their save. Then memory and directory agree on the entries of the last
successful call; another call that fails leaves memory as it is and the directory with the same
entries; and if everything stops inside that call, the directory holds the entries from before it
or those it was to make. It is assumed that the store files made on the way are read as they were
written. -/
theorem calls_atomic {path : String} {syncs : Bool} {d₀ d₁ : Disk} {s₀ : Store}
    (hopen : Store.load path syncs d₀ = (d₁, .ok s₀)) (history : List Call) (last : Call)
    (hread : ∀ f ∈ s₀.drafts d₁ (history ++ [last]), StoreFile.read? f.render = some f) :
    let s := (s₀.calls d₁ history).1
    let d := (s₀.calls d₁ history).2
    let t := settled s₀.table s₀ d₁ history
    (s.table = t ∧ d.Holds t) ∧
      (∀ fault, (s.call d last).2.2 = .error fault →
        (s.call d last).1 = s ∧ (s.call d last).2.1.Holds t) ∧
      ((s.call d last).2.1.Holds t ∨
        ∃ t' written, last.change.apply t = .ok (t', written) ∧
          (s.call d last).2.1.Holds t') := by
  have hsplit := drafts_append s₀ d₁ history [last]
  have hhistory : (s₀.calls d₁ history).2.Holds (s₀.calls d₁ history).1.table :=
    calls_holds history (Disk.holds_of_load hopen) fun f hf =>
      hread f (hsplit ▸ List.mem_append_left _ hf)
  have htable := calls_table s₀ d₁ history
  intro s d t
  change s.table = t at htable
  change d.Holds s.table at hhistory
  rw [htable] at hhistory
  -- memory and directory agree after the last call too, whatever became of it
  have hlast : (s.call d last).2.1.Holds (s.call d last).1.table := by
    refine call_holds last (htable ▸ hhistory) fun f hf => hread f ?_
    rw [hsplit]
    exact List.mem_append_right _ (by simpa [drafts, s, d] using hf)
  refine ⟨⟨htable, hhistory⟩, fun fault hfault => ?_, ?_⟩
  · have hsame := call_of_error hfault
    refine ⟨hsame, ?_⟩
    rw [hsame, htable] at hlast
    exact hlast
  · rcases call_table s d last with hsame | ⟨written, happly⟩
    · rw [hsame, htable] at hlast
      exact .inl hlast
    · rw [htable] at happly
      exact .inr ⟨_, written, happly, hlast⟩

/-! ### A trial -/

/-- One entry is made, making it again is refused, and changing it fails while it is written. -/
def trial : List Call :=
  [⟨1, .create "a" (.text "x"), none⟩, ⟨2, .create "a" (.text "y"), none⟩,
    ⟨3, .put "a" (.text "y"), some (.writing 7)⟩]

/-- Everything stops just before the draft of this deletion takes its place. -/
def trialStop : Call := ⟨4, .delete "a", some .replacing⟩

def trialTable : Table Value := Table.empty.insert "a" (.text "x")

theorem trial_atomic :
    let s := ((⟨"store", true, .empty⟩ : Store).calls .fresh trial).1
    let d := ((⟨"store", true, .empty⟩ : Store).calls .fresh trial).2
    (s.table = trialTable ∧ d.Holds trialTable) ∧
      ((s.call d trialStop).2.1.Holds trialTable ∨
        ∃ t' written, trialStop.change.apply trialTable = .ok (t', written) ∧
          (s.call d trialStop).2.1.Holds t') := by
  have hsettled : settled .empty (⟨"store", true, .empty⟩ : Store) .fresh trial = trialTable := by
    decide +kernel
  have hread : ∀ f ∈ (⟨"store", true, .empty⟩ : Store).drafts .fresh (trial ++ [trialStop]),
      StoreFile.read? f.render = some f := by
    decide +kernel
  have hopen : Store.load "store" true .blank = (.fresh, .ok ⟨"store", true, .empty⟩) := rfl
  have h := calls_atomic hopen trial trialStop hread
  rw [hsettled] at h
  exact ⟨h.1, h.2.2⟩

end Store

end Statechart
