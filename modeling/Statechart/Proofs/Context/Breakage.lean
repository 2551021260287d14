import Statechart.Context.Extent

/-!
# Writes that break off

The save behind a durable write may break off at any of its steps. A write that fails, for this or
any other reason, leaves nothing but bytes of an unfinished save, and no access looks at those.

- `Layer.writeWith`, `Memory.writeWith`, `Extent.assignWith`, `Extent.createWith`
- `Extent.assignWith_none`, `Extent.createWith_none` : a save that does not break off
- `Memory.withDraft`                                 : the same memory over an unfinished save
- `Memory.Drafts`                                    : what a write leaves that fails
- `Extent.drafts_assign`, `Extent.drafts_create`     : such writes
- `Extent.lookup_of_drafts`, `Extent.assignWith_of_drafts`, `Extent.createWith_of_drafts` : over an
  unfinished save everything comes to the same
-/

namespace Statechart

/-! ## Saves that break off -/

/-- How a variable is written. -/
inductive Writing where
  | create
  | assign

def Writing.change : Writing → String → Value → Change
  | .create => .create
  | .assign => .put

namespace Layer

/-- A change of the store whose save may break off. -/
def commitWith (broken : Option SaveBreak) (backing : Backing) (change : Change) (name : String) :
    Backing × Except ContextFault Nat :=
  let (store, disk, outcome) := backing.store.commit backing.disk change broken
  (⟨store, disk⟩, outcome.mapError (faultOf name))

def write (kind : Writing) (backing : Backing) (l : Layer) (name : String) (value : Value) :
    Layer × Backing × Except ContextFault Nat :=
  match kind with
  | .create => l.create backing name value
  | .assign => l.assign backing name value

/-- Only durable layers save what is written. -/
def writeWith (broken : Option SaveBreak) (kind : Writing) (backing : Backing) (l : Layer)
    (name : String) (value : Value) : Layer × Backing × Except ContextFault Nat :=
  match l with
  | .durable space =>
      let (backing, outcome) :=
        commitWith broken backing (kind.change (key space name) value) name
      (l, backing, outcome)
  | l => l.write kind backing name value

theorem writeWith_none (kind : Writing) (backing : Backing) (l : Layer) (name : String)
    (value : Value) :
    l.writeWith none kind backing name value = l.write kind backing name value := by
  cases l <;> cases kind <;> rfl

end Layer

namespace Memory

def writeWith (broken : Option SaveBreak) (kind : Writing) (m : Memory) (id : LayerId)
    (name : String) (value : Value) : Memory × Except ContextFault Nat :=
  match m.layers[id]? with
  | some l =>
      let (l, backing, outcome) := l.writeWith broken kind m.backing name value
      (⟨m.layers.set id l, backing⟩, outcome)
  | none => (m, .error missing)

theorem writeWith_none_assign (m : Memory) (id : LayerId) (name : String) (value : Value) :
    m.writeWith none .assign id name value = m.assign id name value := by
  simp only [writeWith, Layer.writeWith_none]
  rfl

theorem writeWith_none_create (m : Memory) (id : LayerId) (name : String) (value : Value) :
    m.writeWith none .create id name value = m.create id name value := by
  simp only [writeWith, Layer.writeWith_none]
  rfl

end Memory

namespace Extent

def assignInWith (broken : Option SaveBreak) (name : String) (value : Value) : Memory →
    List LayerId → Memory × Except ContextFault Nat
  | m, [] => (m, .error (.notFound name))
  | m, id :: rest =>
      match m.writeWith broken .assign id name value with
      | (m, .ok written) => (m, .ok written)
      | (m, .error (.notFound _)) => assignInWith broken name value m rest
      | (m, .error fault) => (m, .error fault)

/-- Assigns the variable in the highest layer that has it. -/
def assignWith (broken : Option SaveBreak) (m : Memory) (e : Extent) (name : String)
    (value : Value) : Memory × Except ContextFault Nat :=
  assignInWith broken name value m e.downward

/-- Creates the variable in the lowest or highest layer. -/
def createWith (broken : Option SaveBreak) (m : Memory) (e : Extent) (name : String)
    (value : Value) (persistent : Bool) : Memory × Except ContextFault Nat :=
  match if persistent then e.low? else e.high? with
  | none => (m, .error (.backend .noLayers))
  | some id => m.writeWith broken .create id name value

theorem assignWith_none (m : Memory) (e : Extent) (name : String) (value : Value) :
    e.assignWith none m name value = e.assign m name value := by
  have hids : ∀ (ids : List LayerId) (m : Memory),
      assignInWith none name value m ids = assignIn name value m ids := by
    intro ids
    induction ids with
    | nil => exact fun _ => rfl
    | cons id rest ih =>
        intro m
        rw [assignInWith, assignIn, Memory.writeWith_none_assign]
        rcases m.assign id name value with ⟨m, fault | written⟩
        · cases fault with
          | notFound _ => exact ih m
          | _ => rfl
        · rfl
  exact hids e.downward m

theorem createWith_none (m : Memory) (e : Extent) (name : String) (value : Value)
    (persistent : Bool) :
    e.createWith none m name value persistent = e.create m name value persistent := by
  cases hid : if persistent then e.low? else e.high? with
  | none => simp only [createWith, create, hid]
  | some id => simp only [createWith, create, hid, Memory.writeWith_none_create]

end Extent

/-! ## Unfinished saves -/

def Disk.withDraft (d : Disk) (draft : Option (List UInt8)) : Disk := { d with draft }

def Backing.withDraft (b : Backing) (draft : Option (List UInt8)) : Backing :=
  { b with disk := b.disk.withDraft draft }

/-- The same memory over an unfinished save. -/
def Memory.withDraft (m : Memory) (draft : Option (List UInt8)) : Memory :=
  { m with backing := m.backing.withDraft draft }

/-- Everything is as it was, but for the bytes of an unfinished save. -/
def Memory.Drafts (m m' : Memory) : Prop := ∃ draft, m' = m.withDraft draft

theorem Memory.Drafts.refl (m : Memory) : m.Drafts m := ⟨m.backing.disk.draft, rfl⟩

theorem Memory.Drafts.trans {m m' m'' : Memory} (h : m.Drafts m') (h' : m'.Drafts m'') :
    m.Drafts m'' := by
  obtain ⟨draft, rfl⟩ := h
  obtain ⟨draft', rfl⟩ := h'
  exact ⟨draft', rfl⟩

theorem Memory.Drafts.symm {m m' : Memory} (h : m.Drafts m') : m'.Drafts m := by
  obtain ⟨draft, rfl⟩ := h
  exact ⟨m.backing.disk.draft, rfl⟩

/-- A save that fails leaves nothing but a draft. -/
theorem Disk.withDraft_of_save {d : Disk} {content : String} {syncs : Bool}
    {broken : Option SaveBreak} {fault : IoFault}
    (h : (d.save content syncs broken).2 = .error fault) :
    ∃ draft, (d.save content syncs broken).1 = d.withDraft draft := by
  unfold save at h ⊢
  split at h
  · rename_i hpresent
    rw [if_pos hpresent]
    cases broken with
    | none => cases h
    | some step =>
        cases step with
        | creating => exact ⟨d.draft, rfl⟩
        | writing count => exact ⟨_, rfl⟩
        | syncing =>
            cases syncs with
            | true => exact ⟨_, rfl⟩
            | false => cases h
        | replacing => exact ⟨_, rfl⟩
  · rename_i habsent
    rw [if_neg habsent]
    exact ⟨d.draft, rfl⟩

/-- A save does not look at what an earlier one left unfinished. -/
theorem Disk.save_withDraft (d : Disk) (draft : Option (List UInt8)) (content : String)
    (syncs : Bool) (broken : Option SaveBreak) :
    ∃ left, (d.withDraft draft).save content syncs broken =
      ((d.save content syncs broken).1.withDraft left, (d.save content syncs broken).2) := by
  unfold save
  cases hpresent : d.isPresent with
  | false => exact ⟨draft, by simp [withDraft, hpresent]⟩
  | true =>
      have hpresent' : (d.withDraft draft).isPresent = true := hpresent
      simp only [hpresent', if_true]
      cases broken with
      | none => exact ⟨_, rfl⟩
      | some step =>
          cases step with
          | creating => exact ⟨draft, rfl⟩
          | writing count => exact ⟨_, rfl⟩
          | syncing => cases syncs <;> exact ⟨_, rfl⟩
          | replacing => exact ⟨_, rfl⟩

namespace Layer

variable {broken : Option SaveBreak} {kind : Writing} {b : Backing} {l : Layer} {name : String}
  {value : Value}

theorem commitWith_of_error {change : Change} {fault : ContextFault}
    (h : (commitWith broken b change name).2 = .error fault) :
    ∃ draft, (commitWith broken b change name).1 = b.withDraft draft := by
  unfold commitWith Store.commit at h ⊢
  cases happly : change.apply b.store.table with
  | error refusal => exact ⟨b.disk.draft, rfl⟩
  | ok changed =>
      obtain ⟨table, written⟩ := changed
      simp only [happly, Store.save] at h ⊢
      generalize hsave : b.disk.save _ _ broken = saved at h ⊢
      obtain ⟨disk, outcome⟩ := saved
      cases outcome with
      | ok _ => cases h
      | error fault =>
          obtain ⟨draft, hdraft⟩ := Disk.withDraft_of_save (congrArg Prod.snd hsave)
          rw [hsave] at hdraft
          exact ⟨draft, congrArg (Backing.mk b.store) hdraft⟩

theorem commitWith_withDraft (broken : Option SaveBreak) (b : Backing)
    (draft : Option (List UInt8)) (change : Change) (name : String) :
    ∃ left, commitWith broken (b.withDraft draft) change name =
      ((commitWith broken b change name).1.withDraft left,
        (commitWith broken b change name).2) := by
  unfold commitWith Store.commit
  have hstore : (b.withDraft draft).store = b.store := rfl
  rw [hstore]
  cases happly : change.apply b.store.table with
  | error refusal => exact ⟨draft, rfl⟩
  | ok changed =>
      obtain ⟨table, written⟩ := changed
      obtain ⟨left, hleft⟩ := b.disk.save_withDraft draft
        (StoreFile.ofTable b.disk.now table).render b.store.syncs broken
      have hsave : Store.save { b.store with table } (b.withDraft draft).disk broken =
          ((Store.save { b.store with table } b.disk broken).1.withDraft left,
            (Store.save { b.store with table } b.disk broken).2) := by
        simp only [Store.save]
        exact congrArg (fun saved : Disk × Except IoFault Unit =>
          (saved.1, saved.2.mapError StorageFault.io)) hleft
      refine ⟨left, ?_⟩
      simp only [hsave]
      generalize Store.save { b.store with table } b.disk broken = saved
      obtain ⟨disk, outcome⟩ := saved
      cases outcome <;> rfl

/-- A write that fails leaves the layer alone. -/
theorem writeWith_of_error {fault : ContextFault}
    (h : (l.writeWith broken kind b name value).2.2 = .error fault) :
    (l.writeWith broken kind b name value).1 = l ∧
      ∃ draft, (l.writeWith broken kind b name value).2.1 = b.withDraft draft := by
  cases l with
  | memory table =>
      cases kind with
      | create =>
          simp only [writeWith, write, create] at h ⊢
          split at h
          · rename_i hin
            simp only [if_pos hin]
            exact ⟨trivial, b.disk.draft, rfl⟩
          · cases h
      | assign =>
          simp only [writeWith, write, assign] at h ⊢
          split at h
          · cases h
          · rename_i hout
            simp only [if_neg hout]
            exact ⟨trivial, b.disk.draft, rfl⟩
  | durable space => exact ⟨rfl, commitWith_of_error h⟩
  | unreachable reason => cases kind <;> exact ⟨rfl, b.disk.draft, rfl⟩

theorem writeWith_withDraft (broken : Option SaveBreak) (kind : Writing) (l : Layer) (b : Backing)
    (draft : Option (List UInt8)) (name : String) (value : Value) :
    ∃ left, l.writeWith broken kind (b.withDraft draft) name value =
      ((l.writeWith broken kind b name value).1,
        (l.writeWith broken kind b name value).2.1.withDraft left,
        (l.writeWith broken kind b name value).2.2) := by
  cases l with
  | memory table =>
      refine ⟨draft, ?_⟩
      cases kind <;> simp only [writeWith, write, create, assign] <;> split <;> rfl
  | durable space =>
      obtain ⟨left, hleft⟩ :=
        commitWith_withDraft broken b draft (kind.change (key space name) value) name
      refine ⟨left, ?_⟩
      simp only [writeWith, hleft]
  | unreachable reason => cases kind <;> exact ⟨draft, rfl⟩

end Layer

/-! ## Writes that fail -/

section Writes

variable {broken : Option SaveBreak} {m m' : Memory} {fault : ContextFault}

theorem Memory.drafts_write {kind : Writing} {id : LayerId} {name : String} {value : Value}
    (h : (m.writeWith broken kind id name value).2 = .error fault) :
    m.Drafts (m.writeWith broken kind id name value).1 := by
  unfold writeWith at h ⊢
  cases hl : m.layers[id]? with
  | none => exact .refl m
  | some l =>
      rw [hl] at h
      obtain ⟨hlayer, draft, hbacking⟩ := Layer.writeWith_of_error h
      obtain ⟨hid, rfl⟩ := List.getElem?_eq_some_iff.1 hl
      refine ⟨draft, ?_⟩
      simp only [hlayer, hbacking, List.set_getElem_self]
      rfl

theorem Extent.drafts_assign {e : Extent} {name : String} {value : Value}
    (h : (e.assignWith broken m name value).2 = .error fault) :
    m.Drafts (e.assignWith broken m name value).1 := by
  have hids : ∀ (ids : List LayerId) (m : Memory),
      (assignInWith broken name value m ids).2 = .error fault →
        m.Drafts (assignInWith broken name value m ids).1 := by
    intro ids
    induction ids with
    | nil => exact fun m _ => .refl m
    | cons id rest ih =>
        intro m h
        simp only [assignInWith] at h ⊢
        cases htried : m.writeWith broken .assign id name value with
        | mk tried outcome =>
            rw [htried] at h
            cases outcome with
            | ok written => cases h
            | error refusal =>
                have hfirst := Memory.drafts_write (congrArg Prod.snd htried)
                rw [htried] at hfirst
                -- the layers below are tried only if the variable is not in this one
                cases refusal with
                | notFound _ => exact hfirst.trans (ih tried h)
                | _ => exact hfirst
  exact hids e.downward m h

theorem Extent.drafts_create {e : Extent} {name : String} {value : Value} {persistent : Bool}
    (h : (e.createWith broken m name value persistent).2 = .error fault) :
    m.Drafts (e.createWith broken m name value persistent).1 := by
  unfold createWith at h ⊢
  cases hplace : (if persistent = true then e.low? else e.high?) with
  | none => exact .refl m
  | some id =>
      rw [hplace] at h
      exact Memory.drafts_write h

/-! ## Over unfinished saves -/

theorem Memory.get_withDraft (m : Memory) (draft : Option (List UInt8)) (id : LayerId)
    (name : String) : (m.withDraft draft).get id name = m.get id name := by
  have hlayers : (m.withDraft draft).layers = m.layers := rfl
  rw [get, get, hlayers]
  cases m.layers[id]? with
  | none => rfl
  | some l => cases l <;> rfl

/-- Look-ups do not look at unfinished saves. -/
theorem Extent.lookup_of_drafts (h : m.Drafts m') (e : Extent) : e.lookup m' = e.lookup m := by
  obtain ⟨draft, rfl⟩ := h
  have hids : ∀ (name : String) (ids : List LayerId),
      resolveIn (m.withDraft draft) name ids = resolveIn m name ids := by
    intro name ids
    induction ids with
    | nil => rfl
    | cons id rest ih => rw [resolveIn, Memory.get_withDraft, ih, resolveIn]
  exact funext fun name => hids name e.downward

/-- Over an unfinished save a write comes to the same. -/
theorem Memory.Drafts.write (h : m.Drafts m') (broken : Option SaveBreak) (kind : Writing)
    (id : LayerId) (name : String) (value : Value) :
    (m.writeWith broken kind id name value).1.Drafts (m'.writeWith broken kind id name value).1 ∧
      (m.writeWith broken kind id name value).2 = (m'.writeWith broken kind id name value).2 := by
  obtain ⟨draft, rfl⟩ := h
  have hlayers : (m.withDraft draft).layers = m.layers := rfl
  unfold writeWith
  rw [hlayers]
  cases hl : m.layers[id]? with
  | none => exact ⟨⟨draft, rfl⟩, rfl⟩
  | some l =>
      obtain ⟨left, hleft⟩ :=
        Layer.writeWith_withDraft broken kind l m.backing draft name value
      have hbacking : (m.withDraft draft).backing = m.backing.withDraft draft := rfl
      simp only [hbacking, hleft]
      exact ⟨⟨left, rfl⟩, trivial⟩

theorem Extent.assignWith_of_drafts (h : m.Drafts m') (e : Extent) (name : String)
    (value : Value) :
    (e.assignWith broken m name value).1.Drafts (e.assignWith broken m' name value).1 ∧
      (e.assignWith broken m name value).2 = (e.assignWith broken m' name value).2 := by
  have hids : ∀ (ids : List LayerId) (m m' : Memory), m.Drafts m' →
      (assignInWith broken name value m ids).1.Drafts (assignInWith broken name value m' ids).1 ∧
        (assignInWith broken name value m ids).2 = (assignInWith broken name value m' ids).2 := by
    intro ids
    induction ids with
    | nil => exact fun _ _ h => ⟨h, rfl⟩
    | cons id rest ih =>
        intro m m' h
        obtain ⟨hnext, houtcome⟩ := h.write broken .assign id name value
        simp only [assignInWith]
        generalize m.writeWith broken .assign id name value = tried at hnext houtcome
        generalize m'.writeWith broken .assign id name value = tried' at hnext houtcome
        obtain ⟨next, outcome⟩ := tried
        obtain ⟨next', outcome'⟩ := tried'
        cases houtcome
        cases outcome with
        | ok written => exact ⟨hnext, rfl⟩
        | error refusal =>
            cases refusal with
            | notFound _ => exact ih next next' hnext
            | _ => exact ⟨hnext, rfl⟩
  exact hids e.downward m m' h

theorem Extent.createWith_of_drafts (h : m.Drafts m') (e : Extent) (name : String)
    (value : Value) (persistent : Bool) :
    (e.createWith broken m name value persistent).1.Drafts
        (e.createWith broken m' name value persistent).1 ∧
      (e.createWith broken m name value persistent).2 =
        (e.createWith broken m' name value persistent).2 := by
  unfold createWith
  cases (if persistent = true then e.low? else e.high?) with
  | none => exact ⟨h, rfl⟩
  | some id => exact h.write broken .create id name value

end Writes

end Statechart
