import Statechart.Proofs.Context.Access

/-!
# Isolation of namespaces

Several namespaces share one store. They are isolated if what is answered through one of them is
decided by what was called through it, whatever is called through the others in between.

- `Backing.answers`    : the answers to a history of calls through several namespaces
- `AreIsolated`        : no namespace notices the others
- `Backing.Agree`      : stores that look alike through a namespace
- `areIsolated_iff`    : namespaces are isolated if and only if no stem begins with another
-/

namespace Statechart

/-! ## Histories -/

section Histories

variable {ι : Type} [DecidableEq ι]

/-- The part of a history that belongs to one label. -/
def through (i : ι) (history : List (ι × α)) : List α :=
  history.filterMap fun entry => if entry.1 = i then some entry.2 else none

@[simp]
theorem through_cons_self (i : ι) (x : α) (rest : List (ι × α)) :
    through i ((i, x) :: rest) = x :: through i rest := by
  simp [through]

theorem through_cons_of_ne {i j : ι} (h : j ≠ i) (x : α) (rest : List (ι × α)) :
    through i ((j, x) :: rest) = through i rest := by
  simp [through, h]

/-- The answers to calls through several namespaces, each with its label. -/
def Backing.answers (spaces : ι → String) (b : Backing) : List (ι × Access) → List (ι × Answer)
  | [] => []
  | (i, c) :: rest =>
      let (b', answer) := b.access (spaces i) c
      (i, answer) :: b'.answers spaces rest

/-- The answers to calls through one namespace only. -/
def Backing.replies (space : String) (b : Backing) : List Access → List Answer
  | [] => []
  | c :: rest =>
      let (b', answer) := b.access space c
      answer :: b'.replies space rest

/-- What goes through the others changes no answer: from any store, the answers through one
namespace are the same in all histories with the same calls through it. -/
def AreIsolated (spaces : ι → String) : Prop :=
  ∀ (b : Backing) (i : ι) (history other : List (ι × Access)),
    through i history = through i other →
      through i (b.answers spaces history) = through i (b.answers spaces other)

end Histories

/-! ## Stores that look alike through a namespace -/

structure Backing.Agree (space : String) (b b' : Backing) : Prop where
  get? : ∀ name, b.store.get? (Layer.key space name) = b'.store.get? (Layer.key space name)
  isPresent : b.disk.isPresent = b'.disk.isPresent

namespace Backing.Agree

variable {space : String} {b b' b'' : Backing}

protected theorem refl (b : Backing) : b.Agree space b := ⟨fun _ => rfl, rfl⟩

protected theorem trans (h : b.Agree space b') (h' : b'.Agree space b'') : b.Agree space b'' :=
  ⟨fun name => (h.get? name).trans (h'.get? name), h.isPresent.trans h'.isPresent⟩

protected theorem symm (h : b.Agree space b') : b'.Agree space b :=
  ⟨fun name => (h.get? name).symm, h.isPresent.symm⟩

theorem contains (h : b.Agree space b') (name : String) :
    b.store.contains (Layer.key space name) = b'.store.contains (Layer.key space name) :=
  congrArg Option.isSome (h.get? name)

theorem scan (h : b.Agree space b') :
    b.store.scan (Layer.key space "") = b'.store.scan (Layer.key space "") := by
  refine Table.scan_congr fun own hown => ?_
  obtain ⟨name, rfl⟩ := Layer.isPrefix_iff_exists_key.1 hown
  exact h.get? name

/-- The same change of a variable of the namespace ends alike. -/
theorem commit (h : b.Agree space b') {c : Change} {name : String}
    (hkey : c.key = Layer.key space name) :
    (Layer.commit b c name).2 = (Layer.commit b' c name).2 ∧
      (Layer.commit b c name).1.Agree space (Layer.commit b' c name).1 := by
  have hcontains : b.store.contains c.key = b'.store.contains c.key := by
    rw [hkey]
    exact h.contains name
  rw [Layer.commit_eq, Layer.commit_eq, ← hcontains, ← h.isPresent]
  by_cases hmade : b.store.contains c.key = c.replaces
  · cases hpresent : b.disk.isPresent with
    | false => simpa [hmade] using h
    | true =>
        simp only [hmade, if_true, true_and]
        refine ⟨fun own => ?_, h.isPresent⟩
        have hown := h.get? own
        simp only [Store.get?] at hown
        simp only [saved, Store.get?, c.get?_result, hown]
  · simpa [hmade] using h

/-- A change under a key of no variable of the namespace goes unnoticed. -/
theorem of_commit {c : Change} (hkey : ∀ own, c.key ≠ Layer.key space own) (name : String) :
    b.Agree space (Layer.commit b c name).1 := by
  rw [Layer.commit_eq]
  split
  · split
    · refine ⟨fun own => ?_, rfl⟩
      simp [saved, Store.get?, c.get?_result, hkey own]
    · exact .refl b
  · exact .refl b

/-- A call through the namespace is answered alike. -/
theorem access (h : b.Agree space b') (c : Access) :
    (b.access space c).2 = (b'.access space c).2 ∧
      (b.access space c).1.Agree space (b'.access space c).1 := by
  cases c with
  | get name => exact ⟨by simp [Backing.access, Layer.access, Layer.get, h.get? name], h⟩
  | contains name =>
      exact ⟨by simp [Backing.access, Layer.access, Layer.contains, h.contains name], h⟩
  | list => exact ⟨by simp [Backing.access, Layer.access, Layer.list, h.scan], h⟩
  | create name value =>
      have hends := h.commit (c := .create (Layer.key space name) value) rfl
      exact ⟨congrArg Answer.written hends.1, hends.2⟩
  | assign name value =>
      have hends := h.commit (c := .put (Layer.key space name) value) rfl
      exact ⟨congrArg Answer.written hends.1, hends.2⟩
  | delete name =>
      have hends := h.commit (c := .delete (Layer.key space name)) rfl
      have hanswer := congrArg (Except.map fun _ => ()) hends.1
      exact ⟨congrArg Answer.deleted hanswer, hends.2⟩

/-- A call through a namespace with no key in common goes unnoticed. -/
theorem of_access {other : String}
    (hkeys : ∀ name own, Layer.key other name ≠ Layer.key space own) (c : Access) :
    b.Agree space (b.access other c).1 := by
  cases c with
  | get name => exact .refl b
  | contains name => exact .refl b
  | list => exact .refl b
  | create name value => exact of_commit (c := .create _ value) (hkeys name) name
  | assign name value => exact of_commit (c := .put _ value) (hkeys name) name
  | delete name => exact of_commit (c := .delete _) (hkeys name) name

end Backing.Agree

/-! ## Isolation -/

section Isolation

variable {ι : Type} [DecidableEq ι] {spaces : ι → String}

/-- Where the other namespaces have no key in common with this one, its calls are answered as if
they were alone. -/
theorem Backing.Agree.through_answers {i : ι}
    (hkeys : ∀ j, j ≠ i → ∀ name own, Layer.key (spaces j) name ≠ Layer.key (spaces i) own)
    {b b' : Backing} (h : b.Agree (spaces i) b') (history : List (ι × Access)) :
    through i (b.answers spaces history) = b'.replies (spaces i) (through i history) := by
  induction history generalizing b b' with
  | nil => rfl
  | cons entry rest ih =>
      obtain ⟨j, c⟩ := entry
      by_cases hj : j = i
      · subst hj
        obtain ⟨hanswer, hagree⟩ := h.access c
        simp only [answers, replies, through_cons_self, hanswer, ih hagree]
      · have hsame : b.Agree (spaces i) (b.access (spaces j) c).1 := of_access (hkeys j hj) c
        simp only [answers, through_cons_of_ne hj]
        exact ih (hsame.symm.trans h)

/-- Namespaces neither of whose stems begins the other have no key in common. -/
theorem Layer.key_ne_key {space other : String}
    (h : ¬ (key space "").toList <+: (key other "").toList)
    (h' : ¬ (key other "").toList <+: (key space "").toList) (name own : String) :
    key space name ≠ key other own := by
  intro heq
  have hleft : (key space "").toList <+: (key space name).toList :=
    isPrefix_iff_exists_key.2 ⟨name, rfl⟩
  have hright : (key other "").toList <+: (key space name).toList :=
    isPrefix_iff_exists_key.2 ⟨own, heq⟩
  rcases List.prefix_or_prefix_of_prefix hleft hright with hin | hin
  · exact h hin
  · exact h' hin

/-- A store with nothing in it. -/
def Backing.empty : Backing := ⟨⟨"", false, .empty⟩, .fresh⟩

/-- A variable whose key begins with the stem of another namespace is listed there. -/
theorem Backing.list_create_ne {space other : String}
    (h : (Layer.key space "").toList <+: (Layer.key other "").toList) (value : Value) :
    ((empty.access other (.create "" value)).1.access space .list).2 ≠
      (empty.access space .list).2 := by
  intro heq
  have hcreate : (empty.access other (.create "" value)).1 =
      empty.saved (Table.empty.insert (Layer.key other "") value) := by
    show (Layer.commit empty (.create (Layer.key other "") value) "").1 = _
    rw [Layer.commit_eq]
    rfl
  have hmem : (Layer.key other "", value) ∈
      (empty.saved (Table.empty.insert (Layer.key other "") value)).store.scan
        (Layer.key space "") := by
    simp [Store.scan, saved, Table.mem_scan_iff, h]
  have hlists := Answer.listed.inj heq
  rw [hcreate] at hlists
  have hnil := Except.ok.inj hlists
  have hempty : empty.store.scan (Layer.key space "") = [] := rfl
  rw [hempty, List.map_nil, List.map_eq_nil_iff] at hnil
  rw [hnil] at hmem
  cases hmem

/-- Namespaces are isolated if and only if the stem of none of them begins the stem of another. -/
theorem areIsolated_iff :
    AreIsolated spaces ↔
      ∀ i j, i ≠ j →
        ¬ (Layer.key (spaces i) "").toList <+: (Layer.key (spaces j) "").toList := by
  constructor
  · intro h i j hij hprefix
    -- a variable made through `j` is listed through `i`
    have hsame : through i ([(j, .create "" .null), (i, .list)] : List (ι × Access)) =
        through i [(i, .list)] := through_cons_of_ne (Ne.symm hij) _ _
    have hanswers := h .empty i _ _ hsame
    simp only [Backing.answers, through_cons_of_ne (Ne.symm hij), through_cons_self,
      List.cons.injEq] at hanswers
    exact Backing.list_create_ne hprefix .null hanswers.1
  · intro h b i history other hthrough
    have hkeys : ∀ j, j ≠ i → ∀ name own,
        Layer.key (spaces j) name ≠ Layer.key (spaces i) own := fun j hj =>
      Layer.key_ne_key (h j i hj) (h i j (Ne.symm hj))
    rw [(Backing.Agree.refl b).through_answers hkeys, (Backing.Agree.refl b).through_answers hkeys,
      hthrough]

/-- A namespace sees the variables of one whose text continues it after a stroke. -/
theorem not_areIsolated_of_nested :
    ¬ AreIsolated fun inner : Bool => if inner then "a/b" else "a" := by
  intro h
  have hanswers := h .empty false [(true, .create "c" .null), (false, .contains "b/c")]
    [(false, .contains "b/c")] rfl
  have hyes : Answer.holds true = Answer.holds false := (List.cons.inj hanswers).1
  cases hyes

end Isolation

end Statechart
