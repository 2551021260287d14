/-!
# Success

Computations that may fail, seen from their success.

- `bind_eq_ok_iff`, `exists_of_mapM`, `map_of_mapM` : success of several steps, and what it comes to
- `Succeeds`                                        : success alone, one equation for each step
-/

namespace Statechart

/-! ## Success of several steps -/

theorem bind_eq_ok_iff {ε α β : Type} {x : Except ε α} {f : α → Except ε β} {b : β} :
    (x >>= f) = .ok b ↔ ∃ a, x = .ok a ∧ f a = .ok b := by
  cases x with
  | error fault =>
      constructor
      · intro h
        cases h
      · rintro ⟨_, h, -⟩
        cases h
  | ok a =>
      constructor
      · exact fun h => ⟨a, rfl, h⟩
      · rintro ⟨_, h, hf⟩
        cases h
        exact hf

theorem exists_of_mapM {ε α β : Type} {f : α → Except ε β} {as : List α} {bs : List β}
    (h : as.mapM f = .ok bs) : ∀ b ∈ bs, ∃ a ∈ as, f a = .ok b := by
  induction as generalizing bs with
  | nil =>
      cases h
      exact fun _ hb => absurd hb List.not_mem_nil
  | cons a rest ih =>
      rw [List.mapM_cons, bind_eq_ok_iff] at h
      obtain ⟨b, hb, h⟩ := h
      obtain ⟨bs', hbs', h⟩ := bind_eq_ok_iff.1 h
      cases h
      intro c hc
      rcases List.mem_cons.1 hc with rfl | hc
      · exact ⟨a, List.mem_cons_self, hb⟩
      · obtain ⟨a', ha', hfa'⟩ := ih hbs' c hc
        exact ⟨a', List.mem_cons_of_mem _ ha', hfa'⟩

theorem map_of_mapM {ε α β γ : Type} {f : α → Except ε β} {before : α → γ} {after : β → γ}
    (hf : ∀ a b, f a = .ok b → after b = before a) {as : List α} {bs : List β}
    (h : as.mapM f = .ok bs) : bs.map after = as.map before := by
  induction as generalizing bs with
  | nil =>
      cases h
      rfl
  | cons a rest ih =>
      rw [List.mapM_cons, bind_eq_ok_iff] at h
      obtain ⟨b, hb, h⟩ := h
      obtain ⟨bs', hbs', h⟩ := bind_eq_ok_iff.1 h
      cases h
      simp [hf a b hb, ih hbs']

/-! ## Success alone -/

def Succeeds {ε α : Type} (x : Except ε α) : Prop := ∃ a, x = .ok a

section Success

variable {ε α β : Type} {x : Except ε α} {f : α → Except ε β}

@[simp]
theorem succeeds_ok (a : α) : Succeeds (Except.ok a : Except ε α) := ⟨a, rfl⟩

theorem succeeds_bind : Succeeds (x >>= f) ↔ ∃ a, x = .ok a ∧ Succeeds (f a) := by
  constructor
  · rintro ⟨b, h⟩
    rcases bind_eq_ok_iff.1 h with ⟨a, ha, hb⟩
    exact ⟨a, ha, b, hb⟩
  · rintro ⟨a, ha, b, hb⟩
    exact ⟨b, bind_eq_ok_iff.2 ⟨a, ha, hb⟩⟩

/-- Whether the second step succeeds does not depend on what the first one comes to. -/
theorem succeeds_bind_of {p : Prop} (h : ∀ a, x = .ok a → (Succeeds (f a) ↔ p)) :
    Succeeds (x >>= f) ↔ Succeeds x ∧ p := by
  rw [succeeds_bind]
  constructor
  · rintro ⟨a, ha, hf⟩
    exact ⟨⟨a, ha⟩, (h a ha).1 hf⟩
  · rintro ⟨⟨a, ha⟩, hp⟩
    exact ⟨a, ha, (h a ha).2 hp⟩

/-- The last step of a builder puts together what was built. -/
theorem succeeds_bind_ok {g : α → β} : Succeeds (x >>= fun a => .ok (g a)) ↔ Succeeds x := by
  rw [succeeds_bind_of (p := True) fun a _ => ⟨fun _ => trivial, fun _ => succeeds_ok (g a)⟩]
  exact and_iff_left trivial

theorem succeeds_mapM {f : α → Except ε β} {as : List α} :
    Succeeds (as.mapM f) ↔ ∀ a ∈ as, Succeeds (f a) := by
  induction as with
  | nil =>
      constructor
      · intro _ a ha
        cases ha
      · intro _
        exact ⟨[], rfl⟩
  | cons a rest ih =>
      have hrest : Succeeds (rest.mapM f >>= fun bs => pure bs) ↔ Succeeds (rest.mapM f) :=
        succeeds_bind_ok (g := id)
      rw [List.mapM_cons, List.forall_mem_cons, ← ih]
      exact succeeds_bind_of fun b _ => succeeds_bind_ok (g := (b :: ·))

end Success

end Statechart
