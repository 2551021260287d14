import Mathlib.Algebra.Order.Field.Basic
import Mathlib.Algebra.Order.Field.Rat
import Mathlib.Tactic.FieldSimp
import Mathlib.Tactic.NormNum
import Statechart.Service.Selection

/-!
# The best service

Services are compared by cost over performance, each as a share of the greatest one among the
candidates. Over exact fractions the shares change no comparison: the service that is chosen has
the least cost over performance, and of several such services it is the one that was registered
first.

- `IsFirstLeast`            : the first of the elements of the least rank
- `firstLeast?_eq_some_iff` : the search finds it
- `exactScale`              : costs and performances as exact fractions
- `score_lt_score_iff`      : shares compare as the amounts themselves
- `Registry.select?_best`   : what is chosen, after any registrations
-/

namespace Statechart

/-! ## The first of the least -/

section FirstLeast

variable {α β : Type} [LinearOrder β] {rank rank' : α → β} {xs : List α} {x y : α}

def IsFirstLeast (rank : α → β) (xs : List α) (x : α) : Prop :=
  ∃ before after, xs = before ++ x :: after ∧
    (∀ y ∈ before, rank x < rank y) ∧ ∀ y ∈ after, rank x ≤ rank y

namespace IsFirstLeast

theorem mem (h : IsFirstLeast rank xs x) : x ∈ xs := by
  obtain ⟨before, after, rfl, -, -⟩ := h
  exact List.mem_append_right _ List.mem_cons_self

theorem le (h : IsFirstLeast rank xs x) : ∀ y ∈ xs, rank x ≤ rank y := by
  obtain ⟨before, after, rfl, hbefore, hafter⟩ := h
  intro y hy
  rcases List.mem_append.1 hy with hy | hy
  · exact le_of_lt (hbefore y hy)
  · rcases List.mem_cons.1 hy with rfl | hy
    · exact le_rfl
    · exact hafter y hy

theorem unique (h : IsFirstLeast rank xs x) (h' : IsFirstLeast rank xs y) : x = y := by
  obtain ⟨before, after, rfl, hbefore, hafter⟩ := h
  obtain ⟨before', after', heq, hbefore', hafter'⟩ := h'
  -- unless both stand at one place, the later one is before and after the other
  rcases List.append_eq_append_iff.1 heq with ⟨between, rfl, hrest⟩ | ⟨between, rfl, hrest⟩
  · cases between with
    | nil => exact (List.cons.inj hrest).1
    | cons z rest =>
        obtain ⟨rfl, rfl⟩ := List.cons.inj hrest
        have hlt : rank y < rank x := hbefore' x (by simp)
        exact absurd hlt (not_lt.2 (hafter y (by simp)))
  · cases between with
    | nil => exact (List.cons.inj hrest).1.symm
    | cons z rest =>
        obtain ⟨rfl, rfl⟩ := List.cons.inj hrest
        have hlt : rank x < rank y := hbefore y (by simp)
        exact absurd hlt (not_lt.2 (hafter' x (by simp)))

theorem of_compare (hrank : ∀ a ∈ xs, ∀ b ∈ xs, rank a < rank b ↔ rank' a < rank' b)
    (h : IsFirstLeast rank xs x) : IsFirstLeast rank' xs x := by
  have hx := h.mem
  obtain ⟨before, after, rfl, hbefore, hafter⟩ := h
  refine ⟨before, after, rfl, fun y hy => ?_, fun y hy => not_lt.1 fun hlt => ?_⟩
  · exact (hrank x hx y (by simp [hy])).1 (hbefore y hy)
  · exact absurd ((hrank y (by simp [hy]) x hx).2 hlt) (not_lt.2 (hafter y hy))

/-- One more element is looked at. -/
theorem concat (h : IsFirstLeast rank xs x) (y : α) :
    IsFirstLeast rank (xs ++ [y]) (if decide (rank y < rank x) then y else x) := by
  by_cases hlt : rank y < rank x
  · rw [if_pos (decide_eq_true hlt)]
    refine ⟨xs, [], rfl, fun z hz => ?_, fun z hz => absurd hz List.not_mem_nil⟩
    exact lt_of_lt_of_le hlt (h.le z hz)
  · rw [if_neg (by simpa using hlt)]
    obtain ⟨before, after, rfl, hbefore, hafter⟩ := h
    refine ⟨before, after ++ [y], by simp, hbefore, fun z hz => ?_⟩
    rcases List.mem_append.1 hz with hz | hz
    · exact hafter z hz
    · rw [List.mem_singleton.1 hz]
      exact not_lt.1 hlt

/-- The best of those that were looked at is so to the end of the search. -/
theorem foldl {seen : List α} {best : α} (h : IsFirstLeast rank seen best) (rest : List α) :
    IsFirstLeast rank (seen ++ rest)
      (rest.foldl (fun best y => if decide (rank y < rank best) then y else best) best) := by
  induction rest generalizing seen best with
  | nil =>
      rw [List.append_nil]
      exact h
  | cons y rest ih =>
      have hseen := ih (h.concat y)
      rw [List.append_assoc, List.singleton_append] at hseen
      exact hseen

end IsFirstLeast

/-- Of the ranks it counts only how they compare. -/
theorem isFirstLeast_congr (hrank : ∀ a ∈ xs, ∀ b ∈ xs, rank a < rank b ↔ rank' a < rank' b) :
    IsFirstLeast rank xs x ↔ IsFirstLeast rank' xs x :=
  ⟨.of_compare hrank, .of_compare fun a ha b hb => (hrank a ha b hb).symm⟩

/-- Among the elements that pass a test. -/
theorem isFirstLeast_filter_iff {passes : α → Bool} :
    IsFirstLeast rank (xs.filter passes) x ↔
      ∃ before after, xs = before ++ x :: after ∧ passes x = true ∧
        (∀ y ∈ before, passes y = true → rank x < rank y) ∧
        ∀ y ∈ after, passes y = true → rank x ≤ rank y := by
  constructor
  · rintro ⟨front, back, heq, hfront, hback⟩
    obtain ⟨before, others, rfl, rfl, hothers⟩ := List.filter_eq_append_iff.1 heq
    obtain ⟨skipped, after, rfl, hskipped, hx, rfl⟩ := List.filter_eq_cons_iff.1 hothers
    refine ⟨before ++ skipped, after, (List.append_assoc _ _ _).symm, hx,
      fun y hy hpasses => ?_, fun y hy hpasses => hback y (List.mem_filter.2 ⟨hy, hpasses⟩)⟩
    rcases List.mem_append.1 hy with hy | hy
    · exact hfront y (List.mem_filter.2 ⟨hy, hpasses⟩)
    · exact absurd hpasses (hskipped y hy)
  · rintro ⟨before, after, rfl, hx, hbefore, hafter⟩
    refine ⟨before.filter passes, after.filter passes, ?_, fun y hy => ?_, fun y hy => ?_⟩
    · rw [List.filter_append, List.filter_cons_of_pos hx]
    · obtain ⟨hy, hpasses⟩ := List.mem_filter.1 hy
      exact hbefore y hy hpasses
    · obtain ⟨hy, hpasses⟩ := List.mem_filter.1 hy
      exact hafter y hy hpasses

theorem isFirstLeast_foldl (rank : α → β) (x : α) (rest : List α) :
    IsFirstLeast rank (x :: rest)
      (rest.foldl (fun best y => if decide (rank y < rank best) then y else best) x) := by
  have hfirst : IsFirstLeast rank [x] x :=
    ⟨[], [], rfl, fun y hy => absurd hy List.not_mem_nil, fun y hy => absurd hy List.not_mem_nil⟩
  exact hfirst.foldl rest

theorem firstLeast?_eq_some_iff :
    firstLeast? (fun a b => decide (rank a < rank b)) xs = some x ↔ IsFirstLeast rank xs x := by
  cases xs with
  | nil =>
      constructor
      · intro h
        cases h
      · exact fun h => absurd h.mem List.not_mem_nil
  | cons head rest =>
      have hfound := isFirstLeast_foldl rank head rest
      constructor
      · intro h
        cases h
        exact hfound
      · exact fun h => congrArg some (hfound.unique h)

theorem firstLeast?_eq_none_iff {less : α → α → Bool} : firstLeast? less xs = none ↔ xs = [] := by
  cases xs <;> simp [firstLeast?]

end FirstLeast

/-! ## Exact scores -/

/-- Exact fractions. There is none above all others for what performs not at all: `top` may be
any. -/
def exactScale (top : ℚ) : Scale ℚ :=
  { zero := 0
    top
    greater := max
    div := fun a b => a / b
    isPositive := fun a => decide (0 < a)
    less := fun a b => decide (a < b) }

namespace Service

def ratio (s : Service ℚ) : ℚ := s.cost / s.performance

/-- The service is of the type, and local if need be. -/
def Fits {α : Type} (type : String) (localOnly : Bool) (s : Service α) : Prop :=
  s.name = type ∧ (localOnly = true → s.isLocal = true)

end Service

theorem le_greatest (top : ℚ) {x : ℚ} {xs : List ℚ} (h : x ∈ xs) :
    x ≤ (exactScale top).greatest xs := by
  have hfrom : ∀ least : ℚ, least ≤ xs.foldl max least ∧ ∀ x ∈ xs, x ≤ xs.foldl max least := by
    clear h
    induction xs with
    | nil => exact fun least => ⟨le_rfl, fun x hx => absurd hx List.not_mem_nil⟩
    | cons head rest ih =>
        intro least
        obtain ⟨hleast, hrest⟩ := ih (max least head)
        refine ⟨le_trans (le_max_left least head) hleast, fun x hx => ?_⟩
        rcases List.mem_cons.1 hx with rfl | hx
        · exact le_trans (le_max_right least x) hleast
        · exact hrest x hx
  exact (hfrom 0).2 x h

theorem score_eq (top : ℚ) {mostCost mostPerformance cost performance : ℚ}
    (hpositive : 0 < performance) (hmost : performance ≤ mostPerformance) :
    (exactScale top).score mostCost mostPerformance cost performance =
      if 0 < mostCost then cost / performance * (mostPerformance / mostCost) else 0 := by
  have hmost' : 0 < mostPerformance := lt_of_lt_of_le hpositive hmost
  have hshare : 0 < performance / mostPerformance := div_pos hpositive hmost'
  simp only [Scale.score, Scale.share, exactScale, decide_eq_true hmost', decide_eq_true hshare,
    if_true, decide_eq_true_eq]
  split
  · field_simp
  · exact zero_div _

/-- The shares among the candidates compare as the amounts themselves. -/
theorem score_lt_score_iff (top : ℚ) {candidates : List (Service ℚ)}
    (hpriced : ∀ s ∈ candidates, 0 ≤ s.cost ∧ 0 < s.performance) {s t : Service ℚ}
    (hs : s ∈ candidates) (ht : t ∈ candidates) :
    let mostCost := (exactScale top).greatest (candidates.map (·.cost))
    let mostPerformance := (exactScale top).greatest (candidates.map (·.performance))
    (exactScale top).score mostCost mostPerformance s.cost s.performance <
        (exactScale top).score mostCost mostPerformance t.cost t.performance ↔
      s.ratio < t.ratio := by
  intro mostCost mostPerformance
  have hcost : ∀ u ∈ candidates, u.cost ≤ mostCost := fun u hu =>
    le_greatest top (List.mem_map.2 ⟨u, hu, rfl⟩)
  have hperformance : ∀ u ∈ candidates, u.performance ≤ mostPerformance := fun u hu =>
    le_greatest top (List.mem_map.2 ⟨u, hu, rfl⟩)
  rw [score_eq top (hpriced s hs).2 (hperformance s hs),
    score_eq top (hpriced t ht).2 (hperformance t ht)]
  by_cases hpositive : 0 < mostCost
  · -- all scores are ratios times one positive factor
    have hfactor : 0 < mostPerformance / mostCost :=
      div_pos (lt_of_lt_of_le (hpriced s hs).2 (hperformance s hs)) hpositive
    rw [if_pos hpositive, if_pos hpositive]
    exact mul_lt_mul_iff_left₀ hfactor
  · -- nothing costs anything
    have hfree : ∀ u ∈ candidates, u.ratio = 0 := by
      intro u hu
      have hzero : u.cost = 0 :=
        le_antisymm (le_trans (hcost u hu) (not_lt.1 hpositive)) (hpriced u hu).1
      rw [Service.ratio, hzero, zero_div]
    rw [if_neg hpositive, if_neg hpositive, hfree s hs, hfree t ht]

/-! ## Registries -/

namespace Registry

variable {α : Type}

/-- The registry after some registrations. -/
def ofCalls (calls : List (Service α)) : Registry α := calls.foldl register .empty

theorem services_ofCalls (calls : List (Service α)) : (ofCalls calls).services = calls := by
  have hfrom : ∀ r : Registry α, (calls.foldl register r).services = r.services ++ calls := by
    induction calls with
    | nil => exact fun r => (List.append_nil _).symm
    | cons s rest ih =>
        intro r
        rw [List.foldl_cons, ih, register, List.append_assoc, List.singleton_append]
  exact hfrom .empty

theorem fits_iff {type : String} {localOnly : Bool} {s : Service α} :
    (s.name == type && (!localOnly || s.isLocal)) = true ↔ s.Fits type localOnly := by
  cases localOnly <;> simp [Service.Fits]

/-- After any registrations of services that cost nothing less than nothing and perform at all, a
service is found unless none fits. It is one that fits, its cost over performance is the least of
all that fit, and those that were registered before it and fit have a greater one. -/
theorem select?_best (top : ℚ) {calls : List (Service ℚ)}
    (hpriced : ∀ s ∈ calls, 0 ≤ s.cost ∧ 0 < s.performance) (type : String) (localOnly : Bool) :
    ((ofCalls calls).select? (exactScale top) type localOnly = none ↔
      ∀ s ∈ calls, ¬ s.Fits type localOnly) ∧
    ∀ s, (ofCalls calls).select? (exactScale top) type localOnly = some s ↔
      ∃ before after, calls = before ++ s :: after ∧ s.Fits type localOnly ∧
        (∀ t ∈ before, t.Fits type localOnly → s.ratio < t.ratio) ∧
        ∀ t ∈ after, t.Fits type localOnly → s.ratio ≤ t.ratio := by
  have hcandidates : (ofCalls calls).implementations type localOnly =
      calls.filter fun s => s.name == type && (!localOnly || s.isLocal) := by
    rw [implementations, services_ofCalls]
  have hpriced' : ∀ s ∈ (ofCalls calls).implementations type localOnly,
      0 ≤ s.cost ∧ 0 < s.performance := by
    intro s hs
    rw [hcandidates] at hs
    exact hpriced s (List.mem_of_mem_filter hs)
  constructor
  · rw [select?, firstLeast?_eq_none_iff, hcandidates, List.filter_eq_nil_iff]
    exact forall₂_congr fun s _ => not_congr fits_iff
  · intro s
    have hcompare := fun a ha b hb =>
      score_lt_score_iff top hpriced' (s := a) (t := b) ha hb
    calc (ofCalls calls).select? (exactScale top) type localOnly = some s
        ↔ IsFirstLeast Service.ratio ((ofCalls calls).implementations type localOnly) s :=
          firstLeast?_eq_some_iff.trans (isFirstLeast_congr hcompare)
      _ ↔ _ := by
          rw [hcandidates, isFirstLeast_filter_iff]
          simp only [fits_iff]

/-! ### A trial -/

namespace SelectionTrial

/-- As good as the one after it, but not local. -/
def quick : Service ℚ := ⟨"print", 1, 5, false, .echo⟩

def alike : Service ℚ := ⟨"print", 2, 10, true, .echo⟩

def offers : List (Service ℚ) :=
  [⟨"print", 10, 10, false, .echo⟩, ⟨"print", 2, 1, true, .echo⟩, ⟨"scan", 0, 1, true, .echo⟩,
    quick, alike, quick]

end SelectionTrial

open SelectionTrial in
/-- Of two services that are equally good the first one is chosen, and the other one where only
local ones will do. -/
theorem offers_best :
    (∀ s ∈ offers, 0 ≤ s.cost ∧ 0 < s.performance) ∧
      (ofCalls offers).select? (exactScale 0) "print" false = some quick ∧
      (ofCalls offers).select? (exactScale 0) "print" true = some alike ∧
      (ofCalls offers).select? (exactScale 0) "fax" false = none := by
  have hpriced : ∀ s ∈ offers, 0 ≤ s.cost ∧ 0 < s.performance := by
    simp [offers, quick, alike]
  have hother : "scan" ≠ "print" := by decide
  refine ⟨hpriced, ?_, ?_, ?_⟩
  · refine ((select?_best 0 hpriced "print" false).2 quick).2
      ⟨offers.take 3, [alike, quick], rfl, ⟨rfl, by simp⟩, ?_, ?_⟩
    · norm_num [offers, quick, Service.ratio, Service.Fits, hother]
    · norm_num [quick, alike, Service.ratio, Service.Fits]
  · refine ((select?_best 0 hpriced "print" true).2 alike).2
      ⟨offers.take 4, [quick], rfl, ⟨rfl, fun _ => rfl⟩, ?_, ?_⟩
    · norm_num [offers, quick, alike, Service.ratio, Service.Fits, hother]
    · norm_num [quick, alike, Service.ratio, Service.Fits]
  · refine (select?_best 0 hpriced "fax" false).1.2 ?_
    simp [offers, quick, alike, Service.Fits]

end Registry

end Statechart
