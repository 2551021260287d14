import Statechart.Service.Basic

/-!
# Selection of services

How one of several services of a type is chosen.

- `Scale`            : the arithmetic that costs and performances are measured in
- `Scale.score`      : cost over performance, each as a share of the greatest one
- `Registry.select?` : the first service of the least score
- `Policy`           : the least score, or any service
-/

namespace Statechart

/-! ## Scales -/

structure Scale (α : Type) where
  zero : α
  /-- The score of what performs not at all. -/
  top : α
  greater : α → α → α
  div : α → α → α
  isPositive : α → Bool
  less : α → α → Bool

namespace Scale

def greatest (s : Scale α) (xs : List α) : α := xs.foldl s.greater s.zero

/-- The share of the greatest amount, or zero where there is no positive amount. -/
def share (s : Scale α) (x most : α) : α := if s.isPositive most then s.div x most else s.zero

def score (s : Scale α) (mostCost mostPerformance cost performance : α) : α :=
  let performance := s.share performance mostPerformance
  if s.isPositive performance then s.div (s.share cost mostCost) performance else s.top

end Scale

/-- The first of the least elements. -/
def firstLeast? (less : β → β → Bool) : List β → Option β
  | [] => none
  | x :: rest => some (rest.foldl (fun best y => if less y best then y else best) x)

/-! ### Doubles -/

/-- Doubles from the negative infinity to the positive one; zero comes after minus zero. -/
def doubleOrder (x : Float) : Nat :=
  let bits := x.toBits.toNat
  if bits < signedLimit then bits + signedLimit else wordLimit - 1 - bits

def doubleScale : Scale Float :=
  { zero := 0.0
    top := 1.0 / 0.0
    greater := fun a b => if a < b then b else a
    div := fun a b => a / b
    isPositive := fun a => decide (0.0 < a)
    less := fun a b => decide (doubleOrder a < doubleOrder b) }

/-! ## Policies -/

/-- The first service of the least score. -/
def Registry.select? (scale : Scale α) (r : Registry α) (type : String) (localOnly : Bool) :
    Option (Service α) :=
  let candidates := r.implementations type localOnly
  -- the shares are taken among the candidates alone
  let mostCost := scale.greatest (candidates.map (·.cost))
  let mostPerformance := scale.greatest (candidates.map (·.performance))
  let score := fun (s : Service α) => scale.score mostCost mostPerformance s.cost s.performance
  firstLeast? (fun a b => scale.less (score a) (score b)) candidates

inductive Policy where
  | optimal
  | random
  deriving DecidableEq, Repr

namespace Policy

def name : Policy → String
  | .optimal => "optimal"
  | .random => "random"

def ofName? (s : String) : Option Policy := [optimal, random].find? fun p => p.name == s

/-- The chosen service; `draw` decides where any service will do. -/
def choose? (p : Policy) (r : Registry Float) (draw : Nat) (type : String) (localOnly : Bool) :
    Option (Service Float) :=
  match p with
  | .optimal => r.select? doubleScale type localOnly
  | .random =>
      let candidates := r.implementations type localOnly
      candidates[draw % candidates.length]?

end Policy

end Statechart
