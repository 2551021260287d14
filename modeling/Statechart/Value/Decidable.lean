import Statechart.Value.Basic

/-!
# Sameness of values

Whether two values are the same down to the order of fields. This is finer than the equality of
the expression language, and it makes statements about concrete values decidable.

- `Number`, `Value`, `Table` : instances of `DecidableEq`
-/

namespace Statechart

deriving instance DecidableEq for Number

mutual

def Value.decEq : (v w : Value) → Decidable (v = w)
  | .null, .null => isTrue rfl
  | .bool a, .bool b =>
      if h : a = b then isTrue (h ▸ rfl) else isFalse fun h' => h (by cases h'; rfl)
  | .number a, .number b =>
      if h : a = b then isTrue (h ▸ rfl) else isFalse fun h' => h (by cases h'; rfl)
  | .text a, .text b =>
      if h : a = b then isTrue (h ▸ rfl) else isFalse fun h' => h (by cases h'; rfl)
  | .list a, .list b =>
      match decEqItems a b with
      | isTrue h => isTrue (h ▸ rfl)
      | isFalse h => isFalse fun h' => h (by cases h'; rfl)
  | .record a, .record b =>
      match decEqFields a b with
      | isTrue h => isTrue (h ▸ rfl)
      | isFalse h => isFalse fun h' => h (by cases h'; rfl)
  | .null, .bool _ | .null, .number _ | .null, .text _ | .null, .list _ | .null, .record _
  | .bool _, .null | .bool _, .number _ | .bool _, .text _ | .bool _, .list _
  | .bool _, .record _ | .number _, .null | .number _, .bool _ | .number _, .text _
  | .number _, .list _ | .number _, .record _ | .text _, .null | .text _, .bool _
  | .text _, .number _ | .text _, .list _ | .text _, .record _ | .list _, .null
  | .list _, .bool _ | .list _, .number _ | .list _, .text _ | .list _, .record _
  | .record _, .null | .record _, .bool _ | .record _, .number _ | .record _, .text _
  | .record _, .list _ => isFalse fun h => by cases h

def decEqItems : (vs ws : List Value) → Decidable (vs = ws)
  | [], [] => isTrue rfl
  | [], _ :: _ | _ :: _, [] => isFalse fun h => by cases h
  | v :: vs, w :: ws =>
      match v.decEq w with
      | isFalse h => isFalse fun h' => h (by cases h'; rfl)
      | isTrue h =>
          match decEqItems vs ws with
          | isTrue h' => isTrue (h ▸ h' ▸ rfl)
          | isFalse h' => isFalse fun h'' => h' (by cases h''; rfl)

def decEqFields : (vs ws : List (String × Value)) → Decidable (vs = ws)
  | [], [] => isTrue rfl
  | [], _ :: _ | _ :: _, [] => isFalse fun h => by cases h
  | (name, v) :: vs, (name', w) :: ws =>
      if hname : name = name' then
        match v.decEq w with
        | isFalse h => isFalse fun h' => h (by cases h'; rfl)
        | isTrue h =>
            match decEqFields vs ws with
            | isTrue h' => isTrue (hname ▸ h ▸ h' ▸ rfl)
            | isFalse h' => isFalse fun h'' => h' (by cases h''; rfl)
      else isFalse fun h => hname (by cases h; rfl)

end

instance : DecidableEq Value := Value.decEq

deriving instance DecidableEq for Table

end Statechart
