/-
  JSON trees: the payloads of the spool, the configuration file, and what the mappings
  of the domain models hold.
-/
import PlcGateway.Domain.Models

namespace PlcGateway

/-- A JSON tree, as `json` reads and writes it. -/
inductive Json where
  | null
  | bool (b : Bool)
  | int (n : ℤ)
  | float (x : PyFloat)
  | str (s : String)
  | list (items : List Json)
  | dict (fields : List (String × Json))

/-- The fields of a JSON object, in insertion order. -/
abbrev JsonDict := List (String × Json)

namespace JsonDict

/-- `payload.get(key)` -/
def get (payload : JsonDict) (key : String) : Json := (payload.lookup key).getD .null

/-- `payload[key]` -/
def item (payload : JsonDict) (key : String) : Except PyError Json :=
  match payload.lookup key with
  | some v => .ok v
  | none => .error (.keyError key)

end JsonDict

namespace Json

def ofOption {α : Type} (f : α → Json) : Option α → Json
  | some a => f a
  | none => .null

/-- Neither a list nor a dict. -/
def isScalar : Json → Bool
  | .list _ | .dict _ => false
  | _ => true

theorem shape (x : Json) : x.isScalar ∨ (∃ items, x = .list items) ∨ ∃ fields, x = .dict fields := by
  cases x with
  | list items => exact .inr (.inl ⟨items, rfl⟩)
  | dict fields => exact .inr (.inr ⟨fields, rfl⟩)
  | null | bool | int | float | str => exact .inl rfl

/-- `==`, with an equality of scalars.  The order of the fields of a dict does not
    matter. -/
inductive Equal (same : Json → Json → Prop) : Json → Json → Prop
  | scalar {a b} : a.isScalar → b.isScalar → same a b → Equal same a b
  | list {xs ys} : xs.length = ys.length →
      (∀ (i : ℕ) x y, xs[i]? = some x → ys[i]? = some y → Equal same x y) →
      Equal same (.list xs) (.list ys)
  | dict {f g} : (∀ key, (f.lookup key).isSome = (g.lookup key).isSome) →
      (∀ key x y, f.lookup key = some x → g.lookup key = some y → Equal same x y) →
      Equal same (.dict f) (.dict g)

end Json

end PlcGateway
