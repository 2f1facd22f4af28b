/-
  Computations that may fail: when a sequence, a traversal and a fold of them succeed.
-/
import Mathlib.Data.List.Forall2
import Mathlib.Tactic.Common

namespace Fallible

variable {ε α β : Type}

theorem bind_eq_ok_iff {x : Except ε α} {f : α → Except ε β} {b : β} :
    (x >>= f) = .ok b ↔ ∃ a, x = .ok a ∧ f a = .ok b := by
  constructor
  · intro h
    cases x with
    | error e => cases h
    | ok a => exact ⟨a, rfl, h⟩
  · rintro ⟨a, rfl, h⟩
    exact h

theorem pure_eq_ok_iff {a b : α} : (pure a : Except ε α) = .ok b ↔ a = b :=
  ⟨Except.ok.inj, congrArg Except.ok⟩

theorem mapError_eq_ok_iff {ε' : Type} {x : Except ε α} {f : ε → ε'} {a : α} :
    x.mapError f = .ok a ↔ x = .ok a := by
  cases x with
  | error e => exact iff_of_false nofun nofun
  | ok b =>
    rw [Except.mapError, Except.ok.injEq, Except.ok.injEq]

/-- A traversal succeeds if each of its steps does. -/
theorem mapM_eq_ok_iff {f : α → Except ε β} {xs : List α} {ys : List β} :
    xs.mapM f = .ok ys ↔ List.Forall₂ (fun x y => f x = .ok y) xs ys := by
  induction xs generalizing ys with
  | nil =>
    rw [List.mapM_nil, pure_eq_ok_iff, List.forall₂_nil_left_iff]
    exact eq_comm
  | cons x xs ih =>
    rw [List.mapM_cons, bind_eq_ok_iff, List.forall₂_cons_left_iff]
    constructor
    · rintro ⟨y, hy, h⟩
      obtain ⟨ys', hys, h⟩ := bind_eq_ok_iff.1 h
      exact ⟨y, ys', hy, ih.1 hys, (pure_eq_ok_iff.1 h).symm⟩
    · rintro ⟨y, ys', hy, hys, rfl⟩
      exact ⟨y, hy, bind_eq_ok_iff.2 ⟨ys', ih.2 hys, rfl⟩⟩

/-- A traversal succeeds in one order if it does in another. -/
theorem exists_mapM_eq_ok_iff {f : α → Except ε β} {xs : List α} :
    (∃ ys, xs.mapM f = .ok ys) ↔ ∀ x ∈ xs, ∃ y, f x = .ok y := by
  simp only [mapM_eq_ok_iff]
  induction xs with
  | nil => exact iff_of_true ⟨[], .nil⟩ nofun
  | cons x xs ih =>
    rw [List.forall_mem_cons, ← ih]
    constructor
    · rintro ⟨_, hall⟩
      obtain ⟨y, ys, hy, hys, -⟩ := List.forall₂_cons_left_iff.1 hall
      exact ⟨⟨y, hy⟩, ys, hys⟩
    · rintro ⟨⟨y, hy⟩, ys, hys⟩
      exact ⟨y :: ys, .cons hy hys⟩

/-- What a traversal has made, it has made of something. -/
theorem exists_of_mem_right {R : α → β → Prop} {xs : List α} {ys : List β}
    (h : List.Forall₂ R xs ys) {y : β} (hy : y ∈ ys) : ∃ x ∈ xs, R x y := by
  induction h with
  | nil => cases hy
  | @cons x _ _ _ hxy _ ih =>
    rcases List.mem_cons.1 hy with rfl | hy
    · exact ⟨x, List.mem_cons_self, hxy⟩
    · obtain ⟨z, hz, hR⟩ := ih hy
      exact ⟨z, List.mem_cons_of_mem x hz, hR⟩

/-- A traversal makes something of everything. -/
theorem exists_of_mem_left {R : α → β → Prop} {xs : List α} {ys : List β}
    (h : List.Forall₂ R xs ys) {x : α} (hx : x ∈ xs) : ∃ y ∈ ys, R x y := by
  obtain ⟨y, hy, hR⟩ := exists_of_mem_right h.flip hx
  exact ⟨y, hy, hR⟩

theorem forall₂_iff_getElem {R : α → β → Prop} {xs : List α} {ys : List β} :
    List.Forall₂ R xs ys ↔ xs.length = ys.length ∧
      ∀ (i : ℕ) x y, xs[i]? = some x → ys[i]? = some y → R x y := by
  rw [List.forall₂_iff_get]
  refine and_congr_right fun _ => ⟨fun h i x y hx hy => ?_, fun h i hx hy => ?_⟩
  · obtain ⟨hi, rfl⟩ := List.getElem?_eq_some_iff.1 hx
    obtain ⟨hi', rfl⟩ := List.getElem?_eq_some_iff.1 hy
    exact h i hi hi'
  · exact h i _ _ (List.getElem?_eq_getElem hx) (List.getElem?_eq_getElem hy)

/-- A traversal in two stages. -/
theorem forall₂_exists_iff {γ : Type} {R : α → γ → Prop} {S : γ → β → Prop} {xs : List α}
    {ys : List β} :
    List.Forall₂ (fun x y => ∃ z, R x z ∧ S z y) xs ys ↔
      ∃ zs, List.Forall₂ R xs zs ∧ List.Forall₂ S zs ys := by
  constructor
  · intro h
    induction h with
    | nil => exact ⟨[], .nil, .nil⟩
    | cons hxy _ ih =>
      obtain ⟨z, hR, hS⟩ := hxy
      obtain ⟨zs, hxs, hys⟩ := ih
      exact ⟨z :: zs, .cons hR hxs, .cons hS hys⟩
  · rintro ⟨zs, hxs, hys⟩
    induction hxs generalizing ys with
    | nil =>
      cases hys
      exact .nil
    | cons hR _ ih =>
      obtain ⟨y, ys', hS, hrest, rfl⟩ := List.forall₂_cons_left_iff.1 hys
      exact .cons ⟨_, hR, hS⟩ (ih hrest)

end Fallible
