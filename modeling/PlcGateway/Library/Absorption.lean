/-
  Actions that absorb repetition.

  When actions commute and doing one again changes nothing, what a list of them
  does to a state depends on the set of the actions only: not on their order, not
  on how often each is done.  Actions with a guard that enable nothing new are
  allowed one after the other exactly when each one is allowed at the start.
-/
import Mathlib.Data.List.Basic

namespace Absorption

variable {α σ : Type} (act : α → σ → σ)

/-- Do the actions of the list, the first one first. -/
def actAll (l : List α) (s : σ) : σ := l.foldl (fun s a => act a s) s

/-- The actions in `P` commute and absorb repetition. -/
structure Absorbing (P : α → Prop) : Prop where
  comm : ∀ a b, P a → P b → ∀ s, act a (act b s) = act b (act a s)
  idem : ∀ a, P a → ∀ s, act a (act a s) = act a s

@[simp] theorem actAll_nil (s : σ) : actAll act [] s = s := rfl

@[simp] theorem actAll_cons (a : α) (l : List α) (s : σ) :
    actAll act (a :: l) s = actAll act l (act a s) := rfl

theorem actAll_append (l l' : List α) (s : σ) :
    actAll act (l ++ l') s = actAll act l' (actAll act l s) := List.foldl_append

namespace Absorbing
variable {act} {P : α → Prop} (A : Absorbing act P)
include A

theorem act_actAll_comm {a : α} {l : List α} (ha : P a) (hl : ∀ b ∈ l, P b) (s : σ) :
    act a (actAll act l s) = actAll act l (act a s) := by
  induction l generalizing s with
  | nil => rfl
  | cons b l ih =>
    rw [actAll_cons, ih (fun c hc => hl c (List.mem_cons_of_mem _ hc)),
      A.comm a b ha (hl b List.mem_cons_self), actAll_cons]

/-- An action that was done is absorbed. -/
theorem act_actAll {a : α} {l : List α} (ha : a ∈ l) (hl : ∀ b ∈ l, P b) (s : σ) :
    act a (actAll act l s) = actAll act l s := by
  induction l generalizing s with
  | nil => cases ha
  | cons b l ih =>
    have hl' : ∀ c ∈ l, P c := fun c hc => hl c (List.mem_cons_of_mem _ hc)
    rcases List.mem_cons.1 ha with rfl | ha
    · have hP := hl a List.mem_cons_self
      rw [actAll_cons, A.act_actAll_comm hP hl', A.idem a hP]
    · exact ih ha hl' _

theorem actAll_absorbed {l l' : List α} (hsub : ∀ a ∈ l', a ∈ l) (hl : ∀ b ∈ l, P b) (s : σ) :
    actAll act l' (actAll act l s) = actAll act l s := by
  induction l' with
  | nil => rfl
  | cons a l' ih =>
    rw [actAll_cons, A.act_actAll (hsub a List.mem_cons_self) hl]
    exact ih fun b hb => hsub b (List.mem_cons_of_mem _ hb)

theorem actAll_comm {l l' : List α} (hl : ∀ b ∈ l, P b) (hl' : ∀ b ∈ l', P b) (s : σ) :
    actAll act l' (actAll act l s) = actAll act l (actAll act l' s) := by
  induction l' generalizing s with
  | nil => rfl
  | cons a l' ih =>
    rw [actAll_cons, A.act_actAll_comm (hl' a List.mem_cons_self) hl,
      ih fun b hb => hl' b (List.mem_cons_of_mem _ hb)]
    rfl

/-- **Only the set of the actions matters.** -/
theorem actAll_congr {l l' : List α} (h : ∀ a, a ∈ l ↔ a ∈ l') (hl : ∀ b ∈ l, P b) (s : σ) :
    actAll act l s = actAll act l' s := by
  have hl' : ∀ b ∈ l', P b := fun b hb => hl b ((h b).2 hb)
  calc actAll act l s
      = actAll act l' (actAll act l s) := (A.actAll_absorbed (fun a ha => (h a).2 ha) hl s).symm
    _ = actAll act l (actAll act l' s) := A.actAll_comm hl hl' s
    _ = actAll act l' s := A.actAll_absorbed (fun a ha => (h a).1 ha) hl' s

end Absorbing

/-! ## Guarded actions -/

section
variable {act} (ok : α → σ → Prop)

/-- Every action of the list is allowed when its turn comes. -/
def AllowedAll (act : α → σ → σ) : List α → σ → Prop
  | [], _ => True
  | a :: l, s => ok a s ∧ AllowedAll act l (act a s)

variable {ok}

theorem allowedAll_append {l l' : List α} {s : σ} :
    AllowedAll ok act (l ++ l') s ↔ AllowedAll ok act l s ∧ AllowedAll ok act l' (actAll act l s) := by
  induction l generalizing s with
  | nil => exact (iff_of_eq (true_and _)).symm
  | cons a l ih => simp only [List.cons_append, AllowedAll, actAll_cons, ih, and_assoc]

/-- Actions that forbid nothing are allowed one after the other when each one is
    allowed at the start. -/
theorem allowedAll_of_forall {l : List α} {s : σ} (hkeep : ∀ a b s, ok a s → ok a (act b s))
    (h : ∀ a ∈ l, ok a s) : AllowedAll ok act l s := by
  induction l generalizing s with
  | nil => trivial
  | cons a l ih =>
    obtain ⟨ha, hl⟩ := List.forall_mem_cons.1 h
    exact ⟨ha, ih fun b hb => hkeep b a s (hl b hb)⟩

/-- Actions that enable nothing in `P` that was forbidden are all allowed at the start. -/
theorem forall_of_allowedAll {P : α → Prop} {l : List α} {s : σ}
    (hback : ∀ a b s, P a → P b → ok b s → ok a (act b s) → ok a s) (hP : ∀ a ∈ l, P a)
    (h : AllowedAll ok act l s) : ∀ a ∈ l, ok a s := by
  induction l generalizing s with
  | nil => exact fun a ha => (by cases ha)
  | cons b l ih =>
    obtain ⟨hb, hl⟩ := h
    intro a ha
    rcases List.mem_cons.1 ha with rfl | ha'
    · exact hb
    · exact hback a b s (hP a ha) (hP b List.mem_cons_self) hb
        (ih (fun c hc => hP c (List.mem_cons_of_mem _ hc)) hl a ha')

end

end Absorption
