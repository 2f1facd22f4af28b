/-
  Accounts of coroutines that take turns.

  A ledger gives every state an amount and every call a price.  A coroutine earns what
  its stretches add to the amount, less the prices of the calls that it makes; what the
  others do while it is suspended does not count.

  * `Coro.Earns L Q t n a` says that the coroutine, which has earned `n` and goes on in
    the state `a`, ends with earnings and an outcome in `Q`;
  * `Tasks.calls` are the calls that the tasks make along a run;
  * `Tasks.amount_play`: when no task is in flight, the amount is the one at the start,
    with the prices of all calls and what the tasks have earned.
-/
import PlcGateway.Library.Interleaving
import Mathlib.Algebra.BigOperators.Group.List.Basic
import Mathlib.Tactic.Abel

namespace Coroutine

variable {C : Calls} {σ ε α β G : Type}

/-- The amounts of states, the prices of calls, and the answers that are counted on. -/
structure Ledger (C : Calls) (σ ε G : Type) where
  amount : σ → G
  price : C.Call → G
  answers : (c : C.Call) → Outcome ε (C.Res c) → Prop

variable [AddCommGroup G]

/-- The coroutine has earned `n`, goes on in the state `a`, and ends in `Q`. -/
def Coro.Earns (L : Ledger C σ ε G) (Q : G → Outcome ε α → Prop) : Coro C σ ε α → G → σ → Prop
  | .done s r, n, a => Q (n + (L.amount s - L.amount a)) r
  | .await s c k, n, a => ∀ r s', L.answers c r →
    (k r s').Earns L Q (n + (L.amount s - L.amount a) - L.price c) s'

/-- The program that starts with `n` ends in `Q`, from every state. -/
def Prog.Earns (L : Ledger C σ ε G) (Q : G → Outcome ε α → Prop) (n : G) (m : Prog C σ ε α) : Prop :=
  ∀ s, (m s).Earns L Q n s

section
variable {L : Ledger C σ ε G} {n : G}

theorem earns_mono_coro {Q Q' : G → Outcome ε α → Prop} (hQ : ∀ n r, Q n r → Q' n r)
    {t : Coro C σ ε α} {a : σ} (ht : t.Earns L Q n a) : t.Earns L Q' n a := by
  induction t generalizing n a with
  | done s r => exact hQ _ _ ht
  | await s c k ih =>
    intro r s' hr
    exact ih r s' (ht r s' hr)

/-- It does not matter to which stretch an addition is credited. -/
theorem earns_credit {Q : G → Outcome ε α → Prop} {t : Coro C σ ε α} {a s : σ}
    (ht : t.Earns L Q (n + (L.amount s - L.amount a)) s) : t.Earns L Q n a := by
  have hadd (x : G) : n + (L.amount s - L.amount a) + (x - L.amount s) = n + (x - L.amount a) := by abel
  cases t with
  | done s' r =>
    rw [Coro.Earns, hadd] at ht
    exact ht
  | await s' c k =>
    intro r s'' hr
    have hrest := ht r s'' hr
    rw [hadd] at hrest
    exact hrest

theorem earns_andThen {f : Outcome ε α → σ → Coro C σ ε β} {Q : G → Outcome ε β → Prop}
    {t : Coro C σ ε α} {a : σ} (ht : t.Earns L (fun n r => ∀ s, (f r s).Earns L Q n s) n a) :
    (t.andThen f).Earns L Q n a := by
  induction t generalizing n a with
  | done s r => exact earns_credit (ht s)
  | await s c k ih =>
    intro r s' hr
    exact ih r s' (ht r s' hr)

namespace Prog

theorem earns_mono {Q Q' : G → Outcome ε α → Prop} (hQ : ∀ n r, Q n r → Q' n r)
    {m : Prog C σ ε α} (hm : m.Earns L Q n) : m.Earns L Q' n :=
  fun s => earns_mono_coro hQ (hm s)

theorem earns_conclude {Q : G → Outcome ε α → Prop} {r : Outcome ε α} (hQ : Q n r) :
    (Prog.conclude r : Prog C σ ε α).Earns L Q n := by
  intro s
  rw [Prog.conclude, Coro.Earns, sub_self, add_zero]
  exact hQ

theorem earns_pure {Q : G → Outcome ε α → Prop} {a : α} (hQ : Q n (.ok a)) :
    (Pure.pure a : Prog C σ ε α).Earns L Q n :=
  earns_conclude hQ

theorem earns_get {Q : G → Outcome ε σ → Prop} (hQ : ∀ s, Q n (.ok s)) :
    (Prog.get : Prog C σ ε σ).Earns L Q n :=
  fun s => earns_pure (hQ s) s

theorem earns_raise {Q : G → Outcome ε α → Prop} {x : Raised ε} (hQ : Q n (.error x)) :
    (Prog.raise x : Prog C σ ε α).Earns L Q n :=
  earns_conclude hQ

/-- A modification earns what it adds. -/
theorem earns_modify {Q : G → Outcome ε Unit → Prop} {f : σ → σ} (x : G)
    (hf : ∀ s, L.amount (f s) = L.amount s + x) (hQ : Q (n + x) (.ok ())) :
    (Prog.modify f : Prog C σ ε Unit).Earns L Q n := by
  intro s
  rw [Prog.modify, Coro.Earns, hf, add_sub_cancel_left]
  exact hQ

/-- A call costs its price. -/
theorem earns_await {c : C.Call} {Q : G → Outcome ε (C.Res c) → Prop}
    (hQ : ∀ r, L.answers c r → Q (n - L.price c) r) : (Prog.await c : Prog C σ ε _).Earns L Q n := by
  intro s r s' hr
  rw [Coro.Earns, sub_self, sub_self, add_zero, add_zero]
  exact hQ r hr

theorem earns_bind {m : Prog C σ ε α} {f : α → Prog C σ ε β} {Q : G → Outcome ε β → Prop}
    (hm : m.Earns L (fun n r => match r with
      | .ok a => (f a).Earns L Q n
      | .error x => Q n (.error x)) n) : (m >>= f).Earns L Q n := by
  intro s
  refine earns_andThen (earns_mono_coro ?_ (hm s))
  rintro n' (x | a) hrest s'
  · exact earns_raise hrest s'
  · exact hrest s'

theorem earns_attempt {m : Prog C σ ε α} {Q : G → Outcome ε (Except ε α) → Prop}
    (hm : m.Earns L (fun n r => match r with
      | .ok a => Q n (.ok (.ok a))
      | .error (.error e) => Q n (.ok (.error e))
      | .error .cancelled => Q n (.error .cancelled)) n) : (Prog.attempt m).Earns L Q n := by
  intro s
  refine earns_andThen (earns_mono_coro ?_ (hm s))
  rintro n' ((e | _) | a) hQ s' <;> exact earns_conclude hQ s'

/-- A clean-up does not count where nothing is cancelled. -/
theorem earns_onCancelled {m : Prog C σ ε α} {cleanup : Prog C σ ε Unit}
    {Q : G → Outcome ε α → Prop} (hm : m.Earns L (fun n r => r ≠ .error .cancelled ∧ Q n r) n) :
    (Prog.onCancelled m cleanup).Earns L Q n := by
  intro s
  refine earns_andThen (earns_mono_coro ?_ (hm s))
  rintro n' ((e | _) | a) ⟨hne, hQ⟩ s'
  · exact earns_conclude hQ s'
  · exact absurd rfl hne
  · exact earns_conclude hQ s'

theorem earns_mapResult {g : α → β} {m : Prog C σ ε α} {Q : G → Outcome ε β → Prop}
    (hm : m.Earns L (fun n r => Q n (r.map g)) n) : (Prog.mapResult g m).Earns L Q n := by
  intro s
  refine earns_andThen (earns_mono_coro ?_ (hm s))
  exact fun n' r hQ s' => earns_conclude hQ s'

end Prog

end

/-! ## Runs -/

/-- The call at which the coroutine is suspended. -/
def Coro.pending : Coro C σ ε α → Option C.Call
  | .done .. => none
  | .await _ c _ => some c

/-- With earnings `n`, the coroutine ends with what `v` says of its outcome. -/
def Coro.Due (L : Ledger C σ ε G) (v : Outcome ε α → G) (n : G) : Coro C σ ε α → Prop
  | .done _ r => n = v r
  | .await _ c k => ∀ r s', L.answers c r → (k r s').Earns L (fun n r => n = v r) n s'

/-- The answer of the turn is one that is counted on. -/
def Turn.Answers {Op : Type} (L : Ledger C σ ε G) : Turn C ε Op → Prop
  | .start _ => True
  | .resume _ answer => ∀ c, L.answers c (answer c)

/-- A stretch adds the price of the call it ends with, and what it earns. -/
theorem due_of_earns {L : Ledger C σ ε G} {v : Outcome ε α → G} {n : G} {t : Coro C σ ε α} {a : σ}
    (ht : t.Earns L (fun n r => n = v r) n a) :
    ∃ n', t.Due L v n' ∧
      L.amount t.state = L.amount a + (t.pending.toList.map L.price).sum + (n' - n) := by
  cases t with
  | done s r =>
    refine ⟨_, ht, ?_⟩
    rw [Coro.state, Coro.pending, Option.toList_none, List.map_nil, List.sum_nil]
    abel
  | await s c k =>
    refine ⟨_, ht, ?_⟩
    rw [Coro.state, Coro.pending, Option.toList_some, List.map_singleton, List.sum_singleton]
    abel

namespace Tasks
variable {Op : Type}

/-- The number of the task that goes on. -/
def turnOf (s : Tasks C σ ε α Op) : Turn C ε Op → ℕ
  | .start _ => s.tasks.length
  | .resume i _ => i

/-- The call that a task makes. -/
def callOf (s : Tasks C σ ε α Op) (i : ℕ) : List C.Call :=
  (s.tasks[i]?.bind fun t => t.2.pending).toList

/-- The calls that the tasks make along a run. -/
def calls (run : ℕ → Op → Prog C σ ε α) : Tasks C σ ε α Op → List (Turn C ε Op) → List C.Call
  | _, [] => []
  | s, e :: es => match s.step run e with
    | none => []
    | some s' => s'.callOf (s.turnOf e) ++ calls run s' es

/-- What a task that has ended has earned. -/
def earned (v : Op → Outcome ε α → G) (t : Op × Coro C σ ε α) : G := t.2.ended.elim 0 (v t.1)

/-- The amount is that at the start, with the prices of the calls and what each task has
    earned so far. -/
def Accounted (L : Ledger C σ ε G) (v : Op → Outcome ε α → G) (start : G) (cs : List C.Call)
    (s : Tasks C σ ε α Op) : Prop :=
  ∃ ns : List G, List.Forall₂ (fun t n => t.2.Due L (v t.1) n) s.tasks ns ∧
    L.amount s.state = start + (cs.map L.price).sum + ns.sum

section
variable {L : Ledger C σ ε G} {v : Op → Outcome ε α → G} {run : ℕ → Op → Prog C σ ε α} {start : G}
  {cs : List C.Call} {s s' t : Tasks C σ ε α Op}

/-- **A turn keeps the accounts.** -/
theorem accounted_step (hrun : ∀ i op, (run i op).Earns L (fun n r => n = v op r) 0)
    (h : s.Accounted L v start cs) {e : Turn C ε Op} (he : e.Answers L)
    (hs : s.step run e = some s') : s'.Accounted L v start (cs ++ s'.callOf (s.turnOf e)) := by
  obtain ⟨ns, hdue, hamount⟩ := h
  cases e with
  | start op =>
    cases hs
    obtain ⟨n', hdue', hamount'⟩ := due_of_earns (hrun s.tasks.length op s.state)
    refine ⟨ns ++ [n'], List.rel_append hdue (.cons hdue' .nil), ?_⟩
    rw [callOf, turnOf, List.getElem?_concat_length, Option.bind_some, List.map_append,
      List.sum_append, List.sum_append, List.sum_singleton, hamount', hamount]
    abel
  | resume i answer =>
    rw [step] at hs
    split at hs
    · rename_i op s₀ c k hi
      cases hs
      obtain ⟨hlt, htask⟩ := List.getElem?_eq_some_iff.1 hi
      have hlt' : i < ns.length := hdue.length_eq ▸ hlt
      have hready := hdue.get hlt hlt'
      rw [List.get_eq_getElem, List.get_eq_getElem, htask] at hready
      obtain ⟨n', hdue', hamount'⟩ := due_of_earns (hready (answer c) s.state (he c))
      refine ⟨ns.set i n', ?_, ?_⟩
      · refine List.forall₂_iff_get.2 ⟨?_, fun j hj hj' => ?_⟩
        · rw [List.length_set, List.length_set, hdue.length_eq]
        · rw [List.length_set] at hj hj'
          rw [List.get_eq_getElem, List.get_eq_getElem, List.getElem_set, List.getElem_set]
          split_ifs with hij
          · exact hdue'
          · exact hdue.get hj hj'
      · rw [callOf, turnOf, List.getElem?_set_self hlt, Option.bind_some, List.map_append,
          List.sum_append, List.sum_set', dif_pos hlt', hamount', hamount]
        abel
    · cases hs

/-- **A run keeps the accounts.** -/
theorem accounted_play (hrun : ∀ i op, (run i op).Earns L (fun n r => n = v op r) 0)
    {es : List (Turn C ε Op)} (hes : ∀ e ∈ es, e.Answers L) (h : s.Accounted L v start cs)
    (hplay : s.play run es = some t) : t.Accounted L v start (cs ++ calls run s es) := by
  induction es generalizing s cs with
  | nil =>
    cases hplay
    rw [calls, List.append_nil]
    exact h
  | cons e es ih =>
    rw [play, Option.bind_eq_some_iff] at hplay
    obtain ⟨s', hs, hplay⟩ := hplay
    rw [List.forall_mem_cons] at hes
    have hrest := ih hes.2 (accounted_step hrun h hes.1 hs) hplay
    rw [calls, hs]
    rw [List.append_assoc] at hrest
    exact hrest

/-- Tasks that have ended have earned what they are due. -/
theorem eq_earned {tasks : List (Op × Coro C σ ε α)} {ns : List G}
    (hdue : List.Forall₂ (fun t n => t.2.Due L (v t.1) n) tasks ns)
    (hended : ∀ t ∈ tasks, t.2.ended.isSome) : ns = tasks.map (earned v) := by
  induction hdue with
  | nil => rfl
  | @cons task n tasks ns htask _ ih =>
    rw [List.forall_mem_cons] at hended
    rw [List.map_cons, ← ih hended.2]
    obtain ⟨op, coro⟩ := task
    cases coro with
    | done s r =>
      rw [htask]
      rfl
    | await s c k => cases hended.1

/-- **When no task is in flight, the amount is what was paid and earned.** -/
theorem amount_play (hrun : ∀ i op, (run i op).Earns L (fun n r => n = v op r) 0) {a : σ}
    {es : List (Turn C ε Op)} (hes : ∀ e ∈ es, e.Answers L)
    (hplay : (⟨a, []⟩ : Tasks C σ ε α Op).play run es = some t) (hidle : t.Idle) :
    L.amount t.state = L.amount a + ((calls run ⟨a, []⟩ es).map L.price).sum +
      (t.tasks.map (earned v)).sum := by
  have hstart : (⟨a, []⟩ : Tasks C σ ε α Op).Accounted L v (L.amount a) [] := by
    refine ⟨[], .nil, ?_⟩
    rw [List.map_nil, List.sum_nil, add_zero, add_zero]
  obtain ⟨ns, hdue, hamount⟩ := accounted_play hrun hes hstart hplay
  rw [hamount, eq_earned hdue hidle, List.nil_append]

end

end Tasks

end Coroutine
