/-
  Coroutines that take turns on a shared state.

  * `Coro.Stretches I E R Q` says that each stretch that a coroutine runs, from where
    it goes on to where it is suspended or ends, is in the relation `R` and keeps the
    invariant `I`, and that the coroutine ends in `Q`, as long as the others keep `I`
    and move the state in `E` meanwhile;
  * `Tasks` are the coroutines of operations that were started, and `Tasks.play` lets
    them go on in a given order, with given answers;
  * `Tasks.tame_play`: if what each task does is allowed to the others, then along a
    run the invariant holds, and every task that has ended has ended in its `Q`;
  * `Coro.Turns I M P` says of single turns what they do: those that suspend the
    coroutine are in `M`, and the one that ends it is in `P`.
-/
import PlcGateway.Library.Coroutine
import Mathlib.Data.List.Basic

namespace Coroutine

variable {C : Calls} {σ ε α β : Type}

/-! ## Stretches -/

/-- Every stretch of the coroutine, which goes on in the state `a`, is in `R` and keeps
    `I`, and it ends in `Q`. -/
def Coro.Stretches (I : σ → Prop) (E R : σ → σ → Prop) (Q : Outcome ε α → σ → Prop) :
    Coro C σ ε α → σ → Prop
  | .done s r, a => (R a s ∧ I s) ∧ Q r s
  | .await s _ k, a => (R a s ∧ I s) ∧ ∀ r s', E s s' → I s' → (k r s').Stretches I E R Q s'

/-- Every stretch of the coroutine is in `R`, whatever the others do. -/
abbrev Coro.Moves (R : σ → σ → Prop) (Q : Outcome ε α → σ → Prop) (t : Coro C σ ε α) (a : σ) : Prop :=
  t.Stretches (fun _ => True) (fun _ _ => True) R Q a

section
variable {I : σ → Prop} {E R S : σ → σ → Prop}

theorem stretches_mono {Q Q' : Outcome ε α → σ → Prop} (hQ : ∀ r s, I s → Q r s → Q' r s)
    {t : Coro C σ ε α} {a : σ} (ht : t.Stretches I E R Q a) : t.Stretches I E R Q' a := by
  induction t generalizing a with
  | done s r => exact ⟨ht.1, hQ r s ht.1.2 ht.2⟩
  | await s c k ih => exact ⟨ht.1, fun r s' hE hI => ih r s' (ht.2 r s' hE hI)⟩

theorem stretches_le (hle : ∀ a b, R a b → S a b) {Q : Outcome ε α → σ → Prop} {t : Coro C σ ε α}
    {a : σ} (ht : t.Stretches I E R Q a) : t.Stretches I E S Q a := by
  induction t generalizing a with
  | done s r => exact ⟨ht.1.imp_left (hle a s), ht.2⟩
  | await s c k ih =>
    exact ⟨ht.1.imp_left (hle a s), fun r s' hE hI => ih r s' (ht.2 r s' hE hI)⟩

/-- A stretch in `R` may go on with one in `S` if the two together are in `S`. -/
theorem stretches_andThen (hle : ∀ a b, R a b → S a b) (htrans : ∀ a b c, R a b → S b c → S a c)
    {f : Outcome ε α → σ → Coro C σ ε β} {Q : Outcome ε β → σ → Prop} {t : Coro C σ ε α} {a : σ}
    (ht : t.Stretches I E R (fun r s => (f r s).Stretches I E S Q s) a) :
    (t.andThen f).Stretches I E S Q a := by
  induction t generalizing a with
  | done s r =>
    obtain ⟨⟨hR, -⟩, hrest⟩ := ht
    rw [Coro.andThen]
    revert hrest
    cases f r s with
    | done s' r' => exact fun hrest => ⟨hrest.1.imp_left (htrans a s s' hR), hrest.2⟩
    | await s' c k => exact fun hrest => ⟨hrest.1.imp_left (htrans a s s' hR), hrest.2⟩
  | await s c k ih =>
    exact ⟨ht.1.imp_left (hle a s), fun r s' hE hI => ih r s' (ht.2 r s' hE hI)⟩

variable {s : σ}

theorem stretches_bind (hle : ∀ a b, R a b → S a b) (htrans : ∀ a b c, R a b → S b c → S a c)
    (hrefl : ∀ a, S a a) {m : Prog C σ ε α} {f : α → Prog C σ ε β} {Q : Outcome ε β → σ → Prop}
    (hm : (m s).Stretches I E R (fun r s' => match r with
      | .ok a => (f a s').Stretches I E S Q s'
      | .error e => Q (.error e) s') s) : ((m >>= f) s).Stretches I E S Q s := by
  refine stretches_andThen hle htrans (stretches_mono ?_ hm)
  rintro (e | a) s' hI hrest
  · exact ⟨⟨hrefl s', hI⟩, hrest⟩
  · exact hrest

variable (hrefl : ∀ a, R a a)
include hrefl

theorem stretches_await (c : C.Call) {Q : Outcome ε (C.Res c) → σ → Prop} (hI : I s)
    (hQ : ∀ r s', E s s' → I s' → Q r s') : ((Prog.await c : Prog C σ ε _) s).Stretches I E R Q s :=
  ⟨⟨hrefl s, hI⟩, fun r s' hE hI' => ⟨⟨hrefl s', hI'⟩, hQ r s' hE hI'⟩⟩

theorem stretches_conclude (r : Outcome ε α) {Q : Outcome ε α → σ → Prop} (hI : I s) (hQ : Q r s) :
    ((Prog.conclude r : Prog C σ ε α) s).Stretches I E R Q s :=
  ⟨⟨hrefl s, hI⟩, hQ⟩

variable (htrans : ∀ a b c, R a b → R b c → R a c)
include htrans

theorem stretches_outcome {m : Prog C σ ε α} {Q : Outcome ε (Outcome ε α) → σ → Prop}
    (hm : (m s).Stretches I E R (fun r s' => Q (.ok r) s') s) :
    ((Prog.outcome m) s).Stretches I E R Q s :=
  stretches_andThen (fun _ _ h => h) htrans
    (stretches_mono (fun _ s' hI hQ => ⟨⟨hrefl s', hI⟩, hQ⟩) hm)

theorem stretches_attempt {m : Prog C σ ε α} {Q : Outcome ε (Except ε α) → σ → Prop}
    (hm : (m s).Stretches I E R (fun r s' => match r with
      | .ok a => Q (.ok (.ok a)) s'
      | .error (.error e) => Q (.ok (.error e)) s'
      | .error .cancelled => Q (.error .cancelled) s') s) :
    ((Prog.attempt m) s).Stretches I E R Q s := by
  refine stretches_andThen (fun _ _ h => h) htrans (stretches_mono ?_ hm)
  rintro ((e | _) | a) s' hI hQ <;> exact ⟨⟨hrefl s', hI⟩, hQ⟩

theorem stretches_onCancelled {m : Prog C σ ε α} {cleanup : Prog C σ ε Unit}
    {Q : Outcome ε α → σ → Prop}
    (hm : (m s).Stretches I E R (fun r s' => match r with
      | .error .cancelled => (cleanup s').Stretches I E R (fun r' s'' => match r' with
        | .ok _ => Q (.error .cancelled) s''
        | .error e => Q (.error e) s'') s'
      | r => Q r s') s) :
    ((Prog.onCancelled m cleanup) s).Stretches I E R Q s := by
  refine stretches_andThen (fun _ _ h => h) htrans (stretches_mono ?_ hm)
  rintro ((e | _) | a) s' hI hQ
  · exact ⟨⟨hrefl s', hI⟩, hQ⟩
  · refine stretches_andThen (fun _ _ h => h) htrans (stretches_mono ?_ hQ)
    rintro (e | _) s'' hI' hQ' <;> exact ⟨⟨hrefl s'', hI'⟩, hQ'⟩
  · exact ⟨⟨hrefl s', hI⟩, hQ⟩

end

/-- `m` with a function of its result. -/
def Prog.mapResult (g : α → β) (m : Prog C σ ε α) : Prog C σ ε β := fun s =>
  (m s).andThen fun r s' => .done s' (r.map g)

theorem stretches_mapResult {I : σ → Prop} {E R : σ → σ → Prop} {Q : Outcome ε β → σ → Prop}
    {g : α → β} {m : Prog C σ ε α} {s : σ}
    (hm : (m s).Stretches I E R (fun r s' => Q (r.map g) s') s) :
    ((Prog.mapResult g m) s).Stretches I E R Q s := by
  have hcoro : ∀ (t : Coro C σ ε α) a, t.Stretches I E R (fun r s' => Q (r.map g) s') a →
      (t.andThen fun r s' => .done s' (r.map g)).Stretches I E R Q a := by
    intro t
    induction t with
    | done s r => exact fun a ht => ht
    | await s c k ih => exact fun a ht => ⟨ht.1, fun r s' hE hI => ih r s' s' (ht.2 r s' hE hI)⟩
  exact hcoro (m s) s hm

/-! ## Tasks -/

/-- The state in which the coroutine is suspended or has ended. -/
def Coro.state : Coro C σ ε α → σ
  | .done s _ | .await s _ _ => s

/-- The outcome of the coroutine, if it has ended. -/
def Coro.ended : Coro C σ ε α → Option (Outcome ε α)
  | .done _ r => some r
  | .await .. => none

/-- The shared state, with the operations that were started and their coroutines; the
    number of a task is its position. -/
structure Tasks (C : Calls) (σ ε α Op : Type) where
  state : σ
  tasks : List (Op × Coro C σ ε α)

/-- An operation is started, or the call of a task is answered. -/
inductive Turn (C : Calls) (ε Op : Type) where
  | start (op : Op)
  | resume (task : ℕ) (answer : (c : C.Call) → Outcome ε (C.Res c))

namespace Tasks
variable {Op : Type}

/-- No task is in flight. -/
def Idle (s : Tasks C σ ε α Op) : Prop := ∀ t ∈ s.tasks, t.2.ended.isSome

/-- One turn; `run` gives the program of an operation from the number of its task. -/
def step (run : ℕ → Op → Prog C σ ε α) (s : Tasks C σ ε α Op) :
    Turn C ε Op → Option (Tasks C σ ε α Op)
  | .start op =>
    let t := run s.tasks.length op s.state
    some ⟨t.state, s.tasks ++ [(op, t)]⟩
  | .resume i answer => match s.tasks[i]? with
    | some (op, .await _ c k) =>
      let t := k (answer c) s.state
      some ⟨t.state, s.tasks.set i (op, t)⟩
    | _ => none

/-- The tasks after each of the turns. -/
def play (run : ℕ → Op → Prog C σ ε α) (s : Tasks C σ ε α Op) :
    List (Turn C ε Op) → Option (Tasks C σ ε α Op)
  | [] => some s
  | e :: es => (s.step run e).bind fun s' => s'.play run es

end Tasks

/-- What the tasks keep, may rely on, do, and end in; the number of a task is an
    argument, and `fresh` holds for the tasks that have not been started. -/
structure Discipline (σ ε α Op : Type) where
  inv : σ → Prop
  rely : ℕ → σ → σ → Prop
  move : ℕ → σ → σ → Prop
  fresh : ℕ → σ → Prop
  post : ℕ → Op → Outcome ε α → σ → Prop
  rely_refl : ∀ i s, rely i s s
  rely_trans : ∀ i a b c, rely i a b → rely i b c → rely i a c
  rely_move : ∀ i j a b, i ≠ j → move i a b → rely j a b
  fresh_move : ∀ i j a b, i < j → move i a b → fresh j a → fresh j b
  post_rely : ∀ i op r a b, rely i a b → post i op r a → post i op r b

/-- From the state `s` on, the task goes on in the discipline, or has ended in it. -/
def Coro.Ready {Op : Type} (D : Discipline σ ε α Op) (i : ℕ) (op : Op) : Coro C σ ε α → σ → Prop
  | .done _ r, s => D.post i op r s
  | .await _ _ k, s => ∀ r s', D.rely i s s' → D.inv s' →
    (k r s').Stretches D.inv (D.rely i) (D.move i) (D.post i op) s'

namespace Tasks
variable {Op : Type} {D : Discipline σ ε α Op} {run : ℕ → Op → Prog C σ ε α}
  {s s' t : Tasks C σ ε α Op}

/-- The tasks keep to the discipline. -/
structure Tame (D : Discipline σ ε α Op) (s : Tasks C σ ε α Op) : Prop where
  inv : D.inv s.state
  fresh : ∀ i, s.tasks.length ≤ i → D.fresh i s.state
  ready : ∀ i op (t : Coro C σ ε α), s.tasks[i]? = some (op, t) → t.Ready D i op s.state

/-- A task stays ready while the others move. -/
theorem ready_rely {i : ℕ} {op : Op} {t : Coro C σ ε α} {a b : σ} (h : t.Ready D i op a)
    (hrely : D.rely i a b) : t.Ready D i op b := by
  cases t with
  | done s r => exact D.post_rely i op r a b hrely h
  | await s c k => exact fun r s' hs' => h r s' (D.rely_trans i a b s' hrely hs')

/-- A stretch in the discipline moves the state, and leaves the task ready. -/
theorem ready_of_stretches {i : ℕ} {op : Op} {t : Coro C σ ε α} {a : σ}
    (h : t.Stretches D.inv (D.rely i) (D.move i) (D.post i op) a) :
    D.move i a t.state ∧ D.inv t.state ∧ t.Ready D i op t.state := by
  cases t with
  | done s r => exact ⟨h.1.1, h.1.2, h.2⟩
  | await s c k => exact ⟨h.1.1, h.1.2, h.2⟩

/-- Every program keeps to the discipline when it is started. -/
def Keeps (D : Discipline σ ε α Op) (run : ℕ → Op → Prog C σ ε α) : Prop :=
  ∀ i op s, D.inv s → D.fresh i s →
    (run i op s).Stretches D.inv (D.rely i) (D.move i) (D.post i op) s

/-- **A turn keeps the discipline**, and moves the state as its task does. -/
theorem tame_step (hrun : Keeps D run) (h : s.Tame D) {e : Turn C ε Op}
    (hs : s.step run e = some s') : s'.Tame D ∧ ∃ i, D.move i s.state s'.state := by
  cases e with
  | start op =>
    cases hs
    obtain ⟨hmove, hinv, hready⟩ :=
      ready_of_stretches (hrun s.tasks.length op s.state h.inv (h.fresh _ (Nat.le_refl _)))
    refine ⟨⟨hinv, fun j hj => ?_, fun j op' t ht => ?_⟩, _, hmove⟩
    · rw [List.length_append, List.length_singleton] at hj
      exact D.fresh_move _ j _ _ hj hmove (h.fresh j (Nat.le_of_succ_le hj))
    · rcases Nat.lt_trichotomy j s.tasks.length with hj | rfl | hj
      · rw [List.getElem?_append_left hj] at ht
        exact ready_rely (h.ready j op' t ht) (D.rely_move _ j _ _ (Nat.ne_of_gt hj) hmove)
      · rw [List.getElem?_concat_length] at ht
        cases ht
        exact hready
      · rw [List.getElem?_eq_none (by rw [List.length_append, List.length_singleton]; omega)] at ht
        cases ht
  | resume i answer =>
    rw [step] at hs
    split at hs
    · rename_i op s₀ c k hi
      cases hs
      have hlt : i < s.tasks.length := (List.getElem?_eq_some_iff.1 hi).1
      obtain ⟨hmove, hinv, hready⟩ := ready_of_stretches
        (h.ready i op _ hi (answer c) s.state (D.rely_refl i s.state) h.inv)
      refine ⟨⟨hinv, fun j hj => ?_, fun j op' t ht => ?_⟩, i, hmove⟩
      · rw [List.length_set] at hj
        exact D.fresh_move i j _ _ (Nat.lt_of_lt_of_le hlt hj) hmove (h.fresh j hj)
      · by_cases hij : i = j
        · subst hij
          rw [List.getElem?_set_self hlt] at ht
          cases ht
          exact hready
        · rw [List.getElem?_set_ne hij] at ht
          exact ready_rely (h.ready j op' t ht) (D.rely_move i j _ _ hij hmove)
    · cases hs

/-- **A run keeps the discipline.** -/
theorem tame_play (hrun : Keeps D run) {es : List (Turn C ε Op)} (h : s.Tame D)
    (hplay : s.play run es = some t) : t.Tame D := by
  induction es generalizing s with
  | nil =>
    cases hplay
    exact h
  | cons e es ih =>
    rw [play, Option.bind_eq_some_iff] at hplay
    obtain ⟨s', hs, hplay⟩ := hplay
    exact ih (tame_step hrun h hs).1 hplay

/-- A task is numbered when it is started, and a turn is one of its task. -/
theorem step_task {e : Turn C ε Op} (hs : s.step run e = some s') :
    ∃ i op t, s'.state = t.state ∧ s'.tasks[i]? = some (op, t) ∧
      (∀ j, j ≠ i → s'.tasks[j]? = s.tasks[j]?) ∧
      (s.tasks[i]? = none ∧ t = run i op s.state ∨
        ∃ s₀ c k r, s.tasks[i]? = some (op, .await s₀ c k) ∧ t = k r s.state) := by
  cases e with
  | start op =>
    cases hs
    refine ⟨s.tasks.length, op, _, rfl, List.getElem?_concat_length, fun j hj => ?_,
      .inl ⟨List.getElem?_eq_none (Nat.le_refl _), rfl⟩⟩
    rcases Nat.lt_or_gt_of_ne hj with hlt | hgt
    · exact List.getElem?_append_left hlt
    · rw [List.getElem?_eq_none (Nat.le_of_lt hgt), List.getElem?_eq_none]
      rw [List.length_append, List.length_singleton]
      omega
  | resume i answer =>
    rw [step] at hs
    split at hs
    · rename_i op s₀ c k hi
      cases hs
      have hlt : i < s.tasks.length := (List.getElem?_eq_some_iff.1 hi).1
      exact ⟨i, op, _, rfl, List.getElem?_set_self hlt,
        fun j hj => List.getElem?_set_ne (Ne.symm hj), .inr ⟨s₀, c, k, answer c, hi, rfl⟩⟩
    · cases hs

end Tasks

/-! ## Single turns -/

/-- Every turn that suspends the coroutine is in `M`, and the turn that ends it is in `P`; `I`
    holds where it goes on. -/
def Coro.Turns (I : σ → Prop) (M : σ → σ → Prop) (P : σ → Outcome ε α → σ → Prop) :
    Coro C σ ε α → σ → Prop
  | .done s r, a => P a r s
  | .await s _ k, a => M a s ∧ ∀ r s', I s' → (k r s').Turns I M P s'

namespace Tasks
variable {Op : Type} {I : σ → Prop} {M : σ → σ → Prop} {P : Op → σ → Outcome ε α → σ → Prop}
  {run : ℕ → Op → Prog C σ ε α} {s s' : Tasks C σ ε α Op}

/-- The suspended tasks will go on in such turns. -/
def Prepared (I : σ → Prop) (M : σ → σ → Prop) (P : Op → σ → Outcome ε α → σ → Prop)
    (s : Tasks C σ ε α Op) : Prop :=
  ∀ (i : ℕ) op s₀ c (k : Outcome ε (C.Res c) → σ → Coro C σ ε α),
    s.tasks[i]? = some (op, Coro.await s₀ c k) → ∀ r s', I s' → (k r s').Turns I M (P op) s'

/-- **What a turn of prepared tasks does.**  It suspends its task in a state that it reaches in
    `M`, or ends it in a state that it reaches in `P`. -/
theorem step_turn (hrun : ∀ i op a, I a → (run i op a).Turns I M (P op) a) (hI : I s.state)
    (h : s.Prepared I M P) {e : Turn C ε Op} (hs : s.step run e = some s') :
    s'.Prepared I M P ∧ ∃ (i : ℕ) (op : Op), (∀ j, j ≠ i → s'.tasks[j]? = s.tasks[j]?) ∧
      (∀ op' d r, s.tasks[i]? ≠ some (op', Coro.done d r)) ∧
      ((∃ s₀ c k, s'.tasks[i]? = some (op, Coro.await s₀ c k) ∧ M s.state s'.state) ∨
        ∃ r, s'.tasks[i]? = some (op, Coro.done s'.state r) ∧ P op s.state r s'.state) := by
  obtain ⟨i, op, t, hstate, htask, hothers, hfrom⟩ := step_task hs
  have hturns : t.Turns I M (P op) s.state ∧ ∀ op' d r, s.tasks[i]? ≠ some (op', Coro.done d r) := by
    rcases hfrom with ⟨hnone, rfl⟩ | ⟨s₀, c, k, r, hi, rfl⟩
    · refine ⟨hrun i op s.state hI, fun op' d r hd => ?_⟩
      rw [hnone] at hd
      cases hd
    · refine ⟨h i op s₀ c k hi r s.state hI, fun op' d r' hd => ?_⟩
      rw [hi] at hd
      cases hd
  obtain ⟨hturns, hnew⟩ := hturns
  refine ⟨fun j op' s₀ c k hj => ?_, i, op, hothers, hnew, ?_⟩
  · by_cases hji : j = i
    · subst hji
      rw [htask] at hj
      cases hj
      exact hturns.2
    · rw [hothers j hji] at hj
      exact h j op' s₀ c k hj
  · cases t with
    | done d r =>
      rw [hstate]
      exact .inr ⟨r, htask, hturns⟩
    | await d c k =>
      rw [hstate]
      exact .inl ⟨d, c, k, htask, hturns.1⟩

/-- What holds along a run holds at its start and along the rest. -/
theorem forall_play_cons {P : Tasks C σ ε α Op → Prop} {e : Turn C ε Op} {es : List (Turn C ε Op)}
    (hs : s.step run e = some s') :
    (∀ pre u, pre <+: e :: es → s.play run pre = some u → P u) ↔
      P s ∧ ∀ pre u, pre <+: es → s'.play run pre = some u → P u := by
  constructor
  · intro h
    refine ⟨h [] s List.nil_prefix rfl, fun pre u hpre hu => h (e :: pre) u ?_ ?_⟩
    · exact List.cons_prefix_cons.2 ⟨rfl, hpre⟩
    · rw [play, hs, Option.bind_some, hu]
  · rintro ⟨hstart, hrest⟩ pre u hpre hu
    cases pre with
    | nil =>
      cases hu
      exact hstart
    | cons e' pre =>
      obtain ⟨rfl, htail⟩ := List.cons_prefix_cons.1 hpre
      rw [play, hs, Option.bind_some] at hu
      exact hrest pre u htail hu

end Tasks

end Coroutine
