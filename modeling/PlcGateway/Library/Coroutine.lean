/-
  Coroutines over a shared state, and their contracts.

  A coroutine runs until it awaits a call, and goes on when the call has been
  answered: with a result, with an exception, or with a cancellation of the
  coroutine itself.  Between the two the environment may change the state.

  * `Coro` is the tree of what a coroutine does from now on, `Prog` a coroutine
    that has not started; `Coro.andThen` is the one sequencing operation, and
    the exception handlers are instances of it;
  * `Coro.wp K Q t h` says that the coroutine `t`, started after the answers `h`,
    keeps the contract `K` with its environment and ends in `Q`;
  * `Coro.exec` answers every call by a function, `Coro.answers` are these answers,
    and `wp_exec` transfers a contract to the execution.
-/
import Mathlib.Logic.Relation

namespace Coroutine

/-- The calls a coroutine may await, each with the type of its result. -/
structure Calls where
  Call : Type
  Res : Call → Type

/-- What is raised: an exception, or a cancellation. -/
inductive Raised (ε : Type) where
  | error (e : ε)
  | cancelled
  deriving DecidableEq, Repr

/-- The answer to a call, or the outcome of a coroutine. -/
abbrev Outcome (ε α : Type) := Except (Raised ε) α

/-- A coroutine: finished in state `s`, or suspended at a call in state `s`. -/
inductive Coro (C : Calls) (σ ε α : Type) where
  | done (s : σ) (r : Outcome ε α)
  | await (s : σ) (c : C.Call) (k : Outcome ε (C.Res c) → σ → Coro C σ ε α)

/-- A coroutine that has not started. -/
def Prog (C : Calls) (σ ε α : Type) := σ → Coro C σ ε α

/-- The answers given so far, oldest first. -/
abbrev History (C : Calls) (ε : Type) := List ((c : C.Call) × Outcome ε (C.Res c))

variable {C : Calls} {σ ε α β τ : Type}

/-! ## Sequencing -/

/-- Run `t`, then `f` on its outcome. -/
def Coro.andThen (f : Outcome ε α → σ → Coro C σ ε β) : Coro C σ ε α → Coro C σ ε β
  | .done s r => f r s
  | .await s c k => .await s c fun r s' => (k r s').andThen f

namespace Prog

def pure (a : α) : Prog C σ ε α := fun s => .done s (.ok a)

def bind (m : Prog C σ ε α) (f : α → Prog C σ ε β) : Prog C σ ε β := fun s =>
  (m s).andThen fun
    | .ok a, s' => f a s'
    | .error e, s' => .done s' (.error e)

instance : Monad (Prog C σ ε) where
  pure := Prog.pure
  bind := Prog.bind

/-- The current state. -/
def get : Prog C σ ε σ := fun s => .done s (.ok s)

def modify (f : σ → σ) : Prog C σ ε Unit := fun s => .done (f s) (.ok ())

def raise (e : Raised ε) : Prog C σ ε α := fun s => .done s (.error e)

/-- Suspend at the call `c`. -/
def await (c : C.Call) : Prog C σ ε (C.Res c) := fun s => .await s c fun r s' => .done s' r

/-- `m` with its outcome as a value, whatever it is. -/
def outcome (m : Prog C σ ε α) : Prog C σ ε (Outcome ε α) := fun s =>
  (m s).andThen fun r s' => .done s' (.ok r)

/-- `m` with its exception as a value; a cancellation passes. -/
def attempt (m : Prog C σ ε α) : Prog C σ ε (Except ε α) := fun s =>
  (m s).andThen fun
    | .ok a, s' => .done s' (.ok (.ok a))
    | .error (.error e), s' => .done s' (.ok (.error e))
    | .error .cancelled, s' => .done s' (.error .cancelled)

/-- End with the outcome `r`. -/
def conclude (r : Outcome ε α) : Prog C σ ε α := fun s => .done s r

/-- Run `m`; if it is cancelled, run `cleanup` and go on with the cancellation. -/
def onCancelled (m : Prog C σ ε α) (cleanup : Prog C σ ε Unit) : Prog C σ ε α := fun s =>
  (m s).andThen fun
    | .error .cancelled, s' => (cleanup s').andThen fun
      | .ok _, s'' => .done s'' (.error .cancelled)
      | .error e, s'' => .done s'' (.error e)
    | r, s' => .done s' r

end Prog

/-! ## Contracts -/

/-- The contract of a coroutine with its environment: what the coroutine
    ensures when it issues a call after the answers `h`, how the environment
    may change the state while the coroutine is suspended, and which answers
    it may give. -/
structure Contract (C : Calls) (σ ε : Type) where
  issue : C.Call → σ → History C ε → Prop
  rely : σ → σ → Prop
  answer : (c : C.Call) → σ → Outcome ε (C.Res c) → Prop

/-- The coroutine keeps the contract `K`, and ends in `Q`. -/
def Coro.wp (K : Contract C σ ε) (Q : Outcome ε α → σ → History C ε → Prop) :
    Coro C σ ε α → History C ε → Prop
  | .done s r, h => Q r s h
  | .await s c k, h => K.issue c s h ∧
      ∀ s' r, K.rely s s' → K.answer c s' r → (k r s').wp K Q (h ++ [⟨c, r⟩])

section
variable {K : Contract C σ ε}

theorem wp_andThen (f : Outcome ε α → σ → Coro C σ ε β)
    (Q : Outcome ε β → σ → History C ε → Prop) (t : Coro C σ ε α) (h : History C ε) :
    (t.andThen f).wp K Q h ↔ t.wp K (fun r s h' => (f r s).wp K Q h') h := by
  induction t generalizing h with
  | done s r => rfl
  | await s c k ih => simp only [Coro.andThen, Coro.wp, ih]

/-- A contract may be ended in anything that follows. -/
theorem wp_mono {Q Q' : Outcome ε α → σ → History C ε → Prop}
    (hQ : ∀ r s h, Q r s h → Q' r s h) {t : Coro C σ ε α} {h : History C ε} (ht : t.wp K Q h) :
    t.wp K Q' h := by
  induction t generalizing h with
  | done s r => exact hQ _ _ _ ht
  | await s c k ih => exact ⟨ht.1, fun s' r hr ha => ih _ _ (ht.2 s' r hr ha)⟩

/-- The answers so far are kept. -/
theorem wp_history {Q : Outcome ε α → σ → History C ε → Prop} {t : Coro C σ ε α} {h : History C ε}
    (ht : t.wp K Q h) : t.wp K (fun r s h' => Q r s h' ∧ h <+: h') h := by
  induction t generalizing h with
  | done s r => exact ⟨ht, List.prefix_rfl⟩
  | await s c k ih =>
    refine ⟨ht.1, fun s' r hr ha => wp_mono ?_ (ih r s' (ht.2 s' r hr ha))⟩
    rintro r' s'' h' ⟨hq, hp⟩
    exact ⟨hq, (List.prefix_append _ _).trans hp⟩

variable (Q : Outcome ε α → σ → History C ε → Prop) (s : σ) (h : History C ε)

@[simp] theorem wp_pure (a : α) :
    ((Pure.pure a : Prog C σ ε α) s).wp K Q h ↔ Q (.ok a) s h := Iff.rfl

theorem wp_bind (m : Prog C σ ε β) (f : β → Prog C σ ε α) :
    ((m >>= f) s).wp K Q h ↔ (m s).wp K (fun r s' h' => match r with
      | .ok b => (f b s').wp K Q h'
      | .error e => Q (.error e) s' h') h := by
  refine (wp_andThen _ Q (m s) h).trans ⟨wp_mono ?_, wp_mono ?_⟩ <;>
    (rintro (e | b) s' h' hq <;> exact hq)

@[simp] theorem wp_get (Q : Outcome ε σ → σ → History C ε → Prop) :
    ((Prog.get : Prog C σ ε σ) s).wp K Q h ↔ Q (.ok s) s h := Iff.rfl

@[simp] theorem wp_modify (Q : Outcome ε Unit → σ → History C ε → Prop) (f : σ → σ) :
    ((Prog.modify f : Prog C σ ε Unit) s).wp K Q h ↔ Q (.ok ()) (f s) h := Iff.rfl

@[simp] theorem wp_raise (e : Raised ε) :
    ((Prog.raise e : Prog C σ ε α) s).wp K Q h ↔ Q (.error e) s h := Iff.rfl

@[simp] theorem wp_conclude (r : Outcome ε α) :
    ((Prog.conclude r : Prog C σ ε α) s).wp K Q h ↔ Q r s h := Iff.rfl

theorem wp_await (c : C.Call) (Q : Outcome ε (C.Res c) → σ → History C ε → Prop) :
    ((Prog.await c : Prog C σ ε _) s).wp K Q h ↔ K.issue c s h ∧
      ∀ s' r, K.rely s s' → K.answer c s' r → Q r s' (h ++ [⟨c, r⟩]) := Iff.rfl

theorem wp_outcome (m : Prog C σ ε β) (Q : Outcome ε (Outcome ε β) → σ → History C ε → Prop) :
    ((Prog.outcome m) s).wp K Q h ↔ (m s).wp K (fun r s' h' => Q (.ok r) s' h') h :=
  wp_andThen _ Q (m s) h

theorem wp_attempt (m : Prog C σ ε β) (Q : Outcome ε (Except ε β) → σ → History C ε → Prop) :
    ((Prog.attempt m) s).wp K Q h ↔ (m s).wp K (fun r s' h' => match r with
      | .ok b => Q (.ok (.ok b)) s' h'
      | .error (.error e) => Q (.ok (.error e)) s' h'
      | .error .cancelled => Q (.error .cancelled) s' h') h := by
  refine (wp_andThen _ Q (m s) h).trans ⟨wp_mono ?_, wp_mono ?_⟩ <;>
    (rintro ((e | _) | b) s' h' hq <;> exact hq)

theorem wp_onCancelled (m : Prog C σ ε α) (cleanup : Prog C σ ε Unit) :
    ((Prog.onCancelled m cleanup) s).wp K Q h ↔ (m s).wp K (fun r s' h' => match r with
      | .error .cancelled => (cleanup s').wp K (fun r' s'' h'' => match r' with
        | .ok _ => Q (.error .cancelled) s'' h''
        | .error e => Q (.error e) s'' h'') h'
      | r => Q r s' h') h := by
  refine (wp_andThen _ Q (m s) h).trans ⟨wp_mono ?_, wp_mono ?_⟩
  all_goals
    rintro ((e | _) | b) s' h' hq
    · exact hq
    · first
        | refine (wp_andThen _ Q (cleanup s') h').2 (wp_mono ?_ hq)
          rintro (e | _) _ _ hq' <;> exact hq'
        | refine wp_mono ?_ ((wp_andThen _ Q (cleanup s') h').1 hq)
          rintro (e | _) _ _ hq' <;> exact hq'
    · exact hq

end

/-! ## Answering every call by a function -/

/-- Run a coroutine to its end, each call answered by `env` from the state of
    the coroutine and a state `τ` of its own. -/
def Coro.exec (env : (c : C.Call) → σ → τ → Outcome ε (C.Res c) × σ × τ) :
    Coro C σ ε α → τ → Outcome ε α × σ × τ
  | .done s r, t => (r, s, t)
  | .await s c k, t => (k (env c s t).1 (env c s t).2.1).exec env (env c s t).2.2

/-- The answers that `env` gives on the way. -/
def Coro.answers (env : (c : C.Call) → σ → τ → Outcome ε (C.Res c) × σ × τ) :
    Coro C σ ε α → τ → History C ε
  | .done _ _, _ => []
  | .await s c k, t =>
    ⟨c, (env c s t).1⟩ :: (k (env c s t).1 (env c s t).2.1).answers env (env c s t).2.2

/-- An answer that is no cancellation. -/
def ofExcept : Except ε α → Outcome ε α
  | .ok a => .ok a
  | .error e => .error (.error e)

theorem exec_andThen (env : (c : C.Call) → σ → τ → Outcome ε (C.Res c) × σ × τ)
    (f : Outcome ε α → σ → Coro C σ ε β) (t : Coro C σ ε α) (x : τ) :
    (t.andThen f).exec env x = (f (t.exec env x).1 (t.exec env x).2.1).exec env (t.exec env x).2.2 := by
  induction t generalizing x with
  | done s r => rfl
  | await s c k ih => simp only [Coro.andThen, Coro.exec, ih]

section
variable (env : (c : C.Call) → σ → τ → Outcome ε (C.Res c) × σ × τ) (s : σ) (x : τ)

@[simp] theorem exec_pure (a : α) :
    ((Pure.pure a : Prog C σ ε α) s).exec env x = (.ok a, s, x) := rfl

@[simp] theorem exec_modify (f : σ → σ) :
    ((Prog.modify f : Prog C σ ε Unit) s).exec env x = (.ok (), f s, x) := rfl

@[simp] theorem exec_conclude (r : Outcome ε α) :
    ((Prog.conclude r : Prog C σ ε α) s).exec env x = (r, s, x) := rfl

@[simp] theorem exec_await (c : C.Call) :
    ((Prog.await c : Prog C σ ε _) s).exec env x = env c s x := rfl

end

theorem exec_bind (env : (c : C.Call) → σ → τ → Outcome ε (C.Res c) × σ × τ) (m : Prog C σ ε α)
    (f : α → Prog C σ ε β) (s : σ) (x : τ) :
    ((m >>= f) s).exec env x = match (m s).exec env x with
      | (.ok a, s', x') => (f a s').exec env x'
      | (.error e, s', x') => (.error e, s', x') := by
  refine (exec_andThen env _ (m s) x).trans ?_
  rcases (m s).exec env x with ⟨e | a, s', x'⟩ <;> rfl

theorem exec_bind_of_ok {env : (c : C.Call) → σ → τ → Outcome ε (C.Res c) × σ × τ}
    {m : Prog C σ ε α} {f : α → Prog C σ ε β} {a : α} {s s' : σ} {x x' : τ}
    (h : (m s).exec env x = (.ok a, s', x')) : ((m >>= f) s).exec env x = (f a s').exec env x' := by
  rw [exec_bind, h]

theorem exec_attempt (env : (c : C.Call) → σ → τ → Outcome ε (C.Res c) × σ × τ) (m : Prog C σ ε α)
    (s : σ) (x : τ) :
    ((Prog.attempt m) s).exec env x = match (m s).exec env x with
      | (.ok a, s', x') => (.ok (.ok a), s', x')
      | (.error (.error e), s', x') => (.ok (.error e), s', x')
      | (.error .cancelled, s', x') => (.error .cancelled, s', x') := by
  refine (exec_andThen env _ (m s) x).trans ?_
  rcases (m s).exec env x with ⟨(e | _) | a, s', x'⟩ <;> rfl

theorem exec_onCancelled (env : (c : C.Call) → σ → τ → Outcome ε (C.Res c) × σ × τ) (m : Prog C σ ε α)
    (cleanup : Prog C σ ε Unit) (s : σ) (x : τ) :
    ((Prog.onCancelled m cleanup) s).exec env x = match (m s).exec env x with
      | (.error .cancelled, s', x') => match (cleanup s').exec env x' with
        | (.ok _, s'', x'') => (.error .cancelled, s'', x'')
        | (.error e, s'', x'') => (.error e, s'', x'')
      | r => r := by
  refine (exec_andThen env _ (m s) x).trans ?_
  rcases (m s).exec env x with ⟨(e | _) | a, s', x'⟩
  · rfl
  · refine (exec_andThen env _ (cleanup s') x').trans ?_
    simp only
    rcases (cleanup s').exec env x' with ⟨e | _, s'', x''⟩ <;> rfl
  · rfl

/-- A function that gives answers of the contract to the calls that may be issued runs
    the coroutine to an end the contract allows, and keeps what these answers keep. -/
theorem wp_exec_issued {K : Contract C σ ε} {Q : Outcome ε α → σ → History C ε → Prop}
    {env : (c : C.Call) → σ → τ → Outcome ε (C.Res c) × σ × τ} {J : τ → Prop}
    (henv : ∀ c s h x, K.issue c s h → J x →
      K.rely s (env c s x).2.1 ∧ K.answer c (env c s x).2.1 (env c s x).1 ∧ J (env c s x).2.2)
    {t : Coro C σ ε α} {h : History C ε} (ht : t.wp K Q h) {x : τ} (hx : J x) :
    Q (t.exec env x).1 (t.exec env x).2.1 (h ++ t.answers env x) ∧ J (t.exec env x).2.2 := by
  induction t generalizing h x with
  | done s r =>
    rw [Coro.answers, List.append_nil]
    exact ⟨ht, hx⟩
  | await s c k ih =>
    obtain ⟨hr, ha, hx'⟩ := henv c s h x ht.1 hx
    have hq := ih _ _ (ht.2 _ _ hr ha) hx'
    rw [List.append_assoc] at hq
    exact hq

/-- A function that only gives the answers of the contract runs the coroutine
    to an end the contract allows. -/
theorem wp_exec {K : Contract C σ ε} {Q : Outcome ε α → σ → History C ε → Prop}
    {env : (c : C.Call) → σ → τ → Outcome ε (C.Res c) × σ × τ}
    (henv : ∀ c s x, K.rely s (env c s x).2.1 ∧ K.answer c (env c s x).2.1 (env c s x).1)
    {t : Coro C σ ε α} {h : History C ε} (ht : t.wp K Q h) (x : τ) :
    Q (t.exec env x).1 (t.exec env x).2.1 (h ++ t.answers env x) :=
  (wp_exec_issued (J := fun _ => True)
    (fun c s _ x _ _ => ⟨(henv c s x).1, (henv c s x).2, trivial⟩) ht trivial).1

/-- What every call keeps of the state of the surroundings is kept. -/
theorem exec_keeps {J : τ → Prop} {env : (c : C.Call) → σ → τ → Outcome ε (C.Res c) × σ × τ}
    (henv : ∀ c s x, J x → J (env c s x).2.2) (t : Coro C σ ε α) {x : τ} (hx : J x) :
    J (t.exec env x).2.2 := by
  induction t generalizing x with
  | done s r => exact hx
  | await s c k ih => exact ih _ _ (henv c s x hx)

namespace Prog

/-- Executing `m` keeps `J` of the surroundings. -/
def Keeps (env : (c : C.Call) → σ → τ → Outcome ε (C.Res c) × σ × τ) (J : τ → Prop)
    (m : Prog C σ ε α) : Prop :=
  ∀ s x, J x → J ((m s).exec env x).2.2

variable {env : (c : C.Call) → σ → τ → Outcome ε (C.Res c) × σ × τ} {J : τ → Prop}

theorem keeps_pure (a : α) : Keeps env J (Pure.pure a : Prog C σ ε α) := fun _ _ hx => hx

theorem keeps_modify (f : σ → σ) : Keeps env J (Prog.modify f) := fun _ _ hx => hx

theorem keeps_await {c : C.Call} (hc : ∀ s x, J x → J (env c s x).2.2) : Keeps env J (Prog.await c) :=
  hc

/-- `m` leads the surroundings from `J` to `K`, and what follows from there to `L`. -/
theorem leads_bind {K L : τ → Prop} {m : Prog C σ ε α} {f : α → Prog C σ ε β}
    (hm : ∀ s x, J x → K ((m s).exec env x).2.2) (hle : ∀ x, K x → L x)
    (hf : ∀ a s x, K x → L ((f a s).exec env x).2.2) :
    ∀ s x, J x → L (((m >>= f) s).exec env x).2.2 := by
  intro s x hx
  have hx' := hm s x hx
  rw [exec_bind]
  revert hx'
  rcases (m s).exec env x with ⟨e | a, s', x'⟩
  · exact hle x'
  · exact hf a s' x'

theorem keeps_bind {m : Prog C σ ε α} {f : α → Prog C σ ε β} (hm : Keeps env J m)
    (hf : ∀ a, Keeps env J (f a)) : Keeps env J (m >>= f) :=
  leads_bind hm (fun _ => id) hf

theorem keeps_attempt {m : Prog C σ ε α} (hm : Keeps env J m) : Keeps env J (Prog.attempt m) := by
  intro s x hx
  have hx' := hm s x hx
  rw [exec_attempt]
  revert hx'
  rcases (m s).exec env x with ⟨(e | _) | a, s', x'⟩ <;> exact id

end Prog

end Coroutine
