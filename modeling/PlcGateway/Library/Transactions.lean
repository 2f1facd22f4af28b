/-
  Transactions on a store with one write lock.

  A connection that has the lock works on a table of its own, which becomes the
  committed one when it commits; the others see the committed table.  Each statement
  waits for its turn, and may then raise without an effect.

  * `Store.log` records the commits, and who made them; `Linked` says that they
    lead from one table to another;
  * `Store.Knows` is what a connection can tell of the store whatever the others do:
    the commits it made, and the tables it works between while it has the lock;
  * `Transacts` are the coroutines that take the lock before they write and commit
    tables in `I` only, with one rule for each statement; `transacts_withConnection`
    is the rule of a whole transaction;
  * `transactionDiscipline` lets such coroutines take turns.
-/
import PlcGateway.Library.Interleaving

namespace Transactions

open Coroutine

/-- A connection replaced one committed table by another. -/
structure Commit (τ : Type) where
  connection : ℕ
  before : τ
  after : τ

/-- The committed table, the connection that has the write lock with the table it works
    on, and the commits so far. -/
structure Store (τ : Type) where
  committed : τ
  writer : Option (ℕ × τ)
  log : List (Commit τ)

/-- The only call: a statement waits for its turn. -/
abbrev StatementCalls : Calls := ⟨Unit, fun _ => Unit⟩

abbrev TransactionProg (τ ε α : Type) := Prog StatementCalls (Store τ) ε α

variable {τ ε α β : Type}

namespace Store

/-- The table that a connection with the lock works on. -/
def held (c : ℕ) (s : Store τ) : Option τ :=
  s.writer.bind fun w => if w.1 = c then some w.2 else none

/-- The table that a connection sees. -/
def seen (c : ℕ) (s : Store τ) : τ := (s.held c).getD s.committed

/-- The commits of a connection. -/
def commits (c : ℕ) (s : Store τ) : List (Commit τ) := s.log.filter fun e => e.connection = c

/-- `BEGIN IMMEDIATE` -/
def beginImmediate (locked : ε) (c : ℕ) (s : Store τ) : Except ε Unit × Store τ :=
  if s.writer.isSome then (.error locked, s)
  else (.ok (), { s with writer := some (c, s.committed) })

/-- A statement that writes takes the lock, if no other connection has it. -/
def write (locked : ε) (c : ℕ) (f : τ → Except ε (α × τ)) (s : Store τ) : Except ε α × Store τ :=
  if s.writer.isSome ∧ s.held c = none then (.error locked, s)
  else match f (s.seen c) with
    | .ok (a, t) => (.ok a, { s with writer := some (c, t) })
    | .error e => (.error e, { s with writer := some (c, s.seen c) })

def commit (c : ℕ) (s : Store τ) : Store τ :=
  match s.held c with
  | some t => ⟨t, none, s.log ++ [⟨c, s.committed, t⟩]⟩
  | none => s

def rollback (c : ℕ) (s : Store τ) : Store τ :=
  if (s.held c).isSome then { s with writer := none } else s

end Store

/-! ## Programs -/

/-- A statement has its turn, and then its effect if it does not raise. -/
def statement (f : Store τ → Except ε α × Store τ) : TransactionProg τ ε α :=
  Prog.await (C := StatementCalls) () >>= fun _ s => .done (f s).2 (ofExcept (f s).1)

/-- A `SELECT`. -/
def view (c : ℕ) (f : τ → α) : TransactionProg τ ε α := statement fun s => (.ok (f (s.seen c)), s)

/-- `connection.commit()`: nothing is done outside of a transaction. -/
def commit (c : ℕ) : TransactionProg τ ε Unit := do
  if ((← .get).held c).isSome then statement fun s => (.ok (), s.commit c)

/-- `connection.rollback()` -/
def rollback (c : ℕ) : TransactionProg τ ε Unit := do
  if ((← .get).held c).isSome then statement fun s => (.ok (), s.rollback c)

/-- The connection is closed some time after its last use, and then gives up the lock if
    it still has it. -/
def close (c : ℕ) : TransactionProg τ ε Unit := do
  if ((← .get).held c).isSome then
    let _ ← .outcome (.await (C := StatementCalls) ())
    .modify (Store.rollback c)

/-- What `body` has written is committed when it returns, and rolled back when it or the
    commit raises. -/
def exit (c : ℕ) (body : TransactionProg τ ε α) : TransactionProg τ ε α := do
  match ← .outcome body with
  | .ok a => do
    match ← .outcome (commit c) with
    | .ok _ => return a
    | .error e => do rollback c; .raise e
  | .error e => do rollback c; .raise e

/-- `with connection:`, the connection being closed after it. -/
def withConnection (c : ℕ) (body : TransactionProg τ ε α) : TransactionProg τ ε α := do
  let r ← .outcome (exit c body)
  close c
  .conclude r

/-! ## What a connection knows -/

/-- The commits lead from the table `a` to the table `b`. -/
def Linked (a : τ) : List (Commit τ) → τ → Prop
  | [], b => b = a
  | e :: es, b => e.before = a ∧ Linked e.after es b

theorem linked_concat {a b t : τ} {c : ℕ} {es : List (Commit τ)} (h : Linked a es b) :
    Linked a (es ++ [⟨c, b, t⟩]) t := by
  induction es generalizing a with
  | nil =>
    cases h
    exact ⟨rfl, rfl⟩
  | cons e es ih => exact ⟨h.1, ih h.2⟩

/-- What holds after the commits, but not before, one of them has brought about. -/
theorem linked_change {P : τ → Prop} {a b : τ} {es : List (Commit τ)} (h : Linked a es b)
    (ha : ¬ P a) (hb : P b) : ∃ e ∈ es, ¬ P e.before ∧ P e.after := by
  induction es generalizing a with
  | nil =>
    cases h
    exact absurd hb ha
  | cons e es ih =>
    obtain ⟨hbefore, hrest⟩ := h
    by_cases hafter : P e.after
    · exact ⟨e, List.mem_cons_self, hbefore ▸ ha, hafter⟩
    · obtain ⟨e', he', hchange⟩ := ih hrest hafter
      exact ⟨e', List.mem_cons_of_mem e he', hchange⟩

namespace Store

/-- What the others leave as it is: the lock of `c`, its commits, and the committed table
    while it has the lock. -/
structure Rely (c : ℕ) (s s' : Store τ) : Prop where
  held : s'.held c = s.held c
  commits : s'.commits c = s.commits c
  committed : (s.held c).isSome → s'.committed = s.committed

/-- What a connection may do. -/
def Move (c : ℕ) (s s' : Store τ) : Prop := ∀ d, d ≠ c → Rely d s s'

/-- The connection has the lock for the two tables, the committed one and its own, or does
    not have it, and made the commits `made`. -/
structure Knows (c : ℕ) (lock : Option (τ × τ)) (made : List (Commit τ)) (s : Store τ) : Prop where
  held : s.held c = lock.map Prod.snd
  committed : ∀ b t, lock = some (b, t) → s.committed = b
  commits : s.commits c = made

/-- The committed table is in `I`, and the commits have led to it. -/
structure Inv (I : τ → Prop) (start : τ) (s : Store τ) : Prop where
  bounded : I s.committed
  linked : Linked start s.log s.committed

variable {c d : ℕ} {s s' : Store τ} {lock : Option (τ × τ)} {made : List (Commit τ)} {b t : τ}

theorem rely_refl (c : ℕ) (s : Store τ) : s.Rely c s := ⟨rfl, rfl, fun _ => rfl⟩

theorem rely_trans (c : ℕ) (s s' s'' : Store τ) (h : s.Rely c s') (h' : s'.Rely c s'') :
    s.Rely c s'' := by
  refine ⟨h'.held.trans h.held, h'.commits.trans h.commits, fun hheld => ?_⟩
  rw [h'.committed (by rwa [h.held]), h.committed hheld]

theorem move_refl (c : ℕ) (s : Store τ) : s.Move c s := fun d _ => rely_refl d s

theorem move_trans (c : ℕ) (s s' s'' : Store τ) (h : s.Move c s') (h' : s'.Move c s'') :
    s.Move c s'' := fun d hd => rely_trans d s s' s'' (h d hd) (h' d hd)

theorem knows_rely (h : s.Knows c lock made) (hrely : s.Rely c s') : s'.Knows c lock made := by
  refine ⟨hrely.held.trans h.held, fun b t hlock => ?_, hrely.commits.trans h.commits⟩
  rw [hrely.committed (by rw [h.held, hlock]; rfl), h.committed b t hlock]

theorem held_eq_some_iff : s.held c = some t ↔ s.writer = some (c, t) := by
  rw [held, Option.bind_eq_some_iff]
  constructor
  · rintro ⟨⟨d, t'⟩, hwriter, hw⟩
    split_ifs at hw with hd
    cases hw
    rw [hwriter, ← hd]
  · intro hwriter
    exact ⟨(c, t), hwriter, if_pos rfl⟩

/-- A connection that has the lock keeps the others from having it. -/
theorem held_eq_none_of_writer (hwriter : s.writer = some (c, t)) (hd : d ≠ c) :
    s.held d = none := by
  rw [held, hwriter, Option.bind_some, if_neg (Ne.symm hd)]

theorem knows_some_iff :
    s.Knows c (some (b, t)) made ↔ s.writer = some (c, t) ∧ s.committed = b ∧ s.commits c = made := by
  constructor
  · rintro ⟨hheld, hcommitted, hcommits⟩
    exact ⟨held_eq_some_iff.1 hheld, hcommitted b t rfl, hcommits⟩
  · rintro ⟨hwriter, hcommitted, hcommits⟩
    exact ⟨held_eq_some_iff.2 hwriter, fun _ _ hlock => by cases hlock; exact hcommitted, hcommits⟩

theorem knows_none_iff : s.Knows c none made ↔ s.held c = none ∧ s.commits c = made :=
  ⟨fun h => ⟨h.held, h.commits⟩, fun h => ⟨h.1, fun _ _ => nofun, h.2⟩⟩

/-- A connection that takes the lock, or changes its own table. -/
theorem move_writer (hfree : s.writer.isNone ∨ (s.held c).isSome) (t : τ) :
    s.Move c { s with writer := some (c, t) } := by
  intro d hd
  have hnone : s.held d = none := by
    rcases hfree with hfree | hheld
    · rw [held, Option.isNone_iff_eq_none.1 hfree, Option.bind_none]
    · obtain ⟨t', ht'⟩ := Option.isSome_iff_exists.1 hheld
      exact held_eq_none_of_writer (held_eq_some_iff.1 ht') hd
  refine ⟨?_, rfl, fun _ => rfl⟩
  rw [hnone]
  exact held_eq_none_of_writer rfl hd

theorem move_rollback (c : ℕ) (s : Store τ) : s.Move c (s.rollback c) := by
  intro d hd
  rw [rollback]
  split_ifs with hheld
  · obtain ⟨t, ht⟩ := Option.isSome_iff_exists.1 hheld
    refine ⟨?_, rfl, fun _ => rfl⟩
    rw [held_eq_none_of_writer (held_eq_some_iff.1 ht) hd]
    rfl
  · exact rely_refl d s

theorem inv_rollback {I : τ → Prop} {start : τ} (h : s.Inv I start) :
    (s.rollback c).Inv I start := by
  rw [rollback]
  split_ifs
  · exact ⟨h.bounded, h.linked⟩
  · exact h

theorem knows_rollback (h : s.Knows c lock made) : (s.rollback c).Knows c none made := by
  rw [rollback]
  split_ifs with hheld
  · exact knows_none_iff.2 ⟨rfl, h.commits⟩
  · exact knows_none_iff.2 ⟨Option.not_isSome_iff_eq_none.1 hheld, h.commits⟩

theorem move_commit (c : ℕ) (s : Store τ) : s.Move c (s.commit c) := by
  intro d hd
  rw [commit]
  cases hheld : s.held c with
  | none => exact rely_refl d s
  | some t =>
    have hnone := held_eq_none_of_writer (held_eq_some_iff.1 hheld) hd
    refine ⟨by rw [hnone]; rfl, ?_, fun h => by rw [hnone] at h; cases h⟩
    rw [commits, List.filter_append, List.filter_singleton, decide_eq_false (Ne.symm hd)]
    exact List.append_nil _

end Store

/-! ## Rules -/

/-- Every stretch of the program is one that the connection `c` may do and keeps the
    invariant, and it ends in `Q`. -/
abbrev Transacts (I : τ → Prop) (start : τ) (c : ℕ) (m : TransactionProg τ ε α)
    (Q : Outcome ε α → Store τ → Prop) (s : Store τ) : Prop :=
  (m s).Stretches (Store.Inv I start) (Store.Rely c) (Store.Move c) Q s

section
variable {I : τ → Prop} {start : τ} {c : ℕ} {s : Store τ} {lock : Option (τ × τ)}
  {made : List (Commit τ)} {b t : τ}

theorem transacts_bind {m : TransactionProg τ ε α} {f : α → TransactionProg τ ε β}
    {Q : Outcome ε β → Store τ → Prop}
    (hm : Transacts I start c m (fun r s' => match r with
      | .ok a => s'.Inv I start → Transacts I start c (f a) Q s'
      | .error e => Q (.error e) s') s) : Transacts I start c (m >>= f) Q s := by
  refine stretches_bind (fun _ _ h => h) (Store.move_trans c) (Store.move_refl c)
    (stretches_mono ?_ hm)
  rintro (e | a) s' hI h
  · exact h
  · exact h hI

theorem transacts_conclude (r : Outcome ε α) {Q : Outcome ε α → Store τ → Prop}
    (hI : s.Inv I start) (hQ : Q r s) : Transacts I start c (.conclude r) Q s :=
  stretches_conclude (Store.move_refl c) r hI hQ

theorem transacts_outcome {m : TransactionProg τ ε α} {Q : Outcome ε (Outcome ε α) → Store τ → Prop}
    (hm : Transacts I start c m (fun r s' => Q (.ok r) s') s) :
    Transacts I start c (.outcome m) Q s :=
  stretches_outcome (Store.move_refl c) (Store.move_trans c) hm

/-- A statement has its effect on a store of which as much is known as before, or raises. -/
theorem transacts_statement {f : Store τ → Except ε α × Store τ}
    {Q : Outcome ε α → Store τ → Prop} (hI : s.Inv I start) (hs : s.Knows c lock made)
    (hraised : ∀ e s', s'.Knows c lock made → Q (.error e) s')
    (hdone : ∀ s' : Store τ, s'.Inv I start → s'.Knows c lock made →
      s'.Move c (f s').2 ∧ (f s').2.Inv I start ∧ Q (ofExcept (f s').1) (f s').2) :
    Transacts I start c (statement f) Q s := by
  refine transacts_bind (stretches_await (C := StatementCalls) (Store.move_refl c) () hI ?_)
  rintro (e | _) s' hrely hI'
  · exact hraised e s' (Store.knows_rely hs hrely)
  · intro _
    obtain ⟨hmove, hinv, hQ⟩ := hdone s' hI' (Store.knows_rely hs hrely)
    exact ⟨⟨hmove, hinv⟩, hQ⟩

/-- A connection that has the lock reads its own table. -/
theorem transacts_view {f : τ → α} {Q : Outcome ε α → Store τ → Prop} (hI : s.Inv I start)
    (hs : s.Knows c (some (b, t)) made)
    (hraised : ∀ e s', s'.Knows c (some (b, t)) made → Q (.error e) s')
    (hdone : ∀ s', s'.Knows c (some (b, t)) made → Q (.ok (f t)) s') :
    Transacts I start c (view c f) Q s := by
  refine transacts_statement hI hs hraised fun s' hI' hs' => ⟨Store.move_refl c s', hI', ?_⟩
  have hseen : s'.seen c = t := by rw [Store.seen, hs'.held]; rfl
  have hQ := hdone s' hs'
  rw [← hseen] at hQ
  exact hQ

/-- A connection without the lock reads a committed table. -/
theorem transacts_view_committed {f : τ → α} {Q : Outcome ε α → Store τ → Prop}
    (hI : s.Inv I start) (hs : s.Knows c none made)
    (hraised : ∀ e s', s'.Knows c none made → Q (.error e) s')
    (hdone : ∀ s' b, I b → s'.Knows c none made → Q (.ok (f b)) s') :
    Transacts I start c (view c f) Q s := by
  refine transacts_statement hI hs hraised fun s' hI' hs' => ⟨Store.move_refl c s', hI', ?_⟩
  have hseen : s'.seen c = s'.committed := by rw [Store.seen, hs'.held]; rfl
  have hQ := hdone s' s'.committed hI'.bounded hs'
  rw [← hseen] at hQ
  exact hQ

theorem transacts_beginImmediate {locked : ε} {Q : Outcome ε Unit → Store τ → Prop}
    (hI : s.Inv I start) (hs : s.Knows c none made)
    (hraised : ∀ e s', s'.Knows c none made → Q (.error e) s')
    (hdone : ∀ s' b, I b → s'.Knows c (some (b, b)) made → Q (.ok ()) s') :
    Transacts I start c (statement (Store.beginImmediate locked c)) Q s := by
  refine transacts_statement hI hs hraised fun s' hI' hs' => ?_
  rw [Store.beginImmediate]
  split_ifs with hlocked
  · exact ⟨Store.move_refl c s', hI', hraised _ s' hs'⟩
  · have hfree : s'.writer.isNone := by simpa using hlocked
    exact ⟨Store.move_writer (.inl hfree) _, ⟨hI'.bounded, hI'.linked⟩,
      hdone _ _ hI'.bounded (Store.knows_some_iff.2 ⟨rfl, rfl, hs'.commits⟩)⟩

/-- A connection that has the lock writes on its own table. -/
theorem transacts_write {locked : ε} {f : τ → Except ε (α × τ)} {Q : Outcome ε α → Store τ → Prop}
    (hI : s.Inv I start) (hs : s.Knows c (some (b, t)) made)
    (hraised : ∀ e s', s'.Knows c (some (b, t)) made → Q (.error e) s')
    (hdone : ∀ s' a t', f t = .ok (a, t') → s'.Knows c (some (b, t')) made →
      Q (.ok a) s') :
    Transacts I start c (statement (Store.write locked c f)) Q s := by
  refine transacts_statement hI hs hraised fun s' hI' hs' => ?_
  obtain ⟨hwriter, hcommitted, hcommits⟩ := Store.knows_some_iff.1 hs'
  have hheld : s'.held c = some t := hs'.held
  have hknows (t' : τ) :
      ({ s' with writer := some (c, t') } : Store τ).Knows c (some (b, t')) made :=
    Store.knows_some_iff.2 ⟨rfl, hcommitted, hcommits⟩
  have hmove (t' : τ) : s'.Move c { s' with writer := some (c, t') } :=
    Store.move_writer (.inr (by rw [hheld]; rfl)) t'
  have hinv (t' : τ) : ({ s' with writer := some (c, t') } : Store τ).Inv I start :=
    ⟨hI'.bounded, hI'.linked⟩
  have hseen : s'.seen c = t := by rw [Store.seen, hheld, Option.getD_some]
  rw [Store.write, if_neg (by rw [hheld]; nofun), hseen]
  cases hf : f t with
  | error e => exact ⟨hmove t, hinv t, hraised _ _ (hknows t)⟩
  | ok r => exact ⟨hmove r.2, hinv r.2, hdone _ r.1 r.2 hf (hknows r.2)⟩

/-- A connection without the lock takes it, and writes on the committed table. -/
theorem transacts_write_committed {locked : ε} {f : τ → Except ε (α × τ)}
    {Q : Outcome ε α → Store τ → Prop} (hI : s.Inv I start) (hs : s.Knows c none made)
    (hraised : ∀ e s' lock', s'.Knows c lock' made → Q (.error e) s')
    (hdone : ∀ s' a b t, I b → f b = .ok (a, t) → s'.Knows c (some (b, t)) made →
      Q (.ok a) s') :
    Transacts I start c (statement (Store.write locked c f)) Q s := by
  refine transacts_statement hI hs (fun e s' => hraised e s' none) fun s' hI' hs' => ?_
  have hheld : s'.held c = none := hs'.held
  rw [Store.write]
  split_ifs with hlocked
  · exact ⟨Store.move_refl c s', hI', hraised _ s' none hs'⟩
  · have hfree : s'.writer.isNone := by
      rw [Option.isNone_iff_eq_none]
      by_contra hnot
      exact hlocked ⟨Option.isSome_iff_ne_none.2 hnot, hheld⟩
    have hseen : s'.seen c = s'.committed := by rw [Store.seen, hheld, Option.getD_none]
    have hknows (t : τ) :
        ({ s' with writer := some (c, t) } : Store τ).Knows c (some (s'.committed, t)) made :=
      Store.knows_some_iff.2 ⟨rfl, rfl, hs'.commits⟩
    have hmove (t : τ) : s'.Move c { s' with writer := some (c, t) } :=
      Store.move_writer (.inl hfree) t
    have hinv (t : τ) : ({ s' with writer := some (c, t) } : Store τ).Inv I start :=
      ⟨hI'.bounded, hI'.linked⟩
    rw [hseen]
    cases hf : f s'.committed with
    | error e => exact ⟨hmove _, hinv _, hraised _ _ _ (hknows _)⟩
    | ok r => exact ⟨hmove r.2, hinv r.2, hdone _ _ _ _ hI'.bounded hf (hknows r.2)⟩

theorem transacts_commit {Q : Outcome ε Unit → Store τ → Prop} (hI : s.Inv I start)
    (hs : s.Knows c (some (b, t)) made) (ht : I t)
    (hraised : ∀ e s', s'.Knows c (some (b, t)) made → Q (.error e) s')
    (hdone : ∀ s', s'.Knows c none (made ++ [⟨c, b, t⟩]) → Q (.ok ()) s') :
    Transacts I start c (commit c) Q s := by
  refine transacts_bind ⟨⟨Store.move_refl c s, hI⟩, ?_⟩
  intro _
  simp only [hs.held, Option.isSome_map]
  refine transacts_statement hI hs hraised fun s' hI' hs' => ?_
  obtain ⟨hwriter, hcommitted, hcommits⟩ := Store.knows_some_iff.1 hs'
  have hcommit : s'.commit c = ⟨t, none, s'.log ++ [⟨c, b, t⟩]⟩ := by
    rw [Store.commit, Store.held_eq_some_iff.2 hwriter, hcommitted]
  have hinv : (s'.commit c).Inv I start := by
    have hlinked := hI'.linked
    rw [hcommitted] at hlinked
    rw [hcommit]
    exact ⟨ht, linked_concat hlinked⟩
  refine ⟨Store.move_commit c s', hinv, hdone _ ?_⟩
  rw [hcommit, Store.knows_none_iff]
  refine ⟨rfl, ?_⟩
  rw [Store.commits, List.filter_append, List.filter_singleton, decide_eq_true rfl]
  exact congrArg (· ++ [_]) hcommits

/-- A connection without the lock has nothing to commit. -/
theorem transacts_commit_none {Q : Outcome ε Unit → Store τ → Prop} (hI : s.Inv I start)
    (hs : s.Knows c none made) (hQ : Q (.ok ()) s) : Transacts I start c (commit c) Q s := by
  refine transacts_bind ⟨⟨Store.move_refl c s, hI⟩, ?_⟩
  intro _
  simp only [hs.held, Option.isSome_map]
  exact transacts_conclude (.ok ()) hI hQ

theorem transacts_rollback {Q : Outcome ε Unit → Store τ → Prop} (hI : s.Inv I start)
    (hs : s.Knows c lock made) (hraised : ∀ e s', s'.Knows c lock made → Q (.error e) s')
    (hdone : ∀ s', s'.Knows c none made → Q (.ok ()) s') :
    Transacts I start c (rollback c) Q s := by
  refine transacts_bind ⟨⟨Store.move_refl c s, hI⟩, ?_⟩
  intro _
  simp only [hs.held, Option.isSome_map]
  cases lock with
  | none => exact transacts_conclude (.ok ()) hI (hdone s hs)
  | some l =>
    refine transacts_statement hI hs hraised fun s' hI' hs' => ?_
    exact ⟨Store.move_rollback c s', Store.inv_rollback hI',
      hdone _ (Store.knows_rollback hs')⟩

/-- A connection that is closed has no lock. -/
theorem transacts_close {Q : Outcome ε Unit → Store τ → Prop} (hI : s.Inv I start)
    (hs : s.Knows c lock made)
    (hdone : ∀ s', s'.Knows c none made → Q (.ok ()) s') :
    Transacts I start c (close c) Q s := by
  refine transacts_bind ⟨⟨Store.move_refl c s, hI⟩, ?_⟩
  intro _
  simp only [hs.held, Option.isSome_map]
  cases lock with
  | none => exact transacts_conclude (.ok ()) hI (hdone s hs)
  | some l =>
    refine transacts_bind (transacts_outcome ?_)
    refine stretches_await (C := StatementCalls) (Store.move_refl c) () hI fun r s' hrely _ hI' => ?_
    exact ⟨⟨Store.move_rollback c s', Store.inv_rollback hI'⟩,
      hdone _ (Store.knows_rollback (Store.knows_rely hs hrely))⟩

/-- The connection has no lock, and what is returned goes with its commits. -/
def Committed (c : ℕ) (A : α → List (Commit τ) → Prop) (a : α) (s : Store τ) : Prop :=
  ∃ made, s.Knows c none made ∧ A a made

/-- How the body of a transaction ends. -/
def EndsBody (I : τ → Prop) (c : ℕ) (made : List (Commit τ)) (A : α → List (Commit τ) → Prop) :
    Outcome ε α → Store τ → Prop
  | .ok a, s => Committed c A a s ∨
      ∃ b t, s.Knows c (some (b, t)) made ∧ I t ∧ A a (made ++ [⟨c, b, t⟩])
  | .error _, s => ∃ lock, s.Knows c lock made

def EndsExit (c : ℕ) (made : List (Commit τ)) (A : α → List (Commit τ) → Prop) :
    Outcome ε α → Store τ → Prop
  | .ok a, s => Committed c A a s
  | .error _, s => ∃ lock, s.Knows c lock made

/-- How a transaction ends: it has committed nothing if it raises. -/
def EndsTransaction (c : ℕ) (made : List (Commit τ)) (A : α → List (Commit τ) → Prop) :
    Outcome ε α → Store τ → Prop
  | .ok a, s => Committed c A a s
  | .error _, s => s.Knows c none made

variable {A : α → List (Commit τ) → Prop}

theorem transacts_rollback_raise (e : Raised ε) {Q : Outcome ε α → Store τ → Prop}
    (hI : s.Inv I start) (hs : s.Knows c lock made)
    (hraised : ∀ e s' lock', s'.Knows c lock' made → Q (.error e) s') :
    Transacts I start c (do rollback c; .raise e) Q s := by
  refine transacts_bind (transacts_rollback hI hs ?_ ?_)
  · exact fun e' s' hs' => hraised e' s' lock hs'
  · exact fun s' hs' hI' => transacts_conclude (.error e) hI' (hraised e s' none hs')

variable {body : TransactionProg τ ε α}

theorem transacts_exit (hbody : Transacts I start c body (EndsBody I c made A) s) :
    Transacts I start c (exit c body) (EndsExit c made A) s := by
  refine transacts_bind (transacts_outcome (stretches_mono ?_ hbody))
  rintro (e | a) s' - hend hI
  · obtain ⟨lock, hs'⟩ := hend
    exact transacts_rollback_raise e hI hs' fun e' s'' lock' hs'' => ⟨lock', hs''⟩
  · rcases hend with ⟨made', hs', hA⟩ | ⟨b, t, hs', ht, hA⟩
    · exact transacts_bind (transacts_outcome (transacts_commit_none hI hs' fun hI' =>
        transacts_conclude (.ok a) hI' ⟨made', hs', hA⟩))
    · refine transacts_bind (transacts_outcome (transacts_commit hI hs' ht ?_ ?_))
      · intro e s'' hs'' hI'
        exact transacts_rollback_raise e hI' hs'' fun e' s₃ lock' hs₃ => ⟨lock', hs₃⟩
      · exact fun s'' hs'' hI' => transacts_conclude (.ok a) hI' ⟨_, hs'', hA⟩

/-- **A transaction that raises has committed nothing**, and one that returns has committed
    what goes with its result. -/
theorem transacts_withConnection (hbody : Transacts I start c body (EndsBody I c made A) s) :
    Transacts I start c (withConnection c body) (EndsTransaction c made A) s := by
  refine transacts_bind (transacts_outcome (stretches_mono ?_ (transacts_exit hbody)))
  rintro (e | a) s' - hend hI
  · obtain ⟨lock, hs'⟩ := hend
    exact transacts_bind (transacts_close hI hs' fun s'' hs'' hI' =>
      transacts_conclude (.error e) hI' hs'')
  · obtain ⟨made', hs', hA⟩ := hend
    exact transacts_bind (transacts_close hI hs' fun s'' hs'' hI' =>
      transacts_conclude (.ok a) hI' ⟨made', hs'', hA⟩)

end

/-! ## Runs -/

/-- Transactions that take turns; `A` goes with the operation and what it returns. -/
def transactionDiscipline {Op : Type} (I : τ → Prop) (start : τ)
    (A : ℕ → Op → α → List (Commit τ) → Prop) : Discipline (Store τ) ε α Op where
  inv := Store.Inv I start
  rely := Store.Rely
  move := Store.Move
  fresh c := Store.Knows c none []
  post c op := EndsTransaction c [] (A c op)
  rely_refl := Store.rely_refl
  rely_trans := Store.rely_trans
  rely_move i j _ _ hij hmove := hmove j (Ne.symm hij)
  fresh_move i j _ _ hij hmove hfresh := Store.knows_rely hfresh (hmove j (Nat.ne_of_gt hij))
  post_rely c op r s s' hrely hpost := by
    cases r with
    | error e => exact Store.knows_rely hpost hrely
    | ok a =>
      obtain ⟨made, hs, hA⟩ := hpost
      exact ⟨made, Store.knows_rely hs hrely, hA⟩

end Transactions
