/-
  A task that repeats one coroutine.

  The body of the loop ends in `true` to go round again and in `false` to leave;
  an exception leaves the loop too.  `LoopStep` interleaves the task with its
  environment, and `LoopInvariant` is the proof rule: an invariant that the body
  restores, under the contract `K`, holds whenever the loop is at its boundary.
-/
import PlcGateway.Library.Coroutine

namespace Coroutine

variable {C : Calls} {σ ε : Type}

/-- Where a loop stands: between two rounds, in the middle of one, or left. -/
inductive Control (C : Calls) (σ ε : Type) where
  | boundary
  | suspended (c : C.Call) (k : Outcome ε (C.Res c) → σ → Coro C σ ε Bool)
  | ended (r : Outcome ε Unit)

structure Config (C : Calls) (σ ε : Type) where
  state : σ
  history : History C ε
  control : Control C σ ε

/-- The configuration in which a round stops running. -/
def Config.settle (h : History C ε) : Coro C σ ε Bool → Config C σ ε
  | .done s (.ok true) => ⟨s, h, .boundary⟩
  | .done s (.ok false) => ⟨s, h, .ended (.ok ())⟩
  | .done s (.error e) => ⟨s, h, .ended (.error e)⟩
  | .await s c k => ⟨s, h, .suspended c k⟩

@[simp] theorem Config.settle_history (h : History C ε) (t : Coro C σ ε Bool) :
    (Config.settle h t).history = h := by
  match t with
  | .done _ (.ok true) => rfl
  | .done _ (.ok false) => rfl
  | .done _ (.error _) => rfl
  | .await .. => rfl

/-- One step: of the environment, into a round, or on with a round whose call
    has been answered. -/
inductive LoopStep (body : Prog C σ ε Bool) (env : σ → σ → Prop)
    (answer : (c : C.Call) → σ → Outcome ε (C.Res c) → Prop) : Config C σ ε → Config C σ ε → Prop
  | env {s s' : σ} {h : History C ε} {ctl : Control C σ ε} :
      env s s' → LoopStep body env answer ⟨s, h, ctl⟩ ⟨s', h, ctl⟩
  | enter {s : σ} {h : History C ε} :
      LoopStep body env answer ⟨s, h, .boundary⟩ (.settle h (body s))
  | resume {s : σ} {h : History C ε} {c : C.Call} {k : Outcome ε (C.Res c) → σ → Coro C σ ε Bool}
      {r : Outcome ε (C.Res c)} :
      answer c s r →
      LoopStep body env answer ⟨s, h, .suspended c k⟩ (.settle (h ++ [⟨c, r⟩]) (k r s))

/-- How a round ends, for the loop. -/
def loopPost (Inv : σ → History C ε → Prop) (End : Outcome ε Unit → σ → History C ε → Prop) :
    Outcome ε Bool → σ → History C ε → Prop
  | .ok true => Inv
  | .ok false => End (.ok ())
  | .error e => End (.error e)

/-- What holds of a configuration of the loop. -/
def Config.Good (K : Contract C σ ε) (Inv : σ → History C ε → Prop)
    (End : Outcome ε Unit → σ → History C ε → Prop) : Config C σ ε → Prop
  | ⟨s, h, .boundary⟩ => Inv s h
  | ⟨s, h, .ended r⟩ => End r s h
  | ⟨s, h, .suspended c k⟩ =>
    ∃ s₀, K.rely s₀ s ∧ (Coro.await s₀ c k).wp K (loopPost Inv End) h

/-- The body restores the invariant, and the environment keeps to the contract. -/
structure LoopInvariant (body : Prog C σ ε Bool) (env : σ → σ → Prop) (K : Contract C σ ε)
    (Inv : σ → History C ε → Prop) (End : Outcome ε Unit → σ → History C ε → Prop) : Prop where
  body : ∀ s h, Inv s h → (body s).wp K (loopPost Inv End) h
  rely_refl : ∀ s, K.rely s s
  rely_step : ∀ s₀ s s', K.rely s₀ s → env s s' → K.rely s₀ s'
  inv_env : ∀ s s' h, Inv s h → env s s' → Inv s' h
  end_env : ∀ r s s' h, End r s h → env s s' → End r s' h

namespace LoopInvariant
variable {body : Prog C σ ε Bool} {env : σ → σ → Prop} {K : Contract C σ ε}
  {Inv : σ → History C ε → Prop} {End : Outcome ε Unit → σ → History C ε → Prop}
  (L : LoopInvariant body env K Inv End)
include L

theorem settle {h : History C ε} {t : Coro C σ ε Bool} (ht : t.wp K (loopPost Inv End) h) :
    (Config.settle h t).Good K Inv End := by
  match t with
  | .done s (.ok true) => exact ht
  | .done s (.ok false) => exact ht
  | .done s (.error e) => exact ht
  | .await s c k => exact ⟨s, L.rely_refl s, ht⟩

theorem good_env {x : Config C σ ε} {s' : σ} (hx : x.Good K Inv End) (he : env x.state s') :
    Config.Good K Inv End { x with state := s' } := by
  obtain ⟨s, h, ctl⟩ := x
  cases ctl with
  | boundary => exact L.inv_env _ _ _ hx he
  | ended r => exact L.end_env _ _ _ _ hx he
  | suspended c k =>
    obtain ⟨s₀, hr, hw⟩ := hx
    exact ⟨s₀, L.rely_step _ _ _ hr he, hw⟩

theorem good_enter {x : Config C σ ε} (hx : x.Good K Inv End) (hb : x.control = .boundary) :
    (Config.settle x.history (body x.state)).Good K Inv End := by
  obtain ⟨s, h, ctl⟩ := x
  subst hb
  exact L.settle (L.body _ _ hx)

theorem good_resume {x : Config C σ ε} {c : C.Call} {k : Outcome ε (C.Res c) → σ → Coro C σ ε Bool}
    {r : Outcome ε (C.Res c)} (hx : x.Good K Inv End) (hc : x.control = .suspended c k)
    (ha : K.answer c x.state r) :
    (Config.settle (x.history ++ [⟨c, r⟩]) (k r x.state)).Good K Inv End := by
  obtain ⟨s, h, ctl⟩ := x
  subst hc
  obtain ⟨s₀, hr, -, hk⟩ := hx
  exact L.settle (hk _ _ hr ha)

theorem good_step {x y : Config C σ ε} (hx : x.Good K Inv End)
    (h : LoopStep body env K.answer x y) : y.Good K Inv End := by
  cases h with
  | env he => exact L.good_env hx he
  | enter => exact L.good_enter hx rfl
  | resume ha => exact L.good_resume hx rfl ha

/-- **The loop rule.** -/
theorem good_run {x y : Config C σ ε} (hx : x.Good K Inv End)
    (h : Relation.ReflTransGen (LoopStep body env K.answer) x y) : y.Good K Inv End := by
  induction h with
  | refl => exact hx
  | tail _ hs ih => exact L.good_step ih hs

end LoopInvariant

end Coroutine
