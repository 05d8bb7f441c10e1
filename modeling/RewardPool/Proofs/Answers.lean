import Mathlib.Logic.Basic
import RewardPool.Reconcile

/-!
What a computation can come back with when the world outside it is arbitrary. A world is any state
at all, and each question put to it may change the state, so the answers follow no rule unless one
is assumed. A step of the reconciliation that goes through is then taken apart: each question in it
was answered, each result of the ledger was one, and nothing else happened.
-/
namespace RewardPool

variable {σ ε α β : Type}

/-- A result that a computation has in some world. -/
def Returns (x : StateM σ α) (a : α) : Prop := ∃ w, (x.run w).1 = a

theorem returns_run (x : StateM σ α) (w : σ) : Returns x (x.run w).1 := ⟨w, rfl⟩

theorem returns_of_run {x : StateM σ α} {w w' : σ} {a : α} (hrun : x.run w = (a, w')) :
    Returns x a :=
  ⟨w, congrArg Prod.fst hrun⟩

theorem returns_pure {a b : α} (h : Returns (pure a : StateM σ α) b) : b = a := by
  obtain ⟨w, rfl⟩ := h
  rfl

theorem returns_bind {x : StateM σ α} {f : α → StateM σ β} {b : β} (h : Returns (x >>= f) b) :
    ∃ a, Returns x a ∧ Returns (f a) b := by
  obtain ⟨w, hw⟩ := h
  exact ⟨(x.run w).1, ⟨w, rfl⟩, (x.run w).2, hw⟩

theorem run_bind_cases {x : StateM σ α} {f : α → StateM σ β} {w w' : σ} {b : β}
    (hrun : (x >>= f).run w = (b, w')) : ∃ a v, x.run w = (a, v) ∧ (f a).run v = (b, w') :=
  ⟨(x.run w).1, (x.run w).2, rfl, hrun⟩

theorem run_bind_eq {x : StateM σ α} {f : α → StateM σ β} {w w' : σ} {a : α}
    (hrun : x.run w = (a, w')) : (x >>= f).run w = (f a).run w' := by
  rw [StateT.run_bind, hrun]
  rfl

theorem run_pure_cases {a a' : α} {b b' : β} {w w' : σ}
    (hrun : (pure (a, b) : StateM σ (α × β)).run w = ((a', b'), w')) : a = a' ∧ b = b' ∧ w = w' := by
  obtain ⟨hresult, hworld⟩ := Prod.mk.inj hrun
  obtain ⟨ha, hb⟩ := Prod.mk.inj hresult
  exact ⟨ha, hb, hworld⟩

/-- A question that has one answer, unless it fails. -/
def Says (question : StateM σ (Except ε α)) (a : α) : Prop :=
  ∀ r, Returns question r → r = .ok a ∨ ∃ e, r = .error e

theorem says_pure (a : α) : Says (pure (.ok a) : StateM σ (Except ε α)) a := by
  intro r hr
  exact .inl (returns_pure hr)

theorem Says.eq {question : StateM σ (Except ε α)} {a b : α} (h : Says question a)
    (hb : Returns question (.ok b)) : b = a := by
  rcases h _ hb with heq | ⟨e, heq⟩
  · exact Except.ok.inj heq
  · exact absurd heq (by simp)

namespace Reconcile

/-- A result that a step has in some world in which it goes through. -/
def Succeeds (x : Step ε (StateM σ) α) (a : α) : Prop := Returns x.run (.ok a)

theorem succeeds_pure {a b : α} (h : Succeeds (pure a : Step ε (StateM σ) α) b) : b = a :=
  Except.ok.inj (returns_pure h)

theorem succeeds_bind {x : Step ε (StateM σ) α} {f : α → Step ε (StateM σ) β} {b : β}
    (h : Succeeds (x >>= f) b) : ∃ a, Succeeds x a ∧ Succeeds (f a) b := by
  unfold Succeeds at h
  rw [ExceptT.run_bind] at h
  obtain ⟨r, hx, hf⟩ := returns_bind h
  cases r with
  | ok a => exact ⟨a, hx, hf⟩
  | error e => exact absurd (returns_pure hf) (by simp)

theorem not_succeeds_throw {e : Failure ε} {a : α} :
    ¬ Succeeds (throw e : Step ε (StateM σ) α) a := by
  intro h
  exact absurd (returns_pure h) (by simp)

theorem succeeds_ask {question : StateM σ (Except ε α)} {a : α} (h : Succeeds (ask question) a) :
    Returns question (.ok a) := by
  obtain ⟨r, hq, hr⟩ := returns_bind h
  cases r with
  | ok a' =>
    obtain rfl := Except.ok.inj (returns_pure hr)
    exact hq
  | error e => exact absurd (returns_pure hr) (by simp)

theorem succeeds_must {r : Except Fault α} {a : α}
    (h : Succeeds (must r : Step ε (StateM σ) α) a) : r = .ok a := by
  cases r with
  | ok a' => rw [succeeds_pure h]
  | error f => exact absurd h not_succeeds_throw

theorem succeeds_foldlM_must {step : α → β → Except Fault α} {items : List β} {a b : α}
    (h : Succeeds (items.foldlM (fun a x => (must (step a x) : Step ε (StateM σ) α)) a) b) :
    items.foldlM step a = .ok b := by
  induction items generalizing a with
  | nil => rw [succeeds_pure h]; rfl
  | cons x rest ih =>
    rw [List.foldlM_cons] at h
    obtain ⟨c, hc, hrest⟩ := succeeds_bind h
    rw [List.foldlM_cons, succeeds_must hc]
    exact ih hrest

end Reconcile

end RewardPool
