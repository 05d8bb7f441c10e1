import RewardPool.Proofs.Composition

/-!
Judgements about what computations come to. A judgement says of a computation that its results have a
property, and what it takes for granted to say so is its own affair: it may be about every world, or
about the worlds with an invariant. All that matters is that it holds of what is done step by step if
it holds of the steps. So what is shown of a slot, a round or a run for one judgement is shown for all.
-/
namespace RewardPool

structure Judgement (m : Type → Type) [Monad m] where
  Holds : {α : Type} → m α → (α → Prop) → Prop
  holds_pure : ∀ {α : Type} {R : α → Prop} {a : α}, R a → Holds (pure a) R
  holds_bind : ∀ {α β : Type} {x : m α} {f : α → m β} {R : α → Prop} {S : β → Prop},
    Holds x R → (∀ a, R a → Holds (f a) S) → Holds (x >>= f) S

/-- An answer that is the given one, unless it is an error. -/
def IsAnswer {ε α : Type} (a : α) (r : Except ε α) : Prop := ∀ b, r = .ok b → b = a

namespace Judgement

variable {m : Type → Type} [Monad m] {σ ε α β : Type}

/-- Nothing is said of the results, but what is taken for granted is kept. -/
def Passes (J : Judgement m) (x : m α) : Prop := J.Holds x fun _ => True

variable {J : Judgement m} {x : m α} {f : α → m β} {R S : α → Prop}

theorem passes_pure (J : Judgement m) (a : α) : J.Passes (pure a) := J.holds_pure trivial

theorem passes_bind (hx : J.Passes x) (hf : ∀ a, J.Passes (f a)) : J.Passes (x >>= f) :=
  J.holds_bind hx fun a _ => hf a

theorem mono [LawfulMonad m] (hx : J.Holds x R) (hRS : ∀ a, R a → S a) : J.Holds x S := by
  have hbind : J.Holds (x >>= pure) S := J.holds_bind hx fun a ha => J.holds_pure (hRS a ha)
  rwa [bind_pure] at hbind

theorem passes_of_holds [LawfulMonad m] (hx : J.Holds x R) : J.Passes x :=
  mono hx fun _ _ => trivial

/-- The same judgement where there may be no result. -/
def option (J : Judgement m) : Judgement (OptionT m) where
  Holds x R := J.Holds x.run fun o => ∀ a, o = some a → R a
  holds_pure ha := J.holds_pure fun _ heq => Option.some.inj heq ▸ ha
  holds_bind hx hf := by
    rw [OptionT.run_bind]
    refine J.holds_bind hx fun o ho => ?_
    cases o with
    | none => exact J.holds_pure nofun
    | some a => exact hf a (ho a rfl)

/-- The same judgement where there is a state with an invariant. -/
def state (J : Judgement m) (I : σ → Prop) : Judgement (StateT σ m) where
  Holds x R := ∀ s, I s → J.Holds (x.run s) fun r => R r.1 ∧ I r.2
  holds_pure ha _ hs := J.holds_pure ⟨ha, hs⟩
  holds_bind hx hf s hs := J.holds_bind (hx s hs) fun r hr => hf r.1 hr.1 r.2 hr.2

/-- The same judgement where there may be an error, which has to be one of some. -/
def except (J : Judgement m) (E : ε → Prop) : Judgement (ExceptT ε m) where
  Holds x R := J.Holds x.run fun
    | .ok a => R a
    | .error e => E e
  holds_pure ha := J.holds_pure ha
  holds_bind hx hf := by
    rw [ExceptT.run_bind]
    refine J.holds_bind hx fun r hr => ?_
    cases r with
    | ok a => exact hf a hr
    | error e => exact J.holds_pure hr

theorem holds_optionLift (hx : J.Holds x R) : J.option.Holds (OptionT.lift x) R :=
  J.holds_bind hx fun _ ha => J.holds_pure fun _ heq => Option.some.inj heq ▸ ha

theorem holds_stateLift {I : σ → Prop} (hx : J.Holds x R) :
    (J.state I).Holds (StateT.lift x) R :=
  fun _ hs => J.holds_bind hx fun _ ha => J.holds_pure ⟨ha, hs⟩

theorem holds_get {I : σ → Prop} : (J.state I).Holds (get : StateT σ m σ) I :=
  fun _ hs => J.holds_pure ⟨hs, hs⟩

theorem passes_set {I : σ → Prop} {s : σ} (hs : I s) :
    (J.state I).Passes (set s : StateT σ m PUnit) :=
  fun _ _ => J.holds_pure ⟨trivial, hs⟩

/-- What all worlds have in common. -/
def returning : Judgement (StateM σ) where
  Holds x R := ∀ a, Returns x a → R a
  holds_pure ha b hb := returns_pure hb ▸ ha
  holds_bind hx hf b hb := by
    obtain ⟨a, ha, hb⟩ := returns_bind hb
    exact hf a (hx a ha) b hb

end Judgement

end RewardPool
