/-!
Tries an operation until it succeeds, its attempts are used up, or the run is asked to stop. The
request to stop is looked at only while waiting between two attempts, so a call that has begun is
always finished. The number of attempts that are made at all is bounded by a budget; a caller that
sees the budget run out has learnt nothing about the operation.
-/
namespace RewardPool

/-- The clock of a run, which also carries the request to stop. -/
structure Clock (m : Type → Type) where
  /-- Whether the run was asked to stop. -/
  stopped : m Bool
  /-- Waits so many seconds and tells whether they all went by: a request to stop, made before or
  meanwhile, ends the wait. -/
  pause : Nat → m Bool

/-- How often an operation is tried, and how many seconds apart. -/
structure RetryPolicy where
  delay : Nat
  /-- No limit if zero. -/
  maxAttempts : Nat

inductive RetryFailure (ε : Type) where
  | exhausted (cause : ε)
  /-- The run was asked to stop before another attempt. -/
  | abandoned (operation : String) (cause : ε)

namespace RetryFailure

variable {ε : Type}

def cause : RetryFailure ε → ε
  | exhausted e => e
  | abandoned _ e => e

def texts (describe : ε → String) : RetryFailure ε → List String
  | exhausted e => [describe e]
  | abandoned operation e => [operation ++ " abandoned: shutdown requested", describe e]

def message (describe : ε → String) (f : RetryFailure ε) : String :=
  (f.texts describe).headD ""

end RetryFailure

namespace RetryPolicy

/-- Whether no attempt may follow the one with this number. -/
def isLast (p : RetryPolicy) (attempt : Nat) : Bool :=
  0 < p.maxAttempts && p.maxAttempts ≤ attempt

variable {ε α : Type} {m : Type → Type} [Monad m]

/-- Tries an operation from the attempt with the given number on. -/
def tryFrom (p : RetryPolicy) (clock : Clock m) (name : String) (operation : m (Except ε α)) :
    Nat → Nat → OptionT m (Except (RetryFailure ε) α)
  | 0, _ => OptionT.mk (pure none)
  | budget + 1, attempt => do
    match ← operation with
    | .ok a => return .ok a
    | .error e =>
      if p.isLast attempt then return .error (.exhausted e)
      else if ← clock.pause p.delay then p.tryFrom clock name operation budget (attempt + 1)
      else return .error (.abandoned name e)

def retry (p : RetryPolicy) (clock : Clock m) (budget : Nat) (name : String)
    (operation : m (Except ε α)) : OptionT m (Except (RetryFailure ε) α) :=
  p.tryFrom clock name operation budget 1

end RetryPolicy

end RewardPool
