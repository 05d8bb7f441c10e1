import RewardPool.Proofs.Duties
import RewardPool.Rehearsal

/-!
Operations that are tried again. An operation may bring back anything at each attempt, and a run may be
asked to stop at any moment. If every attempt is recorded with what it brought back, all but the last one
are failures, and the last one decides: its value is handed on, or its error, either as it is or as that
of a run that was asked to stop. Where attempts are not limited, as in the reads of the chain, nothing
but a request to stop lets an error through. And to look for a proposer until the chain gives one is to
repeat a lookup on a client.
-/
namespace RewardPool

namespace Clock

variable {σ : Type}

/-- In a world, the run was asked to stop. -/
def Stopped (c : Clock (StateM σ)) (w : σ) : Prop := (c.stopped.run w).1 = true

/-- No wait is cut short unless the run was asked to stop. -/
def Honest (c : Clock (StateM σ)) : Prop :=
  ∀ seconds w w', (c.pause seconds).run w = (false, w') → c.Stopped w'

end Clock

/-- The clock that the program is rehearsed with cuts no wait short of its own accord. -/
theorem Stage.clock_honest : Stage.clock.Honest := by
  intro seconds w w' hpause
  unfold Stage.clock at hpause
  dsimp only at hpause
  obtain ⟨s, v, hget, hpause⟩ := run_bind_cases hpause
  obtain ⟨rfl, rfl⟩ := Prod.mk.inj hget
  cases hstopped : w.stopped with
  | true =>
    rw [hstopped] at hpause
    obtain ⟨-, rfl⟩ := Prod.mk.inj hpause
    exact hstopped
  | false =>
    rw [hstopped] at hpause
    exact absurd (congrArg Prod.fst hpause) nofun

namespace RetryPolicy

variable {σ ε α : Type}

/-- Records what each attempt of an operation brings back. -/
def watched (operation : StateM σ (Except ε α)) :
    StateM (Chronicled σ (Except ε α)) (Except ε α) :=
  Chronicled.recording operation fun r => [r]

/-- The attempts of an operation on record. -/
def trial (p : RetryPolicy) (clock : Clock (StateM σ)) (budget : Nat) (name : String)
    (operation : StateM σ (Except ε α)) :
    StateM (Chronicled σ (Except ε α)) (Option (Except (RetryFailure ε) α)) :=
  (p.retry ((Chronicled.aside σ (Except ε α)).clock clock) budget name (watched operation)).run

/-- After so many failures, there may be another attempt. -/
def Allows (p : RetryPolicy) (failures : Nat) : Prop :=
  p.maxAttempts = 0 ∨ failures < p.maxAttempts

/-- All that the attempts of an operation can come to, by what each of them brought back. -/
inductive Tried (p : RetryPolicy) (name : String) (budget : Nat) (stopped : Prop) :
    List (Except ε α) → Option (Except (RetryFailure ε) α) → Prop
  | succeeded {failures : List ε} {a : α} (hallowed : p.Allows failures.length) :
      Tried p name budget stopped (failures.map .error ++ [.ok a]) (some (.ok a))
  | exhausted {failures : List ε} {e : ε} (hlast : failures.length + 1 = p.maxAttempts) :
      Tried p name budget stopped (failures.map .error ++ [.error e])
        (some (.error (.exhausted e)))
  | abandoned {failures : List ε} {e : ε} (hallowed : p.Allows (failures.length + 1))
      (hstopped : stopped) :
      Tried p name budget stopped (failures.map .error ++ [.error e])
        (some (.error (.abandoned name e)))
  | cutOff {failures : List ε} (hallowed : p.Allows failures.length)
      (hbudget : failures.length = budget) :
      Tried p name budget stopped (failures.map .error) none

theorem isLast_iff {p : RetryPolicy} {attempt : Nat} :
    p.isLast attempt = true ↔ 0 < p.maxAttempts ∧ p.maxAttempts ≤ attempt := by
  simp [isLast]

theorem isLast_eq_false_iff {p : RetryPolicy} {attempt : Nat} :
    p.isLast attempt = false ↔ p.Allows attempt := by
  rw [← Bool.not_eq_true, isLast_iff]
  unfold Allows
  omega

section Steps

variable {m : Type → Type} [Monad m] [LawfulMonad m] {p : RetryPolicy} {clock : Clock m}
variable {name : String} {operation : m (Except ε α)} {budget attempt : Nat}

theorem run_bind_liftM {β γ : Type} (x : m β) (f : β → OptionT m γ) :
    (liftM x >>= f : OptionT m γ).run = x >>= fun b => (f b).run := by
  rw [OptionT.run_bind, OptionT.run_monadLift, Option.elimM, bind_map_left]
  rfl

theorem run_tryFrom_succ : (p.tryFrom clock name operation (budget + 1) attempt).run = do
    match ← operation with
    | .ok a => return some (.ok a)
    | .error e =>
      if p.isLast attempt then return some (.error (.exhausted e))
      else if ← clock.pause p.delay then (p.tryFrom clock name operation budget (attempt + 1)).run
      else return some (.error (.abandoned name e)) := by
  rw [tryFrom, run_bind_liftM]
  refine bind_congr fun r => ?_
  cases r with
  | ok a => rfl
  | error e =>
    cases p.isLast attempt with
    | true => rfl
    | false =>
      refine (run_bind_liftM (clock.pause p.delay) _).trans (bind_congr fun waited => ?_)
      cases waited <;> rfl

end Steps

section Worlds

variable {p : RetryPolicy} {clock : Clock (StateM σ)} {name : String}
variable {operation : StateM σ (Except ε α)} {budget attempt : Nat} {w v w' : σ}

theorem run_tryFrom_ok {a : α} (hoperation : operation.run w = (.ok a, v)) :
    (p.tryFrom clock name operation (budget + 1) attempt).run.run w = (some (.ok a), v) := by
  rw [run_tryFrom_succ, run_bind_eq hoperation]
  rfl

theorem run_tryFrom_exhausted {e : ε} (hoperation : operation.run w = (.error e, v))
    (hlast : p.isLast attempt = true) :
    (p.tryFrom clock name operation (budget + 1) attempt).run.run w =
      (some (.error (.exhausted e)), v) := by
  rw [run_tryFrom_succ, run_bind_eq hoperation, hlast]
  rfl

theorem run_tryFrom_abandoned {e : ε} (hoperation : operation.run w = (.error e, v))
    (hlast : p.isLast attempt = false) (hpause : (clock.pause p.delay).run v = (false, w')) :
    (p.tryFrom clock name operation (budget + 1) attempt).run.run w =
      (some (.error (.abandoned name e)), w') := by
  rw [run_tryFrom_succ, run_bind_eq hoperation, hlast]
  exact (run_bind_eq hpause).trans rfl

theorem run_tryFrom_again {e : ε} (hoperation : operation.run w = (.error e, v))
    (hlast : p.isLast attempt = false) (hpause : (clock.pause p.delay).run v = (true, w')) :
    (p.tryFrom clock name operation (budget + 1) attempt).run.run w =
      (p.tryFrom clock name operation budget (attempt + 1)).run.run w' := by
  rw [run_tryFrom_succ, run_bind_eq hoperation, hlast]
  exact (run_bind_eq hpause).trans rfl

/-- All that one attempt can come to. -/
inductive Attempt (p : RetryPolicy) (clock : Clock (StateM σ)) (operation : StateM σ (Except ε α))
    (attempt : Nat) (w : σ) : Prop
  | succeeded {a : α} {v : σ} (hoperation : operation.run w = (.ok a, v))
  | last {e : ε} {v : σ} (hoperation : operation.run w = (.error e, v))
      (hlast : p.isLast attempt = true)
  | stopped {e : ε} {v w' : σ} (hoperation : operation.run w = (.error e, v))
      (hlast : p.isLast attempt = false) (hpause : (clock.pause p.delay).run v = (false, w'))
  | again {e : ε} {v w' : σ} (hoperation : operation.run w = (.error e, v))
      (hlast : p.isLast attempt = false) (hpause : (clock.pause p.delay).run v = (true, w'))

theorem attempt_cases (p : RetryPolicy) (clock : Clock (StateM σ))
    (operation : StateM σ (Except ε α)) (attempt : Nat) (w : σ) :
    Attempt p clock operation attempt w := by
  obtain ⟨⟨r, v⟩, hoperation⟩ : ∃ done, operation.run w = done := ⟨_, rfl⟩
  cases r with
  | ok a => exact .succeeded hoperation
  | error e =>
    cases hlast : p.isLast attempt with
    | true => exact .last hoperation hlast
    | false =>
      obtain ⟨⟨waited, w'⟩, hpause⟩ : ∃ done, (clock.pause p.delay).run v = done := ⟨_, rfl⟩
      cases waited with
      | true => exact .again hoperation hlast hpause
      | false => exact .stopped hoperation hlast hpause

/-- A result does not depend on how many more attempts could have been made. -/
theorem run_tryFrom_add {r : Except (RetryFailure ε) α}
    (hrun : (p.tryFrom clock name operation budget attempt).run.run w = (some r, w')) (more : Nat) :
    (p.tryFrom clock name operation (budget + more) attempt).run.run w = (some r, w') := by
  induction budget generalizing attempt w with
  | zero => exact absurd (congrArg Prod.fst hrun) nofun
  | succ budget ih =>
    rw [Nat.succ_add]
    cases attempt_cases p clock operation attempt w with
    | succeeded hoperation =>
      rw [run_tryFrom_ok hoperation] at hrun ⊢
      exact hrun
    | last hoperation hlast =>
      rw [run_tryFrom_exhausted hoperation hlast] at hrun ⊢
      exact hrun
    | stopped hoperation hlast hpause =>
      rw [run_tryFrom_abandoned hoperation hlast hpause] at hrun ⊢
      exact hrun
    | again hoperation hlast hpause =>
      rw [run_tryFrom_again hoperation hlast hpause] at hrun ⊢
      exact ih hrun

/-- What attempts come to that follow some failures. -/
theorem tried_tryFrom (hclock : clock.Honest) (name : String) (operation : StateM σ (Except ε α))
    (budget : Nat) (failures : List ε) (hallowed : p.Allows failures.length) (w : σ) :
    ∃ r w' outcomes,
      (p.tryFrom clock name operation budget (failures.length + 1)).run.run w = (r, w') ∧
      (p.tryFrom ((Chronicled.aside σ (Except ε α)).clock clock) name (watched operation) budget
        (failures.length + 1)).run.run ⟨w, failures.map .error⟩ = (r, ⟨w', outcomes⟩) ∧
      Tried p name (failures.length + budget) (clock.Stopped w') outcomes r := by
  induction budget generalizing failures w with
  | zero => exact ⟨none, w, _, rfl, rfl, .cutOff hallowed rfl⟩
  | succ budget ih =>
    cases attempt_cases p clock operation (failures.length + 1) w with
    | succeeded hoperation =>
      exact ⟨_, _, _, run_tryFrom_ok hoperation, run_tryFrom_ok (Chronicled.run_recording hoperation _),
        .succeeded hallowed⟩
    | last hoperation hlast =>
      refine ⟨_, _, _, run_tryFrom_exhausted hoperation hlast,
        run_tryFrom_exhausted (Chronicled.run_recording hoperation _) hlast, .exhausted ?_⟩
      obtain ⟨hlimited, hreached⟩ := isLast_iff.mp hlast
      have hbefore : failures.length < p.maxAttempts := hallowed.resolve_left hlimited.ne'
      omega
    | stopped hoperation hlast hpause =>
      exact ⟨_, _, _, run_tryFrom_abandoned hoperation hlast hpause,
        run_tryFrom_abandoned (Chronicled.run_recording hoperation _) hlast (Chronicled.run_aside hpause),
        .abandoned (isLast_eq_false_iff.mp hlast) (hclock _ _ _ hpause)⟩
    | @again e v w' hoperation hlast hpause =>
      -- The failure joins the record, so the record is again one shorter than the number of the attempt.
      have hlength : (failures ++ [e]).length = failures.length + 1 := by simp
      obtain ⟨r, w'', outcomes, hrun, hwatched, htried⟩ :=
        ih (failures ++ [e]) (hlength ▸ isLast_eq_false_iff.mp hlast) w'
      rw [hlength] at hrun hwatched htried
      rw [List.map_append] at hwatched
      refine ⟨r, w'', outcomes, (run_tryFrom_again hoperation hlast hpause).trans hrun,
        (run_tryFrom_again (Chronicled.run_recording hoperation _) hlast (Chronicled.run_aside hpause)).trans hwatched,
        ?_⟩
      rwa [Nat.add_assoc, Nat.add_comm 1] at htried

end Worlds

/-- A result of unlimited attempts is no error, unless the run was asked to stop. -/
theorem Tried.abandoned_of_unlimited {p : RetryPolicy} {name : String} {budget : Nat}
    {stopped : Prop} {outcomes : List (Except ε α)} {f : RetryFailure ε}
    (hunlimited : p.maxAttempts = 0)
    (h : Tried p name budget stopped outcomes (some (.error f))) :
    stopped ∧ ∃ e, f = .abandoned name e := by
  cases h with
  | exhausted hlast => exact absurd (hlast.trans hunlimited) (Nat.succ_ne_zero _)
  | abandoned hallowed hstopped => exact ⟨hstopped, _, rfl⟩

theorem Tried.of_limited {p : RetryPolicy} {name : String} {budget : Nat} {stopped : Prop}
    {outcomes : List (Except ε α)} {r : Option (Except (RetryFailure ε) α)}
    (hlimited : 0 < p.maxAttempts) (h : Tried p name budget stopped outcomes r) :
    outcomes.length ≤ p.maxAttempts ∧ (p.maxAttempts ≤ budget → r.isSome) := by
  cases h with
  | succeeded hallowed =>
    have hbefore := hallowed.resolve_left hlimited.ne'
    exact ⟨by simpa using Nat.succ_le_of_lt hbefore, fun _ => rfl⟩
  | exhausted hlast => exact ⟨by simpa using hlast.le, fun _ => rfl⟩
  | abandoned hallowed hstopped =>
    have hbefore := hallowed.resolve_left hlimited.ne'
    exact ⟨by simpa using hbefore.le, fun _ => rfl⟩
  | cutOff hallowed hbudget =>
    have hbefore := hallowed.resolve_left hlimited.ne'
    exact ⟨by simpa using hbefore.le, fun hle => by omega⟩

/-- Recorded attempts are the attempts that are made otherwise, and are accounted for. -/
theorem tried_trial (p : RetryPolicy) {clock : Clock (StateM σ)} (hclock : clock.Honest)
    (name : String) (operation : StateM σ (Except ε α)) (budget : Nat) (w : σ) :
    ∃ r w' outcomes, (p.retry clock budget name operation).run.run w = (r, w') ∧
      (p.trial clock budget name operation).run ⟨w, []⟩ = (r, ⟨w', outcomes⟩) ∧
      Tried p name budget (clock.Stopped w') outcomes r := by
  have hallowed : p.Allows 0 := Nat.eq_zero_or_pos _
  have htried := tried_tryFrom hclock name operation budget [] hallowed w
  simp only [List.length_nil, Nat.zero_add] at htried
  exact htried

theorem abandoned_of_unlimited {p : RetryPolicy} {clock : Clock (StateM σ)} {name : String}
    {operation : StateM σ (Except ε α)} {budget : Nat} {w w' : σ} {f : RetryFailure ε}
    (hclock : clock.Honest) (hunlimited : p.maxAttempts = 0)
    (hrun : (p.retry clock budget name operation).run.run w = (some (.error f), w')) :
    clock.Stopped w' ∧ ∃ e, f = .abandoned name e := by
  obtain ⟨r, v, outcomes, hretry, -, htried⟩ := tried_trial p hclock name operation budget w
  obtain ⟨rfl, rfl⟩ := Prod.mk.inj (hretry.symm.trans hrun)
  exact htried.abandoned_of_unlimited hunlimited

section Counted

variable {m : Type → Type} [Monad m]

/-- The same attempts, with a count of thirty-two bits that starts over when it is full. -/
def countedFrom (p : RetryPolicy) (clock : Clock m) (name : String)
    (operation : m (Except ε α)) : Nat → UInt32 → OptionT m (Except (RetryFailure ε) α)
  | 0, _ => OptionT.mk (pure none)
  | budget + 1, attempt => do
    match ← operation with
    | .ok a => return .ok a
    | .error e =>
      if 0 < p.maxAttempts && p.maxAttempts ≤ attempt.toNat then return .error (.exhausted e)
      else if ← clock.pause p.delay then p.countedFrom clock name operation budget (attempt + 1)
      else return .error (.abandoned name e)

/-- The count has not started over, or it does not matter. -/
def Counts (p : RetryPolicy) (count : UInt32) (attempt : Nat) : Prop :=
  p.maxAttempts = 0 ∨ count.toNat = attempt

theorem isLast_toNat {p : RetryPolicy} {count : UInt32} {attempt : Nat}
    (hcounts : p.Counts count attempt) : p.isLast count.toNat = p.isLast attempt := by
  rcases hcounts with hunlimited | rfl
  · simp [isLast, hunlimited]
  · rfl

theorem counts_succ {p : RetryPolicy} {count : UInt32} {attempt : Nat}
    (hrange : p.maxAttempts < 2 ^ 32) (hcounts : p.Counts count attempt)
    (hallowed : p.Allows attempt) : p.Counts (count + 1) (attempt + 1) := by
  rcases hcounts with hunlimited | rfl
  · exact .inl hunlimited
  · rcases hallowed with hunlimited | hbefore
    · exact .inl hunlimited
    · refine .inr ?_
      rw [UInt32.toNat_add]
      exact Nat.mod_eq_of_lt (by simp; omega)

theorem countedFrom_eq (p : RetryPolicy) (hrange : p.maxAttempts < 2 ^ 32) (clock : Clock m)
    (name : String) (operation : m (Except ε α)) (budget : Nat) {count : UInt32} {attempt : Nat}
    (hcounts : p.Counts count attempt) :
    p.countedFrom clock name operation budget count =
      p.tryFrom clock name operation budget attempt := by
  induction budget generalizing count attempt with
  | zero => rfl
  | succ budget ih =>
    unfold countedFrom tryFrom
    refine congrArg _ (funext fun r => ?_)
    cases r with
    | ok a => rfl
    | error e =>
      show (if p.isLast count.toNat then _ else _) = _
      rw [isLast_toNat hcounts]
      cases hlast : p.isLast attempt with
      | true => rfl
      | false => rw [ih (counts_succ hrange hcounts (isLast_eq_false_iff.mp hlast))]

end Counted

end RetryPolicy

/-- Computations beside the duties that are kept. -/
def Lifting.besideDuties (m : Type → Type) [Monad m] [LawfulMonad m] :
    Lifting m (StateT DutyCache m) where
  map x := StateT.lift x
  map_pure a := by
    funext kept
    exact pure_bind a _
  map_bind x f := by
    funext kept
    show (x >>= f) >>= _ = (x >>= _) >>= _
    rw [bind_assoc, bind_assoc]
    refine bind_congr fun a => ?_
    rw [pure_bind]
    rfl

namespace Network

section Reads

variable {α : Type} {m : Type → Type} [Monad m] [LawfulMonad m]

theorem run_insist (n : Network m) (name : String) (read : m (Except NetworkError α))
    (kept : DutyCache) :
    ((n.insist name read).run kept).run =
      Option.map (·, kept) <$> (n.policy.retry n.clock n.budget name read).run := by
  show (n.policy.retry n.clock n.budget name read >>= fun a => pure (a, kept)).run = _
  rw [bind_pure_comp, OptionT.run_map]

/-- What attempts to find a proposer come to, and the duties that are kept then. -/
def settle (kept : DutyCache) : Except NetworkFailure (ValidatorIndex × DutyCache) →
    Except NetworkFailure ValidatorIndex × DutyCache
  | .error f => (.error f, kept)
  | .ok (i, duties) => (.ok i, duties)

theorem run_proposer (n : Network m) (slot : Slot) (kept : DutyCache) :
    ((n.proposer slot).run kept).run =
      Option.map (settle kept) <$> (n.policy.retry n.clock n.budget "proposal_duty"
        (ofBeacon (n.beacon.proposer kept slot))).run := by
  have hsettle : (n.proposer slot).run kept = settle kept <$> n.policy.retry n.clock n.budget
      "proposal_duty" (ofBeacon (n.beacon.proposer kept slot)) := by
    unfold proposer
    rw [StateT.run_bind]
    show pure (kept, kept) >>= _ = _
    rw [pure_bind, StateT.run_bind]
    show (_ >>= fun r => pure (r, kept)) >>= _ = _
    rw [bind_assoc, ← bind_pure_comp]
    refine bind_congr fun r => ?_
    rw [pure_bind]
    rcases r with e | ⟨i, duties⟩
    · rfl
    · show (pure (PUnit.unit, duties) >>= _ : OptionT m _) = _
      rw [pure_bind]
      rfl
  rw [hsettle, OptionT.run_map]

theorem run_ofBeacon_lookUp (n : BeaconNode m) (slot : Slot) (kept : DutyCache) :
    (ofBeacon (n.lookUp slot)).run kept = do
      match ← ofBeacon (n.proposer kept slot) with
      | .error e => return (.error e, kept)
      | .ok (i, duties) => return (.ok i, duties) := by
  unfold ofBeacon
  rw [StateT.run_bind, BeaconNode.run_lookUp, bind_assoc, bind_assoc]
  refine bind_congr fun r => ?_
  rcases r with e | ⟨i, duties⟩
  · rw [pure_bind, pure_bind]
    rfl
  · rw [pure_bind, pure_bind]
    rfl

theorem map_pure_congr {β γ δ : Type} {f : β → δ} {g : γ → δ} {b : β} {c : γ} (h : f b = g c) :
    f <$> (pure b : m β) = g <$> pure c := by
  rw [map_pure, map_pure, h]

/-- While attempts fail, the duties stay as they were; so they may be looked up in the ones of the
first attempt, or in the ones that the last attempt left. -/
theorem run_tryFrom_lookUp (p : RetryPolicy) (clock : Clock m) (name : String) (n : BeaconNode m)
    (slot : Slot) (kept : DutyCache) (budget attempt : Nat) :
    Option.map (settle kept) <$>
        (p.tryFrom clock name (ofBeacon (n.proposer kept slot)) budget attempt).run =
      (fun r => r.1.map (·, r.2)) <$> (p.tryFrom ((Lifting.besideDuties m).clock clock) name
        (ofBeacon (n.lookUp slot)) budget attempt).run.run kept := by
  induction budget generalizing attempt with
  | zero => exact map_pure_congr rfl
  | succ budget ih =>
    rw [RetryPolicy.run_tryFrom_succ, RetryPolicy.run_tryFrom_succ, map_bind, StateT.run_bind,
      run_ofBeacon_lookUp, bind_assoc, map_bind]
    refine bind_congr fun r => ?_
    rcases r with e | ⟨i, duties⟩
    · dsimp only
      rw [pure_bind]
      cases p.isLast attempt with
      | true => exact map_pure_congr rfl
      | false =>
        show _ <$> (clock.pause p.delay >>= _) =
          _ <$> ((clock.pause p.delay >>= fun waited => pure (waited, kept)) >>= _)
        rw [map_bind, bind_assoc, map_bind]
        refine bind_congr fun waited => ?_
        rw [pure_bind]
        cases waited with
        | true => exact ih (attempt + 1)
        | false => exact map_pure_congr rfl
    · dsimp only
      rw [pure_bind]
      exact map_pure_congr rfl

/-- To ask for a proposer is to repeat a lookup on a client. -/
theorem run_proposer_eq_lookUp (n : Network m) (slot : Slot) (kept : DutyCache) :
    ((n.proposer slot).run kept).run =
      (fun r => r.1.map (·, r.2)) <$>
        (n.policy.retry ((Lifting.besideDuties m).clock n.clock) n.budget "proposal_duty"
          (ofBeacon (n.beacon.lookUp slot))).run.run kept :=
  (run_proposer n slot kept).trans (run_tryFrom_lookUp n.policy n.clock _ n.beacon slot kept _ _)

end Reads

variable {σ α : Type} {n : Network (StateM σ)}

/-- A read brings back no error but that of a run that was asked to stop. -/
def OnlyAbandons (clock : Clock (StateM σ)) (name : String)
    (read : Online (StateM σ) (Except NetworkFailure α)) : Prop :=
  ∀ kept left w w' f, (read.run kept).run.run w = (some (.error f, left), w') →
    clock.Stopped w' ∧ ∃ e, f = .abandoned name e

theorem run_of_map {β γ : Type} {x : StateM σ (Option β)} {g : β → γ} {c : γ} {w w' : σ}
    (hrun : (Option.map g <$> x).run w = (some c, w')) : ∃ b, x.run w = (some b, w') ∧ g b = c := by
  obtain ⟨⟨r, v⟩, hx⟩ : ∃ done, x.run w = done := ⟨_, rfl⟩
  rw [StateT.run_map, hx] at hrun
  obtain ⟨hr, rfl⟩ := Prod.mk.inj hrun
  obtain ⟨b, rfl, hb⟩ := Option.map_eq_some_iff.mp hr
  exact ⟨b, hx, hb⟩

theorem onlyAbandons_insist (hclock : n.clock.Honest) (hunlimited : n.policy.maxAttempts = 0)
    (name : String) (read : StateM σ (Except NetworkError α)) :
    OnlyAbandons n.clock name (n.insist name read) := by
  intro kept left w w' f hrun
  rw [run_insist] at hrun
  obtain ⟨r, hretry, hr⟩ := run_of_map hrun
  obtain ⟨rfl, rfl⟩ := Prod.mk.inj hr
  exact RetryPolicy.abandoned_of_unlimited hclock hunlimited hretry

theorem onlyAbandons_proposer (hclock : n.clock.Honest) (hunlimited : n.policy.maxAttempts = 0)
    (slot : Slot) : OnlyAbandons n.clock "proposal_duty" (n.proposer slot) := by
  intro kept left w w' f hrun
  rw [run_proposer] at hrun
  obtain ⟨r, hretry, hr⟩ := run_of_map hrun
  rcases r with e | ⟨i, duties⟩
  · obtain rfl := Except.error.inj (Prod.mk.inj hr).1
    exact RetryPolicy.abandoned_of_unlimited hclock hunlimited hretry
  · exact absurd (congrArg Prod.fst hr) nofun

/-- The reads of a chain bring back no errors but those of a run that was asked to stop, each by the
name that it goes by. -/
structure ChainOnlyAbandons (clock : Clock (StateM σ))
    (c : Chain NetworkFailure (Online (StateM σ))) : Prop where
  finalizedSlot : OnlyAbandons clock "finalized_slot" c.finalizedSlot
  block : ∀ slot, OnlyAbandons clock "block_at_slot" (c.block slot)
  proposer : ∀ slot, OnlyAbandons clock "proposal_duty" (c.proposer slot)
  receipts : ∀ number hashes,
    OnlyAbandons clock "header_and_receipts" (c.receipts number hashes)
  subscriptions : ∀ first last,
    OnlyAbandons clock "subscription_events" (c.subscriptions first last)
  unsubscriptions : ∀ first last,
    OnlyAbandons clock "unsubscription_events" (c.unsubscriptions first last)
  whitelisted : ∀ block address,
    OnlyAbandons clock "is_oracle_member" (c.whitelisted block address)
  validator : ∀ i slot, OnlyAbandons clock "validator" (c.validator i slot)

theorem chainOnlyAbandons (hclock : n.clock.Honest) (hunlimited : n.policy.maxAttempts = 0) :
    ChainOnlyAbandons n.clock n.chain where
  finalizedSlot := onlyAbandons_insist hclock hunlimited _ _
  block _ := onlyAbandons_insist hclock hunlimited _ _
  proposer := onlyAbandons_proposer hclock hunlimited
  receipts _ _ := onlyAbandons_insist hclock hunlimited _ _
  subscriptions _ _ := onlyAbandons_insist hclock hunlimited _ _
  unsubscriptions _ _ := onlyAbandons_insist hclock hunlimited _ _
  whitelisted _ _ := onlyAbandons_insist hclock hunlimited _ _
  validator _ _ := onlyAbandons_insist hclock hunlimited _ _

end Network

namespace RetryPolicy

/-- Attempts are made until one succeeds, and its value is what comes back; all before it failed. With a
limit there are no more attempts than it allows, and the error of the last of them comes back as it is.
The run comes back as abandoned only if it was asked to stop, with the error of the last attempt. Neither
the budget of attempts nor a count of them that starts over makes a difference, and the reads of the
chain, which have no limit, bring back an error only if the run was asked to stop. -/
theorem attempts_are_accounted {σ ε α : Type} (p : RetryPolicy) {clock : Clock (StateM σ)}
    (hclock : clock.Honest) (name : String) (operation : StateM σ (Except ε α)) :
    (∀ budget w, ∃ r w' outcomes,
      (p.retry clock budget name operation).run.run w = (r, w') ∧
        (p.trial clock budget name operation).run ⟨w, []⟩ = (r, ⟨w', outcomes⟩) ∧
        Tried p name budget (clock.Stopped w') outcomes r ∧
        (0 < p.maxAttempts →
          outcomes.length ≤ p.maxAttempts ∧ (p.maxAttempts ≤ budget → r.isSome)) ∧
        (r.isSome → ∀ more, (p.retry clock (budget + more) name operation).run.run w = (r, w'))) ∧
    (∀ (e : ε) (describe : ε → String), (RetryFailure.abandoned name e).texts describe =
      [name ++ " abandoned: shutdown requested", describe e]) ∧
    (p.maxAttempts < 2 ^ 32 → ∀ budget,
      p.countedFrom clock name operation budget 1 = p.retry clock budget name operation) ∧
    ∀ (host : Host (StateM σ)) (s : Settings) (c : PoolContract (StateM σ)) (budget : Nat),
      host.clock = clock →
        Network.ChainOnlyAbandons clock (Program.networkFor host s c budget).chain := by
  refine ⟨fun budget w => ?_, fun e describe => rfl,
    fun hrange budget => countedFrom_eq p hrange clock name operation budget (.inr rfl), ?_⟩
  · obtain ⟨r, w', outcomes, hrun, htrial, htried⟩ := tried_trial p hclock name operation budget w
    refine ⟨r, w', outcomes, hrun, htrial, htried, htried.of_limited, fun hr more => ?_⟩
    obtain ⟨result, rfl⟩ := Option.isSome_iff_exists.mp hr
    exact run_tryFrom_add hrun more
  · rintro host s c budget rfl
    exact Network.chainOnlyAbandons (n := Program.networkFor host s c budget) hclock rfl

end RetryPolicy

/-! The world counts the attempts, and the run is asked to stop when there were five. -/
namespace FiveAttempts

def clock : Clock (StateM Nat) where
  stopped := fun attempts => (decide (5 ≤ attempts), attempts)
  pause _ := fun attempts => (decide (attempts < 5), attempts)

/-- Fails with the number of the attempt until there were so many. -/
def failing (failures : Nat) : StateM Nat (Except Nat Nat) := fun attempts =>
  (if attempts < failures then .error (attempts + 1) else .ok (attempts + 1), attempts + 1)

theorem clock_honest : clock.Honest := by
  intro seconds w w' hpause
  obtain ⟨hcut, rfl⟩ := Prod.mk.inj hpause
  have hattempts : ¬ w < 5 := of_decide_eq_false hcut
  exact decide_eq_true (Nat.le_of_not_lt hattempts)

/-- No node can be reached. -/
def host : Host (StateM Nat) where
  fetch _ := fun attempts => (.unreachable, attempts + 1)
  connect _ := return .error (.unreadable "")
  wallet _ := ⟨.zero, fun _ => return []⟩
  disk _ :=
    { makeDirs := fun _ => return .ok ()
      isThere := fun _ => return false
      read := fun _ => return .error .notFound
      write := fun _ _ => return .ok ()
      rename := fun _ _ => return .ok () }
  clock := clock
  print _ := return ()

theorem fifth_attempt_is_the_last :
    let p : RetryPolicy := ⟨1, 0⟩
    clock.Honest ∧
      (p.retry clock 9 "read" (failing 3)).run.run 0 = (some (.ok 4), 4) ∧
      ((⟨1, 2⟩ : RetryPolicy).retry clock 9 "read" (failing 9)).run.run 0 =
        (some (.error (.exhausted 2)), 2) ∧
      (∃ outcomes, (p.trial clock 9 "read" (failing 9)).run ⟨0, []⟩ =
          (some (.error (.abandoned "read" 5)), ⟨5, outcomes⟩) ∧
        RetryPolicy.Tried p "read" 9 (clock.Stopped 5) outcomes
          (some (.error (.abandoned "read" 5)))) ∧
      p.countedFrom clock "read" (failing 9) 9 1 = p.retry clock 9 "read" (failing 9) ∧
      ∀ (s : Settings) (c : PoolContract (StateM Nat)),
        Network.ChainOnlyAbandons clock (Program.networkFor host s c 9).chain ∧
          (((Program.networkFor host s c 9).chain.finalizedSlot.run .empty).run.run 0).2 = 5 := by
  intro p
  obtain ⟨hattempts, -, hcounted, hchain⟩ :=
    RetryPolicy.attempts_are_accounted p clock_honest "read" (failing 9)
  obtain ⟨r, w', outcomes, hrun, htrial, htried, -⟩ := hattempts 9 0
  have hresult : (p.retry clock 9 "read" (failing 9)).run.run 0 =
      (some (.error (.abandoned "read" 5)), 5) := rfl
  obtain ⟨rfl, rfl⟩ := Prod.mk.inj (hrun.symm.trans hresult)
  exact ⟨clock_honest, rfl, rfl, ⟨outcomes, htrial, htried⟩, hcounted (by decide) 9,
    fun s c => ⟨hchain host s c 9 rfl, rfl⟩⟩

end FiveAttempts

end RewardPool
