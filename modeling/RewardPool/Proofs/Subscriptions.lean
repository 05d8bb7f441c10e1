import RewardPool.Proofs.BlockIncome
import RewardPool.Proofs.Conservation
import RewardPool.Proofs.Effects

/-!
What becomes of a subscription. The pool takes it from the withdrawal address that the chain knows
for the validator, for the configured collateral, and unless the validator is banned. The collateral
then is the validator's own, to be claimed with the next root; otherwise it is shared like a donation.
Subscriptions neither ban a validator nor lift a ban, so those of one block do not get in each
other's way: which of them are taken is settled before the first one.
-/
namespace RewardPool

def Validator.enrolled (v : Validator) (collateral : Wei) : Validator :=
  { v with
    status := if v.status.isSubscribed then v.status else .active
    collateral := v.collateral + collateral
    accumulated := v.accumulated + collateral }

theorem Validator.isSubscribed_enrolled (v : Validator) (collateral : Wei) :
    (v.enrolled collateral).status.isSubscribed = true := by
  show (if v.status.isSubscribed then v.status else .active).isSubscribed = true
  split
  · assumption
  · rfl

namespace Ledger

variable {l l' : Ledger} {config : Config} {s : Subscription} {identity : Option Identity}

/-- What the pool asks of a subscription. -/
structure Admits (l : Ledger) (config : Config) (s : Subscription) (identity : Option Identity) :
    Prop where
  collateral : s.collateral = config.collateral
  owner : ∃ id, identity = some id ∧ id.withdrawalAddress = some s.sender
  free : l.status s.validator ≠ .banned

theorem accepts_iff : l.accepts config s identity = true ↔ l.Admits config s identity := by
  constructor
  · intro h
    cases identity with
    | none => simp [accepts] at h
    | some id =>
      simp only [accepts, Bool.and_eq_true, decide_eq_true_eq] at h
      exact ⟨h.1, ⟨id, rfl, h.2.1⟩, h.2.2⟩
  · rintro ⟨hcollateral, ⟨id, rfl, howner⟩, hfree⟩
    simp [accepts, hcollateral, howner, hfree]

/-- A subscription that is taken changes the entry of its validator and nothing else. -/
theorem becomes_subscribe (hadmits : l.Admits config s identity)
    (h : l.subscribe config s identity = .ok l') :
    ∃ id, identity = some id ∧ l.Becomes l' s.validator
      (((l.find? s.validator).getD (.fresh s.sender id.pubkey)).enrolled s.collateral) := by
  have haccepts := accepts_iff.mpr hadmits
  rcases subscribe_eq_ok h with
    ⟨hrejects, -⟩ | ⟨-, hsubscribed, hadd⟩ | ⟨id, t, joined, -, hfree, rfl, hadvance, hadd⟩
  · exact absurd (haccepts.symm.trans hrejects) (by decide)
  · obtain ⟨id, rfl, -⟩ := hadmits.owner
    obtain ⟨v, hv⟩ := find?_of_isSubscribed hsubscribed
    rw [status_of_find? hv] at hsubscribed
    refine ⟨id, rfl, ?_⟩
    rw [hv, Option.getD_some, Validator.enrolled, if_pos hsubscribed]
    exact (becomes_self hv).addCollateral hadd
  · refine ⟨id, rfl, ?_⟩
    obtain ⟨hnext, hjoined⟩ := (l.becomes_track s.validator s.sender id.pubkey).advance hadvance
    obtain rfl := Status.eq_active_of_joins rfl hnext
    rw [Validator.enrolled, status_getD_fresh, hfree, if_neg Bool.false_ne_true]
    exact hjoined.addCollateral hadd

theorem distribute_of_subscribe (hadmits : ¬ l.Admits config s identity)
    (h : l.subscribe config s identity = .ok l') : l' = l.distribute s.collateral := by
  rcases subscribe_eq_ok h with ⟨-, hshared⟩ | ⟨haccepts, -⟩ | ⟨id, t, joined, haccepts, -⟩
  · exact hshared
  · exact absurd (accepts_iff.mp haccepts) hadmits
  · exact absurd (accepts_iff.mp haccepts) hadmits

/-- What a split leaves alone can be anything but a pending balance. -/
theorem find?_map_distribute {α : Type} {f : Validator → α}
    (hf : ∀ v pending, f { v with pending } = f v) (l : Ledger) (amount : Wei) (i : ValidatorIndex) :
    ((l.distribute amount).find? i).map f = (l.find? i).map f := by
  rw [find?_distribute, Option.map_map]
  congr 1
  funext v
  rw [Function.comp_apply, shared_eq, hf]

theorem status_distribute (l : Ledger) (amount : Wei) (i : ValidatorIndex) :
    (l.distribute amount).status i = l.status i :=
  status_congr (find?_map_distribute (fun _ _ => rfl) l amount i)

theorem banned_iff_of_subscribe (h : l.subscribe config s identity = .ok l') (i : ValidatorIndex) :
    l'.status i = .banned ↔ l.status i = .banned := by
  by_cases hadmits : l.Admits config s identity
  · obtain ⟨id, -, hbecomes⟩ := becomes_subscribe hadmits h
    by_cases hi : i = s.validator
    · subst hi
      have hsubscribed : (l'.status s.validator).isSubscribed = true := by
        rw [status_of_find? hbecomes.entry]
        exact Validator.isSubscribed_enrolled _ _
      have hafter : l'.status s.validator ≠ .banned := by
        intro hbanned
        rw [hbanned] at hsubscribed
        exact absurd hsubscribed (by decide)
      exact iff_of_false hafter hadmits.free
    · rw [status_congr (congrArg _ (hbecomes.others i hi))]
  · rw [distribute_of_subscribe hadmits h, status_distribute]

theorem accepts_of_subscribe (h : l.subscribe config s identity = .ok l') (t : Subscription)
    (known : Option Identity) : l'.accepts config t known = l.accepts config t known := by
  unfold accepts
  simp only [ne_eq, banned_iff_of_subscribe h]

/-- A quantity that grows by the collateral of a subscription that is taken, and else by nothing that
a subscription does. -/
structure CountsCollateral (f : Validator → Wei) : Prop where
  fresh : ∀ address pubkey, f (.fresh address pubkey) = 0
  enrolled : ∀ v collateral, f (v.enrolled collateral) = f v + collateral
  pending : ∀ v pending, f { v with pending } = f v

/-- What a validator has of some quantity; one that is not tracked has none. -/
def tally (l : Ledger) (f : Validator → Wei) (i : ValidatorIndex) : Wei := ((l.find? i).map f).getD 0

theorem tally_subscribe {f : Validator → Wei} (hf : CountsCollateral f)
    (h : l.subscribe config s identity = .ok l') (i : ValidatorIndex) :
    l'.tally f i = l.tally f i +
      if s.validator = i && l.accepts config s identity then s.collateral else 0 := by
  unfold tally
  by_cases hadmits : l.Admits config s identity
  · obtain ⟨id, -, hbecomes⟩ := becomes_subscribe hadmits h
    rw [accepts_iff.mpr hadmits, Bool.and_true]
    by_cases hi : i = s.validator
    · subst hi
      rw [hbecomes.entry, decide_eq_true rfl, if_pos rfl, Option.map_some, Option.getD_some,
        hf.enrolled]
      cases l.find? s.validator with
      | some v => rfl
      | none => rw [Option.getD_none, hf.fresh, Option.map_none, Option.getD_none]
    · rw [hbecomes.others i hi, decide_eq_false (Ne.symm hi), if_neg Bool.false_ne_true, add_zero]
  · rw [distribute_of_subscribe hadmits h, find?_map_distribute hf.pending,
      Bool.eq_false_iff.mpr (mt accepts_iff.mp hadmits), Bool.and_false,
      if_neg Bool.false_ne_true, add_zero]

/-- Every validator is credited with those of its subscriptions that the ledger accepts before the
first of all. -/
theorem tally_postAll {f : Validator → Wei} (hf : CountsCollateral f)
    {known : List (Subscription × Option Identity)}
    (h : l.postAll config (known.map fun e => .subscription e.1 e.2) = .ok l') (i : ValidatorIndex) :
    l'.tally f i = l.tally f i +
      ((known.filter fun e => e.1.validator = i && l.accepts config e.1 e.2).map
        (·.1.collateral)).sum := by
  induction known generalizing l with
  | nil =>
    obtain rfl := Except.ok.inj h
    exact (add_zero _).symm
  | cons e rest ih =>
    rw [List.map_cons] at h
    obtain ⟨m, hpost, hrest⟩ := postAll_cons.mp h
    have hjudged : ∀ t : Subscription × Option Identity,
        m.accepts config t.1 t.2 = l.accepts config t.1 t.2 :=
      fun t => accepts_of_subscribe hpost t.1 t.2
    have hfirst : m.tally f i = l.tally f i +
        if e.1.validator = i && l.accepts config e.1 e.2 then e.1.collateral else 0 :=
      tally_subscribe hf hpost i
    rw [ih hrest, hfirst, List.filter_cons]
    simp only [hjudged]
    split
    · rw [List.map_cons, List.sum_cons, add_assoc]
    · rw [add_zero]

end Ledger

namespace Reconcile

variable {σ ε : Type}

/-- Whatever the chain answers about its validator, a subscription is logged once and its collateral is
kept in full: it goes to the validator if the subscription is admitted, and is shared otherwise. -/
theorem subscription_is_taken_or_shared (config : Config) (chain : Chain ε (StateM σ)) (slot : Slot)
    (l : Ledger) (s : Subscription) {identity : Option Identity} {w w' : σ}
    (hanswer : (chain.validator s.validator slot).run w = (.ok identity, w')) :
    let logged := { l with subscriptions := l.subscriptions ++ [s] }
    ∃ l', (settleSubscription config chain slot l s).run.run w = (.ok l', w') ∧
      l'.held = l.held + s.collateral ∧
      (l.Admits config s identity → ∃ id, identity = some id ∧
        logged.Becomes l' s.validator
          (((l.find? s.validator).getD (.fresh s.sender id.pubkey)).enrolled s.collateral)) ∧
      (¬ l.Admits config s identity → l' = logged.distribute s.collateral ∧
        ∀ i, l'.status i = l.status i ∧
          (l'.find? i).map (·.accumulated) = (l.find? i).map (·.accumulated)) := by
  intro logged
  obtain ⟨l', hsubscribe⟩ := logged.exists_subscribe config s identity
  have hpost : l.post config (.subscription s identity) = .ok l' := hsubscribe
  refine ⟨l', ?_, Ledger.held_post hpost, fun hadmits => ?_, fun hrejected => ?_⟩
  · have hasked : (ask (chain.validator s.validator slot)).run.run w = (.ok identity, w') :=
      run_bind_eq hanswer
    unfold settleSubscription
    rw [ExceptT.run_bind, run_bind_eq hasked]
    change (must (logged.subscribe config s identity) : Step ε (StateM σ) Ledger).run.run w' = _
    rw [hsubscribe]
    rfl
  · have hadmits' : logged.Admits config s identity := ⟨hadmits.1, hadmits.2, hadmits.3⟩
    exact Ledger.becomes_subscribe hadmits' hsubscribe
  · have hrejected' : ¬ logged.Admits config s identity := fun h => hrejected ⟨h.1, h.2, h.3⟩
    have hshared := Ledger.distribute_of_subscribe hrejected' hsubscribe
    refine ⟨hshared, fun i => ?_⟩
    rw [hshared]
    exact ⟨logged.status_distribute _ i,
      Ledger.find?_map_distribute (fun _ _ => rfl) logged _ i⟩

/-- The subscriptions of one block credit each validator with the collaterals that the pool takes, in
whatever order they come and however many of them name the same validator. -/
theorem subscriptions_add_up {config : Config} {chain : Chain ε (StateM σ)} {slot : Slot}
    {l l' : Ledger} {events : List Subscription}
    (h : Succeeds (events.foldlM (settleSubscription config chain slot) l) l') :
    ∃ known : List (Subscription × Option Identity), known.map (·.1) = events ∧
      (∀ e ∈ known, Returns (chain.validator e.1.validator slot) (.ok e.2)) ∧
      ∀ i,
        let taken := known.filter fun e => e.1.validator = i && l.accepts config e.1 e.2
        l'.tally (·.collateral) i = l.tally (·.collateral) i + (taken.map (·.1.collateral)).sum ∧
        l'.tally (·.accumulated) i = l.tally (·.accumulated) i + (taken.map (·.1.collateral)).sum := by
  obtain ⟨known, hknown, hanswers, hposts⟩ := settleSubscriptions_succeed h
  refine ⟨known, hknown, hanswers, fun i => ⟨?_, ?_⟩⟩
  · exact Ledger.tally_postAll ⟨fun _ _ => rfl, fun _ _ => rfl, fun _ _ => rfl⟩ hposts i
  · exact Ledger.tally_postAll ⟨fun _ _ => rfl, fun _ _ => rfl, fun _ _ => rfl⟩ hposts i

end Reconcile

namespace SubscribeCall

open Reconcile

def left : Ledger :=
  let absent : Validator :=
    { Validator.fresh (.fill 0x10) .zero with
      status := .notSubscribed, accumulated := 7, collateral := 1000 }
  let active : Validator := { Validator.fresh (.fill 0x20) .zero with status := .active }
  { Ledger.fresh config with validators := (SortedMap.empty.insert 0 absent).insert 1 active }

/-- Its own address brings it back; another one only pays the active validator. -/
theorem left_validator_returns :
    let chain : Chain Empty (StateM Unit) := history.chain
    let stray := { event with sender := .fill 0x11 }
    (∃ l', (settleSubscription config chain 100 left event).run.run () = (.ok l', ()) ∧
      (l'.find? 0).map (fun v => (v.status, v.accumulated, v.collateral)) =
        some (.active, 1007, 2000) ∧
      l'.find? 1 = left.find? 1) ∧
    ∃ l', (settleSubscription config chain 100 left stray).run.run () = (.ok l', ()) ∧
      l'.status 0 = .notSubscribed ∧
      (l'.find? 1).map (fun v => (v.accumulated, v.pending)) = some (0, 1000) := by
  have hanswer : ((history.chain : Chain Empty (StateM Unit)).validator 0 100).run () =
    (.ok (some ⟨0, .zero, some (.fill 0x10)⟩), ()) := rfl
  constructor
  · obtain ⟨l', hrun, -, htaken, -⟩ :=
      subscription_is_taken_or_shared config _ 100 left event hanswer
    obtain ⟨id, hid, hbecomes⟩ := htaken (Ledger.accepts_iff.mp (by decide))
    obtain rfl := Option.some.inj hid
    refine ⟨l', hrun, ?_, hbecomes.others 1 (by decide)⟩
    rw [show l'.find? 0 = _ from hbecomes.entry]
    decide
  · obtain ⟨l', hrun, -, -, hshared⟩ :=
      subscription_is_taken_or_shared config _ 100 left { event with sender := .fill 0x11 } hanswer
    obtain ⟨rfl, hkept⟩ := hshared (Ledger.accepts_iff.not.mp (by decide))
    exact ⟨_, hrun, (hkept 0).1, by decide⟩

end SubscribeCall

end RewardPool
