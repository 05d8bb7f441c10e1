import RewardPool.Proofs.Hearings
import RewardPool.Proofs.Progress
import RewardPool.Proofs.Standings

/-!
Whom a validator is paid at. Subscriptions are checked against the address that the chain names at the
time, requests to leave and payouts against the one that was named when the validator was first
tracked. As long as the chain never names two addresses for one validator, these are one address. So
whoever subscribes a validator pays the collateral into its own leaf, and nobody else can end the
subscription.
-/
namespace RewardPool

open Merkle (Digest)

namespace Ledger

variable {l l' m : Ledger} {i : ValidatorIndex} {a : Address} {amount : Wei} {v : Validator}
variable {config : Config}

theorem getD_find?_balances (l : Ledger) (a : Address) :
    (l.balances.find? a).getD 0 = l.owed a := by
  rw [find?_balances]
  by_cases ha : a ∈ l.payments.map (·.1)
  · rw [if_pos ha, Option.getD_some]
  · rw [if_neg ha, Option.getD_none, ← paidTo_payments, paidTo_of_notMem ha]

theorem addBalance_addBalance (balances : SortedMap Address Wei) (a : Address) (x y : Wei) :
    addBalance (addBalance balances a x) a y = addBalance balances a (x + y) := by
  apply SortedMap.ext_find?
  intro b
  rw [find?_addBalance, find?_addBalance, find?_addBalance, find?_addBalance, if_pos rfl]
  by_cases hb : a = b
  · rw [if_pos hb, if_pos hb, Option.getD_some, add_assoc]
  · rw [if_neg hb, if_neg hb, if_neg hb]

/-- What is owed to one address more is added to its balance. -/
theorem balances_of_owed
    (hpayees : ∀ b, b ∈ l'.payments.map (·.1) ↔ b ∈ l.payments.map (·.1) ∨ a = b)
    (howed : ∀ b, l'.owed b = l.owed b + if a = b then amount else 0) :
    l'.balances = addBalance l.balances a amount := by
  apply SortedMap.ext_find?
  intro b
  rw [find?_addBalance, getD_find?_balances, find?_balances, howed]
  by_cases hb : a = b
  · subst hb
    rw [if_pos ((hpayees a).mpr (.inr rfl)), if_pos rfl, if_pos rfl]
  · rw [if_neg hb, if_neg hb, add_zero, find?_balances]
    congr 1
    simp [hpayees, hb]

theorem payees_update {f : Validator → Validator}
    (haddress : ∀ v, (f v).withdrawalAddress = v.withdrawalAddress) :
    (l.update i f).payments.map (·.1) = l.payments.map (·.1) := by
  unfold payments update SortedMap.modify SortedMap.values SortedMap.map
  simp only [List.map_append, List.map_map]
  congr 1
  apply List.map_congr_left
  intro e _
  dsimp only [Function.comp]
  split
  · exact haddress e.2
  · rfl

theorem owed_update (hv : l.find? i = some v) {f : Validator → Validator}
    (haddress : (f v).withdrawalAddress = v.withdrawalAddress)
    (haccumulated : (f v).accumulated = v.accumulated + amount) (b : Address) :
    (l.update i f).owed b = l.owed b + if v.withdrawalAddress = b then amount else 0 := by
  have hmoved := l.validators.total_modify i f
    (fun v => if v.withdrawalAddress = b then v.accumulated else 0) hv
  have hpart : (if (f v).withdrawalAddress = b then (f v).accumulated else 0) =
      (if v.withdrawalAddress = b then v.accumulated else 0) +
        if v.withdrawalAddress = b then amount else 0 := by
    rw [haddress, haccumulated]
    split
    · rfl
    · exact (add_zero 0).symm
  rw [hpart, ← add_assoc, add_right_comm] at hmoved
  have htotal := add_right_cancel hmoved
  unfold owed
  show (l.validators.modify i f).total _ + _ = _
  rw [htotal, add_right_comm]
  rfl

theorem balances_update (hv : l.find? i = some v) {f : Validator → Validator}
    (haddress : ∀ v, (f v).withdrawalAddress = v.withdrawalAddress)
    (haccumulated : (f v).accumulated = v.accumulated + amount) :
    (l.update i f).balances = addBalance l.balances v.withdrawalAddress amount := by
  refine balances_of_owed (fun b => ?_) (owed_update hv (haddress v) haccumulated)
  rw [payees_update haddress]
  constructor
  · exact .inl
  · rintro (hb | rfl)
    · exact hb
    · exact mem_payees_iff.mpr (.inl ⟨i, v, hv, rfl⟩)

/-- A validator that is tracked adds nothing to the balance of its address, which may be new. -/
theorem balances_track (hnew : l.find? i = none) (a : Address) (pubkey : Pubkey) :
    (l.track i a pubkey).balances = addBalance l.balances a 0 := by
  have htrack : l.track i a pubkey =
      { l with validators := l.validators.insert i (.fresh a pubkey) } := by
    unfold track
    rw [hnew]
  rw [htrack]
  have hfind : ∀ j, ({ l with validators := l.validators.insert i (.fresh a pubkey) } :
      Ledger).find? j = if i = j then some (.fresh a pubkey) else l.find? j :=
    fun j => SortedMap.find?_insert l.validators i j _
  apply balances_of_owed
  · intro b
    rw [mem_payees_iff, mem_payees_iff]
    constructor
    · rintro (⟨j, u, hu, rfl⟩ | hfee)
      · rw [hfind] at hu
        by_cases hj : i = j
        · rw [if_pos hj] at hu
          exact .inr (by rw [← Option.some.inj hu]; rfl)
        · rw [if_neg hj] at hu
          exact .inl (.inl ⟨j, u, hu, rfl⟩)
      · exact .inl (.inr hfee)
    · rintro ((⟨j, u, hu, rfl⟩ | hfee) | rfl)
      · have hj : i ≠ j := by
          rintro rfl
          exact absurd (hnew.symm.trans hu) (by simp)
        exact .inl ⟨j, u, by rw [hfind, if_neg hj, hu], rfl⟩
      · exact .inr hfee
      · exact .inl ⟨i, .fresh a pubkey, by rw [hfind, if_pos rfl], rfl⟩
  · intro b
    have hinserted := l.validators.total_insert i (.fresh a pubkey)
      (fun v => if v.withdrawalAddress = b then v.accumulated else 0) hnew
    have hnothing : (if (Validator.fresh a pubkey).withdrawalAddress = b then
        (Validator.fresh a pubkey).accumulated else (0 : Wei)) = 0 := by
      split <;> rfl
    rw [hnothing, add_zero] at hinserted
    unfold owed
    rw [hinserted]
    split <;> simp

theorem balances_advance {e : Event} {s : Status} (h : l.advance i e = .ok (s, m)) :
    m.balances = l.balances := by
  obtain ⟨v, hv, -, hm⟩ := advance_eq_ok.mp h
  have hpayees : m.payments.map (·.1) = l.payments.map (·.1) := by
    rw [hm]
    exact payees_update fun _ => rfl
  have howed : ∀ b, m.owed b = l.owed b + if v.withdrawalAddress = b then 0 else 0 := by
    rw [hm]
    exact owed_update hv rfl (add_zero v.accumulated).symm
  apply SortedMap.ext_find?
  intro b
  rw [find?_balances, find?_balances, hpayees, howed]
  simp

theorem balances_addCollateral (h : l.addCollateral i amount = .ok m) :
    ∃ v, l.find? i = some v ∧ m.balances = addBalance l.balances v.withdrawalAddress amount ∧
      ∃ u, m.find? i = some u ∧ u.withdrawalAddress = v.withdrawalAddress := by
  obtain ⟨v, hv, rfl⟩ := addCollateral_eq_ok.mp h
  refine ⟨v, hv, balances_update hv (fun _ => rfl) rfl, ?_⟩
  rw [find?_update, if_pos rfl, hv]
  exact ⟨_, rfl, rfl⟩

/-- A subscription that is accepted adds its collateral to the balance of its sender, if that is where
the validator was paid before. -/
theorem balances_subscribe {sub : Subscription} {identity : Option Identity}
    (haccepts : l.accepts config sub identity = true)
    (howner : ∀ v, l.find? sub.validator = some v → v.withdrawalAddress = sub.sender)
    (h : l.subscribe config sub identity = .ok l') :
    l'.balances = addBalance l.balances sub.sender sub.collateral ∧
      ∃ v, l'.find? sub.validator = some v ∧ v.withdrawalAddress = sub.sender := by
  rcases subscribe_eq_ok h with
    ⟨hrejects, -⟩ | ⟨-, -, hadd⟩ | ⟨id, t, joined, -, -, rfl, hadvance, hadd⟩
  · exact absurd (haccepts.symm.trans hrejects) (by decide)
  · obtain ⟨v, hv, hbalances, hafter⟩ := balances_addCollateral hadd
    rw [howner v hv] at hbalances hafter
    exact ⟨hbalances, hafter⟩
  · have hjoined : (joined.standing sub.validator).address = some sub.sender := by
      obtain ⟨-, hstanding⟩ := standing_advance hadvance
      rw [hstanding, standing_track, Function.update_self, Function.update_self]
      cases haddress : (l.standing sub.validator).address with
      | none => rfl
      | some a =>
        obtain ⟨v, hv, rfl⟩ := address_standing.mp haddress
        exact congrArg some (howner v hv)
    obtain ⟨u, hu, hsender⟩ := address_standing.mp hjoined
    obtain ⟨v, hv, hbalances, hafter⟩ := balances_addCollateral hadd
    obtain rfl : u = v := Option.some.inj (hu.symm.trans hv)
    rw [hsender] at hbalances hafter
    refine ⟨?_, hafter⟩
    rw [hbalances, balances_advance hadvance]
    cases hnew : l.find? sub.validator with
    | none => rw [balances_track hnew, addBalance_addBalance, zero_add]
    | some v =>
      have hsame : l.track sub.validator sub.sender id.pubkey = l := by
        unfold track
        rw [hnew]
      rw [hsame]

end Ledger

/-- The answers name an address for a validator. -/
def Names (answers : List Answer) (i : ValidatorIndex) (a : Address) : Prop :=
  ∃ slot id, .validator i slot (some id) ∈ answers ∧ id.withdrawalAddress = some a

/-- An identity that an entry brings with it is one of the answers. -/
def Entry.Heard (answers : List Answer) : Entry → Prop
  | .proposal b _ identity => ∀ id ∈ identity, ∃ slot, .validator b.proposer slot (some id) ∈ answers
  | .subscription s identity => ∀ id ∈ identity, ∃ slot, .validator s.validator slot (some id) ∈ answers
  | .missed .. | .donation _ | .unsubscription _ | .closing .. => True

theorem SlotAccount.Told.heard {a : SlotAccount} {pool : Address} {answers heard : List Answer}
    {slot : Slot} (ha : a.Told pool answers slot) (hsub : answers ⊆ heard) :
    ∀ e ∈ a.entries slot, e.Heard heard := by
  intro e he
  cases ha.entry e he with
  | @proposal b reward identity hproposer hblock hidentity =>
    intro id hid
    rcases hidentity with hnone | hanswer
    · exact absurd (hnone.symm.trans hid) (by simp)
    · exact ⟨b.slot, hsub (hid ▸ hanswer)⟩
  | subscription hblock hevents hs hidentity =>
    intro id hid
    exact ⟨slot, hsub (hid ▸ hidentity)⟩
  | missed | donation | unsubscription | closing => trivial

theorem Status.eq_unsubscribe_of_next? {s : Status} {e : Event} :
    s.next? e = some .notSubscribed → e = .unsubscribe := by
  cases s <;> cases e <;> simp [next?]

namespace Ledger

variable {l l' m m' : Ledger} {config : Config} {answers : List Answer} {entry : Entry}

/-- Every validator is tracked with an address that was named for it. -/
def Named (answers : List Answer) (l : Ledger) : Prop :=
  ∀ i v, l.find? i = some v → Names answers i v.withdrawalAddress

theorem named_iff : l.Named answers ↔ ∀ i a, (l.standing i).address = some a → Names answers i a := by
  constructor
  · intro hl i a ha
    obtain ⟨v, hv, rfl⟩ := address_standing.mp ha
    exact hl i v hv
  · intro hl i v hv
    exact hl i _ (address_standing.mpr ⟨v, hv, rfl⟩)

/-- Whoever is tracked by a posting is tracked with an address that was named for it, and nobody else
gets another address. -/
theorem Named.post (hl : l.Named answers) (hentry : entry.Heard answers)
    (h : l.post config entry = .ok l') : l'.Named answers := by
  rw [named_iff] at hl ⊢
  intro j b hb
  cases posted_post h with
  | still new hnew hstanding hblocks =>
    rw [hstanding] at hb
    exact hl j b hb
  | @turned i e given new hturn hturns =>
    obtain ⟨⟨s, hnext, hstanding⟩, -⟩ := hturns
    rw [hstanding] at hb
    by_cases hj : j = i
    · subst hj
      rw [Function.update_self] at hb
      rcases Option.or_eq_some_iff.mp hb with hold | ⟨-, hgiven⟩
      · exact hl j b hold
      · cases hturn with
        | missed => exact absurd hgiven (by simp)
        | rewarded => exact absurd hgiven (by simp)
        | strayed => exact absurd hgiven (by simp)
        | left howner => exact absurd hgiven (by simp)
        | joined haddress =>
          obtain rfl := Option.some.inj hgiven
          obtain ⟨slot, hanswer⟩ := hentry _ rfl
          exact ⟨slot, _, hanswer, haddress⟩
        | subscribed haddress =>
          obtain rfl := Option.some.inj hgiven
          obtain ⟨slot, hanswer⟩ := hentry _ rfl
          exact ⟨slot, _, hanswer, haddress⟩
    · rw [Function.update_of_ne hj] at hb
      exact hl j b hb

/-- What a posting may do for whom. A subscription is accepted only from the address that was named for
the validator, and adds its collateral to the balance of that address. A subscription ends only at the
request of that address. Any other request to leave is logged, and that is all. -/
structure Authorised (config : Config) (answers : List Answer) (l : Ledger) (entry : Entry)
    (l' : Ledger) : Prop where
  accepted : ∀ sub identity, entry = .subscription sub identity →
    l.accepts config sub identity = true →
      Names answers sub.validator sub.sender ∧
      (∃ v, l'.find? sub.validator = some v ∧ v.withdrawalAddress = sub.sender) ∧
      l'.balances = addBalance l.balances sub.sender sub.collateral
  ended : ∀ i, (l.status i).isSubscribed = true → l'.status i = .notSubscribed →
    ∃ u, entry = .unsubscription u ∧ u.validator = i ∧ Names answers i u.sender
  ignored : ∀ u, entry = .unsubscription u →
    ¬ ((l.status u.validator).isSubscribed = true ∧ Names answers u.validator u.sender) →
      l' = { l with unsubscriptions := l.unsubscriptions ++ [u] }

theorem Named.accepted (hone : ∀ i a b, Names answers i a → Names answers i b → a = b)
    (hl : l.Named answers) {sub : Subscription} {identity : Option Identity}
    (hentry : (Entry.subscription sub identity).Heard answers)
    (haccepts : l.accepts config sub identity = true)
    (h : l.post config (.subscription sub identity) = .ok l') :
    Names answers sub.validator sub.sender ∧
      (∃ v, l'.find? sub.validator = some v ∧ v.withdrawalAddress = sub.sender) ∧
      l'.balances = addBalance l.balances sub.sender sub.collateral := by
  cases identity with
  | none => exact absurd haccepts (by simp [accepts])
  | some id =>
    obtain ⟨slot, hanswer⟩ := hentry id rfl
    have hnames : Names answers sub.validator sub.sender :=
      ⟨slot, id, hanswer, sender_of_accepts haccepts⟩
    have howner : ∀ v, l.find? sub.validator = some v → v.withdrawalAddress = sub.sender :=
      fun v hv => hone _ _ _ (hl sub.validator v hv) hnames
    have haccepts' : { l with subscriptions := l.subscriptions ++ [sub] }.accepts config sub (some id) =
        true := haccepts
    obtain ⟨hbalances, hafter⟩ := balances_subscribe haccepts' howner h
    exact ⟨hnames, hafter, hbalances⟩

theorem Named.ended (hl : l.Named answers) (h : l.post config entry = .ok l') {i : ValidatorIndex}
    (hbefore : (l.status i).isSubscribed = true) (hafter : l'.status i = .notSubscribed) :
    ∃ u, entry = .unsubscription u ∧ u.validator = i ∧ Names answers i u.sender := by
  have hchanged : (l'.standing i).status ≠ (l.standing i).status := by
    rw [status_standing, status_standing, hafter]
    intro hsame
    rw [← hsame] at hbefore
    exact absurd hbefore (by decide)
  cases posted_post h with
  | still new hnew hstanding hblocks => exact absurd (by rw [hstanding]) hchanged
  | @turned j e given new hturn hturns =>
    obtain ⟨⟨s, hnext, hstanding⟩, -⟩ := hturns
    by_cases hi : i = j
    · subst hi
      have hs : s = .notSubscribed := by
        rw [← hafter, ← status_standing, hstanding, Function.update_self]
        rfl
      rw [hs] at hnext
      obtain rfl := Status.eq_unsubscribe_of_next? hnext
      cases hturn with
      | left howner => exact ⟨_, rfl, rfl, named_iff.mp hl _ _ howner⟩
    · rw [hstanding, Function.update_of_ne hi] at hchanged
      exact absurd rfl hchanged

theorem Named.ignored (hl : l.Named answers) {u : Unsubscription}
    (h : l.post config (.unsubscription u) = .ok l')
    (hforeign : ¬ ((l.status u.validator).isSubscribed = true ∧
      Names answers u.validator u.sender)) :
    l' = { l with unsubscriptions := l.unsubscriptions ++ [u] } := by
  rcases unsubscribe_eq_ok h with hlogged | ⟨v, s, left, d, hv, howner, hadvance, -⟩
  · exact hlogged
  · obtain ⟨v', hv', hnext, -⟩ := advance_eq_ok.mp hadvance
    have hsubscribed := v'.status.isSome_next? .unsubscribe
    rw [hnext] at hsubscribed
    have hstatus : l.status u.validator = v'.status := status_of_find? hv'
    rw [hstatus] at hforeign
    exact absurd ⟨hsubscribed.symm, howner ▸ hl u.validator v hv⟩ hforeign

theorem Named.authorised (hone : ∀ i a b, Names answers i a → Names answers i b → a = b)
    (hl : l.Named answers) (hentry : entry.Heard answers) (h : l.post config entry = .ok l') :
    l.Authorised config answers entry l' where
  accepted sub identity heq haccepts := by
    subst heq
    exact hl.accepted hone hentry haccepts h
  ended _ hbefore hafter := hl.ended h hbefore hafter
  ignored u heq hforeign := by
    subst heq
    exact hl.ignored h hforeign

end Ledger

namespace Oracle

variable {σ ε : Type}

/-- The account that a call was told, each posting of which is authorised. -/
def Hearing.Authorised (heard : List Answer) (t : Hearing ε) (a : SlotAccount) : Prop :=
  a.Told t.before.config.poolAddress t.answers t.slot ∧
  t.before.ledger.postAll t.before.config (a.entries t.slot) = .ok t.after.ledger ∧
  ∀ first entry rest l l', a.entries t.slot = first ++ entry :: rest →
    t.before.ledger.postAll t.before.config first = .ok l →
    l.post t.before.config entry = .ok l' → l.Authorised t.before.config heard entry l'

/-- In a run from a fresh ledger in which the chain never names two addresses for one validator, every
validator is tracked with the address that was named for it. Each call leaves the ledger as it was, or
posts an account that it was told, and does for each entry of it only what that address may ask for. -/
theorem owners_are_in_control (h : Digest) (chain : Chain ε (StateM σ))
    (submitter : Option (Submitter ε (StateM σ))) (start : Oracle)
    (hstart : start.ledger = .fresh start.config) (slots : List Slot) (w : σ)
    (hone : ∀ i a b, Names (heard h chain submitter slots start w) i a →
      Names (heard h chain submitter slots start w) i b → a = b) :
    let run := hearings h chain submitter slots start w
    let answers := heard h chain submitter slots start w
    let last := ((processAll h chain submitter slots start).run w).1
    run.map (·.toCall) = calls h chain submitter slots start w ∧
    run.map (·.before) ++ [last] = start :: run.map (·.after) ∧
    (∀ i v, last.ledger.find? i = some v → Names answers i v.withdrawalAddress) ∧
    ∀ t ∈ run,
      (∀ i v, t.after.ledger.find? i = some v → Names answers i v.withdrawalAddress) ∧
      (t.after.ledger = t.before.ledger ∨ ∃ a, t.Authorised answers a) := by
  intro run answers last
  have hentries : ∀ t ∈ run, ∀ (a : SlotAccount) (pool : Address), a.Told pool t.answers t.slot →
      ∀ e ∈ a.entries t.slot, e.Heard answers :=
    fun t ht a pool ha => ha.heard fun answer hanswer => List.mem_flatMap.mpr ⟨t, ht, hanswer⟩
  have hstep : ∀ t ∈ run, t.slot ∈ slots → t.Accounted →
      t.before.ledger.Named answers → t.after.ledger.Named answers := by
    intro t ht _ haccounted hbefore
    rcases haccounted.ledger with hkept | ⟨-, a, htold, hposts⟩
    · rwa [hkept]
    · exact Ledger.postAll_induction_mem
        (fun m m' e he hm hpost => hm.post (hentries t ht a _ htold e he) hpost) hbefore hposts
  have hfresh : start.ledger.Named answers := by
    intro i v hv
    rw [hstart] at hv
    exact absurd hv (by simp [Ledger.fresh, Ledger.find?, SortedMap.find?, SortedMap.empty,
      SortedMap.lookup])
  obtain ⟨hcalls, hlast⟩ := hearings_induction (P := fun o => o.ledger.Named answers) hstep hfresh
  refine ⟨calls_of_hearings .., before_of_hearings .., hlast, fun t ht => ?_⟩
  obtain ⟨haccounted, hbefore, hafter⟩ := hcalls t ht
  refine ⟨hafter, haccounted.ledger.imp_right ?_⟩
  rintro ⟨-, a, htold, hposts⟩
  refine ⟨a, htold, hposts, ?_⟩
  intro first entry rest l l' hsplit hfirst hpost
  have hheard := hentries t ht a _ htold
  rw [hsplit] at hheard
  have hl : l.Named answers := Ledger.postAll_induction_mem
    (fun m m' e he hm hpost => hm.post (hheard e (List.mem_append_left _ he)) hpost) hbefore hfirst
  exact hl.authorised hone (hheard entry (by simp)) hpost

end Oracle

/-! After the subscription a stranger asks to end it, and in the slot after that the owner does. -/
namespace SubscribeCall

def request (sender : Address) (number : BlockNumber) : Unsubscription where
  validator := 0
  sender := sender
  block := number
  logIndex := 0
  transaction := .fill 0x0e

def contested : History :=
  { history with
    block := fun slot =>
      if slot = 100 then some block
      else some { block with slot, number := slot + 900, transactions := [] }
    subscriptions := fun first _ => if first = 1000 then [event] else []
    unsubscriptions := fun first _ =>
      if first = 1001 then [request (.fill 0x20) 1001]
      else if first = 1002 then [request (.fill 0x10) 1002]
      else [] }

def named? : Answer → Option Address
  | .validator _ _ identity => identity.bind (·.withdrawalAddress)
  | .block .. | .proposer .. | .receipts .. | .subscriptions .. | .unsubscriptions .. => none

/-- A run of the contested slots. -/
def told (slots : List Slot) : List Answer :=
  Oracle.heard Keccak.digest (contested.chain : Chain Empty (StateM Unit)) none slots
    (.start config (.fresh config)) ()

theorem one_address (i : ValidatorIndex) (a b : Address) (ha : Names (told [100, 101, 102]) i a)
    (hb : Names (told [100, 101, 102]) i b) : a = b := by
  have hnone : ∀ answer ∈ told [100, 101, 102],
      named? answer = none ∨ named? answer = some (.fill 0x10) := by decide
  have hsame : ∀ a, Names (told [100, 101, 102]) i a → a = .fill 0x10 := by
    rintro a ⟨slot, id, hanswer, haddress⟩
    rcases hnone _ hanswer with h | h
    · exact absurd (haddress.symm.trans h) (by simp)
    · exact Option.some.inj (haddress.symm.trans h)
  rw [hsame a ha, hsame b hb]

theorem only_owner_unsubscribes :
    let chain : Chain Empty (StateM Unit) := contested.chain
    let start : Oracle := .start config (.fresh config)
    let after slots := ((Oracle.processAll Keccak.digest chain none slots start).run ()).1.ledger
    start.ledger = .fresh start.config ∧
      (∀ i a b, Names (told [100, 101, 102]) i a → Names (told [100, 101, 102]) i b → a = b) ∧
      (after [100, 101]).status 0 = .active ∧ (after [100, 101, 102]).status 0 = .notSubscribed ∧
      ∃ v, (after [100, 101, 102]).find? 0 = some v ∧
        Names (told [100, 101, 102]) 0 v.withdrawalAddress := by
  intro chain start after
  obtain ⟨-, -, hnamed, -⟩ := Oracle.owners_are_in_control Keccak.digest chain none start rfl
    [100, 101, 102] () one_address
  have htracked : ((after [100, 101, 102]).find? 0).isSome = true := by decide
  obtain ⟨v, hv⟩ := Option.isSome_iff_exists.mp htracked
  exact ⟨rfl, one_address, by decide, by decide, v, hv, hnamed 0 v hv⟩

end SubscribeCall

end RewardPool
