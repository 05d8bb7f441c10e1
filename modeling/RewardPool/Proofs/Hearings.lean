import RewardPool.Proofs.Erasures
import RewardPool.Proofs.Submissions

/-!
What a run is told. The answers of the chain are recorded call by call, in the order in which they
were given, and to record them changes nothing. A slot that goes through then posts the entries of an
account that is made of the answers to this very call. So a property of the answers that a run got is
enough to say something about its ledgers; what the chain could have answered otherwise is no matter.
-/
namespace RewardPool

open Merkle (Digest)

/-- An answer of the chain to one of the questions about a slot. -/
inductive Answer where
  | block (slot : Slot) (block : Option ProposedBlock)
  | proposer (slot : Slot) (i : ValidatorIndex)
  | receipts (number : BlockNumber) (hashes : List Hash) (answer : Header × List Receipt)
  | subscriptions (first last : BlockNumber) (events : List Subscription)
  | unsubscriptions (first last : BlockNumber) (events : List Unsubscription)
  | validator (i : ValidatorIndex) (slot : Slot) (identity : Option Identity)
deriving DecidableEq

namespace Chain

variable {σ ε α : Type}

/-- Records the answer to a question, if there is one. -/
def hear (question : StateM σ (Except ε α)) (answer : α → Answer) :
    StateM (Chronicled σ Answer) (Except ε α) :=
  Chronicled.recording question fun r => r.toOption.toList.map answer

/-- A chain whose answers about slots are recorded. -/
def attended (c : Chain ε (StateM σ)) : Chain ε (StateM (Chronicled σ Answer)) :=
  { (Chronicled.aside σ Answer).chain c with
    block := fun slot => hear (c.block slot) (.block slot)
    proposer := fun slot => hear (c.proposer slot) (.proposer slot)
    receipts := fun number hashes => hear (c.receipts number hashes) (.receipts number hashes)
    subscriptions := fun first last =>
      hear (c.subscriptions first last) (.subscriptions first last)
    unsubscriptions := fun first last =>
      hear (c.unsubscriptions first last) (.unsubscriptions first last)
    validator := fun i slot => hear (c.validator i slot) (.validator i slot) }

theorem hear_cases {question : StateM σ (Except ε α)} {answer : α → Answer}
    {w w' : Chronicled σ Answer} {r : Except ε α} (hrun : (hear question answer).run w = (r, w')) :
    (∃ a, r = .ok a ∧ question.run w.world = (.ok a, w'.world) ∧
      w'.record = w.record ++ [answer a]) ∨
      ∃ e, r = .error e ∧ question.run w.world = (.error e, w'.world) ∧ w'.record = w.record := by
  obtain ⟨hquestion, hrecord⟩ := Chronicled.recording_cases hrun
  rcases r with e | a
  · exact .inr ⟨e, rfl, hquestion, hrecord.trans (List.append_nil _)⟩
  · exact .inl ⟨a, rfl, hquestion, hrecord⟩

theorem erasing_attended (c : Chain ε (StateM σ)) :
    (Chronicled.erasing σ Answer).Chains c.attended c :=
  { Chronicled.erasing_chain c with
    block := fun _ => Chronicled.erasing_recording _ _
    proposer := fun _ => Chronicled.erasing_recording _ _
    receipts := fun _ _ => Chronicled.erasing_recording _ _
    subscriptions := fun _ _ => Chronicled.erasing_recording _ _
    unsubscriptions := fun _ _ => Chronicled.erasing_recording _ _
    validator := fun _ _ => Chronicled.erasing_recording _ _ }

/-- A question that is answered only if the answer is one of the given ones. -/
def confine (answers : List Answer) (question : StateM σ (Except ε α)) (answer : α → Answer) :
    StateM σ (Except Unit α) := do
  match ← question with
  | .ok a => if answer a ∈ answers then return .ok a else return .error ()
  | .error _ => return .error ()

/-- A chain that has no other answers about slots than the given ones. -/
def confined (answers : List Answer) (c : Chain ε (StateM σ)) : Chain Unit (StateM σ) where
  finalizedSlot := return .error ()
  block slot := confine answers (c.block slot) (.block slot)
  proposer slot := confine answers (c.proposer slot) (.proposer slot)
  receipts number hashes := confine answers (c.receipts number hashes) (.receipts number hashes)
  subscriptions first last :=
    confine answers (c.subscriptions first last) (.subscriptions first last)
  unsubscriptions first last :=
    confine answers (c.unsubscriptions first last) (.unsubscriptions first last)
  whitelisted _ _ := return .error ()
  validator i slot := confine answers (c.validator i slot) (.validator i slot)

theorem mem_of_confine {answers : List Answer} {question : StateM σ (Except ε α)}
    {answer : α → Answer} {a : α} (h : Returns (confine answers question answer) (.ok a)) :
    answer a ∈ answers := by
  obtain ⟨r, -, h⟩ := returns_bind h
  cases r with
  | error e => exact absurd (returns_pure h) (by simp)
  | ok b =>
    dsimp only at h
    by_cases hb : answer b ∈ answers
    · rw [if_pos hb] at h
      obtain rfl := Except.ok.inj (returns_pure h)
      exact hb
    · rw [if_neg hb] at h
      exact absurd (returns_pure h) (by simp)

theorem confine_run {answers : List Answer} {question : StateM σ (Except ε α)}
    {answer : α → Answer} {w w' : σ} {a : α} (hrun : question.run w = (.ok a, w'))
    (ha : answer a ∈ answers) : (confine answers question answer).run w = (.ok a, w') := by
  unfold confine
  rw [run_bind_eq hrun]
  dsimp only
  rw [if_pos ha]
  rfl

end Chain

namespace Reconcile

variable {σ ε α β : Type}

/-- A step only adds to the record, and if it goes through, so does the other step, as long as that
has the answers that were recorded. -/
def Retold (answers : List Answer) (x : Step ε (StateM (Chronicled σ Answer)) α)
    (y : Step Unit (StateM σ) α) : Prop :=
  ∀ w r w', x.run.run w = (r, w') →
    w.record ⊆ w'.record ∧
      (w'.record ⊆ answers → ∀ a, r = .ok a → y.run.run w.world = (.ok a, w'.world))

variable {answers : List Answer}

theorem retold_pure (a : α) :
    Retold answers (pure a : Step ε (StateM (Chronicled σ Answer)) α)
      (pure a : Step Unit (StateM σ) α) := by
  intro w r w' hrun
  obtain ⟨rfl, rfl⟩ := Prod.mk.inj hrun
  exact ⟨List.Subset.refl _, fun _ b hb => by rw [← Except.ok.inj hb]; rfl⟩

theorem retold_fault (f : Fault) :
    Retold answers (throw (.fault f) : Step ε (StateM (Chronicled σ Answer)) α)
      (throw (.fault f) : Step Unit (StateM σ) α) := by
  intro w r w' hrun
  obtain ⟨rfl, rfl⟩ := Prod.mk.inj hrun
  exact ⟨List.Subset.refl _, fun _ b hb => absurd hb (by simp)⟩

theorem retold_bind {x : Step ε (StateM (Chronicled σ Answer)) α} {y : Step Unit (StateM σ) α}
    {f : α → Step ε (StateM (Chronicled σ Answer)) β} {g : α → Step Unit (StateM σ) β}
    (hx : Retold answers x y) (hf : ∀ a, Retold answers (f a) (g a)) :
    Retold answers (x >>= f) (y >>= g) := by
  intro w r w' hrun
  rw [ExceptT.run_bind] at hrun
  obtain ⟨first, v, hfirst, hrest⟩ := run_bind_cases hrun
  obtain ⟨hgrows, hsame⟩ := hx w first v hfirst
  cases first with
  | error e =>
    obtain ⟨rfl, rfl⟩ := Prod.mk.inj hrest
    exact ⟨hgrows, fun _ b hb => absurd hb (by simp)⟩
  | ok a =>
    obtain ⟨hgrows', hsame'⟩ := hf a v r w' hrest
    refine ⟨List.Subset.trans hgrows hgrows', fun hanswers b hb => ?_⟩
    have hhead := hsame (List.Subset.trans hgrows' hanswers) a rfl
    rw [ExceptT.run_bind, run_bind_eq hhead]
    exact hsame' hanswers b hb

theorem retold_ask {question : StateM σ (Except ε α)} {answer : α → Answer} :
    Retold answers (ask (Chain.hear question answer))
      (ask (Chain.confine answers question answer)) := by
  intro w r w' hrun
  obtain ⟨first, v, hfirst, hrest⟩ := run_bind_cases hrun
  rcases Chain.hear_cases hfirst with ⟨a, rfl, hquestion, hrecord⟩ | ⟨e, rfl, hquestion, hrecord⟩
  · obtain ⟨rfl, rfl⟩ := Prod.mk.inj hrest
    rw [hrecord]
    refine ⟨List.subset_append_left _ _, fun hanswers b hb => ?_⟩
    have ha : answer a ∈ answers := hanswers (by simp)
    rw [← Except.ok.inj hb]
    exact run_bind_eq (Chain.confine_run hquestion ha)
  · obtain ⟨rfl, rfl⟩ := Prod.mk.inj hrest
    exact ⟨fun _ h => hrecord ▸ h, fun _ b hb => absurd hb (by simp)⟩

theorem retold_slot (chain : Chain ε (StateM σ)) (config : Config) (l : Ledger) (slot : Slot) :
    Retold answers (Reconcile.slot config chain.attended l slot)
      (Reconcile.slot config (chain.confined answers) l slot) := by
  have hretold : Compositional chain.attended (chain.confined answers)
      fun _ x y => Retold answers x y :=
    { pure := retold_pure
      fault := retold_fault
      bind := retold_bind
      proposer := fun _ => retold_ask
      block := fun _ => retold_ask
      receipts := fun _ _ => retold_ask
      subscriptions := fun _ _ => retold_ask
      unsubscriptions := fun _ _ => retold_ask
      validator := fun _ _ => retold_ask }
  exact hretold.slot config l slot

end Reconcile

/-- Every part of the account is one of the answers. An identity that was not asked for is missing. -/
structure BlockAccount.Told (a : BlockAccount) (pool : Address) (answers : List Answer)
    (slot : Slot) : Prop where
  proposer : .proposer slot a.block.proposer ∈ answers
  block : .block slot (some a.block) ∈ answers
  reward : ∃ tip, a.reward = a.block.rewardWithTip pool tip ∧
    if a.block.needsReceipts pool then
      ∃ header receipts,
        .receipts a.block.number (a.block.transactions.map (·.hash)) (header, receipts) ∈ answers ∧
        header.tip a.block.transactions receipts = .ok tip
    else tip = 0
  identity : a.identity = none ∨ .validator a.block.proposer a.block.slot a.identity ∈ answers
  subscriptions :
    .subscriptions a.block.number a.block.number (a.subscriptions.map (·.1)) ∈ answers
  identities : ∀ e ∈ a.subscriptions, .validator e.1.validator slot e.2 ∈ answers
  unsubscriptions : .unsubscriptions a.block.number a.block.number a.unsubscriptions ∈ answers

namespace SlotAccount

def Told (pool : Address) (answers : List Answer) (slot : Slot) : SlotAccount → Prop
  | missed proposer => .proposer slot proposer ∈ answers ∧ .block slot none ∈ answers
  | proposed a => a.Told pool answers slot

theorem told_of_confined {σ ε : Type} {chain : Chain ε (StateM σ)} {answers : List Answer}
    {config : Config} {slot : Slot} {a : SlotAccount}
    (ha : a.Answered config (chain.confined answers) slot) :
    a.Told config.poolAddress answers slot := by
  cases a with
  | missed proposer => exact ⟨Chain.mem_of_confine ha.1, Chain.mem_of_confine ha.2⟩
  | proposed a =>
    have ha : a.Answered config (chain.confined answers) slot := ha
    obtain ⟨tip, hreward, htip⟩ := ha.reward
    refine ⟨Chain.mem_of_confine ha.proposer, Chain.mem_of_confine ha.block, ⟨tip, hreward, ?_⟩,
      ha.identity.imp_right Chain.mem_of_confine, Chain.mem_of_confine ha.subscriptions,
      fun e he => Chain.mem_of_confine (ha.identities e he),
      Chain.mem_of_confine ha.unsubscriptions⟩
    by_cases hneeds : a.block.needsReceipts config.poolAddress
    · rw [if_pos hneeds] at htip ⊢
      obtain ⟨header, receipts, hheard, htip⟩ := htip
      exact ⟨header, receipts, Chain.mem_of_confine hheard, htip⟩
    · rwa [if_neg hneeds] at htip ⊢

end SlotAccount

/-- An entry of a slot, with the answers that it is made of. -/
inductive Entry.Told (answers : List Answer) (slot : Slot) : Entry → Prop
  | missed {i : ValidatorIndex} (hproposer : .proposer slot i ∈ answers) :
      Told answers slot (.missed slot i)
  | proposal {b : ProposedBlock} {reward : BlockReward} {identity : Option Identity}
      (hproposer : .proposer slot b.proposer ∈ answers) (hblock : .block slot (some b) ∈ answers)
      (hidentity : identity = none ∨ .validator b.proposer b.slot identity ∈ answers) :
      Told answers slot (.proposal b reward identity)
  | donation {d : Donation} : Told answers slot (.donation d)
  | subscription {b : ProposedBlock} {events : List Subscription} {s : Subscription}
      {identity : Option Identity} (hblock : .block slot (some b) ∈ answers)
      (hevents : .subscriptions b.number b.number events ∈ answers) (hs : s ∈ events)
      (hidentity : .validator s.validator slot identity ∈ answers) :
      Told answers slot (.subscription s identity)
  | unsubscription {b : ProposedBlock} {events : List Unsubscription} {u : Unsubscription}
      (hblock : .block slot (some b) ∈ answers)
      (hevents : .unsubscriptions b.number b.number events ∈ answers) (hu : u ∈ events) :
      Told answers slot (.unsubscription u)
  | closing {block : Option BlockNumber} : Told answers slot (.closing slot block)

theorem SlotAccount.Told.entry {a : SlotAccount} {pool : Address} {answers : List Answer} {slot : Slot}
    (ha : a.Told pool answers slot) : ∀ e ∈ a.entries slot, e.Told answers slot := by
  intro e he
  cases a with
  | missed proposer =>
    obtain rfl | rfl : e = .missed slot proposer ∨ e = .closing slot none := by
      simpa [entries] using he
    · exact .missed ha.1
    · exact .closing
  | proposed a =>
    have ha : a.Told pool answers slot := ha
    simp only [entries, BlockAccount.entries, List.mem_cons, List.mem_append, List.mem_map,
      List.not_mem_nil, or_false] at he
    rcases he with rfl | ⟨d, -, rfl⟩ | ⟨known, hknown, rfl⟩ | ⟨u, hu, rfl⟩ | rfl
    · exact .proposal ha.proposer ha.block ha.identity
    · exact .donation
    · exact .subscription ha.block ha.subscriptions (List.mem_map_of_mem hknown)
        (ha.identities known hknown)
    · exact .unsubscription ha.block ha.unsubscriptions hu
    · exact .closing

/-- A slot that goes through posts the entries of an account that the recorded answers give. -/
theorem Reconcile.told_of_slot {σ ε : Type} {chain : Chain ε (StateM σ)} {config : Config}
    {l l' : Ledger} {slot : Slot} {report : SlotReport} {w w' : Chronicled σ Answer}
    (hrun : (Reconcile.slot config chain.attended l slot).run.run w = (.ok (l', report), w')) :
    ∃ a : SlotAccount, a.Told config.poolAddress w'.record slot ∧
      l.postAll config (a.entries slot) = .ok l' := by
  have hretold : Retold w'.record _ _ := retold_slot chain config l slot
  obtain ⟨-, hsame⟩ := hretold w _ w' hrun
  have hconfined := hsame (List.Subset.refl _) _ rfl
  obtain ⟨a, ha, hposts⟩ := Reconcile.slot_succeeds (returns_of_run hconfined)
  exact ⟨a, SlotAccount.told_of_confined ha, hposts⟩

namespace Oracle

variable {σ ε : Type} {h : Digest} {chain : Chain ε (StateM σ)}
variable {submitter : Option (Submitter ε (StateM σ))} {o o' : Oracle} {slot : Slot}

/-- One call of a run, with the oracle before it and the answers that it got. -/
structure Hearing (ε : Type) extends Call ε where
  before : Oracle
  answers : List Answer

/-- The calls of a run in a world, in order, with the answers that each of them got. -/
def hearings (h : Digest) (chain : Chain ε (StateM σ))
    (submitter : Option (Submitter ε (StateM σ))) : List Slot → Oracle → σ → List (Hearing ε)
  | [], _, _ => []
  | slot :: rest, o, w =>
    let ((result, after), w') :=
      (o.processSlot h chain.attended
        (submitter.map (Chronicled.aside σ Answer).submitter) slot).run ⟨w, []⟩
    { slot, result, after, before := o, answers := w'.record } ::
      hearings h chain submitter rest after w'.world

/-- All answers that the calls of a run got. -/
def heard (h : Digest) (chain : Chain ε (StateM σ)) (submitter : Option (Submitter ε (StateM σ)))
    (slots : List Slot) (o : Oracle) (w : σ) : List Answer :=
  (hearings h chain submitter slots o w).flatMap (·.answers)

/-- A call leaves the ledger as it was, or posts the entries of an account that it was told of the
next slot. -/
structure Hearing.Accounted (t : Hearing ε) : Prop where
  config : t.after.config = t.before.config
  ledger : t.after.ledger = t.before.ledger ∨
    t.slot = t.before.nextSlot ∧ ∃ a : SlotAccount,
      a.Told t.before.config.poolAddress t.answers t.slot ∧
      t.before.ledger.postAll t.before.config (a.entries t.slot) = .ok t.after.ledger

/-- The handing over of a root gets no answer that would be recorded. -/
theorem record_of_commit {w w' : Chronicled σ Answer} {r : Except (Failure ε) (Option Checkpoint)}
    (hrun : (o.commit h chain.attended
      (submitter.map (Chronicled.aside σ Answer).submitter) slot).run w = ((r, o'), w')) :
    w'.record = w.record := by
  have hspares := Chronicled.spares_aside (ν := Answer) chain submitter
  exact (sequential_keeps.commit hspares.whitelisted hspares.submit h o slot).eq hrun

theorem accounted_of_call {w : σ} {w' : Chronicled σ Answer} {r : Except (Failure ε) SlotReport}
    (hrun : (o.processSlot h chain.attended
      (submitter.map (Chronicled.aside σ Answer).submitter) slot).run ⟨w, []⟩ = ((r, o'), w')) :
    Hearing.Accounted
      { slot, result := r, after := o', before := o, answers := w'.record } := by
  have hcalled := processSlot_called hrun
  refine ⟨hcalled.config_eq, ?_⟩
  cases hcalled with
  | outOfOrder hslot => exact .inl rfl
  | failed hslot hfailed => exact .inl rfl
  | aborted hslot hdone hdue => exact .inr ⟨hslot, Reconcile.told_of_slot hdone⟩
  | passed hslot hdone hdue => exact .inr ⟨hslot, Reconcile.told_of_slot hdone⟩
  | @committed hslot l report w₁ _ hdone hdue _ _ hcommit =>
    obtain ⟨⟨⟨committed, o₁⟩, w₂⟩, hcommitted⟩ :
        ∃ done, (Oracle.commit h chain.attended
          (submitter.map (Chronicled.aside σ Answer).submitter)
          { o with ledger := l } slot).run w₁ = done := ⟨_, rfl⟩
    have hsame := hrun.symm.trans (processSlot_run_of_due hslot hdone hdue hcommitted)
    obtain ⟨-, rfl⟩ := Prod.mk.inj hsame
    obtain ⟨a, ha, hposts⟩ := Reconcile.told_of_slot hdone
    refine .inr ⟨hslot, a, ?_, ?_⟩
    · rwa [record_of_commit hcommitted]
    · rwa [hcommit.ledger_config.1]

/-- The first call of a run, and what it leaves to the others. -/
theorem hearings_cons (h : Digest) (chain : Chain ε (StateM σ))
    (submitter : Option (Submitter ε (StateM σ))) (slot : Slot) (rest : List Slot) (o : Oracle)
    (w : σ) :
    ∃ t : Hearing ε, ∃ w' : σ, t.slot = slot ∧ t.before = o ∧ t.Accounted ∧
      hearings h chain submitter (slot :: rest) o w =
        t :: hearings h chain submitter rest t.after w' ∧
      (o.processSlot h chain submitter slot).run w = ((t.result, t.after), w') := by
  obtain ⟨⟨⟨r, o'⟩, w'⟩, hrun⟩ :
      ∃ call, (o.processSlot h chain.attended
        (submitter.map (Chronicled.aside σ Answer).submitter) slot).run ⟨w, []⟩ = call := ⟨_, rfl⟩
  have hplain := Pairing.processSlot (h := h) chain.erasing_attended
    (Chronicled.erasing_submitters submitter) o slot ⟨w, []⟩
  rw [hrun] at hplain
  refine ⟨_, w'.world, rfl, rfl, accounted_of_call hrun, ?_, hplain⟩
  rw [hearings, hrun]

/-- To record what a run is told changes none of its calls. -/
theorem calls_of_hearings (h : Digest) (chain : Chain ε (StateM σ))
    (submitter : Option (Submitter ε (StateM σ))) (slots : List Slot) (o : Oracle) (w : σ) :
    (hearings h chain submitter slots o w).map (·.toCall) =
      calls h chain submitter slots o w := by
  induction slots generalizing o w with
  | nil => rfl
  | cons slot rest ih =>
    obtain ⟨t, w', hslot, -, -, hhearings, hrun⟩ := hearings_cons h chain submitter slot rest o w
    have hcalls : calls h chain submitter (slot :: rest) o w =
        t.toCall :: calls h chain submitter rest t.after w' := by
      rw [calls, hrun, ← hslot]
    rw [hhearings, List.map_cons, hcalls, ih]

/-- Each call of a run is made on the oracle that the call before it left. -/
theorem before_of_hearings (h : Digest) (chain : Chain ε (StateM σ))
    (submitter : Option (Submitter ε (StateM σ))) (slots : List Slot) (o : Oracle) (w : σ) :
    (hearings h chain submitter slots o w).map (·.before) ++
        [((processAll h chain submitter slots o).run w).1] =
      o :: (hearings h chain submitter slots o w).map (·.after) := by
  induction slots generalizing o w with
  | nil => rfl
  | cons slot rest ih =>
    obtain ⟨t, w', -, hbefore, -, hhearings, hrun⟩ := hearings_cons h chain submitter slot rest o w
    have hend : (processAll h chain submitter (slot :: rest) o).run w =
        (processAll h chain submitter rest t.after).run w' := by
      rw [processAll, run_bind_eq hrun]
    rw [hhearings, hend, List.map_cons, List.map_cons, List.cons_append, ih, hbefore]

/-- What every call of a run preserves of the oracle holds before and after all of them. -/
theorem hearings_induction {P : Oracle → Prop} {slots : List Slot} {w : σ}
    (hstep : ∀ t ∈ hearings h chain submitter slots o w, t.slot ∈ slots → t.Accounted →
      P t.before → P t.after) (hP : P o) :
    (∀ t ∈ hearings h chain submitter slots o w, t.Accounted ∧ P t.before ∧ P t.after) ∧
      P ((processAll h chain submitter slots o).run w).1 := by
  induction slots generalizing o w with
  | nil => exact ⟨fun t ht => absurd ht (by simp [hearings]), hP⟩
  | cons slot rest ih =>
    obtain ⟨t, w', hslot, hbefore, haccounted, hhearings, hrun⟩ :=
      hearings_cons h chain submitter slot rest o w
    have hend : (processAll h chain submitter (slot :: rest) o).run w =
        (processAll h chain submitter rest t.after).run w' := by
      rw [processAll, run_bind_eq hrun]
    rw [hhearings] at hstep ⊢
    rw [hend]
    have hfirst : P t.after := by
      apply hstep t List.mem_cons_self (hslot ▸ List.mem_cons_self) haccounted
      rwa [hbefore]
    obtain ⟨hrest, hlast⟩ := ih (o := t.after) (w := w')
      (fun u hu hslots => hstep u (List.mem_cons_of_mem _ hu) (List.mem_cons_of_mem _ hslots)) hfirst
    refine ⟨?_, hlast⟩
    intro u hu
    rcases List.mem_cons.mp hu with rfl | hu
    · exact ⟨haccounted, hbefore ▸ hP, hfirst⟩
    · exact hrest u hu

end Oracle

end RewardPool
