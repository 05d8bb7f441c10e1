import RewardPool.Proofs.Hearings
import RewardPool.Proofs.Standings

/-!
The records of blocks. The log of the pool and the lists of its validators are written to by hand, in
one branch for each thing that can happen to a proposer. They agree all the same: a slot logs at most
one record, under its own number, and the validator that it is about keeps the same record in the list
of its kind. The last one that a banned validator keeps is that of the block it was banned for.
-/
namespace RewardPool

open Merkle (Digest)

namespace Entry

variable {l : Ledger} {entry : Entry} {i : ValidatorIndex} {e : Event} {given : Option Address}
variable {new : Option BlockRecord}

/-- A turn records what happened to the validator that it turns, and in the slot at hand. -/
theorem Turn.record (h : entry.Turn l i e given new) {r : BlockRecord} (hr : r ∈ new) :
    r.validator = i ∧ entry.slot? = some r.slot ∧ r.kind ≠ .okPoolProposalBannedValidator ∧
      (r.kind = .wrongFeeRecipient ↔ e = .proposalWrongFee) := by
  cases h with
  | missed =>
    obtain rfl := Option.some.inj hr
    exact ⟨rfl, rfl, by simp, by simp⟩
  | rewarded =>
    obtain rfl := Option.some.inj hr
    exact ⟨rfl, rfl, by simp [Ledger.rewardRecord], by simp [Ledger.rewardRecord]⟩
  | joined haddress =>
    obtain rfl := Option.some.inj hr
    exact ⟨rfl, rfl, by simp [Ledger.rewardRecord], by simp [Ledger.rewardRecord]⟩
  | strayed =>
    obtain rfl := Option.some.inj hr
    exact ⟨rfl, rfl, by simp, by simp⟩
  | subscribed haddress => exact absurd hr (by simp)
  | left howner => exact absurd hr (by simp)

theorem Turn.strayed_record (h : entry.Turn l i .proposalWrongFee given new) :
    ∃ r, new = some r := by
  cases h with
  | strayed => exact ⟨_, rfl⟩

end Entry

theorem Status.banned_of_next? {s : Status} {e : Event} :
    s.next? e = some .banned → e = .proposalWrongFee := by
  cases s <;> cases e <;> simp [next?]

theorem Status.next?_of_wrongFee {s t : Status} :
    s.next? .proposalWrongFee = some t → t = .banned := by
  cases s <;> simp [next?, eq_comm]

namespace Ledger

variable {l l' : Ledger} {entry : Entry} {config : Config}

/-- The records of the pool that are about one validator and of one kind, in order. -/
def recordsOf (l : Ledger) (i : ValidatorIndex) (kind : BlockKind) : List BlockRecord :=
  l.poolBlocks.filter fun r => r.validator = i ∧ r.kind = kind

/-- The log of the pool and the records of its validators agree, and so does the status of those that
were banned. -/
structure Coherent (l : Ledger) : Prop where
  ordered : l.poolBlocks.Pairwise fun r r' => r.slot < r'.slot
  kept : ∀ i kind, kind ≠ .okPoolProposalBannedValidator →
    (l.standing i).records kind = l.recordsOf i kind
  banned : ∀ i, (l.standing i).status = .banned → ∃ r, l.recordsOf i .wrongFeeRecipient = [r] ∧
    ∀ kind, kind ≠ .wrongFeeRecipient → kind ≠ .okPoolProposalBannedValidator →
      ∀ r' ∈ l.recordsOf i kind, r'.slot < r.slot
  clean : ∀ i, (l.standing i).status ≠ .banned → l.recordsOf i .wrongFeeRecipient = []

theorem recordsOf_append {new : Option BlockRecord}
    (hblocks : l'.poolBlocks = l.poolBlocks ++ new.toList) (i : ValidatorIndex) (kind : BlockKind) :
    l'.recordsOf i kind =
      l.recordsOf i kind ++ new.toList.filter fun r => r.validator = i ∧ r.kind = kind := by
  unfold recordsOf
  rw [hblocks, List.filter_append]

theorem ordered_append {new : Option BlockRecord}
    (hordered : l.poolBlocks.Pairwise fun r r' => r.slot < r'.slot)
    (hblocks : l'.poolBlocks = l.poolBlocks ++ new.toList)
    (hfresh : ∀ r ∈ new, ∀ r' ∈ l.poolBlocks, r'.slot < r.slot) :
    l'.poolBlocks.Pairwise fun r r' => r.slot < r'.slot := by
  rw [hblocks]
  apply List.pairwise_append.mpr
  refine ⟨hordered, ?_, ?_⟩
  · cases new <;> simp
  · intro r' hr' r hr
    exact hfresh r (Option.mem_toList.mp hr) r' hr'

theorem Coherent.still {new : Option BlockRecord} (hl : l.Coherent)
    (hnew : ∀ r ∈ new, r.kind = .okPoolProposalBannedValidator)
    (hfresh : ∀ r ∈ new, ∀ r' ∈ l.poolBlocks, r'.slot < r.slot)
    (hstanding : l'.standing = l.standing) (hblocks : l'.poolBlocks = l.poolBlocks ++ new.toList) :
    l'.Coherent := by
  have hsame : ∀ i kind, kind ≠ .okPoolProposalBannedValidator →
      l'.recordsOf i kind = l.recordsOf i kind := by
    intro i kind hkind
    rw [recordsOf_append hblocks]
    apply List.append_right_eq_self.mpr
    apply List.filter_eq_nil_iff.mpr
    intro r hr hmatches
    have hr' := hnew r (Option.mem_toList.mp hr)
    simp only [decide_eq_true_eq] at hmatches
    exact hkind (hmatches.2.symm.trans hr')
  constructor
  · exact ordered_append hl.ordered hblocks hfresh
  · intro i kind hkind
    rw [hstanding, hsame i kind hkind]
    exact hl.kept i kind hkind
  · intro i hbanned
    rw [hstanding] at hbanned
    obtain ⟨r, hone, hlast⟩ := hl.banned i hbanned
    refine ⟨r, (hsame i _ (by decide)).trans hone, ?_⟩
    intro kind hkind hshared
    rw [hsame i kind hshared]
    exact hlast kind hkind hshared
  · intro i hnot
    rw [hstanding] at hnot
    rw [hsame i _ (by decide)]
    exact hl.clean i hnot

section Turned

variable {i : ValidatorIndex} {e : Event} {given : Option Address} {new : Option BlockRecord}

theorem recordsOf_turned (hturn : entry.Turn l i e given new)
    (hblocks : l'.poolBlocks = l.poolBlocks ++ new.toList) (kind : BlockKind) :
    l'.recordsOf i kind = l.recordsOf i kind ++ new.toList.filter (·.kind = kind) := by
  rw [recordsOf_append hblocks]
  congr 1
  apply List.filter_congr
  intro r hr
  have hvalidator := (hturn.record (Option.mem_toList.mp hr)).1
  simp [hvalidator]

theorem recordsOf_others (hturn : entry.Turn l i e given new)
    (hblocks : l'.poolBlocks = l.poolBlocks ++ new.toList) {j : ValidatorIndex} (hj : j ≠ i)
    (kind : BlockKind) : l'.recordsOf j kind = l.recordsOf j kind := by
  rw [recordsOf_append hblocks]
  apply List.append_right_eq_self.mpr
  apply List.filter_eq_nil_iff.mpr
  intro r hr hmatches
  have hvalidator := (hturn.record (Option.mem_toList.mp hr)).1
  simp only [decide_eq_true_eq] at hmatches
  exact hj (hmatches.1.symm.trans hvalidator)

theorem Coherent.turned (hl : l.Coherent) (hturn : entry.Turn l i e given new)
    (hturns : l.Turns l' i e given new)
    (hfresh : ∀ r ∈ new, ∀ r' ∈ l.poolBlocks, r'.slot < r.slot) : l'.Coherent := by
  obtain ⟨⟨s, hnext, hstanding⟩, hblocks⟩ := hturns
  have hself : l'.standing i = (l.standing i).turned s given new := by
    rw [hstanding, Function.update_self]
  have hother : ∀ j, j ≠ i → l'.standing j = l.standing j := by
    intro j hj
    rw [hstanding, Function.update_of_ne hj]
  -- nobody is turned after a ban, so there is no record of one yet
  have hclean : l.recordsOf i .wrongFeeRecipient = [] := hl.clean i (Status.of_next? hnext).1
  constructor
  · exact ordered_append hl.ordered hblocks hfresh
  · intro j kind hkind
    by_cases hj : j = i
    · subst hj
      rw [hself, recordsOf_turned hturn hblocks]
      exact congrArg (· ++ _) (hl.kept j kind hkind)
    · rw [hother j hj, recordsOf_others hturn hblocks hj]
      exact hl.kept j kind hkind
  · intro j hbanned
    by_cases hj : j = i
    · subst hj
      rw [hself] at hbanned
      obtain rfl : s = .banned := hbanned
      obtain rfl := Status.banned_of_next? hnext
      obtain ⟨r, rfl⟩ := hturn.strayed_record
      have hwrong : r.kind = .wrongFeeRecipient := (hturn.record rfl).2.2.2.mpr rfl
      refine ⟨r, ?_, ?_⟩
      · rw [recordsOf_turned hturn hblocks, hclean]
        simp [hwrong]
      · intro kind hkind _ r' hr'
        rw [recordsOf_turned hturn hblocks] at hr'
        have hold : r' ∈ l.recordsOf j kind := by simpa [hwrong, Ne.symm hkind] using hr'
        exact hfresh r rfl r' (List.mem_of_mem_filter hold)
    · rw [hother j hj] at hbanned
      simp only [recordsOf_others hturn hblocks hj]
      exact hl.banned j hbanned
  · intro j hnot
    by_cases hj : j = i
    · subst hj
      rw [hself] at hnot
      rw [recordsOf_turned hturn hblocks, hclean, List.nil_append]
      apply List.filter_eq_nil_iff.mpr
      intro r hr hwrong
      simp only [decide_eq_true_eq] at hwrong
      obtain rfl := (hturn.record (Option.mem_toList.mp hr)).2.2.2.mp hwrong
      exact hnot (Status.next?_of_wrongFee hnext)
    · rw [hother j hj] at hnot
      rw [recordsOf_others hturn hblocks hj]
      exact hl.clean j hnot

end Turned

/-- A posting keeps the records in agreement, if it can only log what comes after all of them. -/
theorem Coherent.post (hl : l.Coherent) (h : l.post config entry = .ok l')
    (hfresh : ∀ s ∈ entry.slot?, ∀ r ∈ l.poolBlocks, r.slot < s) : l'.Coherent := by
  cases posted_post h with
  | still new hnew hstanding hblocks =>
    exact hl.still (fun r hr => (hnew r hr).1) (fun r hr => hfresh r.slot (hnew r hr).2) hstanding
      hblocks
  | turned hturn hturns =>
    exact hl.turned hturn hturns fun r hr => hfresh r.slot (hturn.record hr).2.1

/-- What a posting adds to the log of the pool is of its slot. -/
theorem poolBlocks_post (h : l.post config entry = .ok l') :
    ∃ new : Option BlockRecord, l'.poolBlocks = l.poolBlocks ++ new.toList ∧
      ∀ r ∈ new, entry.slot? = some r.slot := by
  cases posted_post h with
  | still new hnew hstanding hblocks => exact ⟨_, hblocks, fun r hr => (hnew r hr).2⟩
  | turned hturn hturns => exact ⟨_, hturns.blocks, fun r hr => (hturn.record hr).2.1⟩

end Ledger

/-- The entry of the proposer comes first, and after it nothing is logged of a block. The last entry
closes the slot. -/
theorem SlotAccount.entries_eq (a : SlotAccount) (slot : Slot) :
    ∃ (first : Entry) (rest : List Entry) (block : Option BlockNumber),
      a.entries slot = first :: (rest ++ [.closing slot block]) ∧ ∀ e ∈ rest, e.slot? = none := by
  cases a with
  | missed proposer => exact ⟨.missed slot proposer, [], none, rfl, by simp⟩
  | proposed a =>
    refine ⟨.proposal a.block a.reward a.identity, a.reward.donations.map .donation ++
      (a.subscriptions.map (fun e => .subscription e.1 e.2) ++
        a.unsubscriptions.map .unsubscription), some a.block.number, ?_, ?_⟩
    · simp [entries, BlockAccount.entries]
    · intro e he
      simp only [List.mem_append, List.mem_map] at he
      rcases he with ⟨d, -, rfl⟩ | ⟨s, -, rfl⟩ | ⟨u, -, rfl⟩ <;> rfl

namespace Ledger

variable {l l' : Ledger} {config : Config} {slot : Slot} {a : SlotAccount}

/-- A slot after all that is on record keeps the records in agreement, and what it adds to them is of
that slot. -/
theorem Coherent.postAll (hl : l.Coherent) (hfresh : ∀ r ∈ l.poolBlocks, r.slot < slot)
    (hslot : ∀ e ∈ a.entries slot, ∀ s ∈ e.slot?, s = slot)
    (h : l.postAll config (a.entries slot) = .ok l') :
    l'.Coherent ∧ l'.latestSlot = some slot ∧
      ∀ r ∈ l'.poolBlocks, r ∈ l.poolBlocks ∨ r.slot = slot := by
  obtain ⟨first, rest, block, hentries, hrest⟩ := a.entries_eq slot
  rw [hentries] at h hslot
  obtain ⟨m, hfirst, htail⟩ := postAll_cons.mp h
  obtain ⟨m', hmiddle, hclosing⟩ := postAll_append.mp htail
  have hm : m.Coherent := by
    apply hl.post hfirst
    intro s hs
    rw [hslot first List.mem_cons_self s hs]
    exact hfresh
  have hm' : m'.Coherent ∧ m'.poolBlocks = m.poolBlocks := by
    refine postAll_induction_mem (P := fun k => k.Coherent ∧ k.poolBlocks = m.poolBlocks) ?_
      ⟨hm, rfl⟩ hmiddle
    intro k k' e he hk hpost
    have hnone := hrest e he
    obtain ⟨new, hblocks, hnew⟩ := poolBlocks_post hpost
    have hnothing : new = none := by
      cases new with
      | none => rfl
      | some r => exact absurd ((hnew r rfl).symm.trans hnone) (by simp)
    refine ⟨hk.1.post hpost (by simp [hnone]), ?_⟩
    rw [hblocks, hnothing, hk.2]
    exact List.append_nil _
  obtain ⟨k, hk, hlast⟩ := postAll_cons.mp hclosing
  obtain rfl : k = l' := Except.ok.inj hlast
  have hclosed : k.poolBlocks = m'.poolBlocks ∧ k.latestSlot = some slot := by
    obtain rfl := Except.ok.inj hk
    exact ⟨rfl, rfl⟩
  refine ⟨hm'.1.post hk (by simp [Entry.slot?]), hclosed.2, ?_⟩
  obtain ⟨new, hblocks, hnew⟩ := poolBlocks_post hfirst
  rw [hclosed.1, hm'.2, hblocks]
  intro r hr
  rcases List.mem_append.mp hr with hr | hr
  · exact .inl hr
  · exact .inr (hslot first List.mem_cons_self r.slot (hnew r (Option.mem_toList.mp hr)))

section Coherent

variable {i : ValidatorIndex} {v : Validator}

theorem Coherent.lists (hl : l.Coherent) (hv : l.find? i = some v) :
    v.proposed = l.recordsOf i .okPoolProposal ∧ v.missed = l.recordsOf i .missedProposal ∧
      v.wrongFee = l.recordsOf i .wrongFeeRecipient := by
  have hkept := hl.kept i
  rw [standing_eq hv] at hkept
  exact ⟨hkept .okPoolProposal (by decide), hkept .missedProposal (by decide),
    hkept .wrongFeeRecipient (by decide)⟩

/-- Whom a record is held to is tracked, because nobody else has any. -/
theorem Coherent.owner (hl : l.Coherent) {r : BlockRecord} (hr : r ∈ l.poolBlocks)
    (hkind : r.kind ≠ .okPoolProposalBannedValidator) : ∃ v, l.find? r.validator = some v := by
  have hmem : r ∈ l.recordsOf r.validator r.kind := by
    unfold recordsOf
    simp [hr]
  rw [← hl.kept _ _ hkind] at hmem
  cases hv : l.find? r.validator with
  | some v => exact ⟨v, rfl⟩
  | none =>
    have hblank : l.standing r.validator = .blank := by
      unfold standing
      rw [hv]
      rfl
    rw [hblank] at hmem
    exact absurd hmem (by simp [Standing.blank])

theorem Coherent.ban (hl : l.Coherent) (hv : l.find? i = some v) :
    (v.status = .banned ↔ v.wrongFee ≠ []) ∧
      (v.wrongFee ≠ [] → ∃ r, v.wrongFee = [r] ∧ ∀ r' ∈ v.proposed ++ v.missed, r'.slot < r.slot) := by
  obtain ⟨hproposed, hmissed, hwrong⟩ := hl.lists hv
  have hbanned := hl.banned i
  have hclean := hl.clean i
  rw [standing_eq hv] at hbanned hclean
  have hiff : v.status = .banned ↔ v.wrongFee ≠ [] := by
    constructor
    · intro hstatus
      obtain ⟨r, hone, -⟩ := hbanned hstatus
      rw [hwrong, hone]
      simp
    · intro hsome
      by_contra hstatus
      exact hsome (hwrong.trans (hclean hstatus))
  refine ⟨hiff, fun hsome => ?_⟩
  obtain ⟨r, hone, hlast⟩ := hbanned (hiff.mpr hsome)
  refine ⟨r, hwrong.trans hone, ?_⟩
  intro r' hr'
  rw [hproposed, hmissed] at hr'
  rcases List.mem_append.mp hr' with hr' | hr'
  · exact hlast _ (by decide) (by decide) r' hr'
  · exact hlast _ (by decide) (by decide) r' hr'

end Coherent

/-- Every record is of a slot between the first one and the latest, which is not the last of all. -/
structure Dated (config : Config) (l : Ledger) : Prop where
  latest : ∀ s ∈ l.latestSlot, config.deployedSlot ≤ s ∧ s.toNat < 2 ^ 64 - 1
  within : ∀ r ∈ l.poolBlocks, config.deployedSlot ≤ r.slot ∧ ∃ s ∈ l.latestSlot, r.slot ≤ s

theorem coherent_fresh (config : Config) : (fresh config).Coherent where
  ordered := List.Pairwise.nil
  kept _ _ _ := rfl
  banned _ hbanned := absurd (show Status.untracked = .banned from hbanned) (by decide)
  clean _ _ := rfl

theorem dated_fresh (config : Config) : (fresh config).Dated config where
  latest s hs := absurd hs (by simp [fresh])
  within r hr := absurd hr (by simp [fresh])

end Ledger

namespace Oracle

variable {σ ε : Type} {o : Oracle}

theorem toNat_nextSlot_of_some {s : Slot} (hs : o.ledger.latestSlot = some s)
    (hroom : s.toNat < 2 ^ 64 - 1) : o.nextSlot.toNat = s.toNat + 1 := by
  have hone : (1 : UInt64).toNat = 1 := rfl
  unfold nextSlot
  rw [hs]
  dsimp only
  rw [UInt64.toNat_add, hone]
  omega

/-- The next slot comes after all that is on record. -/
theorem slot_lt_nextSlot (ho : o.ledger.Dated o.config) {r : BlockRecord}
    (hr : r ∈ o.ledger.poolBlocks) : r.slot < o.nextSlot := by
  obtain ⟨-, s, hs, hle⟩ := ho.within r hr
  have hnext := toNat_nextSlot_of_some hs (ho.latest s hs).2
  rw [UInt64.lt_iff_toNat_lt, hnext]
  rw [UInt64.le_iff_toNat_le] at hle
  omega

theorem deployedSlot_le_nextSlot (ho : o.ledger.Dated o.config) :
    o.config.deployedSlot ≤ o.nextSlot := by
  cases hs : o.ledger.latestSlot with
  | none =>
    unfold nextSlot
    rw [hs]
    exact UInt64.le_refl _
  | some s =>
    obtain ⟨hfirst, hroom⟩ := ho.latest s hs
    have hnext := toNat_nextSlot_of_some hs hroom
    rw [UInt64.le_iff_toNat_le] at hfirst ⊢
    omega

/-- An oracle with a ledger whose records agree. -/
structure OnRecord (config : Config) (o : Oracle) : Prop where
  config_eq : o.config = config
  coherent : o.ledger.Coherent
  dated : o.ledger.Dated o.config

/-- A call keeps the records in agreement, as long as the block that it is given is of its slot. -/
theorem OnRecord.step {config : Config} {t : Hearing ε} (ht : t.Accounted)
    (hroom : t.slot.toNat < 2 ^ 64 - 1)
    (hblocks : ∀ slot b, .block slot (some b) ∈ t.answers → b.slot = slot)
    (hbefore : t.before.OnRecord config) : t.after.OnRecord config := by
  obtain ⟨hconfig, hcoherent, hdated⟩ := hbefore
  rcases ht.ledger with hkept | ⟨hslot, a, htold, hposts⟩
  · rw [← hkept] at hcoherent hdated
    exact ⟨ht.config.trans hconfig, hcoherent, ht.config ▸ hdated⟩
  · have hentries : ∀ e ∈ a.entries t.slot, ∀ s ∈ e.slot?, s = t.slot := by
      intro e he s hs
      cases htold.entry e he with
      | missed => exact (Option.some.inj hs).symm
      | @proposal b _ _ _ hblock => exact (Option.some.inj hs).symm.trans (hblocks t.slot b hblock)
      | donation | subscription | unsubscription | closing =>
        exact absurd hs (by simp [Entry.slot?])
    have hfresh : ∀ r ∈ t.before.ledger.poolBlocks, r.slot < t.slot := by
      intro r hr
      rw [hslot]
      exact slot_lt_nextSlot hdated hr
    have hfirst : t.before.config.deployedSlot ≤ t.slot := by
      rw [hslot]
      exact deployedSlot_le_nextSlot hdated
    obtain ⟨hafter, hlatest, hrecords⟩ := hcoherent.postAll hfresh hentries hposts
    refine ⟨ht.config.trans hconfig, hafter, ht.config ▸ ⟨?_, ?_⟩⟩
    · intro s hs
      obtain rfl : t.slot = s := Option.some.inj (hlatest.symm.trans hs)
      exact ⟨hfirst, hroom⟩
    · intro r hr
      rcases hrecords r hr with hold | hnew
      · exact ⟨(hdated.within r hold).1, t.slot, hlatest, UInt64.le_of_lt (hfresh r hold)⟩
      · rw [hnew]
        exact ⟨hfirst, t.slot, hlatest, UInt64.le_refl _⟩

/-- In the ledger of a run from a fresh one, the log of the pool and the lists of its validators agree.
The log is in the order of the slots, all of them since the start and none after the latest one. Each
validator keeps the records of each kind that are about it, and nobody else is held to any. Who was
banned keeps one record of that, and it is the last. -/
theorem block_records_cohere (h : Digest) (chain : Chain ε (StateM σ))
    (submitter : Option (Submitter ε (StateM σ))) (start : Oracle)
    (hstart : start.ledger = .fresh start.config) (slots : List Slot)
    (hslots : ∀ s ∈ slots, s.toNat < 2 ^ 64 - 1) (w : σ)
    (hblocks : ∀ t ∈ hearings h chain submitter slots start w, ∀ slot b,
      .block slot (some b) ∈ t.answers → b.slot = slot) :
    let l := ((processAll h chain submitter slots start).run w).1.ledger
    l.poolBlocks.Pairwise (fun r r' => r.slot < r'.slot) ∧
    (∀ r ∈ l.poolBlocks,
      start.config.deployedSlot ≤ r.slot ∧ ∃ s, l.latestSlot = some s ∧ r.slot ≤ s) ∧
    (∀ i v, l.find? i = some v →
      v.proposed = l.recordsOf i .okPoolProposal ∧ v.missed = l.recordsOf i .missedProposal ∧
        v.wrongFee = l.recordsOf i .wrongFeeRecipient) ∧
    (∀ r ∈ l.poolBlocks, r.kind ≠ .okPoolProposalBannedValidator →
      ∃ v, l.find? r.validator = some v) ∧
    ∀ i v, l.find? i = some v →
      (v.status = .banned ↔ v.wrongFee ≠ []) ∧
      (v.wrongFee ≠ [] → ∃ r, v.wrongFee = [r] ∧ ∀ r' ∈ v.proposed ++ v.missed, r'.slot < r.slot) := by
  intro l
  have hstep : ∀ t ∈ hearings h chain submitter slots start w, t.slot ∈ slots → t.Accounted →
      t.before.OnRecord start.config → t.after.OnRecord start.config :=
    fun t ht hslot haccounted => OnRecord.step haccounted (hslots t.slot hslot) (hblocks t ht)
  have hfresh : start.OnRecord start.config :=
    ⟨rfl, hstart ▸ Ledger.coherent_fresh start.config, hstart ▸ Ledger.dated_fresh start.config⟩
  obtain ⟨-, hend, hcoherent, hdated⟩ := hearings_induction hstep hfresh
  change l.Coherent at hcoherent
  change l.Dated _ at hdated
  rw [hend] at hdated
  exact ⟨hcoherent.ordered, hdated.within, fun i v => hcoherent.lists, fun r => hcoherent.owner,
    fun i v => hcoherent.ban⟩

end Oracle

/-! The validator of the subscription proposes a block of the pool, misses a slot, and is banned in the
next one. -/
namespace SubscribeCall

/-- Whether an answer is a block of another slot than the one that was asked for. -/
def misdated : Answer → Bool
  | .block slot (some b) => b.slot ≠ slot
  | .block _ none | .proposer .. | .receipts .. | .subscriptions .. | .unsubscriptions ..
  | .validator .. => false

def wayward : History :=
  { history with
    proposer := fun slot => if slot = 100 then 9 else 0
    block := fun slot =>
      if slot = 100 then some block
      else if slot = 101 then
        some { block with
          slot := 101, proposer := 0, number := 1001, feeRecipient := .fill 0xaa, transactions := [] }
      else if slot = 102 then none
      else some { block with slot, proposer := 0, number := 1002, transactions := [] }
    receipts := fun number _ => (⟨number, some 0, 0⟩, [])
    subscriptions := fun first _ => if first = 1000 then [event] else [] }

theorem blocks_in_time :
    ∀ t ∈ Oracle.hearings Keccak.digest (wayward.chain : Chain Empty (StateM Unit)) none
      [100, 101, 102, 103] (.start config (.fresh config)) (),
      ∀ slot b, .block slot (some b) ∈ t.answers → b.slot = slot := by
  have hnone : ∀ t ∈ Oracle.hearings Keccak.digest (wayward.chain : Chain Empty (StateM Unit)) none
      [100, 101, 102, 103] (.start config (.fresh config)) (),
      ∀ a ∈ t.answers, misdated a = false := by decide
  intro t ht slot b hb
  have hdated := hnone t ht _ hb
  simpa [misdated] using hdated

theorem records_of_banned_validator :
    let chain : Chain Empty (StateM Unit) := wayward.chain
    let start : Oracle := .start config (.fresh config)
    let slots : List Slot := [100, 101, 102, 103]
    let l := ((Oracle.processAll Keccak.digest chain none slots start).run ()).1.ledger
    start.ledger = .fresh start.config ∧ (∀ s ∈ slots, s.toNat < 2 ^ 64 - 1) ∧
      (∀ t ∈ Oracle.hearings Keccak.digest chain none slots start (), ∀ slot b,
        .block slot (some b) ∈ t.answers → b.slot = slot) ∧
      ∃ v r, l.find? 0 = some v ∧ v.status = .banned ∧ v.wrongFee = [r] ∧
        v.missed = l.recordsOf 0 .missedProposal ∧ v.missed ≠ [] ∧
        ∀ r' ∈ v.proposed ++ v.missed, r'.slot < r.slot := by
  intro chain start slots l
  have hslots : ∀ s ∈ slots, s.toNat < 2 ^ 64 - 1 := by simp [slots]
  obtain ⟨-, -, hkept, -, hbans⟩ := Oracle.block_records_cohere Keccak.digest chain none start rfl
    slots hslots () blocks_in_time
  have hentry : (l.find? 0).map (fun v => (v.status, v.missed.length)) = some (.banned, 1) := by
    decide
  obtain ⟨v, hv, hpair⟩ := Option.map_eq_some_iff.mp hentry
  obtain ⟨hbanned, hmissed⟩ := Prod.mk.inj hpair
  obtain ⟨hiff, hlast⟩ := hbans 0 v hv
  obtain ⟨r, hone, hbefore⟩ := hlast (hiff.mp hbanned)
  refine ⟨rfl, hslots, blocks_in_time, v, r, hv, hbanned, hone, (hkept 0 v hv).2.1, ?_, hbefore⟩
  exact List.ne_nil_of_length_pos (by omega)

end SubscribeCall

end RewardPool
