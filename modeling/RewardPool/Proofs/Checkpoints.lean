import RewardPool.Proofs.Atomicity

/-!
What an oracle keeps of a run. A call that settles a checkpoint slot and leaves a ledger with two
leaves keeps the checkpoint of that ledger, whether or not its root could be submitted; no other
call touches what is kept. So every checkpoint that is ever found was built by a call of the run,
the latest one by the last such call, and each of them serves every address that it has a leaf for.
-/
namespace RewardPool

open Merkle (Digest)

/-- What a checkpoint is good for: it has the leaves of a ledger, each under its own address, and
whoever has one can verify it and claim it. -/
structure Checkpoint.Serves (h : Digest) (c : Checkpoint) (l : Ledger) : Prop where
  leaves : c.leaves.entries = l.leaves.map fun leaf => (leaf.address, leaf)
  proofs : c.proofs.keys = c.leaves.keys
  verifies : ∀ a, c.verify h a = c.leaves.contains a
  claims : ∀ (ε τ : Type) (read : Address → StateM τ (Except ε Wei)) (v v' : τ) (claimed : Wei) a
    leaf, c.leaves.find? a = some leaf → (read a).run v = (.ok claimed, v') →
      ∃ claim, (c.claim a read).run v = (.ok (some claim), v') ∧ claim.root = c.root ∧
        claim.accumulated = leaf.balance ∧
        Merkle.verify h claim.proof claim.root (Merkle.leafHash h a claim.accumulated) = true

theorem Checkpoint.serves_commitment {h : Digest} {l : Ledger} {c : Checkpoint}
    (hroot : c.root = (l.commitment h).root) (hleaves : c.leaves = (l.commitment h).leaves)
    (hproofs : c.proofs = (l.commitment h).proofs) : c.Serves h l where
  leaves := by
    rw [hleaves]
    exact l.entries_leaves_commitment h
  proofs := by
    rw [hproofs, hleaves]
    exact l.keys_proofs_commitment h
  verifies := by
    intro a
    unfold verify SortedMap.contains
    rw [hroot, hleaves, hproofs]
    cases hleaf : (l.commitment h).leaves.find? a with
    | none => rfl
    | some leaf =>
      obtain ⟨proof, hproof, hverify⟩ := Ledger.proof_of_leaf hleaf
      have haddress := Ledger.address_of_leaf hleaf
      rw [hproof]
      dsimp only [Leaf.hash]
      rw [haddress]
      exact hverify
  claims := by
    intro ε τ read v v' claimed a leaf hleaf hread
    obtain ⟨proof, hproof, hverify⟩ := Ledger.proof_of_leaf (hleaves ▸ hleaf)
    refine ⟨c.claimOf leaf a claimed, claim_of_leaf hleaf hread, rfl, rfl, ?_⟩
    unfold claimOf
    dsimp only
    rw [hproofs, hproof, hroot]
    exact hverify

namespace Oracle

variable {σ ε : Type} {h : Digest} {chain : Chain ε (StateM σ)}
variable {submitter : Option (Submitter ε (StateM σ))} {o o' : Oracle} {config : Config}
variable {built : List (Call ε)} {call : Call ε} {c : Checkpoint}

/-- Whether a call settled a checkpoint slot and left a ledger with two leaves. A call whose
submission failed did settle its slot. -/
def Call.builds (config : Config) (call : Call ε) : Bool :=
  match call.result with
  | .ok _ | .error (.submission _) =>
    config.isCheckpointSlot? call.slot = some true ∧ 2 ≤ call.after.ledger.leaves.length
  | .error _ => false

def Call.Built (h : Digest) (call : Call ε) (c : Checkpoint) : Prop :=
  ∃ tree, call.after.ledger.claimTree h = .built tree ∧
    c = { Checkpoint.ofTree call.slot call.after.ledger.latestBlock tree with
      transaction := c.transaction }

def Call.transaction? (call : Call ε) : Option Hash :=
  match call.result with
  | .ok report => report.checkpoint.bind (·.transaction)
  | .error _ => none

theorem Call.Built.serves (hc : call.Built h c) : c.Serves h call.after.ledger := by
  obtain ⟨tree, hbuilt, heq⟩ := hc
  obtain ⟨-, rfl⟩ := Ledger.claimTree_eq_built_iff.mp hbuilt
  rw [heq]
  exact Checkpoint.serves_commitment rfl rfl rfl

/-- What is kept was built by a call, and the latest checkpoint by the last one of them. -/
structure Kept (h : Digest) (built : List (Call ε)) (o : Oracle) : Prop where
  found : ∀ r c, o.checkpoint? r = some c → c.root = r ∧ ∃ call ∈ built, call.Built h c
  unset : built = [] → o.latest = none
  latest : ∀ call, built.getLast? = some call →
    ∃ c, o.latest = some c.root ∧ o.checkpoint? c.root = some c ∧ call.Built h c

theorem Kept.congr (hkept : Kept h built o) (hcheckpoints : o'.checkpoints = o.checkpoints)
    (hlatest : o'.latest = o.latest) : Kept h built o' := by
  have hfind : ∀ r, o'.checkpoint? r = o.checkpoint? r := by
    intro r
    unfold checkpoint?
    rw [hcheckpoints]
  constructor
  · intro r c hc
    exact hkept.found r c (hfind r ▸ hc)
  · intro hnone
    rw [hlatest]
    exact hkept.unset hnone
  · intro call hlast
    rw [hlatest]
    obtain ⟨c, hroot, hc, hbuilt⟩ := hkept.latest call hlast
    exact ⟨c, hroot, (hfind c.root).trans hc, hbuilt⟩

/-- A checkpoint that is kept gives way to none but one with its own root. -/
theorem Kept.keep (hkept : Kept h built o) (hbuilt : call.Built h c)
    (hcheckpoints : o'.checkpoints = o.checkpoints.insert c.root c)
    (hlatest : o'.latest = some c.root) : Kept h (built ++ [call]) o' := by
  have hfind : ∀ r, o'.checkpoint? r = if c.root = r then some c else o.checkpoint? r := by
    intro r
    unfold checkpoint?
    rw [hcheckpoints, SortedMap.find?_insert]
  constructor
  · intro r c' hc'
    rw [hfind] at hc'
    split at hc'
    · rename_i hroot
      obtain rfl := Option.some.inj hc'
      exact ⟨hroot, call, by simp, hbuilt⟩
    · obtain ⟨hroot, earlier, hmem, hearlier⟩ := hkept.found r c' hc'
      exact ⟨hroot, earlier, List.mem_append_left _ hmem, hearlier⟩
  · intro hnone
    exact absurd hnone (by simp)
  · intro last hlast
    rw [List.getLast?_concat] at hlast
    obtain rfl := Option.some.inj hlast
    exact ⟨c, hlatest, by rw [hfind, if_pos rfl], hbuilt⟩

theorem Kept.skip {before : List (Call ε)} (hkept : Kept h (before.filter (·.builds config)) o)
    (hbuilds : call.builds config = false) (hcheckpoints : o'.checkpoints = o.checkpoints)
    (hlatest : o'.latest = o.latest) :
    Kept h ((before ++ [call]).filter (·.builds config)) o' := by
  have hsame : (before ++ [call]).filter (·.builds config) = before.filter (·.builds config) := by
    simp [hbuilds]
  rw [hsame]
  exact hkept.congr hcheckpoints hlatest

theorem Kept.add {before : List (Call ε)} (hkept : Kept h (before.filter (·.builds config)) o)
    (hbuilds : call.builds config = true) (hbuilt : call.Built h c)
    (hcheckpoints : o'.checkpoints = o.checkpoints.insert c.root c)
    (hlatest : o'.latest = some c.root) :
    Kept h ((before ++ [call]).filter (·.builds config)) o' := by
  have hmore : (before ++ [call]).filter (·.builds config) =
      before.filter (·.builds config) ++ [call] := by
    simp [hbuilds]
  rw [hmore]
  exact hkept.keep hbuilt hcheckpoints hlatest

/-- A call builds nothing and leaves what is kept alone, or it keeps the checkpoint of its ledger, with
the transaction that it reports. -/
theorem builds_cases {slot : Slot} {w w' : σ} {r : Except (Failure ε) SlotReport}
    (hcalled : Called h chain submitter o slot w r o' w') :
    let call : Call ε := ⟨slot, r, o'⟩
    (call.builds o.config = false ∧ o'.checkpoints = o.checkpoints ∧ o'.latest = o.latest) ∨
      (call.builds o.config = true ∧ ∃ c, call.Built h c ∧
        o'.checkpoints = o.checkpoints.insert c.root c ∧ o'.latest = some c.root ∧
        c.transaction = call.transaction?) := by
  cases hcalled with
  | outOfOrder hslot => exact .inl ⟨rfl, rfl, rfl⟩
  | failed hslot hfailed =>
    -- a reconciliation never fails as a submission does, so the call counts as not settled
    rcases Reconcile.slot_fails (returns_of_run hfailed) with ⟨f, rfl⟩ | ⟨e, rfl⟩
    · exact .inl ⟨rfl, rfl, rfl⟩
    · exact .inl ⟨rfl, rfl, rfl⟩
  | aborted hslot hdone hdue => exact .inl ⟨rfl, rfl, rfl⟩
  | passed hslot hdone hdue =>
    refine .inl ⟨decide_eq_false fun hboth => ?_, rfl, rfl⟩
    exact absurd (hdue.symm.trans hboth.1) (by simp)
  | committed hslot hdone hdue hcommit =>
    cases hcommit with
    | tooFew hfew =>
      refine .inl ⟨decide_eq_false fun hboth => ?_, rfl, rfl⟩
      exact absurd hboth.2 (Nat.not_le.mpr hfew)
    -- The checkpoint is kept before anyone can refuse its root.
    | kept hbuilt hc | submitted hbuilt hc | refused hbuilt hc failure =>
      have htwo := (Ledger.claimTree_eq_built_iff.mp hbuilt).1
      subst hc
      exact .inr ⟨decide_eq_true ⟨hdue, htwo⟩, _, ⟨_, hbuilt, rfl⟩, rfl, rfl, rfl⟩

/-- The step of a run: whatever a call comes to, it adds its checkpoint or nothing. -/
theorem kept_of_called {before : List (Call ε)} {slot : Slot} {w w' : σ}
    {r : Except (Failure ε) SlotReport}
    (hkept : Kept h (before.filter (·.builds o.config)) o)
    (hcalled : Called h chain submitter o slot w r o' w') :
    Kept h ((before ++ [(⟨slot, r, o'⟩ : Call ε)]).filter (·.builds o.config)) o' := by
  rcases builds_cases hcalled with
    ⟨hbuilds, hcheckpoints, hlatest⟩ | ⟨hbuilds, c, hbuilt, hcheckpoints, hlatest, -⟩
  · exact hkept.skip hbuilds hcheckpoints hlatest
  · exact hkept.add hbuilds hbuilt hcheckpoints hlatest

/-- Whatever happens in a run that starts without a checkpoint, every checkpoint that is kept was
built from the ledger right after its slot and serves all who have a leaf in it, and the latest one
is that of the last call that built one. -/
theorem kept_checkpoints_serve (h : Digest) (chain : Chain ε (StateM σ))
    (submitter : Option (Submitter ε (StateM σ))) (config : Config) (ledger : Ledger)
    (submittedRoot : Option Hash) (slots : List Slot) (w : σ) :
    let start : Oracle :=
      { config, ledger, checkpoints := .empty, latest := none, submittedRoot }
    let o := ((processAll h chain submitter slots start).run w).1
    let built := (calls h chain submitter slots start w).filter (·.builds config)
    (∀ r c, o.checkpoint? r = some c → c.root = r ∧
      ∃ call ∈ built, call.Built h c ∧ c.slot = call.slot ∧ c.Serves h call.after.ledger) ∧
    (built = [] → o.latest = none) ∧
    ∀ call, built.getLast? = some call →
      ∃ c, o.latest = some c.root ∧ o.checkpoint? c.root = some c ∧ call.Built h c := by
  intro start o built
  have hstart : start.config = config ∧
      Kept h (([] : List (Call ε)).filter (·.builds config)) start := by
    refine ⟨rfl, fun r c hc => ?_, fun _ => rfl, fun call hlast => ?_⟩
    · exact absurd hc (by simp [checkpoint?, start])
    · exact absurd hlast (by simp)
  have hrun : o.config = config ∧
      Kept h ((calls h chain submitter slots start w).filter (·.builds config)) o := by
    refine calls_induction
      (P := fun calls o => o.config = config ∧ Kept h (calls.filter (·.builds config)) o)
      ?_ hstart slots w
    rintro before o slot w r o' w' ⟨rfl, hkept⟩ hcalled
    exact ⟨hcalled.config_eq, kept_of_called hkept hcalled⟩
  obtain ⟨-, hkept⟩ := hrun
  refine ⟨fun r c hc => ?_, hkept.unset, hkept.latest⟩
  obtain ⟨hroot, call, hmem, hbuilt⟩ := hkept.found r c hc
  have hslot : c.slot = call.slot := by
    obtain ⟨tree, -, heq⟩ := hbuilt
    rw [heq]
    rfl
  exact ⟨hroot, call, hmem, hbuilt, hslot, hbuilt.serves⟩

end Oracle

/-! The root that is refused is the root of a checkpoint all the same. -/
namespace RefusedRoot

theorem refused_root_is_found :
    let start : Oracle :=
      { config := oracle.config, ledger := oracle.ledger, checkpoints := .empty, latest := none,
        submittedRoot := none }
    let o := ((Oracle.processAll Keccak.digest chain (some submitter) [110, 111] start).run ()).1
    let built := (Oracle.calls Keccak.digest chain (some submitter) [110, 111] start ()).filter
      (·.builds oracle.config)
    built.map (·.slot) = [110] ∧
      ∃ call ∈ built, ∃ c, o.latest = some c.root ∧ o.checkpoint? c.root = some c ∧
        call.Built Keccak.digest c := by
  have hkept := Oracle.kept_checkpoints_serve Keccak.digest chain (some submitter) oracle.config
    oracle.ledger none [110, 111] ()
  have hslots : ((Oracle.calls Keccak.digest chain (some submitter) [110, 111]
      { config := oracle.config, ledger := oracle.ledger, checkpoints := .empty, latest := none,
        submittedRoot := none } ()).filter (·.builds oracle.config)).map (·.slot) = [110] := by
    decide
  obtain ⟨call, hbuilt, -⟩ := List.map_eq_singleton_iff.mp hslots
  have hlast := (congrArg List.getLast? hbuilt).trans List.getLast?_singleton
  exact ⟨hslots, call, List.mem_of_getLast? hlast, hkept.2.2 call hlast⟩

end RefusedRoot

end RewardPool
