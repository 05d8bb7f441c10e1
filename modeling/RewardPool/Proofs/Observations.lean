import RewardPool.Proofs.Composition
import RewardPool.Supervisor

/-!
What a run leaves as it was. If no operation of the surroundings changes what can be observed of the
world, then nothing that the supervisor does for a slot changes it. The question for the latest
finalized slot is left out, so that the answers to it may be observed.
-/
namespace RewardPool

variable {σ ε δ α β ω : Type} {g : σ → ω}

/-- A computation after which the observation is the one before it. -/
def Keeps (g : σ → ω) (x : StateM σ α) : Prop := ∀ w, g (x.run w).2 = g w

theorem Keeps.eq {x : StateM σ α} (hx : Keeps g x) {w w' : σ} {a : α} (hrun : x.run w = (a, w')) :
    g w' = g w := by
  have hkept := hx w
  rwa [hrun] at hkept

theorem keeps_pure (a : α) : Keeps g (pure a : StateM σ α) := fun _ => rfl

theorem keeps_bind {x : StateM σ α} {f : α → StateM σ β} (hx : Keeps g x)
    (hf : ∀ a, Keeps g (f a)) : Keeps g (x >>= f) := by
  intro w
  exact (hf (x.run w).1 (x.run w).2).trans (hx w)

theorem sequential_keeps : Sequential (m := StateM σ) fun _ x => Keeps g x where
  pure := keeps_pure
  bind := keeps_bind

theorem keeps_run_pure (a : α) : Keeps g (pure a : ExceptT δ (StateM σ) α).run := keeps_pure _

theorem keeps_run_throw (e : δ) : Keeps g (throw e : ExceptT δ (StateM σ) α).run := keeps_pure _

theorem keeps_run_bind {x : ExceptT δ (StateM σ) α} {f : α → ExceptT δ (StateM σ) β}
    (hx : Keeps g x.run) (hf : ∀ a, Keeps g (f a).run) : Keeps g (x >>= f).run := by
  rw [ExceptT.run_bind]
  refine keeps_bind hx fun r => ?_
  cases r with
  | ok a => exact hf a
  | error e => exact keeps_pure _

/-- No operation on the disk changes the observation. -/
structure Disk.Spares (g : σ → ω) (d : Disk (StateM σ)) : Prop where
  write : ∀ p text, Keeps g (d.write p text)
  rename : ∀ source target, Keeps g (d.rename source target)

/-- No question about a slot changes the observation. -/
structure Chain.Quiet (g : σ → ω) (chain : Chain ε (StateM σ)) : Prop where
  block : ∀ slot, Keeps g (chain.block slot)
  proposer : ∀ slot, Keeps g (chain.proposer slot)
  receipts : ∀ number hashes, Keeps g (chain.receipts number hashes)
  subscriptions : ∀ first last, Keeps g (chain.subscriptions first last)
  unsubscriptions : ∀ first last, Keeps g (chain.unsubscriptions first last)
  validator : ∀ i slot, Keeps g (chain.validator i slot)

/-- No question about a slot, and nothing that is done to hand over a root, changes the observation. -/
structure Chain.Spares (g : σ → ω) (chain : Chain ε (StateM σ))
    (submitter : Option (Submitter ε (StateM σ))) : Prop extends chain.Quiet g where
  whitelisted : ∀ block address, Keeps g (chain.whitelisted block address)
  submit : ∀ s ∈ submitter, ∀ root, Keeps g (s.submit root)

namespace Reconcile

variable {chain : Chain ε (StateM σ)}

theorem ask_keeps {question : StateM σ (Except ε α)} (h : Keeps g question) :
    Keeps g (ask question).run := by
  refine keeps_bind h fun r => ?_
  cases r <;> exact keeps_pure _

theorem slot_keeps (hc : chain.Quiet g) (config : Config) (l : Ledger) (slot : Slot) :
    Keeps g (Reconcile.slot config chain l slot).run := by
  have hkeeps : Compositional chain chain fun _ x _ => Keeps g x.run :=
    { pure := keeps_run_pure
      fault := fun _ => keeps_run_throw _
      bind := keeps_run_bind
      proposer := fun _ => ask_keeps (hc.proposer _)
      block := fun _ => ask_keeps (hc.block _)
      receipts := fun _ _ => ask_keeps (hc.receipts _ _)
      subscriptions := fun _ _ => ask_keeps (hc.subscriptions _ _)
      unsubscriptions := fun _ _ => ask_keeps (hc.unsubscriptions _ _)
      validator := fun _ _ => ask_keeps (hc.validator _ _) }
  exact hkeeps.slot config l slot

end Reconcile

namespace Oracle

variable {h : Merkle.Digest} {chain : Chain ε (StateM σ)}
variable {submitter : Option (Submitter ε (StateM σ))}

theorem commit_keeps (hc : chain.Spares g submitter) (o : Oracle) (slot : Slot) :
    Keeps g (o.commit h chain submitter slot) :=
  sequential_keeps.commit hc.whitelisted hc.submit h o slot

theorem processSlot_keeps (hc : chain.Spares g submitter) (o : Oracle) (slot : Slot) :
    Keeps g (o.processSlot h chain submitter slot) := by
  unfold processSlot
  split
  · exact keeps_pure _
  · refine keeps_bind (Reconcile.slot_keeps hc.toQuiet _ _ _) fun reconciled => ?_
    rcases reconciled with failure | ⟨l, report⟩
    · exact keeps_pure _
    · dsimp only
      split
      · exact keeps_pure _
      · exact keeps_pure _
      · refine keeps_bind (commit_keeps hc _ _) fun committed => ?_
        rcases committed with ⟨failure | checkpoint, o'⟩
        all_goals exact keeps_pure _

end Oracle

namespace Store

theorem orElse_keeps {op : StateM σ (Except DiskFault α)} (hop : Keeps g op)
    (error : DiskFault → StoreError) : Keeps g (orElse op error).run := by
  refine keeps_bind hop fun r => ?_
  cases r <;> exact keeps_pure _

theorem replace_keeps {s : Store (StateM σ)} (hs : s.disk.Spares g) (f : StoreFile)
    (contents : String) : Keeps g (s.replace f contents).run :=
  keeps_run_bind (orElse_keeps (hs.write _ _) _) fun _ => orElse_keeps (hs.rename _ _) _

end Store

/-- Nothing that the surroundings do for a slot changes the observation. -/
structure Surroundings.Spares (g : σ → ω) (s : Surroundings ε (StateM σ)) : Prop where
  chain : s.chain.Spares g s.submitter
  disk : s.store.disk.Spares g
  stopped : Keeps g s.clock.stopped
  pause : ∀ seconds, Keeps g (s.clock.pause seconds)

namespace Supervisor

variable {h : Merkle.Digest} {s : Surroundings ε (StateM σ)}

theorem keepLedger_keeps (hs : s.Spares g) (o : Oracle) : Keeps g (keepLedger s o) := by
  refine keeps_bind (Store.replace_keeps hs.disk _ _) fun r => ?_
  cases r <;> exact keeps_pure _

theorem keepCheckpoint_keeps (hs : s.Spares g) (o : Oracle) : Keeps g (keepCheckpoint s o) := by
  unfold keepCheckpoint
  split
  · exact keeps_pure _
  · refine keeps_bind ?_ fun r => ?_
    · exact keeps_run_bind (Store.replace_keeps hs.disk _ _) fun _ =>
        Store.replace_keeps hs.disk _ _
    · cases r with
      | ok _ => exact keeps_bind (keepLedger_keeps hs o) fun _ => keeps_pure _
      | error _ => exact keeps_pure _

theorem afterSlot_keeps (hs : s.Spares g) (r : Except (Failure ε) SlotReport) (o : Oracle) :
    Keeps g (afterSlot s r o) := by
  unfold afterSlot
  split
  · split
    · exact keeps_bind (keepCheckpoint_keeps hs o) fun _ => keeps_pure _
    · exact keeps_pure _
  · exact keeps_bind (keepCheckpoint_keeps hs o) fun _ => keeps_pure _
  · exact keeps_pure _

theorem advance_keeps (hs : s.Spares g) (o : Oracle) (slot : Slot) :
    Keeps g (advance h s o slot) :=
  keeps_bind (Oracle.processSlot_keeps hs.chain o slot) fun _ => afterSlot_keeps hs _ _

theorem advanceMany_keeps {step : Step ε (StateM σ)} (hs : s.Spares g)
    (hstep : ∀ o slot, Keeps g (step o slot)) (n : Nat) (slot : Slot) (o : Oracle) :
    Keeps g (advanceMany step s n slot o) := by
  induction n generalizing slot o with
  | zero => exact keeps_pure _
  | succ n ih =>
    unfold advanceMany
    refine keeps_bind hs.stopped fun stopped => ?_
    split
    · exact keeps_pure _
    · refine keeps_bind (hstep o slot) fun advanced => ?_
      rcases advanced with ⟨failure | _, o'⟩
      · exact keeps_pure _
      · exact ih (slot + 1) o'

theorem afterRound_keeps (hs : s.Spares g) (r : Except (Failure ε) Unit) :
    Keeps g (afterRound s r) := by
  unfold afterRound
  split
  · exact keeps_pure _
  · exact keeps_pure _
  · refine keeps_bind hs.stopped fun stopped => ?_
    split
    · exact keeps_pure _
    · refine keeps_bind (hs.pause _) fun paused => ?_
      split <;> exact keeps_pure _

theorem conclude_keeps (hs : s.Spares g) (o : Oracle) (ending : Ending) :
    Keeps g (conclude s o ending) := by
  unfold conclude
  split
  · exact keeps_pure _
  · refine keeps_bind (Store.replace_keeps hs.disk _ _) fun r => ?_
    cases r <;> exact keeps_pure _

end Supervisor

end RewardPool
