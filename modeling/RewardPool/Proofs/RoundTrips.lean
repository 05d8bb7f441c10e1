import RewardPool.Proofs.Perils
import RewardPool.Proofs.TextForms

/-!
What is written is read back as the value it was. For every type with a record form this holds of its
text, in the compact layout and in the one of files. A save that came to its end on any tree of files
leaves its text where the load looks for it: a draft that was moved stands at its new place, and moving
the pointer leaves the checkpoint that it points to. So what was saved is what is loaded.
-/
namespace RewardPool

/-- Every value of a type is read back from its text, compact or pretty. -/
def ReadsBack (α : Type) [JsonForm α] : Prop :=
  ∀ a : α, JsonForm.parse? (toJson a).compact = some a ∧ JsonForm.parse? (toJson a).pretty = some a

theorem readsBack_of_lawful (α : Type) [JsonForm α] [LawfulForm α] : ReadsBack α := fun a =>
  ⟨JsonForm.parse?_render Json.blank_compact a, JsonForm.parse?_render Json.blank_pretty a⟩

namespace FileTree

variable {t t' v : FileTree} {p q base place : Path} {text : String}

/-- The place of a file of a store is below the place of its directory. -/
theorem locate_leads (hp : StoreFile.Leads p) (h : t.locate (base ++ p) = .ok q) :
    ∃ place, t.locate base = .ok place ∧ q = place ++ p := by
  have henter : ∀ {here next : Path} {name : String}, StoreFile.IsName name →
      t.enter here name = .ok next → next = here ++ [name] := by
    intro here next name hname hstep
    unfold enter at hstep
    split at hstep
    · rw [if_neg hname.1, if_neg hname.2] at hstep
      exact (Except.ok.inj hstep).symm
    · exact absurd hstep (by simp)
    · exact absurd hstep (by simp)
  unfold locate at h ⊢
  rw [List.foldlM_append] at h
  obtain ⟨place, hplace, h⟩ := except_bind_eq_ok.mp h
  refine ⟨place, hplace, ?_⟩
  cases hp with
  | top hname =>
    obtain ⟨next, hstep, hlast⟩ := except_bind_eq_ok.mp h
    obtain rfl := except_pure_eq_ok.mp hlast
    exact henter hname hstep
  | below hname =>
    obtain ⟨dir, hdir, h⟩ := except_bind_eq_ok.mp h
    obtain ⟨next, hstep, hlast⟩ := except_bind_eq_ok.mp h
    obtain rfl := except_pure_eq_ok.mp hlast
    rw [henter hname hstep, henter (by constructor <;> decide) hdir, List.append_assoc]
    rfl

/-- Replacing one file of a store leaves every other one as it is. -/
theorem find_of_other {f g : StoreFile} {node : Option Node} (hg : g ≠ f)
    (hwrite : t.write (base ++ f.draft) text = .ok v)
    (hmove : v.rename (base ++ f.draft) (base ++ f.path) = .ok t')
    (hfind : t.find (base ++ g.path) = .ok node) : t'.find (base ++ g.path) = .ok node := by
  obtain ⟨_, _, hdraft, htarget, -, -, hkept, hnode⟩ := node?_of_replaced hwrite hmove
  obtain ⟨_, hgplace, rfl⟩ := except_map_eq_ok.mp hfind
  -- all places are below that of the directory
  obtain ⟨place, hbase, rfl⟩ := locate_leads f.leads_draft hdraft
  obtain ⟨_, hbase', rfl⟩ := locate_leads f.leads_path htarget
  obtain rfl := Except.ok.inj ((hkept _ _ hbase).1.symm.trans hbase')
  obtain ⟨_, hbase', rfl⟩ := locate_leads g.leads_path hgplace
  obtain rfl := Except.ok.inj (hbase.symm.trans hbase')
  have hother : place ++ g.path ≠ place ++ f.path := fun heq =>
    hg (StoreFile.path_injective (List.append_cancel_left heq))
  have habove : ¬ place ++ f.draft <+: place ++ g.path := fun hprefix =>
    StoreFile.draft_not_above f g ((List.prefix_append_right_inj place).mp hprefix)
  unfold find
  rw [(hkept _ _ hgplace).2]
  show Except.ok _ = _
  rw [hnode _ (g.leads_path.append_ne_nil place), if_neg hother, if_neg habove]

end FileTree

namespace Store

variable {α : Type} {dir text : String} {base : Path} {t t' : FileTree} {f : StoreFile}

/-- A store on a tree of files that nothing else touches. -/
def onTree (dir : String) (base : Path) : Store (StateM FileTree) := ⟨dir, FileTree.disk base⟩

/-- A file that was replaced has its new text, and every other one is as it was. -/
theorem find_of_replace (h : ((onTree dir base).replace f text).run.run t = (.ok (), t')) :
    t'.find (base ++ f.path) = .ok (some (.file text)) ∧
      ∀ g ≠ f, ∀ node, t.find (base ++ g.path) = .ok node → t'.find (base ++ g.path) = .ok node := by
  obtain ⟨v, hwrite, hmove⟩ := replace_run h
  have hwritten := FileTree.act_map_run hwrite
  have hmoved := FileTree.act_map_run hmove
  exact ⟨FileTree.find_of_replaced hwritten hmoved,
    fun g hg node => FileTree.find_of_other hg hwritten hmoved⟩

theorem run_bind_of_ok {σ δ β : Type} {x : ExceptT δ (StateM σ) α} {k : α → ExceptT δ (StateM σ) β}
    {w w' : σ} {a : α} (hx : x.run.run w = (.ok a, w')) :
    (x >>= k).run.run w = (k a).run.run w' := by
  rw [ExceptT.run_bind, StateT.run_bind, hx]
  rfl

theorem run_bind_eq_ok {σ δ β : Type} {x : ExceptT δ (StateM σ) α}
    {k : α → ExceptT δ (StateM σ) β} {w w' : σ} {b : β}
    (h : (x >>= k).run.run w = (.ok b, w')) :
    ∃ a v, x.run.run w = (.ok a, v) ∧ (k a).run.run v = (.ok b, w') := by
  rcases hx : x.run.run w with ⟨fault | a, v⟩
  · rw [ExceptT.run_bind, StateT.run_bind, hx] at h
    exact absurd (Prod.mk.inj h).1 (by simp)
  · rw [run_bind_of_ok hx] at h
    exact ⟨a, v, rfl, h⟩

theorem orElse_of_ok {σ : Type} {op : StateM σ (Except DiskFault α)} {error : DiskFault → StoreError}
    {a : α} {w w' : σ} (h : op.run w = (.ok a, w')) :
    (orElse op error).run.run w = (.ok a, w') := by
  show (op >>= _).run w = _
  rw [StateT.run_bind, h]
  rfl

theorem contents?_of_find (dir : String) (h : t.find (base ++ f.path) = .ok (some (.file text))) :
    ((onTree dir base).contents? f).run.run t = (.ok (some text), t) := by
  have hthere : (liftM (m := StateM FileTree) (n := ExceptT StoreError (StateM FileTree))
      ((onTree dir base).disk.isThere f.path)).run.run t =
        (.ok (t.isThere (base ++ f.path)), t) := rfl
  have htrue : t.isThere (base ++ f.path) = true := by
    unfold FileTree.isThere
    rw [h]
  have hread : t.read (base ++ f.path) = .ok text := FileTree.read_of_find h
  have hcontents : (orElse ((onTree dir base).disk.read f.path)
      (.read ((onTree dir base).text f.path))).run.run t = (.ok text, t) :=
    orElse_of_ok (FileTree.run_act (by rw [hread]; rfl))
  rw [htrue] at hthere
  unfold contents?
  rw [run_bind_of_ok hthere, if_pos rfl, map_eq_pure_bind, run_bind_of_ok hcontents]
  rfl

theorem load?_of_find [JsonForm α] {a : α} (dir : String)
    (h : t.find (base ++ f.path) = .ok (some (.file text)))
    (hparse : JsonForm.parse? text = some a) :
    ((onTree dir base).load? f).run.run t = (.ok (some a), t) := by
  unfold load?
  rw [run_bind_of_ok (contents?_of_find dir h)]
  dsimp only
  rw [hparse]
  rfl

/-- What a save leaves behind is what the load of it finds: the ledger, and the checkpoint both under
its root and as the latest one. -/
structure Returns (s : Store (StateM FileTree)) : Prop where
  ledger : ∀ l t t', (s.saveLedger l).run.run t = (.ok (), t') →
    s.loadLedger?.run.run t' = (.ok (some l), t')
  checkpoint : ∀ c t t', (s.saveCheckpoint c).run.run t = (.ok (), t') →
    (s.loadCheckpoint? c.root).run.run t' = (.ok (some c), t')
  latest : ∀ c t t', (s.saveCheckpoint c).run.run t = (.ok (), t') →
    s.latestCheckpoint?.run.run t' = (.ok (some c), t')

/-- A checkpoint that was saved stands in its file, and the pointer names its root. -/
theorem find_of_saveCheckpoint {c : Checkpoint}
    (h : ((onTree dir base).saveCheckpoint c).run.run t = (.ok (), t')) :
    t'.find (base ++ (StoreFile.checkpoint c.root).path) = .ok (some (.file c.toJson.pretty)) ∧
      t'.find (base ++ StoreFile.latest.path) = .ok (some (.file (c.root.text ++ "\n"))) := by
  obtain ⟨_, v, hkept, hpointed⟩ := run_bind_eq_ok h
  obtain ⟨hpointer, hothers⟩ := find_of_replace hpointed
  exact ⟨hothers _ (by simp) _ (find_of_replace hkept).1, hpointer⟩

theorem returns_onTree (dir : String) (base : Path) : Returns (onTree dir base) where
  ledger l t t' h := load?_of_find dir (find_of_replace h).1 l.parse?_pretty
  checkpoint c t t' h := load?_of_find dir (find_of_saveCheckpoint h).1 c.parse?_pretty
  latest c t t' h := by
    obtain ⟨hfile, hpointer⟩ := find_of_saveCheckpoint h
    have hroot : (onTree dir base).latestRoot?.run.run t' = (.ok (some c.root), t') := by
      unfold latestRoot?
      rw [run_bind_of_ok (contents?_of_find dir hpointer)]
      dsimp only
      rw [c.root.ofText?_trim]
      rfl
    have hload : ((onTree dir base).loadCheckpoint? c.root).run.run t' = (.ok (some c), t') :=
      load?_of_find dir hfile c.parse?_pretty
    unfold latestCheckpoint?
    rw [run_bind_of_ok hroot]
    dsimp only
    rw [run_bind_of_ok hload]
    rfl

end Store

/-- What is saved in a store is loaded from it, every value with a form is read back from its text, and
the texts of numbers, byte strings and keys are told by their digits. -/
theorem saved_and_written_values_read_back :
    (∀ dir base, (Store.onTree dir base).Returns) ∧
    (ReadsBack Ledger ∧ ReadsBack Validator ∧ ReadsBack BlockRecord ∧ ReadsBack Subscription ∧
      ReadsBack Unsubscription ∧ ReadsBack Donation) ∧
    (ReadsBack Checkpoint ∧ ReadsBack Leaf ∧ ReadsBack ClaimTree ∧ ReadsBack Claim ∧
      ReadsBack Config) ∧
    (ReadsBack ProposedBlock ∧ ReadsBack Transaction ∧ ReadsBack Header ∧ ReadsBack Receipt ∧
      ReadsBack Identity) ∧
    (ReadsBack Status ∧ ReadsBack Event ∧ ReadsBack RewardKind ∧ ReadsBack BlockKind ∧
      ReadsBack Eligibility ∧ ReadsBack TransactionKind) ∧
    (WordForm UInt64 UInt64.toNat ∧ WordForm UInt8 UInt8.toNat ∧ WordForm GasPrice BitVec.toNat) ∧
    AmountForm ∧ (∀ n, BytesForm n) ∧ WordKeys ∧ MapForm UInt64 (· < ·) ∧
    ∀ n, MapForm (FixedBytes n) fun a b => a.toBytes < b.toBytes := by
  refine ⟨Store.returns_onTree, ?_, ?_, ?_, ?_, ?_, amountForm, bytesForm, wordKeys,
    mapForm fun _ _ h => h, bytesMapForm⟩
  · simp only [readsBack_of_lawful, and_self]
  · simp only [readsBack_of_lawful, and_self]
  · simp only [readsBack_of_lawful, and_self]
  · simp only [readsBack_of_lawful, and_self]
  · exact ⟨UInt64.wordForm, UInt8.wordForm, GasPrice.wordForm⟩

/-! A ledger with the largest amounts is saved in an empty directory, and then a checkpoint is. -/
namespace LargestAmounts

def store : Store (StateM FileTree) := .onTree "store" []

def opened : FileTree := FileTree.empty.put [StoreFile.checkpointsDir] .directory

def ledger : Ledger where
  validators := .insert .empty 18446744073709551615
    { Validator.fresh (.fill 0xff) .zero with accumulated := BitVec.allOnes 256 }
  poolFees := BitVec.allOnes 256
  feePercent := 10
  feeAddress := .fill 0xfe
  eligibility := .activeAndYellowCard
  latestSlot := some 18446744073709551615
  latestBlock := none
  subscriptions := []
  unsubscriptions := []
  donations := [⟨.fill 0xaa, 1, 7, .fill 0xbb⟩]
  poolBlocks := []

def checkpoint : Checkpoint where
  slot := 110
  block := some 18446744073709551615
  root := .fill 0xcc
  leaves := .insert .empty (.fill 0xff) ⟨.fill 0xff, BitVec.allOnes 256⟩
  proofs := .insert .empty (.fill 0xff) [.fill 0xdd]
  transaction := none

theorem both_saves_return :
    let t := ((store.saveLedger ledger).run.run opened).2
    let t' := ((store.saveCheckpoint checkpoint).run.run t).2
    (store.saveLedger ledger).run.run opened = (.ok (), t) ∧
      store.loadLedger?.run.run t = (.ok (some ledger), t) ∧
      (store.saveCheckpoint checkpoint).run.run t = (.ok (), t') ∧
      store.latestCheckpoint?.run.run t' = (.ok (some checkpoint), t') := by
  intro t t'
  have hledger : (store.saveLedger ledger).run.run opened = (.ok (), t) :=
    Prod.ext (by decide) rfl
  have hcheckpoint : (store.saveCheckpoint checkpoint).run.run t = (.ok (), t') :=
    Prod.ext (by decide) rfl
  have hreturns := saved_and_written_values_read_back.1 "store" []
  exact ⟨hledger, hreturns.ledger ledger opened t hledger, hcheckpoint,
    hreturns.latest checkpoint t t' hcheckpoint⟩

end LargestAmounts

end RewardPool
