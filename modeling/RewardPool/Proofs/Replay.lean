import RewardPool.Keccak
import RewardPool.Proofs.Runs
import RewardPool.Proofs.Watching

/-!
A run of the supervisor against a replay of the history. However often calls fail, heads go back,
roots are refused and the run is asked to stop, the ledger only ever moves by one whole slot of the
history at a time, in order. So at any end of a run it is the ledger of a replay, and the last slot
of the replay is not above a head that the chain has named.
-/
namespace RewardPool

open Merkle (Digest)

namespace History

/-- The ledger after so many slots of the history, the first one given. -/
def replay (H : History) (config : Config) : Nat → Slot → Ledger → Except (Failure Empty) Ledger
  | 0, _, l => return l
  | n + 1, slot, l => do
    let l ← H.reconcile config l slot
    H.replay config n (slot + 1) l

variable {H : History} {config : Config} {l l' m : Ledger} {slot : Slot}

theorem replay_succ {n : Nat} (hm : H.replay config n slot l = .ok m)
    (hl : H.reconcile config m (slot + UInt64.ofNat n) = .ok l') :
    H.replay config (n + 1) slot l = .ok l' := by
  induction n generalizing slot l with
  | zero =>
    obtain rfl := Except.ok.inj hm
    have hslot : slot + UInt64.ofNat 0 = slot := by simp
    rw [hslot] at hl
    exact except_bind_eq_ok.mpr ⟨l', hl, rfl⟩
  | succ n ih =>
    obtain ⟨first, hfirst, hrest⟩ := except_bind_eq_ok.mp hm
    have hslot : slot + UInt64.ofNat (n + 1) = slot + 1 + UInt64.ofNat n := by
      rw [UInt64.ofNat_add, UInt64.add_comm (UInt64.ofNat n), ← UInt64.add_assoc]
      rfl
    rw [hslot] at hl
    exact except_bind_eq_ok.mpr ⟨first, hfirst, ih hrest hl⟩

end History

/-- A slot that went through is the latest one of its ledger. -/
theorem Reconcile.latestSlot_of_succeeds {σ ε : Type} {config : Config}
    {chain : Chain ε (StateM σ)} {l l' : Ledger} {slot : Slot} {report : SlotReport}
    (h : Succeeds (Reconcile.slot config chain l slot) (l', report)) :
    l'.latestSlot = some slot := by
  obtain ⟨a, -, hposts⟩ := slot_succeeds h
  have hclosing : ∃ block, (a.entries slot).getLast? = some (.closing slot block) := by
    cases a with
    | missed proposer => exact ⟨none, rfl⟩
    | proposed a =>
      exact ⟨some a.block.number, by
        simp [SlotAccount.entries, BlockAccount.entries, List.getLast?_cons]⟩
  obtain ⟨block, hlast⟩ := hclosing
  obtain ⟨first, hentries⟩ := List.getLast?_eq_some_iff.mp hlast
  rw [hentries] at hposts
  obtain ⟨m, -, hrest⟩ := Ledger.postAll_append.mp hposts
  obtain ⟨_, hpost, hend⟩ := Ledger.postAll_cons.mp hrest
  obtain rfl := Except.ok.inj hend
  obtain rfl := Except.ok.inj hpost
  rfl

namespace Config

theorem isCheckpointSlot?_ne_none {c : Config} (hsize : c.checkpointSize ≠ 0) (slot : Slot) :
    c.isCheckpointSlot? slot ≠ none := by
  unfold isCheckpointSlot?
  rw [if_neg hsize]
  split <;> simp

end Config

namespace Supervisor

variable {σ ε : Type} {h : Digest} {H : History}

/-- What became of one slot: it went through as in the history, the chain failed, or the history has
a fault at it. -/
inductive Advanced (H : History) (o : Oracle) : Except (Failure ε) Unit → Oracle → Prop
  | settled {o' : Oracle} (hledger : H.reconcile o.config o.ledger o.nextSlot = .ok o'.ledger)
      (hconfig : o'.config = o.config) (hnext : o'.nextSlot = o.nextSlot + 1) :
      Advanced H o (.ok ()) o'
  | interrupted (e : ε) : Advanced H o (.error (.provider e)) o
  | faulted {f : Fault} (hfault : H.reconcile o.config o.ledger o.nextSlot = .error (.fault f)) :
      Advanced H o (.error (.fault f)) o

/-- What a run makes of a call: a root that was not submitted is no failure. -/
def tolerate : Except (Failure ε) SlotReport → Except (Failure ε) Unit
  | .ok _ | .error (.submission _) => .ok ()
  | .error failure => .error failure

theorem afterSlot_returns {s : Surroundings ε (StateM σ)} {result : Except (Failure ε) SlotReport}
    {o o' : Oracle} {r : Except (Failure ε) Unit} (hr : Returns (afterSlot s result o) (r, o')) :
    o' = o ∧ r = tolerate result := by
  rcases result with failure | report
  · cases failure with
    | submission f =>
      obtain ⟨_, -, hr⟩ := returns_bind hr
      obtain ⟨rfl, rfl⟩ := Prod.mk.inj (returns_pure hr)
      exact ⟨rfl, rfl⟩
    | _ =>
      obtain ⟨rfl, rfl⟩ := Prod.mk.inj (returns_pure hr)
      exact ⟨rfl, rfl⟩
  · unfold afterSlot at hr
    dsimp only at hr
    split at hr
    · obtain ⟨_, -, hr⟩ := returns_bind hr
      obtain ⟨rfl, rfl⟩ := Prod.mk.inj (returns_pure hr)
      exact ⟨rfl, rfl⟩
    · obtain ⟨rfl, rfl⟩ := Prod.mk.inj (returns_pure hr)
      exact ⟨rfl, rfl⟩

theorem advance_returns {s : Surroundings ε (StateM σ)} (hH : H.Governs s.chain) {o o' : Oracle}
    (hsize : o.config.checkpointSize ≠ 0) {r : Except (Failure ε) Unit}
    (hr : Returns (advance h s o o.nextSlot) (r, o')) : Advanced H o r o' := by
  obtain ⟨⟨processed, o₁⟩, hprocessed, hr⟩ := returns_bind hr
  obtain ⟨rfl, rfl⟩ := afterSlot_returns hr
  cases Oracle.processSlot_returns hprocessed with
  | outOfOrder hslot => exact absurd rfl hslot
  | failed hslot hfailed =>
    rcases History.reconcile_of_fails hH hfailed with ⟨e, rfl⟩ | ⟨f, rfl, hfault⟩
    · exact .interrupted e
    · exact .faulted hfault
  | reconciled hslot hdone hledger hconfig hresult =>
    have hsettled : Advanced (ε := ε) H o (.ok ()) o' := by
      refine .settled ?_ hconfig ?_
      · rw [hledger]
        exact History.reconcile_of_succeeds hH hdone
      · unfold Oracle.nextSlot
        rw [hledger, Reconcile.latestSlot_of_succeeds hdone]
        rfl
    rcases hresult with ⟨report, rfl⟩ | ⟨f, rfl⟩ | ⟨-, hsuspended⟩
    · exact hsettled
    · exact hsettled
    · exact absurd hsuspended (Config.isCheckpointSlot?_ne_none hsize _)

/-- So many slots after the start of a run, none of them above every head named so far. -/
structure Reached (H : History) (start : Oracle) (heads : List Slot) (n : Nat) (o : Oracle) :
    Prop where
  config : o.config = start.config
  ledger : H.replay start.config n start.nextSlot start.ledger = .ok o.ledger
  next : o.nextSlot.toNat = start.nextSlot.toNat + n
  bound : n = 0 ∨ ∃ f ∈ heads, start.nextSlot.toNat + n ≤ f.toNat + 1

/-- A result of a round that the history accounts for: a fault is its own at the next slot. -/
def Explained (H : History) (o : Oracle) : Except (Failure ε) Unit → Prop
  | .ok _ | .error (.provider _) => True
  | .error (.fault f) => H.reconcile o.config o.ledger o.nextSlot = .error (.fault f)
  | .error (.submission _) | .error .aborted => False

variable {start o o' : Oracle} {heads : List Slot} {n : Nat} {r : Except (Failure ε) Unit}

theorem reached_start (H : History) (start : Oracle) (heads : List Slot) :
    Reached H start heads 0 start :=
  ⟨rfl, rfl, rfl, .inl rfl⟩

theorem Reached.mono {heads' : List Slot} (hreached : Reached H start heads n o)
    (hheads : heads ⊆ heads') : Reached H start heads' n o where
  config := hreached.config
  ledger := hreached.ledger
  next := hreached.next
  bound := hreached.bound.imp_right fun ⟨f, hf, hle⟩ => ⟨f, hheads hf, hle⟩

theorem Reached.nextSlot_eq (hreached : Reached H start heads n o) :
    o.nextSlot = start.nextSlot + UInt64.ofNat n := by
  apply UInt64.toNat_inj.mp
  have hlt := o.nextSlot.toNat_lt
  have hn := hreached.next
  rw [UInt64.toNat_add, UInt64.toNat_ofNat']
  omega

/-- One more slot, not above a head that has a successor. -/
theorem Reached.step {f : Slot} (hreached : Reached H start heads n o) (hf : f ∈ heads)
    (hmax : f.toNat + 1 < UInt64.size) (hle : o.nextSlot.toNat ≤ f.toNat)
    (hledger : H.reconcile o.config o.ledger o.nextSlot = .ok o'.ledger)
    (hconfig : o'.config = o.config) (hnext : o'.nextSlot = o.nextSlot + 1) :
    Reached H start heads (n + 1) o' := by
  unfold UInt64.size at hmax
  refine ⟨hconfig.trans hreached.config, ?_, ?_, .inr ⟨f, hf, ?_⟩⟩
  · refine History.replay_succ hreached.ledger ?_
    rw [← hreached.nextSlot_eq, ← hreached.config]
    exact hledger
  -- The head is not the last of all slots, so the slot after it does not wrap around.
  · have hsucc : (o.nextSlot + 1).toNat = o.nextSlot.toNat + 1 := by
      rw [UInt64.toNat_add]
      have hone : (1 : UInt64).toNat = 1 := rfl
      omega
    rw [hnext, hsucc, hreached.next, Nat.add_assoc]
  · have hn := hreached.next
    omega

theorem advanceMany_returns {s : Surroundings ε (StateM σ)} (hH : H.Governs s.chain)
    (hsize : start.config.checkpointSize ≠ 0) {f : Slot} (hf : f ∈ heads)
    (hmax : f.toNat + 1 < UInt64.size) {count : Nat}
    (hcount : o.nextSlot.toNat + count ≤ f.toNat + 1)
    (hreached : Reached H start heads n o)
    (hr : Returns (advanceMany (advance h s) s count o.nextSlot o) (r, o')) :
    ∃ n', Reached H start heads n' o' ∧ Explained H o' r := by
  induction count generalizing o n with
  | zero =>
    obtain ⟨rfl, rfl⟩ := Prod.mk.inj (returns_pure hr)
    exact ⟨n, hreached, trivial⟩
  | succ count ih =>
    unfold advanceMany at hr
    obtain ⟨stopped, -, hr⟩ := returns_bind hr
    split at hr
    · obtain ⟨rfl, rfl⟩ := Prod.mk.inj (returns_pure hr)
      exact ⟨n, hreached, trivial⟩
    -- A slot that went through moves the replay on; after anything else the oracle is where it was.
    · obtain ⟨⟨advanced, o₁⟩, hadvanced, hr⟩ := returns_bind hr
      cases advance_returns hH (hreached.config ▸ hsize) hadvanced with
      | settled hledger hconfig hnext =>
        have hstep := hreached.step hf hmax (by omega) hledger hconfig hnext
        dsimp only at hr
        rw [← hnext] at hr
        have hleft : o₁.nextSlot.toNat + count ≤ f.toNat + 1 := by
          rw [hstep.next]
          have hn := hreached.next
          omega
        exact ih hleft hstep hr
      | interrupted e =>
        obtain ⟨rfl, rfl⟩ := Prod.mk.inj (returns_pure hr)
        exact ⟨n, hreached, trivial⟩
      | faulted hfault =>
        obtain ⟨rfl, rfl⟩ := Prod.mk.inj (returns_pure hr)
        exact ⟨n, hreached, hfault⟩

section Watched

variable {s : Surroundings ε (StateM σ)} {w w' : Chronicled σ Slot}

/-- The ways in which a round can go. It names at most one head and processes no slot above it. -/
inductive Round (h : Digest) (s : Surroundings ε (StateM σ)) (o : Oracle) (w : Chronicled σ Slot) :
    Except (Failure ε) Unit → Oracle → Chronicled σ Slot → Prop
  | unanswered (e : ε) {w' : Chronicled σ Slot} (hheads : w'.record = w.record) :
      Round h s o w (.error (.provider e)) o w'
  | ahead (f : Slot) {w' : Chronicled σ Slot} (hheads : w'.record = w.record ++ [f]) :
      Round h s o w (.ok ()) o w'
  | behind (f : Slot) {r : Except (Failure ε) Unit} {o' : Oracle} {w' : Chronicled σ Slot}
      (hheads : w'.record = w.record ++ [f]) (hle : o.nextSlot ≤ f)
      (hmany : Returns (advanceMany (advance h s.watched) s.watched ((f - o.nextSlot).toNat + 1)
        o.nextSlot o) (r, o')) :
      Round h s o w r o' w'

theorem catchUp_run
    (hrun : (catchUp (advance h s.watched) s.watched o).run w = ((r, o'), w')) :
    Round h s o w r o' w' := by
  have hspares := s.watched_spares
  unfold catchUp at hrun
  obtain ⟨answer, w₁, hhead, hrest⟩ := run_bind_cases hrun
  rcases Surroundings.finalizedSlot_watched hhead with ⟨f, rfl, hheads⟩ | ⟨e, rfl, hheads⟩
  · dsimp only at hrest
    split at hrest
    · obtain ⟨rfl, rfl, rfl⟩ := run_pure_cases hrest
      exact .ahead f hheads
    · rename_i hnotbelow
      have hle := UInt64.not_lt.mp hnotbelow
      obtain ⟨⟨advanced, o₁⟩, w₂, hmany, hend⟩ := run_bind_cases hrest
      have hkeeps := advanceMany_keeps hspares (advance_keeps (h := h) hspares)
        ((f - o.nextSlot).toNat + 1) o.nextSlot o
      have hheads₂ := (hkeeps.eq hmany).trans hheads
      cases advanced with
      | error failure =>
        obtain ⟨hresult, rfl⟩ := Prod.mk.inj hend
        exact .behind f hheads₂ hle (hresult ▸ returns_of_run hmany)
      | ok _ =>
        obtain ⟨_, w₃, hkeep, hdone⟩ := run_bind_cases hend
        obtain ⟨hresult, rfl⟩ := Prod.mk.inj hdone
        have hheads₃ := ((keepLedger_keeps hspares o₁).eq hkeep).trans hheads₂
        exact .behind f hheads₃ hle (hresult ▸ returns_of_run hmany)
  · obtain ⟨rfl, rfl, rfl⟩ := run_pure_cases hrest
    exact .unanswered e hheads

theorem catchUp_heads
    (hrun : (catchUp (advance h s.watched) s.watched o).run w = ((r, o'), w')) :
    w.record ⊆ w'.record := by
  cases catchUp_run hrun with
  | unanswered e hheads => exact hheads ▸ List.Subset.refl _
  | ahead f hheads => exact hheads ▸ List.subset_append_left _ _
  | behind f hheads hle hmany => exact hheads ▸ List.subset_append_left _ _

theorem catchUp_reached (hH : H.Governs s.chain) (hsize : start.config.checkpointSize ≠ 0)
    (hreached : Reached H start w.record n o)
    (hrun : (catchUp (advance h s.watched) s.watched o).run w = ((r, o'), w'))
    (hmax : ∀ f ∈ w'.record, f.toNat + 1 < UInt64.size) :
    ∃ n', Reached H start w'.record n' o' ∧ Explained H o' r := by
  have hgrown := hreached.mono (catchUp_heads hrun)
  cases catchUp_run hrun with
  | unanswered e hheads => exact ⟨n, hgrown, trivial⟩
  | ahead f hheads => exact ⟨n, hgrown, trivial⟩
  | behind f hheads hle hmany =>
    have hf : f ∈ w'.record := by simp [hheads]
    have hcount : o.nextSlot.toNat + ((f - o.nextSlot).toNat + 1) ≤ f.toNat + 1 := by
      have hle' := UInt64.le_iff_toNat_le.mp hle
      rw [UInt64.toNat_sub_of_le _ _ hle]
      omega
    exact advanceMany_returns (Surroundings.governs_watched hH) hsize hf (hmax f hf) hcount hgrown
      hmany

/-- The ways in which a budget of rounds is spent: the run ends before or after the first of them,
or goes on with the others. -/
inductive Rounds (h : Digest) (s : Surroundings ε (StateM σ)) (budget : Nat) (o : Oracle)
    (w : Chronicled σ Slot) : Option Ending → Oracle → Chronicled σ Slot → Prop
  | stopped {w' : Chronicled σ Slot} (hheads : w'.record = w.record) :
      Rounds h s budget o w (some .stopped) o w'
  | ended {r : Except (Failure ε) Unit} {o' : Oracle} {w₀ w₁ w' : Chronicled σ Slot}
      {ending : Ending} (hbefore : w₀.record = w.record)
      (hround : (catchUp (advance h s.watched) s.watched o).run w₀ = ((r, o'), w₁))
      (hafter : Returns (afterRound s.watched r) (some ending)) (hheads : w'.record = w₁.record) :
      Rounds h s budget o w (some ending) o' w'
  | continued {r : Except (Failure ε) Unit} {o₁ o' : Oracle} {w₀ w₁ w₂ w' : Chronicled σ Slot}
      {e : Option Ending} (hbefore : w₀.record = w.record)
      (hround : (catchUp (advance h s.watched) s.watched o).run w₀ = ((r, o₁), w₁))
      (hheads : w₂.record = w₁.record)
      (hrest : (rounds (advance h s.watched) s.watched budget o₁).run w₂ = ((e, o'), w')) :
      Rounds h s budget o w e o' w'

theorem rounds_succ_run {budget : Nat} {e : Option Ending}
    (hrun : (rounds (advance h s.watched) s.watched (budget + 1) o).run w = ((e, o'), w')) :
    Rounds h s budget o w e o' w' := by
  have hspares := s.watched_spares
  unfold rounds at hrun
  obtain ⟨stopped, w₀, hstopped, hrest⟩ := run_bind_cases hrun
  have hbefore := hspares.stopped.eq hstopped
  split at hrest
  · obtain ⟨rfl, rfl, rfl⟩ := run_pure_cases hrest
    exact .stopped hbefore
  · obtain ⟨⟨r, o₁⟩, w₁, hround, hafter⟩ := run_bind_cases hrest
    obtain ⟨e₁, w₂, hafterRound, hend⟩ := run_bind_cases hafter
    have hheads := (afterRound_keeps hspares r).eq hafterRound
    cases e₁ with
    | none => exact .continued hbefore hround hheads hend
    | some ending =>
      obtain ⟨rfl, rfl, rfl⟩ := run_pure_cases hend
      exact .ended hbefore hround (returns_of_run hafterRound) hheads

theorem rounds_heads {budget : Nat} {e : Option Ending}
    (hrun : (rounds (advance h s.watched) s.watched budget o).run w = ((e, o'), w')) :
    w.record ⊆ w'.record := by
  induction budget generalizing o w with
  | zero =>
    obtain ⟨-, rfl⟩ := Prod.mk.inj hrun
    exact List.Subset.refl _
  | succ budget ih =>
    cases rounds_succ_run hrun with
    | stopped hheads => exact hheads ▸ List.Subset.refl _
    | ended hbefore hround hafter hheads =>
      rw [← hbefore, hheads]
      exact catchUp_heads hround
    | continued hbefore hround hheads hrest =>
      rw [← hbefore]
      exact List.Subset.trans (hheads ▸ catchUp_heads hround) (ih hrest)

theorem afterRound_returns {s : Surroundings ε (StateM σ)} {e : Option Ending}
    (hexplained : Explained H o r) (hr : Returns (afterRound s r) e) :
    e = none ∨ e = some .stopped ∨
      ∃ f, e = some (.halted f) ∧
        H.reconcile o.config o.ledger o.nextSlot = .error (.fault f) := by
  unfold afterRound at hr
  split at hr
  · obtain rfl := returns_pure hr
    exact .inr (.inr ⟨_, rfl, hexplained⟩)
  · exact hexplained.elim
  · obtain ⟨stopped, -, hr⟩ := returns_bind hr
    split at hr
    · exact .inr (.inl (returns_pure hr))
    · obtain ⟨paused, -, hr⟩ := returns_bind hr
      split at hr
      · exact .inl (returns_pure hr)
      · exact .inr (.inl (returns_pure hr))

/-- Rounds end at a ledger of the replay, and halt only at a fault of the history. -/
theorem rounds_reached (hH : H.Governs s.chain) (hsize : start.config.checkpointSize ≠ 0)
    {budget : Nat} {ending : Ending} (hreached : Reached H start w.record n o)
    (hrun : (rounds (advance h s.watched) s.watched budget o).run w = ((some ending, o'), w'))
    (hmax : ∀ f ∈ w'.record, f.toNat + 1 < UInt64.size) :
    (∃ n', Reached H start w'.record n' o') ∧
      (ending = .stopped ∨ ∃ f, ending = .halted f ∧
        H.reconcile o'.config o'.ledger o'.nextSlot = .error (.fault f)) := by
  induction budget generalizing n o w with
  | zero => exact absurd (congrArg (fun x => x.1.1) hrun) (by simp [rounds])
  | succ budget ih =>
    cases rounds_succ_run hrun with
    | stopped hheads => exact ⟨⟨n, hheads ▸ hreached⟩, .inl rfl⟩
    | ended hbefore hround hafter hheads =>
      obtain ⟨n₁, hreached₁, hexplained⟩ :=
        catchUp_reached hH hsize (hbefore ▸ hreached) hround (hheads ▸ hmax)
      refine ⟨⟨n₁, hheads ▸ hreached₁⟩, ?_⟩
      rcases afterRound_returns hexplained hafter with hnone | hstopped | ⟨f, hhalted, hfault⟩
      · exact absurd hnone (by simp)
      · exact .inl (Option.some.inj hstopped)
      · exact .inr ⟨f, Option.some.inj hhalted, hfault⟩
    | continued hbefore hround hheads hrest =>
      -- No head is ever forgotten, so what holds of those at the end holds of those of this round.
      have hlater := rounds_heads hrest
      obtain ⟨n₁, hreached₁, -⟩ := catchUp_reached hH hsize (hbefore ▸ hreached) hround
        fun f hf => hmax f (hlater (hheads ▸ hf))
      exact ih (hheads ▸ hreached₁) hrest

end Watched

section Saved

variable {c : Chain ε (StateM σ)} {t : Option (Submitter ε (StateM σ))} {k : Clock (StateM σ)}
variable {dir : String} {w w' : Chronicled (Exposed σ) Slot}

/-- A run that ends with its ledger saved ends as its rounds did. -/
theorem conclude_run {ending ending' : Ending} (haborted : ending ≠ .aborted)
    (hsaved : ∀ error, ending' ≠ .unsaved error)
    (hrun : (conclude (Exposed.surroundings c t k (.onTree dir [])).watched o ending).run w =
      (ending', w')) :
    ending' = ending ∧ w'.world.files.read ["state.json"] = .ok o.ledger.toJson.pretty := by
  unfold conclude at hrun
  split at hrun
  · exact absurd rfl haborted
  · obtain ⟨written, w₁, hwritten, hend⟩ := run_bind_cases hrun
    cases written with
    | error error =>
      obtain ⟨rfl, -⟩ := Prod.mk.inj hend
      exact absurd rfl (hsaved error)
    | ok _ =>
      obtain ⟨rfl, rfl⟩ := Prod.mk.inj hend
      exact ⟨rfl, FileTree.read_of_find (Surroundings.saveLedger_watched hwritten)⟩

/-- Whatever fails on the way, a run that ends with its ledger saved holds the ledger of a replay of
the history that nothing interrupts, and if it halts then at a fault that the history has at the
very next slot. -/
theorem run_ends_at_replay (h : Digest) (hH : H.Governs c) (t : Option (Submitter ε (StateM σ)))
    (k : Clock (StateM σ)) (dir : String) (budget : Nat) {o o' : Oracle}
    (hsize : o.config.checkpointSize ≠ 0) {world : σ} {files : FileTree} {ending : Ending}
    {w' : Chronicled (Exposed σ) Slot}
    (hrun : (run h (Exposed.surroundings c t k (.onTree dir [])).watched budget o).run
      ⟨⟨world, files⟩, []⟩ = ((some ending, o'), w'))
    (hsaved : ∀ error, ending ≠ .unsaved error)
    (hheads : ∀ f ∈ w'.record, f.toNat < UInt64.size - 1) :
    ∃ n, H.replay o.config n o.nextSlot o.ledger = .ok o'.ledger ∧
      (n = 0 ∨ ∃ f ∈ w'.record, o.nextSlot.toNat + n ≤ f.toNat + 1) ∧
      w'.world.files.read ["state.json"] = .ok o'.ledger.toJson.pretty ∧
      (ending = .stopped ∨ ∃ fault, ending = .halted fault ∧
        H.reconcile o.config o'.ledger (o.nextSlot + UInt64.ofNat n) = .error (.fault fault)) := by
  obtain ⟨⟨e, o₁⟩, w₁, hrounds, hrest⟩ := run_bind_cases hrun
  cases e with
  | none => exact absurd (congrArg (fun x => x.1.1) hrest) (by simp)
  | some ending₁ =>
    obtain ⟨ending₂, w₂, hconclude, hend⟩ := run_bind_cases hrest
    obtain ⟨hresult, rfl⟩ := Prod.mk.inj hend
    obtain ⟨hending, rfl⟩ := Prod.mk.inj hresult
    obtain rfl := Option.some.inj hending
    have hspares := (Exposed.surroundings c t k (.onTree dir [])).watched_spares
    have hkept := (conclude_keeps hspares o₁ ending₁).eq hconclude
    obtain ⟨⟨n, hreached⟩, hended⟩ := rounds_reached (Exposed.governs_beside hH) hsize
      (reached_start H o []) hrounds fun f hf => by
        have hlt := hheads f (hkept ▸ hf)
        omega
    have haborted : ending₁ ≠ .aborted := by
      rcases hended with rfl | ⟨f, rfl, -⟩ <;> simp
    obtain ⟨rfl, hfile⟩ := conclude_run haborted hsaved hconclude
    refine ⟨n, hreached.ledger, hkept ▸ hreached.bound, hfile, ?_⟩
    rw [← hreached.nextSlot_eq, ← hreached.config]
    exact hended

end Saved

end Supervisor

/-! A chain of missed slots whose first poll fails. At the second one a slot is begun whose block is not
found out, and at the third one it is processed as a whole. Then the run is asked to stop. -/
namespace QuietChain

def history : History where
  proposer _ := 7
  block _ := none
  receipts number _ := (⟨number, none, 0⟩, [])
  subscriptions _ _ := []
  unsubscriptions _ _ := []
  validator _ _ := none

/-- The state of the world is the number of polls so far. -/
def chain : Chain Unit (StateM Nat) :=
  { history.chain with
    finalizedSlot := fun polls => (if polls = 0 then .error () else .ok 100, polls + 1)
    block := fun _ polls => (if polls = 2 then .error () else .ok none, polls) }

def clock : Clock (StateM Nat) where
  stopped := return false
  pause _ := return (← get) < 3

def oracle : Oracle :=
  .start
    { poolAddress := .fill 0xaa
      deployedSlot := 100
      deployedBlock := 1000
      checkpointSize := 10
      feePercent := 0
      feeAddress := .fill 0xfe
      collateral := 1000
      eligibility := .activeOnly }
    { validators := .empty
      poolFees := 0
      feePercent := 0
      feeAddress := .fill 0xfe
      eligibility := .activeOnly
      latestSlot := none
      latestBlock := none
      subscriptions := []
      unsubscriptions := []
      donations := []
      poolBlocks := [] }

theorem governs : history.Governs chain where
  block slot := by
    rintro r ⟨polls, rfl⟩
    by_cases hpolls : polls = 2
    · exact .inr ⟨(), if_pos hpolls⟩
    · exact .inl (if_neg hpolls)
  proposer := (history.governs_chain (ε := Unit) (σ := Nat)).proposer
  receipts := (history.governs_chain (ε := Unit) (σ := Nat)).receipts
  subscriptions := (history.governs_chain (ε := Unit) (σ := Nat)).subscriptions
  unsubscriptions := (history.governs_chain (ε := Unit) (σ := Nat)).unsubscriptions
  validator := (history.governs_chain (ε := Unit) (σ := Nat)).validator

def surroundings : Surroundings Unit (StateM (Exposed Nat)) :=
  Exposed.surroundings chain none clock (.onTree "store" [])

def start : Chronicled (Exposed Nat) Slot := ⟨⟨0, .empty⟩, []⟩

theorem run_ends : ∃ o' w', (Supervisor.run Keccak.digest surroundings.watched 3 oracle).run start =
    ((some .stopped, o'), w') ∧ w'.record = [100, 100] ∧ o'.ledger.latestSlot = some 100 := by
  have hended : ((Supervisor.run Keccak.digest surroundings.watched 3 oracle).run start).1.1 =
      some .stopped := by decide +kernel
  have hheads : ((Supervisor.run Keccak.digest surroundings.watched 3 oracle).run start).2.record =
      [100, 100] := by decide +kernel
  have hlatest : ((Supervisor.run Keccak.digest surroundings.watched 3
      oracle).run start).1.2.ledger.latestSlot = some 100 := by decide +kernel
  obtain ⟨⟨⟨ending, o'⟩, w'⟩, hrun⟩ : ∃ done, (Supervisor.run Keccak.digest
      surroundings.watched 3 oracle).run start = done := ⟨_, rfl⟩
  rw [hrun] at hended hheads hlatest
  obtain rfl : ending = some .stopped := hended
  exact ⟨o', w', hrun, hheads, hlatest⟩

theorem run_ends_at_first_slot :
    ∃ o' w', (Supervisor.run Keccak.digest surroundings.watched 3 oracle).run start =
        ((some .stopped, o'), w') ∧
      w'.record = [100, 100] ∧ o'.ledger.latestSlot = some 100 ∧
      history.replay oracle.config 1 oracle.nextSlot oracle.ledger = .ok o'.ledger ∧
      w'.world.files.read ["state.json"] = .ok o'.ledger.toJson.pretty := by
  obtain ⟨o', w', hrun, hheads, hlatest⟩ := run_ends
  have hbelow : ∀ f ∈ w'.record, f.toNat < UInt64.size - 1 := by
    intro f hf
    obtain rfl : f = 100 := by simpa [hheads] using hf
    decide
  obtain ⟨n, hreplay, hbound, hfile, -⟩ := Supervisor.run_ends_at_replay Keccak.digest governs none
    clock "store" 3 (by decide) hrun (by simp) hbelow
  have hsome : n ≠ 0 := by
    rintro rfl
    have hledger : oracle.ledger = o'.ledger := Except.ok.inj hreplay
    rw [← hledger] at hlatest
    exact absurd hlatest (by decide)
  obtain ⟨f, hf, hle⟩ := hbound.resolve_left hsome
  obtain rfl : f = 100 := by simpa [hheads] using hf
  have hnext : oracle.nextSlot.toNat = 100 := by decide
  have hhead : (100 : Slot).toNat = 100 := rfl
  obtain rfl : n = 1 := by omega
  exact ⟨o', w', hrun, hheads, hlatest, hreplay, hfile⟩

end QuietChain

end RewardPool
