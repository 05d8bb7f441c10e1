import Mathlib.Data.List.Forall2
import Mathlib.Data.List.Pairwise
import Mathlib.Data.Prod.Lex
import RewardPool.Contract
import RewardPool.Proofs.Answers
import RewardPool.Proofs.Forms

/-!
The order in which events are handed on. A node may answer a query with its logs in any order, and
some of them may lack a part of their position. The logs are sorted before their positions are looked at,
by what there is of them, so a missing part has its place in the order too. If nothing is missing, there
is one event for each log, in the order of the chain. And as long as no two logs claim the same place in
the chain, the order of the answer makes no difference to what is handed on, events or not.
-/
namespace RewardPool

namespace Log

/-- A part of its position that a log lacks. -/
inductive Lacks (log : Log) : String → Prop
  | block (h : log.block = none) : log.Lacks "block number"
  | logIndex (h : log.logIndex = none) : log.Lacks "log index"
  | transaction (h : log.transaction = none) : log.Lacks "transaction hash"

def StandsAt (log : Log) (block : BlockNumber) (logIndex : UInt64) : Prop :=
  log.block = some block ∧ log.logIndex = some logIndex

/-- Two logs do not claim the same place in the chain. -/
def Apart (a b : Log) : Prop :=
  ∀ block logIndex, ¬ (a.StandsAt block logIndex ∧ b.StandsAt block logIndex)

instance : Std.Symm Apart where
  symm _ _ h block logIndex hboth := h block logIndex hboth.symm

/-- What logs are sorted by. -/
def key (log : Log) : Nat ×ₗ Nat := toLex (place log.block, place log.logIndex)

theorem notAfter_iff {a b : Log} : a.notAfter b = true ↔ a.key ≤ b.key := by
  simp [notAfter, key, Prod.Lex.toLex_le_toLex]

theorem place_injective : Function.Injective place := by
  rintro (_ | m) (_ | n) h
  · rfl
  · exact absurd h (by simp [place])
  · exact absurd h (by simp [place])
  · rw [UInt64.toNat_inj.mp (Nat.succ.inj h)]

theorem key_eq_key_iff {a b : Log} :
    a.key = b.key ↔ a.block = b.block ∧ a.logIndex = b.logIndex := by
  simp [key, place_injective.eq_iff]

theorem apart_of_key_ne {a b : Log} (h : a.key ≠ b.key) : a.Apart b := by
  rintro block logIndex ⟨⟨hblock, hindex⟩, hblock', hindex'⟩
  exact h (key_eq_key_iff.mpr ⟨hblock.trans hblock'.symm, hindex.trans hindex'.symm⟩)

theorem position_cases (log : Log) :
    (∃ block logIndex transaction, log.StandsAt block logIndex ∧
        log.transaction = some transaction ∧ (∀ part, ¬ log.Lacks part) ∧
        log.position = .ok (block, logIndex, transaction)) ∨
      ∃ part, log.Lacks part ∧ log.position = .error (.logWithout part) := by
  unfold position
  cases hblock : log.block with
  | none => exact .inr ⟨_, .block hblock, rfl⟩
  | some block =>
    cases hindex : log.logIndex with
    | none => exact .inr ⟨_, .logIndex hindex, rfl⟩
    | some logIndex =>
      cases htransaction : log.transaction with
      | none => exact .inr ⟨_, .transaction htransaction, rfl⟩
      | some transaction =>
        refine .inl ⟨block, logIndex, transaction, ⟨hblock, hindex⟩, rfl, ?_, rfl⟩
        rintro part (h | h | h) <;> simp [h] at hblock hindex htransaction

/-- Of logs that stand nowhere, those that are sorted alike are refused alike. -/
theorem position_eq_of_key_eq {a b : Log} (hkey : a.key = b.key)
    (hnowhere : ∀ block logIndex, ¬ a.StandsAt block logIndex) : a.position = b.position := by
  obtain ⟨hblock, hindex⟩ := key_eq_key_iff.mp hkey
  unfold position
  rw [← hblock, ← hindex]
  cases ha : a.block with
  | none => rfl
  | some block =>
    cases hi : a.logIndex with
    | none => rfl
    | some logIndex => exact absurd ⟨ha, hi⟩ (hnowhere block logIndex)

/-- The events of a kind that some logs tell of, each with its log. -/
def events {α : Type} (kind : EventKind α) (logs : List Log) : List (α × Log) :=
  logs.filterMap (event? kind)

theorem event?_eq_some {α : Type} {kind : EventKind α} {log : Log} {e : α × Log}
    (h : log.event? kind = some e) : e.2 = log ∧ kind.read log.data = some e.1 := by
  obtain ⟨-, -, h⟩ := Option.bind_eq_some_iff.mp h
  obtain ⟨a, hread, ha⟩ := Option.bind_eq_some_iff.mp h
  obtain rfl := Option.some.inj ha
  exact ⟨rfl, hread⟩

/-- Events as their logs are sorted. -/
def sort {α : Type} (events : List (α × Log)) : List (α × Log) :=
  events.mergeSort fun a b => a.2.notAfter b.2

theorem sort_perm {α : Type} (events : List (α × Log)) : (sort events).Perm events :=
  List.mergeSort_perm events _

theorem pairwise_sort {α : Type} (events : List (α × Log)) :
    (sort events).Pairwise fun a b => a.2.key ≤ b.2.key := by
  refine (List.pairwise_mergeSort ?_ ?_ events).imp fun h => notAfter_iff.mp h
  · intro a b c hab hbc
    exact notAfter_iff.mpr ((notAfter_iff.mp hab).trans (notAfter_iff.mp hbc))
  · intro a b
    rw [Bool.or_eq_true, notAfter_iff, notAfter_iff]
    exact le_total _ _

section Decodable

variable {α : Type} {kind : EventKind α} {logs : List Log}

theorem read_of_mem_events {e : α × Log} (he : e ∈ events kind logs) :
    kind.read e.2.data = some e.1 := by
  obtain ⟨log, -, he⟩ := List.mem_filterMap.mp he
  obtain ⟨rfl, hread⟩ := event?_eq_some he
  exact hread

theorem mapM_event? (h : ∀ log ∈ logs, (log.event? kind).isSome) :
    logs.mapM (event? kind) = some (events kind logs) := by
  induction logs with
  | nil => rfl
  | cons log rest ih =>
    obtain ⟨hlog, hrest⟩ := List.forall_mem_cons.mp h
    obtain ⟨e, he⟩ := Option.isSome_iff_exists.mp hlog
    rw [List.mapM_cons, he, ih hrest]
    unfold events
    rw [List.filterMap_cons_some he]
    rfl

theorem map_snd_events (h : ∀ log ∈ logs, (log.event? kind).isSome) :
    (events kind logs).map Prod.snd = logs := by
  induction logs with
  | nil => rfl
  | cons log rest ih =>
    obtain ⟨hlog, hrest⟩ := List.forall_mem_cons.mp h
    obtain ⟨e, he⟩ := Option.isSome_iff_exists.mp hlog
    rw [events, List.filterMap_cons_some he, List.map_cons, (event?_eq_some he).1]
    exact congrArg _ (ih hrest)

end Decodable

end Log

/-- One place in the chain is not after another one. -/
def InChainOrder (a b : BlockNumber × UInt64) : Prop := a.1 < b.1 ∨ a.1 = b.1 ∧ a.2 ≤ b.2

theorem Log.inChainOrder_of_key_le {a b : Log} {block block' : BlockNumber}
    {logIndex logIndex' : UInt64} (ha : a.StandsAt block logIndex)
    (hb : b.StandsAt block' logIndex') (h : a.key ≤ b.key) :
    InChainOrder (block, logIndex) (block', logIndex') := by
  unfold key at h
  rw [ha.1, ha.2, hb.1, hb.2, Prod.Lex.toLex_le_toLex] at h
  rcases h with h | ⟨heq, hle⟩
  · exact .inl (UInt64.lt_iff_toNat_lt.mpr (Nat.lt_of_succ_lt_succ h))
  · exact .inr ⟨Option.some.inj (place_injective heq),
      UInt64.le_iff_toNat_le.mpr (Nat.le_of_succ_le_succ hle)⟩

namespace Subscription

def site (s : Subscription) : BlockNumber × UInt64 := (s.block, s.logIndex)

/-- A log tells of a subscription. -/
structure ToldBy (log : Log) (s : Subscription) : Prop where
  sender : (Abi.word? log.data 0).map .ofNat = some s.sender
  collateral : (Abi.word? log.data 1).map (BitVec.ofNat 256) = some s.collateral
  validator : (Abi.word? log.data 2).map UInt64.ofNat = some s.validator
  standsAt : log.StandsAt s.block s.logIndex
  transaction : log.transaction = some s.transaction

end Subscription

namespace Unsubscription

def site (u : Unsubscription) : BlockNumber × UInt64 := (u.block, u.logIndex)

/-- A log tells of an unsubscription. -/
structure ToldBy (log : Log) (u : Unsubscription) : Prop where
  sender : (Abi.word? log.data 0).map .ofNat = some u.sender
  validator : (Abi.word? log.data 1).map UInt64.ofNat = some u.validator
  standsAt : log.StandsAt u.block u.logIndex
  transaction : log.transaction = some u.transaction

end Unsubscription

/-- All that some logs can come to when their events are handed on. -/
inductive HandedOn {β : Type} (ToldBy : Log → β → Prop) (site : β → BlockNumber × UInt64)
    (logs : List Log) : Except ContractError (List β) → Prop
  | refused {log : Log} {part : String} (hlog : log ∈ logs) (hlacks : log.Lacks part) :
      HandedOn ToldBy site logs (.error (.logWithout part))
  | listed {events : List β} {ordered : List Log} (hmined : ∀ log ∈ logs, ∀ part, ¬ log.Lacks part)
      (hperm : ordered.Perm logs) (htold : List.Forall₂ ToldBy ordered events)
      (hsorted : events.Pairwise fun a b => InChainOrder (site a) (site b)) :
      HandedOn ToldBy site logs (.ok events)

/-- How events of a kind are kept, each with the position of its log. -/
structure EventForm (α β : Type) where
  kind : EventKind α
  make : α → BlockNumber × UInt64 × Hash → β
  ToldBy : Log → β → Prop
  site : β → BlockNumber × UInt64
  toldBy_make : ∀ {log a block logIndex transaction}, kind.read log.data = some a →
    log.StandsAt block logIndex → log.transaction = some transaction →
    ToldBy log (make a (block, logIndex, transaction))
  site_make : ∀ a block logIndex transaction,
    site (make a (block, logIndex, transaction)) = (block, logIndex)

def Subscription.form : EventForm (Address × Wei × ValidatorIndex) Subscription where
  kind := .subscription
  make := fun (sender, collateral, validator) (block, logIndex, transaction) =>
    { validator, sender, collateral, block, logIndex, transaction }
  ToldBy := ToldBy
  site := site
  toldBy_make {log a block logIndex transaction} hread hstands htransaction := by
    obtain ⟨sender, hsender, hread⟩ := Option.bind_eq_some_iff.mp hread
    obtain ⟨collateral, hcollateral, hread⟩ := Option.bind_eq_some_iff.mp hread
    obtain ⟨validator, hvalidator, ha⟩ := Option.bind_eq_some_iff.mp hread
    obtain rfl := Option.some.inj ha
    exact ⟨by rw [hsender]; rfl, by rw [hcollateral]; rfl, by rw [hvalidator]; rfl, hstands,
      htransaction⟩
  site_make _ _ _ _ := rfl

def Unsubscription.form : EventForm (Address × ValidatorIndex) Unsubscription where
  kind := .unsubscription
  make := fun (sender, validator) (block, logIndex, transaction) =>
    { validator, sender, block, logIndex, transaction }
  ToldBy := ToldBy
  site := site
  toldBy_make {log a block logIndex transaction} hread hstands htransaction := by
    obtain ⟨sender, hsender, hread⟩ := Option.bind_eq_some_iff.mp hread
    obtain ⟨validator, hvalidator, ha⟩ := Option.bind_eq_some_iff.mp hread
    obtain rfl := Option.some.inj ha
    exact ⟨by rw [hsender]; rfl, by rw [hvalidator]; rfl, hstands, htransaction⟩
  site_make _ _ _ _ := rfl

section Lists

variable {α β γ : Type}

theorem except_mapM_cases (f : α → Except ContractError γ) (items : List α) :
    (∃ results, items.mapM f = .ok results ∧ List.Forall₂ (fun a c => f a = .ok c) items results) ∨
      ∃ a ∈ items, ∃ e, f a = .error e ∧ items.mapM f = .error e := by
  induction items with
  | nil => exact .inl ⟨[], rfl, .nil⟩
  | cons a rest ih =>
    rw [List.mapM_cons]
    cases ha : f a with
    | error e => exact .inr ⟨a, List.mem_cons_self, e, ha, rfl⟩
    | ok c =>
      rcases ih with ⟨results, hresults, heach⟩ | ⟨b, hb, e, hf, he⟩
      · rw [hresults]
        exact .inl ⟨c :: results, rfl, .cons ha heach⟩
      · rw [he]
        exact .inr ⟨b, List.mem_cons_of_mem _ hb, e, hf, rfl⟩

theorem option_mapM_bind {read : α → Option β} {items : List α} {results : List β}
    (h : items.mapM read = some results) (g : β → Option γ) :
    (items.mapM fun j => read j >>= g) = results.mapM g := by
  induction items generalizing results with
  | nil =>
    obtain rfl := Option.some.inj h
    rfl
  | cons j rest ih =>
    rw [List.mapM_cons] at h
    obtain ⟨d, hd, h⟩ := Option.bind_eq_some_iff.mp h
    obtain ⟨ds, hds, h⟩ := Option.bind_eq_some_iff.mp h
    obtain rfl := Option.some.inj h
    rw [List.mapM_cons, List.mapM_cons, ih hds, hd]
    rfl

theorem pairwise_of_forall₂ {R : α → β → Prop} {S : α → α → Prop} {T : β → β → Prop}
    (h : ∀ {a a' b b'}, R a b → R a' b' → S a a' → T b b') {as : List α} {bs : List β}
    (hR : List.Forall₂ R as bs) (hS : as.Pairwise S) : bs.Pairwise T := by
  obtain ⟨hlength, hR⟩ := List.forall₂_iff_get.mp hR
  rw [List.pairwise_iff_getElem] at hS ⊢
  intro i j hi hj hij
  rw [← hlength] at hi hj
  exact h (hR i hi _) (hR j hj _) (hS i j hi hj hij)

end Lists

namespace EventForm

variable {α β : Type} {f : EventForm α β} {e e' : α × Log} {events events' : List (α × Log)}

def ofEvent (f : EventForm α β) (e : α × Log) : Except ContractError β :=
  e.2.position.map (f.make e.1)

/-- The events of an answer, sorted and with their positions. -/
def handOn (f : EventForm α β) (events : List (α × Log)) : Except ContractError (List β) :=
  (Log.sort events).mapM f.ofEvent

theorem ofEvent_eq_ok {b : β} (h : f.ofEvent e = .ok b) :
    ∃ block logIndex transaction, e.2.StandsAt block logIndex ∧
      e.2.transaction = some transaction ∧ (∀ part, ¬ e.2.Lacks part) ∧
      b = f.make e.1 (block, logIndex, transaction) := by
  unfold ofEvent at h
  rcases e.2.position_cases with ⟨block, logIndex, transaction, hstands, htransaction, hmined, hp⟩ |
    ⟨part, -, hp⟩
  · rw [hp] at h
    exact ⟨block, logIndex, transaction, hstands, htransaction, hmined, (Except.ok.inj h).symm⟩
  · rw [hp] at h
    exact absurd h nofun

theorem ofEvent_eq_error {fault : ContractError} (h : f.ofEvent e = .error fault) :
    ∃ part, e.2.Lacks part ∧ fault = .logWithout part := by
  unfold ofEvent at h
  rcases e.2.position_cases with ⟨block, logIndex, transaction, -, -, -, hp⟩ | ⟨part, hlacks, hp⟩
  · rw [hp] at h
    exact absurd h nofun
  · rw [hp] at h
    exact ⟨part, hlacks, (Except.error.inj h).symm⟩

theorem toldBy_of_ofEvent {b : β} (hread : f.kind.read e.2.data = some e.1)
    (h : f.ofEvent e = .ok b) : (∀ part, ¬ e.2.Lacks part) ∧ f.ToldBy e.2 b := by
  obtain ⟨block, logIndex, transaction, hstands, htransaction, hmined, rfl⟩ := ofEvent_eq_ok h
  exact ⟨hmined, f.toldBy_make hread hstands htransaction⟩

theorem inChainOrder_of_ofEvent {b b' : β} (h : f.ofEvent e = .ok b) (h' : f.ofEvent e' = .ok b')
    (hle : e.2.key ≤ e'.2.key) : InChainOrder (f.site b) (f.site b') := by
  obtain ⟨block, logIndex, transaction, hstands, -, -, rfl⟩ := ofEvent_eq_ok h
  obtain ⟨block', logIndex', transaction', hstands', -, -, rfl⟩ := ofEvent_eq_ok h'
  rw [f.site_make, f.site_make]
  exact Log.inChainOrder_of_key_le hstands hstands' hle

theorem handedOn_handOn (f : EventForm α β) {logs : List Log}
    (hdecodable : ∀ log ∈ logs, (log.event? f.kind).isSome) :
    HandedOn f.ToldBy f.site logs (f.handOn (Log.events f.kind logs)) := by
  have hread : ∀ e ∈ Log.events f.kind logs, f.kind.read e.2.data = some e.1 :=
    fun e he => Log.read_of_mem_events he
  have hlogs := Log.map_snd_events hdecodable
  generalize Log.events f.kind logs = events at hread hlogs
  subst hlogs
  have hperm := Log.sort_perm events
  rcases except_mapM_cases f.ofEvent (Log.sort events) with
    ⟨results, hresults, heach⟩ | ⟨e, he, fault, hfault, hresults⟩
  · have htold : List.Forall₂ (fun e b => (∀ part, ¬ e.2.Lacks part) ∧ f.ToldBy e.2 b)
        (Log.sort events) results :=
      ((List.forall₂_and_left _ _).mpr ⟨fun e he => hread e (hperm.mem_iff.mp he), heach⟩).imp
        fun _ _ h => toldBy_of_ofEvent h.1 h.2
    obtain ⟨hmined, htold⟩ := (List.forall₂_and_left _ _).mp htold
    unfold handOn
    rw [hresults]
    refine .listed ?_ (hperm.map Prod.snd) (List.forall₂_map_left_iff.mpr htold)
      (pairwise_of_forall₂ inChainOrder_of_ofEvent heach (Log.pairwise_sort events))
    intro log hlog
    obtain ⟨e, he, rfl⟩ := List.mem_map.mp hlog
    exact hmined e (hperm.mem_iff.mpr he)
  · obtain ⟨part, hlacks, rfl⟩ := ofEvent_eq_error hfault
    unfold handOn
    rw [hresults]
    exact .refused (List.mem_map_of_mem (hperm.mem_iff.mp he)) hlacks

/-- Events that are sorted alike are handed on alike: they are one event, or none of them stands
anywhere. -/
theorem ofEvent_eq_of_key_eq (f : EventForm α β)
    (hapart : events.Pairwise fun a b => a.2.Apart b.2) (he : e ∈ events) (he' : e' ∈ events)
    (hkey : e.2.key = e'.2.key) : f.ofEvent e = f.ofEvent e' := by
  by_cases hstands : ∃ block logIndex, e.2.StandsAt block logIndex
  · obtain ⟨block, logIndex, hblock, hindex⟩ := hstands
    obtain ⟨hblock', hindex'⟩ := Log.key_eq_key_iff.mp hkey
    have : Std.Symm fun a b : α × Log => a.2.Apart b.2 := ⟨fun _ _ h => symm h⟩
    by_contra hne
    exact hapart.forall he he' (fun heq => hne (by rw [heq])) block logIndex
      ⟨⟨hblock, hindex⟩, hblock' ▸ hblock, hindex' ▸ hindex⟩
  · have hnowhere : ∀ block logIndex, ¬ e.2.StandsAt block logIndex := by
      intro block logIndex h
      exact hstands ⟨block, logIndex, h⟩
    unfold ofEvent
    rw [← Log.position_eq_of_key_eq hkey hnowhere]
    rcases e.2.position_cases with ⟨block, logIndex, -, h, -⟩ | ⟨part, -, h⟩
    · exact absurd h (hnowhere block logIndex)
    · rw [h]
      rfl

/-- What an event is sorted by, and what becomes of it. -/
def judged (f : EventForm α β) (e : α × Log) : (Nat ×ₗ Nat) × Except ContractError β :=
  (e.2.key, f.ofEvent e)

theorem handOn_eq_mapM_judged (f : EventForm α β) (events : List (α × Log)) :
    f.handOn events = ((Log.sort events).map f.judged).mapM (·.2) := by
  rw [List.mapM_map]
  rfl

/-- Two answers with the same events are handed on alike, even if their sorted lists differ in events
that stand nowhere. -/
theorem handOn_eq_of_perm (f : EventForm α β) (hperm : events.Perm events')
    (hapart : events.Pairwise fun a b => a.2.Apart b.2) : f.handOn events = f.handOn events' := by
  have hmem := Log.sort_perm events
  have hmem' := Log.sort_perm events'
  have hsorted (events : List (α × Log)) :
      ((Log.sort events).map f.judged).Pairwise fun a b => a.1 ≤ b.1 :=
    List.pairwise_map.mpr (Log.pairwise_sort events)
  -- The keys alone do not determine the sorted lists, but the keys and the results together do.
  have hjudged : (Log.sort events).map f.judged = (Log.sort events').map f.judged := by
    refine List.Perm.eq_of_pairwise ?_ (hsorted events) (hsorted events')
      ((hmem.trans (hperm.trans hmem'.symm)).map f.judged)
    intro x y hx hy hxy hyx
    obtain ⟨e, he, rfl⟩ := List.mem_map.mp hx
    obtain ⟨e', he', rfl⟩ := List.mem_map.mp hy
    have hkey : e.2.key = e'.2.key := le_antisymm hxy hyx
    exact Prod.ext hkey (ofEvent_eq_of_key_eq f hapart (hmem.mem_iff.mp he)
      (hperm.mem_iff.mpr (hmem'.mem_iff.mp he')) hkey)
  rw [handOn_eq_mapM_judged, handOn_eq_mapM_judged, hjudged]

theorem handOn_events_eq_of_perm (f : EventForm α β) {logs logs' : List Log}
    (hdecodable : ∀ log ∈ logs, (log.event? f.kind).isSome) (hperm : logs.Perm logs')
    (hapart : logs.Pairwise Log.Apart) :
    f.handOn (Log.events f.kind logs) = f.handOn (Log.events f.kind logs') := by
  refine handOn_eq_of_perm f (hperm.filterMap _) (List.pairwise_map.mp ?_)
  rwa [Log.map_snd_events hdecodable]

end EventForm

theorem Subscription.ofEvent_eq : ofEvent = form.ofEvent := by
  funext ⟨⟨sender, collateral, validator⟩, log⟩
  unfold ofEvent EventForm.ofEvent
  dsimp only
  cases log.position <;> rfl

theorem Unsubscription.ofEvent_eq : ofEvent = form.ofEvent := by
  funext ⟨⟨sender, validator⟩, log⟩
  unfold ofEvent EventForm.ofEvent
  dsimp only
  cases log.position <;> rfl

namespace PoolContract

variable {α σ : Type}

/-- The query for the events of a kind in a range of blocks. -/
def filter (c : PoolContract (StateM σ)) (kind : EventKind α) (first last : BlockNumber) : Json :=
  .object
    [("address", .ofText c.address.text), ("fromBlock", .ofQuantity first.toNat),
     ("toBlock", .ofQuantity last.toNat),
     ("topics", .array [.ofText (Abi.signatureHash kind.signature).text])]

/-- The node of a contract answers a query with some logs, and they can all be read. -/
structure Lists (c : PoolContract (StateM σ)) (kind : EventKind α) (first last : BlockNumber)
    (w : σ) (logs : List Log) : Prop where
  answered : ∃ items w', (c.node.call "eth_getLogs" [c.filter kind first last]).run w =
    (.ok (.array items), w') ∧ items.mapM Log.ofNode? = some logs
  decodable : ∀ log ∈ logs, (log.event? kind).isSome

section Answered

variable {c : PoolContract (StateM σ)} {first last : BlockNumber} {w : σ} {logs : List Log}

theorem run_events {kind : EventKind α} (h : c.Lists kind first last w logs) :
    ∃ w', (c.events kind first last).run w =
      (.ok (Log.sort (Log.events kind logs)), w') := by
  obtain ⟨items, w', hanswered, hlogs⟩ := h.answered
  have hread : (items.mapM fun log => Log.ofNode? log >>= Log.event? kind) =
      some (Log.events kind logs) :=
    (option_mapM_bind hlogs _).trans (Log.mapM_event? h.decodable)
  refine ⟨w', ?_⟩
  unfold PoolContract.events RpcNode.ask
  rw [bind_assoc]
  refine (run_bind_eq hanswered).trans ?_
  dsimp only [Json.array?]
  rw [Option.bind_eq_bind, Option.bind_some, hread]
  rfl

theorem run_subscriptions (h : c.Lists .subscription first last w logs) :
    ((c.subscriptions first last).run w).1 =
      Subscription.form.handOn (Log.events .subscription logs) := by
  obtain ⟨w', hrun⟩ := run_events h
  unfold subscriptions
  rw [run_bind_eq hrun, Subscription.ofEvent_eq]
  rfl

theorem run_unsubscriptions (h : c.Lists .unsubscription first last w logs) :
    ((c.unsubscriptions first last).run w).1 =
      Unsubscription.form.handOn (Log.events .unsubscription logs) := by
  obtain ⟨w', hrun⟩ := run_events h
  unfold unsubscriptions
  rw [run_bind_eq hrun, Unsubscription.ofEvent_eq]
  rfl

end Answered

/-- However a node orders its answer, the events of a range of blocks are one for each log, with what the
log says, in the order of the chain; or they are refused, because a log lacks a part of its position. Two
nodes that answer with the same logs lead to the same, unless two logs claim one place in the chain. -/
theorem events_come_in_chain_order {σ τ : Type} (c : PoolContract (StateM σ))
    (d : PoolContract (StateM τ)) (first last : BlockNumber) (w : σ) (v : τ)
    (logs logs' : List Log) :
    (c.Lists .subscription first last w logs →
      HandedOn Subscription.ToldBy Subscription.site logs ((c.subscriptions first last).run w).1 ∧
      (d.Lists .subscription first last v logs' → logs.Perm logs' → logs.Pairwise Log.Apart →
        ((c.subscriptions first last).run w).1 = ((d.subscriptions first last).run v).1)) ∧
    (c.Lists .unsubscription first last w logs →
      HandedOn Unsubscription.ToldBy Unsubscription.site logs
        ((c.unsubscriptions first last).run w).1 ∧
      (d.Lists .unsubscription first last v logs' → logs.Perm logs' → logs.Pairwise Log.Apart →
        ((c.unsubscriptions first last).run w).1 = ((d.unsubscriptions first last).run v).1)) := by
  constructor
  · intro h
    refine ⟨?_, fun h' hperm hapart => ?_⟩
    · rw [run_subscriptions h]
      exact EventForm.handedOn_handOn Subscription.form h.decodable
    · rw [run_subscriptions h, run_subscriptions h']
      exact EventForm.handOn_events_eq_of_perm Subscription.form h.decodable hperm hapart
  · intro h
    refine ⟨?_, fun h' hperm hapart => ?_⟩
    · rw [run_unsubscriptions h]
      exact EventForm.handedOn_handOn Unsubscription.form h.decodable
    · rw [run_unsubscriptions h, run_unsubscriptions h']
      exact EventForm.handOn_events_eq_of_perm Unsubscription.form h.decodable hperm hapart

end PoolContract

/-! Three subscriptions in two blocks, the last one first, and as they stand in the chain. -/
namespace ShuffledAnswers

def pool : Address := .ofNat 5

def place : Option UInt64 → Json
  | none => .null
  | some n => .string (Numeral.hexadecimal n.toNat)

/-- What a node answers for a log. -/
def document (log : Log) : Json :=
  .object
    [("address", toJson pool), ("topics", toJson log.topics),
     ("data", .string ("0x" ++ hexOfBytes log.data)), ("blockNumber", place log.block),
     ("transactionIndex", .null), ("logIndex", place log.logIndex),
     ("transactionHash", toJson log.transaction)]

theorem bytes?_string (bytes : List UInt8) :
    (Json.string ("0x" ++ hexOfBytes bytes)).bytes? = some bytes := by
  have hdigit : ∀ d < 16, Json.isPlainChar (Nat.digitChar d) = true := by decide
  have hhex : Json.isPlain (hexOfBytes bytes) = true :=
    List.all_eq_true.mpr (forall_mem_hexOfBytes hdigit bytes)
  have hplain : Json.isPlain ("0x" ++ hexOfBytes bytes) = true := by
    rw [isPlain_append, hhex]
    rfl
  have hlist : ("0x" ++ hexOfBytes bytes).toList = '0' :: 'x' :: (hexOfBytes bytes).toList := by
    simp
  show (Json.textOf? _).bind (fun text => bytesOfHex? (dropHexMark text.toList)) = some bytes
  rw [Json.textOf?_of_isPlain hplain, Option.bind_some, hlist]
  exact bytesOfHex?_hexOfBytes bytes

theorem quantity?_hexadecimal (n : UInt64) :
    (Json.string (Numeral.hexadecimal n.toNat)).quantity? 64 = some n.toNat := by
  have hplain : Json.isPlain (Numeral.hexadecimal n.toNat) = true := by
    unfold Numeral.hexadecimal
    rw [isPlain_append, isPlain_write (by omega) (by omega)]
    rfl
  have hlt : n.toNat < 18446744073709551616 := n.toNat_lt
  simp [Json.quantity?, Json.textOf?_of_isPlain hplain, Numeral.based?_hexadecimal, guard, hlt]

theorem mayWith?_place (n : Option UInt64) :
    Json.mayWith? Json.wordQuantity? (some (place n)) = some n := by
  cases n with
  | none => rfl
  | some n => simp [Json.mayWith?, place, Json.wordQuantity?, quantity?_hexadecimal]

theorem admits_topics (topics : List Hash) :
    (Shape.fixedBytes 32).list.admits (toJson topics) = true := by
  have hread (h : Hash) : FixedBytes.ofJson? (toJson h) = some h := LawfulForm.reads h
  show (topics.map toJson).all (Shape.fixedBytes 32).admits = true
  simp [Shape.admits, hread]

theorem admits_document (log : Log) : Shape.log.admits (document log) = true := by
  have hfields : (document log).fields? = some
    [("address", toJson pool), ("topics", toJson log.topics),
     ("data", .string ("0x" ++ hexOfBytes log.data)), ("blockNumber", place log.block),
     ("transactionIndex", .null), ("logIndex", place log.logIndex),
     ("transactionHash", toJson log.transaction)] := rfl
  have hpool : FixedBytes.ofJson? (toJson pool) = some pool := LawfulForm.reads pool
  have hnone : toJson (none : Option Hash) = .null := rfl
  have hsome (t : Hash) : toJson (some t) = .string t.text := rfl
  have hhash (t : Hash) : FixedBytes.ofJson? (.string t.text) = some t := LawfulForm.reads t
  rw [Shape.log, Shape.admits, hfields]
  rcases log with ⟨topics, data, _ | block, _ | logIndex, _ | transaction⟩ <;>
  simp [Shape.admitsFields, ShapeField.valuesIn, ShapeField.needed, ShapeField.nullable,
    ShapeField.optional, ShapeField.omissible, Shape.hash, Shape.address, Shape.admits, hpool,
    admits_topics, bytes?_string, place, quantity?_hexadecimal, hnone, hsome, hhash]

theorem ofNode?_document (log : Log) : Log.ofNode? (document log) = some log := by
  have hcolumns : (document log).columns?
      ["topics", "data", "blockNumber", "logIndex", "transactionHash"] =
      some [some (toJson log.topics), some (.string ("0x" ++ hexOfBytes log.data)),
        some (place log.block), some (place log.logIndex), some (toJson log.transaction)] := rfl
  unfold Log.ofNode?
  rw [admits_document, hcolumns]
  simp [Json.needWith?, bytes?_string, mayWith?_place, guard]

/-- The node answers every query with the same logs. -/
def contract (logs : List Log) : PoolContract (StateM Unit) where
  node := ⟨fun _ _ => pure (.ok (.array (logs.map document)))⟩
  address := pool
  gasLimit := none
  wallet := none

theorem lists_contract {logs : List Log}
    (hdecodable : ∀ log ∈ logs, (log.event? .subscription).isSome) :
    (contract logs).Lists .subscription 4 5 () logs := by
  refine ⟨⟨logs.map document, (), rfl, ?_⟩, hdecodable⟩
  rw [List.mapM_map]
  exact (mapM_eq_some_map fun log _ => ofNode?_document log).trans (by rw [List.map_id'])

theorem word?_flatMap (numbers : List Nat) (i : Nat) :
    Abi.word? (numbers.flatMap (bytesOfNat 32)) i = numbers[i]?.map (· % 256 ^ 32) := by
  induction numbers generalizing i with
  | nil => simp [Abi.word?]
  | cons n rest ih =>
    rw [List.flatMap_cons]
    cases i with
    | zero => simp [Abi.word?, length_bytesOfNat, natOfBytes_bytesOfNat]
    | succ i =>
      have hskip : 32 * (i + 1) = (bytesOfNat 32 n).length + 32 * i := by
        rw [length_bytesOfNat]
        omega
      rw [List.getElem?_cons_succ, ← ih]
      unfold Abi.word?
      rw [hskip, List.drop_length_add_append]

def logOf (validator block logIndex : UInt64) : Log where
  topics := [Abi.signatureHash EventKind.subscription.signature]
  data := [7, 1000, validator.toNat].flatMap (bytesOfNat 32)
  block := some block
  logIndex := some logIndex
  transaction := some (.ofNat validator.toNat)

theorem event?_logOf (validator block logIndex : UInt64) :
    (logOf validator block logIndex).event? .subscription =
      some ((.ofNat 7, 1000, validator), logOf validator block logIndex) := by
  have hvalidator : validator.toNat % 256 ^ 32 = validator.toNat :=
    Nat.mod_eq_of_lt (validator.toNat_lt.trans (by decide))
  have hread : EventKind.subscription.read (logOf validator block logIndex).data =
      some (.ofNat 7, 1000, validator) := by
    simp only [EventKind.subscription, logOf, word?_flatMap]
    show some (_, _, UInt64.ofNat (validator.toNat % 256 ^ 32)) = _
    rw [hvalidator, UInt64.ofNat_toNat]
    rfl
  unfold Log.event?
  rw [hread]
  simp [logOf, guard]

def shuffled : List Log := [logOf 30 5 1, logOf 20 4 10, logOf 10 4 9]

theorem decodable_shuffled : ∀ log ∈ shuffled, (log.event? .subscription).isSome := by
  simp [shuffled, event?_logOf]

theorem run_in_order :
    (((contract shuffled.reverse).subscriptions 4 5).run ()).1.toOption.map (·.map (·.validator)) =
      some [10, 20, 30] := by
  have hdecodable : ∀ log ∈ shuffled.reverse, (log.event? .subscription).isSome :=
    fun log hlog => decodable_shuffled log (List.mem_reverse.mp hlog)
  have hevents : Log.events .subscription shuffled.reverse =
      [((.ofNat 7, 1000, 10), logOf 10 4 9), ((.ofNat 7, 1000, 20), logOf 20 4 10),
        ((.ofNat 7, 1000, 30), logOf 30 5 1)] := by
    simp [Log.events, shuffled, event?_logOf]
  rw [PoolContract.run_subscriptions (lists_contract hdecodable), hevents, EventForm.handOn,
    Log.sort, List.mergeSort_of_pairwise (by decide)]
  rfl

theorem shuffled_answers_agree :
    (contract shuffled).Lists .subscription 4 5 () shuffled ∧
      (contract shuffled.reverse).Lists .subscription 4 5 () shuffled.reverse ∧
      shuffled.Pairwise Log.Apart ∧
      HandedOn Subscription.ToldBy Subscription.site shuffled
        (((contract shuffled).subscriptions 4 5).run ()).1 ∧
      (((contract shuffled).subscriptions 4 5).run ()).1.toOption.map (·.map (·.validator)) =
        some [10, 20, 30] := by
  have hshuffled := lists_contract decodable_shuffled
  have hreverse := lists_contract fun log hlog =>
    decodable_shuffled log (List.mem_reverse.mp hlog)
  have hkeys : shuffled.Pairwise fun a b => a.key ≠ b.key := by decide
  have hapart : shuffled.Pairwise Log.Apart := hkeys.imp Log.apart_of_key_ne
  obtain ⟨hhanded, hagree⟩ := (PoolContract.events_come_in_chain_order (contract shuffled)
    (contract shuffled.reverse) 4 5 () () shuffled shuffled.reverse).1 hshuffled
  refine ⟨hshuffled, hreverse, hapart, hhanded, ?_⟩
  rw [hagree hreverse (List.reverse_perm _).symm hapart]
  exact run_in_order

end ShuffledAnswers

end RewardPool
