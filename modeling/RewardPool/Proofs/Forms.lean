import Mathlib.Data.List.Nodup
import Mathlib.Data.List.TakeWhile
import RewardPool.Checkpoint.Form
import RewardPool.Ledger.Form
import RewardPool.Proofs.MapEntries
import RewardPool.Proofs.Rendering
import RewardPool.Proofs.Spelling

/-!
Values that are read back from their JSON form. A form is lawful if what it writes can be spelled
without escapes and is read as the value it was written for. Numbers, names and byte strings are
lawful by their spelling; options, lists, maps and records are as soon as their parts are. A part that
may be left out must never be written as null, or it could not be told from one that is missing.
-/
namespace RewardPool

open Json (isPlain)

/-- A form that is read back from what it writes. -/
class LawfulForm (α : Type) [JsonForm α] : Prop where
  plain : ∀ a : α, (toJson a).Plain
  reads : ∀ a : α, ofJson? (toJson a) = some a

/-- A lawful form that no value is null in. -/
class SolidForm (α : Type) [JsonForm α] : Prop extends LawfulForm α where
  solid : ∀ a : α, toJson a ≠ .null

/-- Keys that are read back from their spelling. -/
class LawfulKey (κ : Type) [JsonKey κ] : Prop where
  plain : ∀ k : κ, isPlain (JsonKey.spellKey k) = true
  reads : ∀ k : κ, JsonKey.ofKey? (JsonKey.spellKey k) = some k

theorem mapM_eq_some_map {α β : Type} {f : α → Option β} {g : α → β} {items : List α}
    (h : ∀ a ∈ items, f a = some (g a)) : items.mapM f = some (items.map g) := by
  induction items with
  | nil => rfl
  | cons a rest ih =>
    obtain ⟨hfirst, hrest⟩ := List.forall_mem_cons.mp h
    rw [List.mapM_cons, hfirst, ih hrest]
    rfl

namespace Json

theorem unescape?_of_noSlash {cs : List Char} (h : ∀ c ∈ cs, c ≠ '\\') :
    unescape? cs = some cs := by
  induction cs with
  | nil => rfl
  | cons c rest ih =>
    obtain ⟨hfirst, hrest⟩ := List.forall_mem_cons.mp h
    have hstep : unescape? (c :: rest) = (unescape? rest).map (c :: ·) := by
      conv_lhs => unfold unescape?
      split
      all_goals simp_all
    rw [hstep, ih hrest, Option.map_some]

theorem textOf?_of_isPlain {spelling : String} (h : isPlain spelling = true) :
    textOf? spelling = some spelling := by
  have hchars : ∀ c ∈ spelling.toList, c ≠ '\\' := by
    intro c hc
    have hplain : isPlainChar c = true := List.all_eq_true.mp h c hc
    rintro rfl
    exact absurd hplain (by decide)
  rw [textOf?, unescape?_of_noSlash hchars, Option.map_some, String.ofList_toList]

/-- Names that a record can have for its fields. -/
def AreNames (names : List String) : Prop := (∀ name ∈ names, isPlain name = true) ∧ names.Nodup

instance (names : List String) : Decidable (AreNames names) := inferInstanceAs (Decidable (_ ∧ _))

theorem uniqueField?_of_mem {fields : List (String × Json)} (hnodup : (fields.map (·.1)).Nodup)
    {f : String × Json} (hf : f ∈ fields) : uniqueField? fields f.1 = some (some f.2) := by
  have hfilter : fields.filter (·.1 = f.1) = [f] := by
    induction fields with
    | nil => exact absurd hf List.not_mem_nil
    | cons first rest ih =>
      rw [List.map_cons, List.nodup_cons] at hnodup
      rcases List.mem_cons.mp hf with rfl | hrest
      · have hnone : rest.filter (·.1 = f.1) = [] := by
          refine List.filter_eq_nil_iff.mpr fun g hg => ?_
          simpa using fun heq => hnodup.1 (List.mem_map.mpr ⟨g, hg, heq⟩)
        simp [hnone]
      · have hne : first.1 ≠ f.1 := fun heq => hnodup.1 (heq ▸ List.mem_map_of_mem hrest)
        simp [hne, ih hnodup.2 hrest]
  unfold uniqueField?
  rw [hfilter]

/-- A record that was written with the fields of its kind is read field by field. -/
theorem record?_record {names : List String} {fields : List (String × Json)}
    (hnames : AreNames names) (hfields : fields.map (·.1) = names) :
    (record fields).record? names = some (fields.map fun f => some f.2) := by
  obtain ⟨hplain, hnodup⟩ := hnames
  subst hfields
  have htexts : (record fields).fields? = some fields := by
    have hkeys : ∀ f ∈ fields, (textOf? f.1).map (·, f.2) = some (id f) := by
      intro f hf
      rw [textOf?_of_isPlain (hplain _ (List.mem_map_of_mem hf))]
      rfl
    exact (mapM_eq_some_map hkeys).trans (by rw [List.map_id])
  have hknown : fields.all (fun f => (fields.map (·.1)).contains f.1 || f.2.isWhole) = true := by
    refine List.all_eq_true.mpr fun f hf => ?_
    simp [List.mem_map_of_mem hf]
  have hvalues : (fields.map (·.1)).mapM (uniqueField? fields) =
      some (fields.map fun f => some f.2) := by
    rw [List.mapM_map]
    exact mapM_eq_some_map fun f hf => uniqueField?_of_mem hnodup hf
  show (record fields).columns? _ = _
  unfold columns?
  rw [htexts, Option.bind_eq_bind, Option.bind_some, hknown, hvalues]
  rfl

theorem plain_record {fields : List (String × Json)} (hnames : AreNames (fields.map (·.1)))
    (hvalues : ∀ f ∈ fields, f.2.Plain) : (record fields).Plain := by
  refine .object (fun f hf => ?_) hvalues
  exact hnames.1 _ (List.mem_map_of_mem hf)

@[simp] theorem need?_toJson {α : Type} [JsonForm α] [LawfulForm α] (a : α) :
    need? (some (toJson a)) = some a := LawfulForm.reads a

@[simp] theorem may?_toJson {α : Type} [JsonForm α] [SolidForm α] (a : Option α) :
    may? (some (toJson a)) = some a := by
  cases a with
  | none => rfl
  | some a =>
    have hsolid : toJson a ≠ .null := SolidForm.solid a
    have hreads : ofJson? (toJson a) = some a := LawfulForm.reads a
    have hform : toJson (some a) = toJson a := rfl
    rw [hform]
    unfold may?
    split
    · simp_all
    · simp_all
    · simp_all

theorem isNumber_of_digits {cs : List Char} (hne : cs ≠ []) (hdigits : ∀ c ∈ cs, isDigit c = true)
    (hhead : cs.head? ≠ some '0') : isNumber cs = true := by
  cases cs with
  | nil => exact absurd rfl hne
  | cons c rest =>
    have hzero : c ≠ '0' := by simpa using hhead
    have hsign : c ≠ '-' := by
      rintro rfl
      exact absurd (hdigits _ List.mem_cons_self) (by decide)
    have hdrop : dropInteger? (c :: rest) = some [] := by
      have hall : (c :: rest).dropWhile isDigit = [] := List.dropWhile_eq_nil_iff.mpr hdigits
      unfold dropInteger?
      split
      · simp_all
      · simp [dropDigits?, hdigits c List.mem_cons_self, hall]
    unfold isNumber
    split
    · simp_all
    · dsimp only
      rw [hdrop]
      rfl

theorem plain_ofNat (n : Nat) : (ofNat n).Plain := by
  have hword : ∀ c ∈ Numeral.write 10 n, Scanner.endsWord c = false :=
    Numeral.forall_mem_write (by omega) (by decide) n
  have hdigits : ∀ c ∈ Numeral.write 10 n, isDigit c = true :=
    Numeral.forall_mem_write (by omega) (by decide) n
  have hnumber : isNumber (Numeral.write 10 n) = true := by
    rcases Nat.eq_zero_or_pos n with rfl | hpos
    · decide
    · exact isNumber_of_digits (Numeral.write_ne_nil 10 n) hdigits
        (Numeral.head_write (by omega) (by omega) hpos)
  refine .number ?_ ?_
  · rwa [Numeral.decimal, String.toList_ofList]
  · rwa [Numeral.decimal, String.toList_ofList]

theorem nat?_ofNat (n : Nat) : (ofNat n).nat? = some n := by
  show Numeral.plain? (Numeral.decimal n).toList = some n
  rw [Numeral.decimal, String.toList_ofList, Numeral.plain?_write]

end Json

instance : SolidForm UInt64 where
  plain n := Json.plain_ofNat n.toNat
  reads n := by
    show (Json.ofNat n.toNat).nat? >>= Numeral.word64? = some n
    rw [Json.nat?_ofNat]
    exact Numeral.word64?_toNat n
  solid _ := nofun

instance : SolidForm UInt8 where
  plain n := Json.plain_ofNat n.toNat
  reads n := by
    show (Json.ofNat n.toNat).nat?.bind _ = some n
    rw [Json.nat?_ofNat, Option.bind_some, if_pos n.toNat_lt, UInt8.ofNat_toNat]
  solid _ := nofun

instance : SolidForm GasPrice where
  plain p := Json.plain_ofNat p.toNat
  reads p := by
    show (Json.ofNat p.toNat).nat? >>= Numeral.fit? 128 = some p
    rw [Json.nat?_ofNat]
    exact Numeral.fit?_toNat p
  solid _ := nofun

theorem isPlain_append (a b : String) : isPlain (a ++ b) = (isPlain a && isPlain b) := by
  simp [isPlain]

theorem isPlain_write {base : Nat} (hone : 1 < base) (hbase : base ≤ 16) (n : Nat) :
    isPlain (String.ofList (Numeral.write base n)) = true := by
  have hdigit : ∀ d < 16, Json.isPlainChar (Nat.digitChar d) = true := by decide
  unfold isPlain
  rw [String.toList_ofList, List.all_eq_true]
  exact Numeral.forall_mem_write hone (fun d hd => hdigit d (by omega)) n

theorem Wei.isPlain_hexadecimal (w : Wei) : isPlain (Wei.hexadecimal w) = true := by
  unfold Wei.hexadecimal Numeral.hexadecimal
  rw [isPlain_append, isPlain_write (by omega) (by omega)]
  rfl

theorem FixedBytes.isPlain_text {n : Nat} (b : FixedBytes n) : isPlain b.text = true := by
  have hdigit : ∀ d < 16, Json.isPlainChar (Nat.digitChar d) = true := by decide
  have hbytes : isPlain (hexOfBytes b.toBytes) = true :=
    List.all_eq_true.mpr (forall_mem_hexOfBytes hdigit b.toBytes)
  unfold FixedBytes.text
  rw [isPlain_append, hbytes]
  rfl

instance : SolidForm Wei where
  plain w := .string (Wei.isPlain_hexadecimal w)
  reads w := by
    show (Json.textOf? (Wei.hexadecimal w)).bind (fun text => Wei.ofText? text.toList) = some w
    rw [Json.textOf?_of_isPlain (Wei.isPlain_hexadecimal w)]
    exact Wei.ofText?_hexadecimal w
  solid _ := nofun

instance {n : Nat} : SolidForm (FixedBytes n) where
  plain b := .string b.isPlain_text
  reads b := by
    show (Json.textOf? b.text).bind (fun text => FixedBytes.ofText? text.toList) = some b
    rw [Json.textOf?_of_isPlain b.isPlain_text]
    exact b.ofText?_text
  solid _ := nofun

instance {α : Type} [JsonForm α] [SolidForm α] : LawfulForm (Option α) where
  plain a := by
    cases a with
    | none => exact .null
    | some a => exact LawfulForm.plain a
  reads a := by
    cases a with
    | none => rfl
    | some a =>
      have hsolid : toJson a ≠ .null := SolidForm.solid a
      have hreads : ofJson? (toJson a) = some a := LawfulForm.reads a
      have hform : toJson (some a) = toJson a := rfl
      rw [hform]
      cases hj : (toJson a) with
      | null => exact absurd hj hsolid
      | _ =>
        rw [hj] at hreads
        exact congrArg (Option.map some) hreads

instance {α : Type} [JsonForm α] [LawfulForm α] : SolidForm (List α) where
  plain items := by
    refine .array fun j hj => ?_
    obtain ⟨a, -, rfl⟩ := List.mem_map.mp hj
    exact LawfulForm.plain a
  reads items := by
    show (items.map toJson).mapM ofJson? = some items
    rw [List.mapM_map]
    exact (mapM_eq_some_map fun a _ => LawfulForm.reads a).trans (by rw [List.map_id'])
  solid _ := nofun

instance : LawfulKey UInt64 where
  plain n := isPlain_write (by omega) (by omega) n.toNat
  reads n := by
    show Numeral.plain? (Numeral.decimal n.toNat).toList >>= Numeral.word64? = some n
    rw [Numeral.decimal, String.toList_ofList, Numeral.plain?_write]
    exact Numeral.word64?_toNat n

instance {n : Nat} : LawfulKey (FixedBytes n) where
  plain b := b.isPlain_text
  reads b := by
    show (Json.textOf? b.text).bind (fun text => FixedBytes.ofText? text.toList) = some b
    rw [Json.textOf?_of_isPlain b.isPlain_text]
    exact b.ofText?_text

instance {κ α : Type} [Ranked κ] [JsonKey κ] [LawfulKey κ] [JsonForm α] [LawfulForm α] :
    SolidForm (SortedMap κ α) where
  plain m := by
    refine .object ?_ ?_
    · intro f hf
      obtain ⟨e, -, rfl⟩ := List.mem_map.mp hf
      exact LawfulKey.plain e.1
    · intro f hf
      obtain ⟨e, -, rfl⟩ := List.mem_map.mp hf
      exact LawfulForm.plain e.2
  reads m := by
    have hentries : (m.entries.map fun e => (JsonKey.spellKey e.1, toJson e.2)).mapM
        (fun f => do
          let k ← JsonKey.ofKey? f.1
          let a ← ofJson? f.2
          return (k, a)) = some m.entries := by
      rw [List.mapM_map]
      refine (mapM_eq_some_map fun e _ => ?_).trans (by rw [List.map_id'])
      simp [LawfulKey.reads, LawfulForm.reads]
    have hmap : SortedMap.ofList m.entries = m := SortedMap.ext (SortedMap.entries_ofList m.sorted)
    refine (congrArg (· >>= fun entries => some (SortedMap.ofList entries)) hentries).trans ?_
    exact congrArg some hmap
  solid _ := nofun

instance : SolidForm Status where
  plain s := .string (by cases s <;> decide)
  reads s := by cases s <;> rfl
  solid _ := nofun

instance : SolidForm Event where
  plain e := .string (by cases e <;> decide)
  reads e := by cases e <;> rfl
  solid _ := nofun

instance : SolidForm TransactionKind where
  plain k := .string (by cases k <;> decide)
  reads k := by cases k <;> rfl
  solid _ := nofun

instance : SolidForm RewardKind where
  plain k := .string (by cases k <;> decide)
  reads k := by cases k <;> rfl
  solid _ := nofun

instance : SolidForm BlockKind where
  plain k := .string (by cases k <;> decide)
  reads k := by cases k <;> rfl
  solid _ := nofun

instance : SolidForm Eligibility where
  plain e := .string (by cases e <;> decide)
  reads e := by cases e <;> rfl
  solid _ := nofun

/-- A record is lawful if its fields are, and it is put together from what stands in them. -/
theorem SolidForm.of_record {α : Type} [JsonForm α] (names : List String)
    {fields : α → List (String × Json)} (hnames : Json.AreNames names)
    (hform : ∀ a, toJson a = .record (fields a)) (hfields : ∀ a, (fields a).map (·.1) = names)
    (hvalues : ∀ a, ∀ f ∈ fields a, f.2.Plain)
    (hreads : ∀ a, (toJson a).record? names = some ((fields a).map fun f => some f.2) →
      ofJson? (toJson a) = some a) : SolidForm α where
  plain a := by
    rw [hform]
    exact Json.plain_record (hfields a ▸ hnames) (hvalues a)
  reads a := by
    refine hreads a ?_
    rw [hform]
    exact Json.record?_record hnames (hfields a)
  solid a := by
    rw [hform]
    exact nofun

instance : SolidForm BlockRecord := by
  refine .of_record ["slot", "validator_index", "block_number", "reward", "reward_type",
    "block_type"] (by decide) (fun _ => rfl) (fun _ => rfl) (fun _ => ?_) (fun r h => ?_)
  · simp [LawfulForm.plain]
  · change r.toJson.record? _ = _ at h
    show BlockRecord.ofJson? r.toJson = some r
    unfold BlockRecord.ofJson?
    rw [h]
    simp

instance : SolidForm Validator := by
  refine .of_record ["status", "accumulated_rewards", "pending_rewards", "collateral",
    "withdrawal_address", "pubkey", "proposed_blocks", "missed_blocks",
    "wrong_fee_blocks"] (by decide) (fun _ => rfl) (fun _ => rfl) (fun _ => ?_) (fun v h => ?_)
  · simp [LawfulForm.plain]
  · change v.toJson.record? _ = _ at h
    show Validator.ofJson? v.toJson = some v
    unfold Validator.ofJson?
    rw [h]
    simp

instance : SolidForm Subscription := by
  refine .of_record ["validator_index", "sender", "collateral", "block_number", "log_index",
    "tx_hash"] (by decide) (fun _ => rfl) (fun _ => rfl) (fun _ => ?_) (fun s h => ?_)
  · simp [LawfulForm.plain]
  · change s.toJson.record? _ = _ at h
    show Subscription.ofJson? s.toJson = some s
    unfold Subscription.ofJson?
    rw [h]
    simp

instance : SolidForm Unsubscription := by
  refine .of_record ["validator_index", "sender", "block_number", "log_index",
    "tx_hash"] (by decide) (fun _ => rfl) (fun _ => rfl) (fun _ => ?_) (fun u h => ?_)
  · simp [LawfulForm.plain]
  · change u.toJson.record? _ = _ at h
    show Unsubscription.ofJson? u.toJson = some u
    unfold Unsubscription.ofJson?
    rw [h]
    simp

instance : SolidForm Donation := by
  refine .of_record ["sender", "amount", "block_number", "tx_hash"] (by decide) (fun _ => rfl)
    (fun _ => rfl) (fun _ => ?_) (fun d h => ?_)
  · simp [LawfulForm.plain]
  · change d.toJson.record? _ = _ at h
    show Donation.ofJson? d.toJson = some d
    unfold Donation.ofJson?
    rw [h]
    simp

instance : SolidForm Transaction := by
  refine .of_record ["hash", "tx_type", "from", "to", "value", "gas_price", "max_fee_per_gas",
    "max_priority_fee_per_gas"] (by decide) (fun _ => rfl) (fun _ => rfl) (fun _ => ?_)
    (fun t h => ?_)
  · simp [LawfulForm.plain]
  · change t.toJson.record? _ = _ at h
    show Transaction.ofJson? t.toJson = some t
    unfold Transaction.ofJson?
    rw [h]
    simp

instance : SolidForm ProposedBlock := by
  refine .of_record ["slot", "proposer_index", "block_number", "fee_recipient", "transactions"]
    (by decide) (fun _ => rfl) (fun _ => rfl) (fun _ => ?_) (fun b h => ?_)
  · simp [LawfulForm.plain]
  · change b.toJson.record? _ = _ at h
    show ProposedBlock.ofJson? b.toJson = some b
    unfold ProposedBlock.ofJson?
    rw [h]
    simp

instance : SolidForm Header := by
  refine .of_record ["number", "base_fee_per_gas", "gas_used"] (by decide) (fun _ => rfl)
    (fun _ => rfl) (fun _ => ?_) (fun head h => ?_)
  · simp [LawfulForm.plain]
  · change head.toJson.record? _ = _ at h
    show Header.ofJson? head.toJson = some head
    unfold Header.ofJson?
    rw [h]
    simp

instance : SolidForm Receipt := by
  refine .of_record ["tx_hash", "gas_used"] (by decide) (fun _ => rfl) (fun _ => rfl)
    (fun _ => ?_) (fun r h => ?_)
  · simp [LawfulForm.plain]
  · change r.toJson.record? _ = _ at h
    show Receipt.ofJson? r.toJson = some r
    unfold Receipt.ofJson?
    rw [h]
    simp

instance : SolidForm Identity := by
  refine .of_record ["index", "pubkey", "withdrawal_address"] (by decide) (fun _ => rfl)
    (fun _ => rfl) (fun _ => ?_) (fun i h => ?_)
  · simp [LawfulForm.plain]
  · change i.toJson.record? _ = _ at h
    show Identity.ofJson? i.toJson = some i
    unfold Identity.ofJson?
    rw [h]
    simp

instance : SolidForm Config := by
  refine .of_record ["pool_address", "deployed_slot", "deployed_block", "checkpoint_size",
    "pool_fee_percent", "pool_fee_address", "collateral", "eligibility"] (by decide)
    (fun _ => rfl) (fun _ => rfl) (fun _ => ?_) (fun c h => ?_)
  · simp [LawfulForm.plain]
  · change c.toJson.record? _ = _ at h
    show Config.ofJson? c.toJson = some c
    unfold Config.ofJson?
    rw [h]
    simp

instance : SolidForm Leaf := by
  refine .of_record ["withdrawal_address", "accumulated_balance"] (by decide) (fun _ => rfl)
    (fun _ => rfl) (fun _ => ?_) (fun leaf h => ?_)
  · simp [LawfulForm.plain]
  · change leaf.toJson.record? _ = _ at h
    show Leaf.ofJson? leaf.toJson = some leaf
    unfold Leaf.ofJson?
    rw [h]
    simp

instance : SolidForm ClaimTree := by
  refine .of_record ["root", "leaves", "proofs"] (by decide) (fun _ => rfl) (fun _ => rfl)
    (fun _ => ?_) (fun t h => ?_)
  · simp [LawfulForm.plain]
  · change t.toJson.record? _ = _ at h
    show ClaimTree.ofJson? t.toJson = some t
    unfold ClaimTree.ofJson?
    rw [h]
    simp

instance : SolidForm Ledger := by
  refine .of_record ["validators", "pool_accumulated_fees", "pool_fee_percent",
    "pool_fee_address", "eligibility", "latest_processed_slot", "latest_processed_block",
    "subscriptions", "unsubscriptions", "donations", "pool_blocks"] (by decide) (fun _ => rfl)
    (fun _ => rfl) (fun _ => ?_) (fun l h => ?_)
  · simp [LawfulForm.plain]
  · change l.toJson.record? _ = _ at h
    show Ledger.ofJson? l.toJson = some l
    unfold Ledger.ofJson?
    rw [h]
    simp

instance : SolidForm Checkpoint := by
  refine .of_record ["slot", "block_number", "merkle_root", "leaves", "proofs",
    "tx_hash"] (by decide) (fun _ => rfl) (fun _ => rfl) (fun _ => ?_) (fun c h => ?_)
  · simp [LawfulForm.plain]
  · change c.toJson.record? _ = _ at h
    show Checkpoint.ofJson? c.toJson = some c
    unfold Checkpoint.ofJson?
    rw [h]
    simp

instance : SolidForm Claim := by
  refine .of_record ["withdrawal_address", "merkle_root", "checkpoint_slot",
    "accumulated_balance", "claimed_balance", "claimable", "proof"] (by decide) (fun _ => rfl)
    (fun _ => rfl) (fun _ => ?_) (fun c h => ?_)
  · simp [LawfulForm.plain]
  · change c.toJson.record? _ = _ at h
    show Claim.ofJson? c.toJson = some c
    unfold Claim.ofJson?
    rw [h]
    simp

/-- What is written in a lawful form, in any layout that only adds blanks, is read as it was. -/
theorem JsonForm.parse?_render {α : Type} [JsonForm α] [LawfulForm α] {l : Json.Layout}
    (hl : l.Blank) (a : α) : JsonForm.parse? ((toJson a).render l 0) = some a := by
  unfold JsonForm.parse?
  rw [Json.parseWithGaps?_render hl 0 (LawfulForm.plain a)]
  exact LawfulForm.reads a

theorem Ledger.parse?_pretty (l : Ledger) : JsonForm.parse? l.toJson.pretty = some l :=
  JsonForm.parse?_render Json.blank_pretty l

theorem Checkpoint.parse?_pretty (c : Checkpoint) : JsonForm.parse? c.toJson.pretty = some c :=
  JsonForm.parse?_render Json.blank_pretty c

end RewardPool
