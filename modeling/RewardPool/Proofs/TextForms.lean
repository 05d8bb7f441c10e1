import RewardPool.Proofs.Digits
import RewardPool.Proofs.Forms

/-!
The JSON texts of machine words, amounts, byte strings and maps, and what is read as one of them. A
machine word stands as its decimal numeral, and no other value is read as the word. An amount and a
byte string stand in quotes behind a hexadecimal mark, the one as its numeral and the other with all
its digits; amounts may also be read from the numeral of a machine word and in other bases. The keys of
a map are the plain texts of what they stand for, in ascending order.
-/
namespace RewardPool

namespace Json

mutual

/-- Where nothing breaks the line, the text of a value is the same at every depth. -/
theorem render_compact (depth : Nat) : (j : Json) → j.render .compact depth = j.compact
  | .null | .bool true | .bool false | .number _ | .string _ | .array [] | .object [] => rfl
  | .array (j :: items) => by
    rw [compact, render, render, render_compact (depth + 1) j, render_compact 1 j,
      renderItems_compact (depth + 1) items, renderItems_compact 1 items]
    rfl
  | .object ((key, j) :: fields) => by
    rw [compact, render, render, render_compact (depth + 1) j, render_compact 1 j,
      renderFields_compact (depth + 1) fields, renderFields_compact 1 fields]
    rfl

theorem renderItems_compact (depth : Nat) : (items : List Json) →
    renderItems .compact depth items = renderItems .compact 0 items
  | [] => rfl
  | j :: items => by
    rw [renderItems, renderItems, render_compact depth j, render_compact 0 j,
      renderItems_compact depth items]
    rfl

theorem renderFields_compact (depth : Nat) : (fields : List (String × Json)) →
    renderFields .compact depth fields = renderFields .compact 0 fields
  | [] => rfl
  | (key, j) :: fields => by
    rw [renderFields, renderFields, render_compact depth j, render_compact 0 j,
      renderFields_compact depth fields]
    rfl

end

/-- The compact text of a field. -/
def fieldText (f : String × Json) : String := quote f.1 ++ ":" ++ f.2.compact

theorem append_renderFields_compact (first : String) (fields : List (String × Json)) :
    first ++ renderFields .compact 1 fields = ",".intercalate (first :: fields.map fieldText) := by
  induction fields generalizing first with
  | nil => simp [renderFields]
  | cons f rest ih =>
    obtain ⟨key, j⟩ := f
    rw [List.map_cons, String.intercalate_cons_cons, ← ih, renderFields, render_compact]
    simp [Layout.compact, fieldText, String.append_assoc]

/-- The compact text of an object: its fields in order, set apart by commas. -/
theorem compact_object (fields : List (String × Json)) :
    (object fields).compact = "\x7b" ++ ",".intercalate (fields.map fieldText) ++ "\x7d" := by
  cases fields with
  | nil => rfl
  | cons f rest =>
    obtain ⟨key, j⟩ := f
    rw [compact, render, render_compact, List.map_cons, ← append_renderFields_compact]
    simp [Layout.compact, fieldText, String.append_assoc]

end Json

/-- A form of machine words: a word is written as its decimal numeral, and nothing else is read as the
word. -/
structure WordForm (α : Type) [JsonForm α] (value : α → Nat) : Prop where
  written : ∀ a l depth, IsNumeral 10 (value a) ((toJson a).render l depth).toList
  read : ∀ a j, ofJson? j = some a ↔
    ∃ spelling, j = .number spelling ∧ IsNumeral 10 (value a) spelling.toList

theorem isNumeral_decimal (n : Nat) : IsNumeral 10 n (Numeral.decimal n).toList := by
  rw [Numeral.decimal, String.toList_ofList]
  exact Numeral.isNumeral_write (by omega) (by omega) n

theorem Json.nat?_eq_some {j : Json} {n : Nat} : j.nat? = some n ↔
    ∃ spelling, j = .number spelling ∧ IsNumeral 10 n spelling.toList := by
  cases j with
  | number spelling =>
    show Numeral.plain? spelling.toList = some n ↔ _
    rw [Numeral.plain?_eq_some]
    simp
  | _ => simp [nat?]

/-- A form that writes a number and reads one that fits is one of machine words. -/
theorem WordForm.of_nat {α : Type} [JsonForm α] {value : α → Nat} {fit? : Nat → Option α}
    (hwritten : ∀ a, toJson a = Json.ofNat (value a)) (hread : ∀ j, ofJson? j = j.nat?.bind fit?)
    (hfit : ∀ n a, fit? n = some a ↔ n = value a) : WordForm α value where
  written a l depth := by
    rw [hwritten]
    exact isNumeral_decimal (value a)
  read a j := by
    rw [hread, Option.bind_eq_some_iff]
    constructor
    · rintro ⟨n, hn, hfits⟩
      obtain rfl := (hfit n a).mp hfits
      exact Json.nat?_eq_some.mp hn
    · intro h
      exact ⟨value a, Json.nat?_eq_some.mpr h, (hfit _ a).mpr rfl⟩

theorem UInt64.wordForm : WordForm UInt64 UInt64.toNat :=
  .of_nat (fun _ => rfl) (fun _ => rfl) fun _ _ => Numeral.word64?_eq_some

theorem GasPrice.wordForm : WordForm GasPrice BitVec.toNat :=
  .of_nat (fun _ => rfl) (fun _ => rfl) fun _ _ => Numeral.fit?_eq_some

theorem UInt8.wordForm : WordForm UInt8 UInt8.toNat := by
  refine .of_nat (fun _ => rfl) (fun _ => rfl) fun n a => ?_
  constructor
  · intro h
    split at h
    · rename_i hlt
      obtain rfl := Option.some.inj h
      exact (Nat.mod_eq_of_lt hlt).symm
    · exact absurd h (by simp)
  · rintro rfl
    rw [if_pos a.toNat_lt, UInt8.ofNat_toNat]

/-- Keys that are machine words: a word stands as its decimal numeral, and no other key is read as the
word. -/
structure WordKeys : Prop where
  written : ∀ n : UInt64, IsNumeral 10 n.toNat (JsonKey.spellKey n).toList
  read : ∀ (n : UInt64) spelling,
    JsonKey.ofKey? spelling = some n ↔ IsNumeral 10 n.toNat spelling.toList

theorem wordKeys : WordKeys where
  written n := isNumeral_decimal n.toNat
  read n spelling := by
    show (Numeral.plain? spelling.toList).bind Numeral.word64? = some n ↔ _
    rw [Option.bind_eq_some_iff]
    constructor
    · rintro ⟨value, hvalue, hfits⟩
      obtain rfl := Numeral.word64?_eq_some.mp hfits
      exact Numeral.plain?_eq_some.mp hvalue
    · intro h
      exact ⟨n.toNat, Numeral.plain?_eq_some.mpr h, Numeral.word64?_eq_some.mpr rfl⟩

/-- The form of amounts: an amount is written as its hexadecimal numeral, marked and in quotes. It is
read from the decimal numeral of a machine word and from the strings that denote one of its texts. -/
structure AmountForm : Prop where
  written : ∀ (w : Wei) l depth, ∃ digits, IsNumeral 16 w.toNat digits ∧
    (toJson w).render l depth = "\"0x" ++ String.ofList digits ++ "\""
  read : ∀ (w : Wei) j, ofJson? j = some w ↔
    (∃ spelling, j = .number spelling ∧ w.toNat < 2 ^ 64 ∧ IsNumeral 10 w.toNat spelling.toList) ∨
      ∃ spelling text, j = .string spelling ∧ Json.textOf? spelling = some text ∧
        Wei.IsText w text.toList

theorem amountForm : AmountForm where
  written w l depth := by
    refine ⟨_, Numeral.isNumeral_write (by omega) (by omega) w.toNat, ?_⟩
    show "\"" ++ ("0x" ++ String.ofList _) ++ "\"" = _
    rw [← String.append_assoc]
    rfl
  read w j := by
    cases j with
    | number spelling =>
      show ((Numeral.plain? spelling.toList).bind fun n => (Numeral.word64? n).bind fun word =>
        some (BitVec.ofNat 256 word.toNat)) = some w ↔ _
      simp only [Option.bind_eq_some_iff, Numeral.plain?_eq_some, Numeral.word64?_eq_some,
        Option.some.injEq]
      constructor
      · rintro ⟨_, hnumeral, word, rfl, rfl⟩
        have hlt : word.toNat < 2 ^ 64 := word.toNat_lt
        have hvalue : (BitVec.ofNat 256 word.toNat).toNat = word.toNat := by
          rw [BitVec.toNat_ofNat, Nat.mod_eq_of_lt (by omega)]
        refine .inl ⟨spelling, rfl, ?_⟩
        rw [hvalue]
        exact ⟨hlt, hnumeral⟩
      · rintro (⟨_, hj, hlt, hnumeral⟩ | ⟨_, _, hj, -⟩)
        · obtain rfl := Json.number.inj hj
          refine ⟨w.toNat, hnumeral, UInt64.ofNat w.toNat, (Nat.mod_eq_of_lt hlt).symm, ?_⟩
          show BitVec.ofNat 256 (w.toNat % 2 ^ 64) = w
          rw [Nat.mod_eq_of_lt hlt, BitVec.ofNat_toNat, BitVec.setWidth_eq]
        · exact absurd hj (by simp)
    | string spelling =>
      show ((Json.textOf? spelling).bind fun text => Wei.ofText? text.toList) = some w ↔ _
      rw [Option.bind_eq_some_iff]
      simp [Wei.ofText?_eq_some]
    | _ => simp [ofJson?, Wei.ofJson?]

/-- The form of byte strings of a length: all digits of a byte string are written, marked, and in quotes
where it is a value. It is read from the strings and keys that denote one of its texts. -/
structure BytesForm (n : Nat) : Prop where
  written : ∀ b : FixedBytes n, ∃ digits, digits.length = 2 * n ∧ Spells IsDigit 16 digits b.toNat ∧
    JsonKey.spellKey b = "0x" ++ String.ofList digits ∧
      ∀ l depth, (toJson b).render l depth = "\"0x" ++ String.ofList digits ++ "\""
  read : ∀ (b : FixedBytes n) spelling, ofJson? (.string spelling) = some b ↔
    ∃ text, Json.textOf? spelling = some text ∧ b.IsText text.toList
  readKey : ∀ (b : FixedBytes n) spelling, JsonKey.ofKey? spelling = some b ↔
    ∃ text, Json.textOf? spelling = some text ∧ b.IsText text.toList

theorem bytesForm (n : Nat) : BytesForm n := by
  have hread : ∀ (b : FixedBytes n) (spelling : String),
      ((Json.textOf? spelling).bind fun text => FixedBytes.ofText? text.toList) = some b ↔
        ∃ text, Json.textOf? spelling = some text ∧ b.IsText text.toList := by
    intro b spelling
    rw [Option.bind_eq_some_iff]
    simp only [FixedBytes.ofText?_eq_some]
  refine ⟨fun b => ?_, hread, hread⟩
  obtain ⟨hlength, hspells⟩ := b.spells_hexOfBytes
  refine ⟨_, hlength, hspells, by rw [String.ofList_toList]; rfl, fun l depth => ?_⟩
  show "\"" ++ ("0x" ++ hexOfBytes b.toBytes) ++ "\"" = _
  rw [String.ofList_toList, ← String.append_assoc]
  rfl

/-- The form of maps with keys of a type: an object with the keys in ascending order. -/
structure MapForm (κ : Type) [Ranked κ] [JsonKey κ] (before : κ → κ → Prop) : Prop where
  written : ∀ {α : Type} [JsonForm α] (m : SortedMap κ α), (toJson m).compact =
    "\x7b" ++ ",".intercalate (m.entries.map fun e =>
      Json.quote (JsonKey.spellKey e.1) ++ ":" ++ (toJson e.2).compact) ++ "\x7d"
  ascending : ∀ {α : Type} (m : SortedMap κ α), m.keys.Pairwise before

theorem mapForm {κ : Type} [Ranked κ] [JsonKey κ] {before : κ → κ → Prop}
    (hbefore : ∀ a b : κ, Ranked.rank a < Ranked.rank b → before a b) : MapForm κ before where
  written m := by
    show (Json.object _).compact = _
    rw [Json.compact_object, List.map_map]
    rfl
  ascending m := by
    unfold SortedMap.keys
    rw [List.pairwise_map]
    exact m.sorted.imp fun h => hbefore _ _ h

/-- Keys that are byte strings stand in the order of their bytes. -/
theorem bytesMapForm (n : Nat) : MapForm (FixedBytes n) fun a b => a.toBytes < b.toBytes := by
  apply mapForm
  intro a b hlt
  exact FixedBytes.toBytes_lt_iff.mpr hlt

end RewardPool
