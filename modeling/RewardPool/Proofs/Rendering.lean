import Mathlib.Data.List.Basic
import RewardPool.Json.Reader

/-!
The text of a value is read back as that value, in every layout that only puts blanks between its
parts. The text is followed through the scanner to the tokens of the value, and the tokens through the
reader to the value itself. A word is only over when the character behind it has been seen, so the
scanner may lag one token behind the text.
-/
namespace RewardPool.Json

/-- Whether a character stands for itself between quotes. -/
def isPlainChar (c : Char) : Bool := c ≠ '"' && c ≠ '\\' && 0x20 ≤ c.toNat

def isPlain (spelling : String) : Bool := spelling.toList.all isPlainChar

/-- Values whose strings and keys stand for themselves, and whose numbers are numbers. -/
inductive Plain : Json → Prop
  | null : Plain null
  | bool (value : Bool) : Plain (bool value)
  | number {spelling : String} (hword : ∀ c ∈ spelling.toList, Scanner.endsWord c = false)
      (hnumber : isNumber spelling.toList = true) : Plain (number spelling)
  | string {spelling : String} (hplain : isPlain spelling = true) : Plain (string spelling)
  | array {items : List Json} (hitems : ∀ j ∈ items, Plain j) : Plain (array items)
  | object {fields : List (String × Json)} (hkeys : ∀ f ∈ fields, isPlain f.1 = true)
      (hvalues : ∀ f ∈ fields, Plain f.2) : Plain (object fields)

/-- Only blanks are put between the parts of a value. -/
structure Layout.Blank (l : Layout) : Prop where
  lineBreak : ∀ depth, ∀ c ∈ (l.lineBreak depth).toList, isBlank c = true
  colon : ∃ blanks, l.colon.toList = ':' :: blanks ∧ ∀ c ∈ blanks, isBlank c = true

theorem blank_pretty : Layout.pretty.Blank where
  lineBreak depth c hc := by
    have hchar : c = '\n' ∨ c = ' ' ∧ 2 * depth ≠ 0 := by
      simpa [Layout.pretty, List.mem_replicate, and_comm] using hc
    rcases hchar with rfl | ⟨rfl, -⟩
    · rfl
    · rfl
  colon := ⟨[' '], rfl, by simp [isBlank]⟩

theorem blank_compact : Layout.compact.Blank where
  lineBreak depth c hc := absurd hc (by simp [Layout.compact])
  colon := ⟨[], rfl, by simp⟩

mutual

/-- The tokens that a value is spelled with. -/
def spelledTokens : Json → List Token
  | .array [] => [.mark .openArray, .mark .closeArray]
  | .array (j :: items) =>
    .mark .openArray :: (spelledTokens j ++ itemTokens items ++ [.mark .closeArray])
  | .object [] => [.mark .openObject, .mark .closeObject]
  | .object ((key, j) :: fields) =>
    .mark .openObject :: .text key :: .mark .colon ::
      (spelledTokens j ++ fieldTokens fields ++ [.mark .closeObject])
  | .string spelling => [.text spelling]
  | j => [.scalar j]

def itemTokens : List Json → List Token
  | [] => []
  | j :: items => .mark .comma :: (spelledTokens j ++ itemTokens items)

def fieldTokens : List (String × Json) → List Token
  | [] => []
  | (key, j) :: fields =>
    .mark .comma :: .text key :: .mark .colon :: (spelledTokens j ++ fieldTokens fields)

end

namespace Scanner

/-- The scanner has found some tokens, the last of which may be a word that is not over. -/
inductive Stands : List Token → Scanner → Prop
  | between (ts : List Token) : Stands ts ⟨ts, .between⟩
  | word {ts : List Token} {read : List Char} {j : Json} (hword : scalar? read.reverse = some j) :
      Stands (.scalar j :: ts) ⟨ts, .word read⟩

/-- The scanner finds some tokens in a text. -/
def Finds (s : Scanner) (cs : List Char) (ts : List Token) : Prop :=
  ∃ s', cs.foldlM step s = some s' ∧ Stands ts s'

variable {s s' : Scanner} {ts ts' : List Token} {cs cs' : List Char} {c : Char}

theorem Stands.finds_nil (hs : Stands ts s) : s.Finds [] ts := ⟨s, rfl, hs⟩

theorem Finds.append (hfirst : s.Finds cs ts) (hrest : ∀ s', Stands ts s' → s'.Finds cs' ts') :
    s.Finds (cs ++ cs') ts' := by
  obtain ⟨s₁, hrun, hstands⟩ := hfirst
  obtain ⟨s₂, hrun', hstands'⟩ := hrest s₁ hstands
  refine ⟨s₂, ?_, hstands'⟩
  rw [List.foldlM_append, hrun]
  exact hrun'

theorem finds_of_step (hstep : cs.foldlM step s = some s') (hrest : s'.Finds cs' ts) :
    s.Finds (cs ++ cs') ts := by
  obtain ⟨s₂, hrun, hstands⟩ := hrest
  refine ⟨s₂, ?_, hstands⟩
  rw [List.foldlM_append, hstep]
  exact hrun

/-- A character that ends a word begins whatever comes next. -/
theorem Stands.step (hs : Stands ts s) (hc : endsWord c = true) : s.step c = some (begin ts c) := by
  cases hs with
  | between => rfl
  | word hword => simp [Scanner.step, hc, hword]

theorem Stands.mark (hs : Stands ts s) {m : Mark} (hm : Mark.ofChar? c = some m) :
    [c].foldlM Scanner.step s = some ⟨.mark m :: ts, .between⟩ := by
  have hends : endsWord c = true := by simp [endsWord, hm]
  have hblank : isBlank c = false ∧ c ≠ '"' := by
    unfold Mark.ofChar? at hm
    split at hm <;> simp_all [isBlank]
  have hbegin : begin ts c = ⟨.mark m :: ts, .between⟩ := by simp [begin, hblank, hm]
  rw [List.foldlM_cons, hs.step hends, hbegin]
  rfl

theorem finds_blanks (hs : Stands ts s) (hblank : ∀ c ∈ cs, isBlank c = true) :
    s.Finds cs ts := by
  induction cs generalizing s with
  | nil => exact hs.finds_nil
  | cons c rest ih =>
    have hc := hblank c List.mem_cons_self
    have hends : endsWord c = true := by simp [endsWord, hc]
    have hbegin : begin ts c = ⟨ts, .between⟩ := by simp [begin, hc]
    obtain ⟨s₁, hrun, hstands⟩ :=
      ih (Stands.between ts) fun c' hc' => hblank c' (List.mem_cons_of_mem _ hc')
    refine ⟨s₁, ?_, hstands⟩
    rw [List.foldlM_cons, hs.step hends, hbegin]
    exact hrun

theorem step_append {s₁ s₂ : Scanner} (hfirst : cs.foldlM step s = some s₁)
    (hrest : cs'.foldlM step s₁ = some s₂) : (cs ++ cs').foldlM step s = some s₂ := by
  rw [List.foldlM_append, hfirst]
  exact hrest

theorem step_blanks (hblank : ∀ c ∈ cs, isBlank c = true) :
    cs.foldlM step ⟨ts, .between⟩ = some ⟨ts, .between⟩ := by
  induction cs with
  | nil => rfl
  | cons c rest ih =>
    have hc := hblank c List.mem_cons_self
    rw [List.foldlM_cons]
    have hstep : step ⟨ts, .between⟩ c = some ⟨ts, .between⟩ := by
      simp [step, begin, hc]
    rw [hstep]
    exact ih fun c' hc' => hblank c' (List.mem_cons_of_mem _ hc')

/-- A mark and the blanks behind it. -/
theorem Stands.mark_blanks (hs : Stands ts s) {m : Mark} (hm : Mark.ofChar? c = some m)
    (hblank : ∀ c ∈ cs, isBlank c = true) :
    ([c] ++ cs).foldlM Scanner.step s = some ⟨.mark m :: ts, .between⟩ :=
  step_append (hs.mark hm) (step_blanks hblank)

theorem Stands.finds_mark (hs : Stands ts s) {m : Mark} (hm : Mark.ofChar? c = some m) :
    s.Finds [c] (.mark m :: ts) :=
  ⟨_, hs.mark hm, .between _⟩

theorem step_text {read : List Char}
    (hplain : ∀ c ∈ cs, c ≠ '"' ∧ c ≠ '\\' ∧ 0x20 ≤ c.toNat) :
    cs.foldlM step ⟨ts, .text read⟩ = some ⟨ts, .text (cs.reverse ++ read)⟩ := by
  induction cs generalizing read with
  | nil => rfl
  | cons c rest ih =>
    obtain ⟨hquote, hslash, hcontrol⟩ := hplain c List.mem_cons_self
    have hstep : step ⟨ts, .text read⟩ c = some ⟨ts, .text (c :: read)⟩ := by
      simp [step, hquote, hslash, Nat.not_lt.mpr hcontrol]
    rw [List.foldlM_cons, hstep]
    have hrest : rest.foldlM step ⟨ts, .text (c :: read)⟩ =
        some ⟨ts, .text (rest.reverse ++ c :: read)⟩ :=
      ih fun c' hc' => hplain c' (List.mem_cons_of_mem _ hc')
    simpa using hrest

theorem step_quote {spelling : String} (hplain : isPlain spelling = true) :
    (quote spelling).toList.foldlM step ⟨ts, .between⟩ = some ⟨.text spelling :: ts, .between⟩ := by
  have hchars : ∀ c ∈ spelling.toList, c ≠ '"' ∧ c ≠ '\\' ∧ 0x20 ≤ c.toNat := by
    simpa [isPlain, isPlainChar, and_assoc] using hplain
  have hlist : (quote spelling).toList = '"' :: (spelling.toList ++ ['"']) := by
    simp [quote]
  have hopen : step ⟨ts, .between⟩ '"' = some ⟨ts, .text []⟩ := rfl
  rw [hlist, List.foldlM_cons, hopen]
  show (spelling.toList ++ ['"']).foldlM step ⟨ts, .text []⟩ = _
  rw [List.foldlM_append, step_text hchars]
  simp [step]

theorem step_word {read : List Char} (hword : ∀ c ∈ cs, endsWord c = false) :
    cs.foldlM step ⟨ts, .word read⟩ = some ⟨ts, .word (cs.reverse ++ read)⟩ := by
  induction cs generalizing read with
  | nil => rfl
  | cons c rest ih =>
    have hstep : step ⟨ts, .word read⟩ c = some ⟨ts, .word (c :: read)⟩ := by
      simp [step, hword c List.mem_cons_self]
    rw [List.foldlM_cons, hstep]
    have hrest : rest.foldlM step ⟨ts, .word (c :: read)⟩ =
        some ⟨ts, .word (rest.reverse ++ c :: read)⟩ :=
      ih fun c' hc' => hword c' (List.mem_cons_of_mem _ hc')
    simpa using hrest

theorem finds_scalar {j : Json} (hne : cs ≠ []) (hword : ∀ c ∈ cs, endsWord c = false)
    (hscalar : scalar? cs = some j) : Finds ⟨ts, .between⟩ cs (.scalar j :: ts) := by
  cases cs with
  | nil => exact absurd rfl hne
  | cons c rest =>
    have hc := hword c List.mem_cons_self
    have hfirst : step ⟨ts, .between⟩ c = some ⟨ts, .word [c]⟩ := by
      simp only [endsWord, Bool.or_eq_false_iff] at hc
      obtain ⟨⟨hblank, hquote⟩, hmark⟩ := hc
      simp_all [step, begin]
    have hrest : rest.foldlM step ⟨ts, .word [c]⟩ = some ⟨ts, .word (rest.reverse ++ [c])⟩ :=
      step_word fun c' hc' => hword c' (List.mem_cons_of_mem _ hc')
    refine ⟨⟨ts, .word (rest.reverse ++ [c])⟩, ?_, .word ?_⟩
    · rw [List.foldlM_cons, hfirst]
      exact hrest
    · simpa using hscalar

theorem step_key {l : Layout} (hl : l.Blank) {key : String} (hkey : isPlain key = true) :
    ((quote key).toList ++ l.colon.toList).foldlM step ⟨ts, .between⟩ =
      some ⟨.mark .colon :: .text key :: ts, .between⟩ := by
  obtain ⟨blanks, hcolon, hblank⟩ := hl.colon
  rw [hcolon]
  exact step_append (step_quote hkey) ((Stands.between _).mark_blanks rfl hblank)

end Scanner

theorem scalar?_of_isNumber {spelling : String} (hnumber : isNumber spelling.toList = true) :
    scalar? spelling.toList = some (number spelling) := by
  have hnames : isNumber ['n', 'u', 'l', 'l'] = false ∧ isNumber ['t', 'r', 'u', 'e'] = false ∧
      isNumber ['f', 'a', 'l', 's', 'e'] = false := by decide
  have hne : ∀ name, isNumber name = false → spelling.toList ≠ name := by
    rintro name hname rfl
    exact absurd (hnumber.symm.trans hname) (by simp)
  unfold scalar?
  rw [if_neg (hne _ hnames.1), if_neg (hne _ hnames.2.1), if_neg (hne _ hnames.2.2), if_pos hnumber,
    String.ofList_toList]

section Render

open Scanner

variable {l : Layout} {ts : List Token}

theorem finds_name (name : String) {j : Json} (hne : name.toList ≠ [])
    (hword : name.toList.any endsWord = false) (hscalar : scalar? name.toList = some j) :
    Finds ⟨ts, .between⟩ name.toList (.scalar j :: ts) :=
  finds_scalar hne (by simpa using hword) hscalar

mutual

theorem finds_render (hl : l.Blank) (depth : Nat) (ts : List Token) :
    (j : Json) → j.Plain →
      Finds ⟨ts, .between⟩ (render l depth j).toList ((spelledTokens j).reverse ++ ts)
  | .null, _ => finds_name "null" (by decide) (by decide) (by simp [scalar?])
  | .bool true, _ => finds_name "true" (by decide) (by decide) (by simp [scalar?])
  | .bool false, _ => finds_name "false" (by decide) (by decide) (by simp [scalar?])
  | .number spelling, hj => by
    cases hj with
    | number hword hnumber =>
      have hne : spelling.toList ≠ [] := by
        intro hnil
        rw [hnil] at hnumber
        exact absurd hnumber (by decide)
      simpa [render, spelledTokens] using finds_scalar hne hword (scalar?_of_isNumber hnumber)
  | .string spelling, hj => by
    cases hj with
    | string hplain => exact ⟨_, step_quote hplain, .between _⟩
  | .array [], _ => by
    have hopen := (Stands.between ts).finds_mark (c := '[') rfl
    have hclose := hopen.append fun s hs => hs.finds_mark (c := ']') rfl
    simpa [render, spelledTokens] using hclose
  | .array (j :: items), hj => by
    cases hj with
    | array hitems =>
      obtain ⟨hfirst, hrest⟩ := List.forall_mem_cons.mp hitems
      have hopen := (Stands.between ts).mark_blanks (c := '[') rfl (hl.lineBreak (depth + 1))
      have hitem := finds_of_step hopen (finds_render hl (depth + 1) _ j hfirst)
      have hall := hitem.append fun s hs => finds_items hl (depth + 1) items hrest hs
      have hbreak := hall.append fun s hs => finds_blanks hs (hl.lineBreak depth)
      have hclose := hbreak.append fun s hs => hs.finds_mark (c := ']') rfl
      simpa [render, spelledTokens] using hclose
  | .object [], _ => by
    have hopen := (Stands.between ts).finds_mark (c := '\x7b') rfl
    have hclose := hopen.append fun s hs => hs.finds_mark (c := '\x7d') rfl
    simpa [render, spelledTokens] using hclose
  | .object ((key, j) :: fields), hj => by
    cases hj with
    | object hkeys hvalues =>
      obtain ⟨hkey, hkeys⟩ := List.forall_mem_cons.mp hkeys
      obtain ⟨hvalue, hvalues⟩ := List.forall_mem_cons.mp hvalues
      have hopen := (Stands.between ts).mark_blanks (c := '\x7b') rfl (hl.lineBreak (depth + 1))
      have hfield := step_append hopen (step_key hl hkey)
      have hfirst := finds_of_step hfield (finds_render hl (depth + 1) _ j hvalue)
      have hall := hfirst.append fun s hs => finds_fields hl (depth + 1) fields hkeys hvalues hs
      have hbreak := hall.append fun s hs => finds_blanks hs (hl.lineBreak depth)
      have hclose := hbreak.append fun s hs => hs.finds_mark (c := '\x7d') rfl
      simpa [render, spelledTokens] using hclose

theorem finds_items (hl : l.Blank) (depth : Nat) :
    (items : List Json) → (∀ j ∈ items, j.Plain) → ∀ {ts s}, Stands ts s →
      Finds s (renderItems l depth items).toList ((itemTokens items).reverse ++ ts)
  | [], _, _, _, hs => hs.finds_nil
  | j :: items, hitems, ts, s, hs => by
    obtain ⟨hfirst, hrest⟩ := List.forall_mem_cons.mp hitems
    have hcomma := hs.mark_blanks (c := ',') rfl (hl.lineBreak depth)
    have hitem := finds_of_step hcomma (finds_render hl depth _ j hfirst)
    have hall := hitem.append fun s hs => finds_items hl depth items hrest hs
    simpa [renderItems, itemTokens] using hall

theorem finds_fields (hl : l.Blank) (depth : Nat) :
    (fields : List (String × Json)) → (∀ f ∈ fields, isPlain f.1 = true) →
      (∀ f ∈ fields, f.2.Plain) → ∀ {ts s}, Stands ts s →
        Finds s (renderFields l depth fields).toList ((fieldTokens fields).reverse ++ ts)
  | [], _, _, _, _, hs => hs.finds_nil
  | (key, j) :: fields, hkeys, hvalues, ts, s, hs => by
    obtain ⟨hkey, hkeys⟩ := List.forall_mem_cons.mp hkeys
    obtain ⟨hvalue, hvalues⟩ := List.forall_mem_cons.mp hvalues
    have hcomma := hs.mark_blanks (c := ',') rfl (hl.lineBreak depth)
    have hfield := step_append hcomma (step_key hl hkey)
    have hfirst := finds_of_step hfield (finds_render hl depth _ j hvalue)
    have hall := hfirst.append fun s hs => finds_fields hl depth fields hkeys hvalues hs
    simpa [renderFields, fieldTokens] using hall

end

/-- The tokens of the text of a value are those that it is spelled with. -/
theorem tokens?_render (hl : l.Blank) (depth : Nat) {j : Json} (hj : j.Plain) :
    tokens? (render l depth j).toList = some (spelledTokens j) := by
  obtain ⟨s, hrun, hstands⟩ := finds_render hl depth [] j hj
  unfold tokens? Scanner.start
  rw [hrun]
  show s.finish = _
  generalize hts : (spelledTokens j).reverse ++ [] = found at hstands
  have hfound : found.reverse = spelledTokens j := by simp [← hts]
  cases hstands with
  | between => exact congrArg some hfound
  | word hword => simp [Scanner.finish, hword, ← hfound]

end Render

namespace Reader

/-- Where the beginning of a value may be read. -/
def Awaits (stage : Stage) : Prop := stage = .wantValue ∨ stage = .wantItem

theorem steps_append {ts ts' : List Token} {r r₁ r₂ : Reader} (hfirst : ts.foldlM step r = some r₁)
    (hrest : ts'.foldlM step r₁ = some r₂) : (ts ++ ts').foldlM step r = some r₂ := by
  rw [List.foldlM_append, hfirst]
  exact hrest

theorem step_open {frames : List Frame} {stage : Stage} (hstage : Awaits stage) :
    step ⟨frames, stage⟩ (.mark .openArray) = some ⟨.array [] :: frames, .wantItem⟩ ∧
      step ⟨frames, stage⟩ (.mark .openObject) = some ⟨frames, .wantField⟩ := by
  rcases hstage with rfl | rfl
  · exact ⟨rfl, rfl⟩
  · exact ⟨rfl, rfl⟩

mutual

/-- The tokens of a value are read as the value, wherever one may stand. -/
theorem read_value (frames : List Frame) : (j : Json) → j.Plain → ∀ {stage}, Awaits stage →
    (spelledTokens j).foldlM step ⟨frames, stage⟩ = some ⟨frames, .haveValue j⟩
  | .null, _, _, hstage => by rcases hstage with rfl | rfl <;> rfl
  | .bool _, _, _, hstage => by rcases hstage with rfl | rfl <;> rfl
  | .number _, _, _, hstage => by rcases hstage with rfl | rfl <;> rfl
  | .string _, _, _, hstage => by rcases hstage with rfl | rfl <;> rfl
  | .array [], _, _, hstage => by rcases hstage with rfl | rfl <;> rfl
  | .array (j :: items), hj, _, hstage => by
    cases hj with
    | array hitems =>
      obtain ⟨hfirst, hrest⟩ := List.forall_mem_cons.mp hitems
      have hitem := read_value (.array [] :: frames) j hfirst (.inr rfl)
      have hall := steps_append hitem (read_items frames [] j items hrest)
      rw [spelledTokens, List.foldlM_cons, (step_open hstage).1, List.append_assoc]
      exact hall
  | .object [], _, _, hstage => by rcases hstage with rfl | rfl <;> rfl
  | .object ((key, j) :: fields), hj, _, hstage => by
    cases hj with
    | object hkeys hvalues =>
      obtain ⟨hfirst, hrest⟩ := List.forall_mem_cons.mp hvalues
      have hvalue := read_value (.object [] key :: frames) j hfirst (.inl rfl)
      have hall := steps_append hvalue (read_fields frames [] key j fields hrest)
      rw [spelledTokens, List.foldlM_cons, (step_open hstage).2, List.append_assoc]
      exact hall

theorem read_items (frames : List Frame) (before : List Json) (j : Json) :
    (items : List Json) → (∀ j ∈ items, j.Plain) →
      (itemTokens items ++ [Token.mark .closeArray]).foldlM step
          ⟨.array before :: frames, .haveValue j⟩ =
        some ⟨frames, .haveValue (.array (before.reverse ++ j :: items))⟩
  | [], _ => by simp [itemTokens, step, close]
  | next :: items, hitems => by
    obtain ⟨hfirst, hrest⟩ := List.forall_mem_cons.mp hitems
    have hitem := read_value (.array (j :: before) :: frames) next hfirst (.inl rfl)
    have hall := steps_append hitem (read_items frames (j :: before) next items hrest)
    rw [List.reverse_cons, List.append_assoc] at hall
    rw [itemTokens, List.cons_append, List.append_assoc, List.foldlM_cons]
    exact hall

theorem read_fields (frames : List Frame) (before : List (String × Json)) (key : String) (j : Json) :
    (fields : List (String × Json)) → (∀ f ∈ fields, f.2.Plain) →
      (fieldTokens fields ++ [Token.mark .closeObject]).foldlM step
          ⟨.object before key :: frames, .haveValue j⟩ =
        some ⟨frames, .haveValue (.object (before.reverse ++ (key, j) :: fields))⟩
  | [], _ => by simp [fieldTokens, step, close]
  | (next, value) :: fields, hvalues => by
    obtain ⟨hfirst, hrest⟩ := List.forall_mem_cons.mp hvalues
    have hvalue := read_value (.object ((key, j) :: before) next :: frames) value hfirst (.inl rfl)
    have hall := steps_append hvalue
      (read_fields frames ((key, j) :: before) next value fields hrest)
    rw [List.reverse_cons, List.append_assoc] at hall
    rw [fieldTokens, List.cons_append, List.cons_append, List.cons_append, List.append_assoc,
      List.foldlM_cons]
    exact hall

end

end Reader

/-- A value is read back from its text, whatever blanks the layout puts between its parts. -/
theorem parseWithGaps?_render {l : Layout} (hl : l.Blank) (depth : Nat) {j : Json} (hj : j.Plain) :
    parseWithGaps? (render l depth j) = some j := by
  have hread := Reader.read_value [] j hj (.inl rfl)
  unfold parseWithGaps?
  rw [tokens?_render hl depth hj]
  show (spelledTokens j).foldlM Reader.step ⟨[], .wantValue⟩ >>= Reader.finish = some j
  rw [hread]
  rfl

end RewardPool.Json
