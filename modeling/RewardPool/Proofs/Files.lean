import Mathlib.Data.List.Infix
import RewardPool.Proofs.LedgerSteps
import RewardPool.Store

/-!
What stands in the files of a store after an operation went through. A file is written beside its
place and then moved there. Neither step takes a directory away, so every path leads where it led, and
if both went well, the new contents are what a reader finds.
-/
namespace RewardPool

namespace FileTree

variable {t t' v : FileTree} {p q place : Path} {text : String}

theorem lookup_filter {α β : Type} [BEq α] [LawfulBEq α] (l : List (α × β)) (f : α → Bool) (a : α) :
    (l.filter fun e => f e.1).lookup a = if f a then l.lookup a else none := by
  induction l with
  | nil => simp
  | cons e rest ih =>
    obtain ⟨b, c⟩ := e
    by_cases hab : a = b
    · subst hab
      by_cases hf : f a = true
      · simp [hf]
      · simp [hf, ih]
    · have hbeq : (a == b) = false := beq_false_of_ne hab
      by_cases hf : f b = true
      · simp [hf, ih, List.lookup_cons, hbeq]
      · simp [hf, ih, List.lookup_cons, hbeq]

theorem node?_put_of_ne_nil (t : FileTree) (n : Node) (hp : p ≠ []) (q : Path) :
    (t.put p n).node? q = if q = p then some n else t.node? q := by
  by_cases hq : q = p
  · simp [node?, put, hq, hp]
  · have hfilter := lookup_filter t.nodes (fun r => decide (r ≠ p)) q
    rw [decide_eq_true hq, if_pos rfl] at hfilter
    have hbeq : (q == p) = false := beq_false_of_ne hq
    unfold node? put
    rw [if_neg hq, List.lookup_cons, hbeq]
    dsimp only
    rw [hfilter]

theorem node?_drop (t : FileTree) (p : Path) {q : Path} (hq : q ≠ []) :
    (t.drop p).node? q = if p <+: q then none else t.node? q := by
  have hfilter := lookup_filter t.nodes (fun r => !p.isPrefixOf r) q
  unfold drop node?
  rw [if_neg hq, if_neg hq]
  dsimp only
  rw [hfilter]
  by_cases h : p <+: q
  · simp [h]
  · simp [h]

/-- A place that is a directory, as are all places above it. -/
def Stands (t : FileTree) (q : Path) : Prop := ∀ p, p <+: q → t.node? p = some .directory

theorem Stands.of_prefix (hq : t.Stands q) (hp : p <+: q) : t.Stands p :=
  fun r hr => hq r (hr.trans hp)

/-- A path leads where it led as long as the directories on its way are there. -/
theorem locate_of_stands (hkept : ∀ q, t.Stands q → t'.node? q = some .directory)
    (hlocate : t.locate p = .ok place) : t'.locate p = .ok place := by
  -- the places on the way have only directories above them
  have hwalk : ∀ (p here : Path), (∀ q, q <+: here → q ≠ here → t.node? q = some .directory) →
      p.foldlM t.enter here = .ok place → p.foldlM t'.enter here = .ok place := by
    intro p
    induction p with
    | nil => exact fun here _ h => h
    | cons name rest ih =>
      intro here habove h
      obtain ⟨next, henter, hrest⟩ := except_bind_eq_ok.mp h
      have hhere : t.node? here = some .directory := by
        unfold enter at henter
        split at henter
        · assumption
        · exact absurd henter (by simp)
        · exact absurd henter (by simp)
      have hstands : t.Stands here := by
        intro q hq
        by_cases heq : q = here
        · exact heq ▸ hhere
        · exact habove q hq heq
      have henter' : t'.enter here name = .ok next := by
        unfold enter at henter ⊢
        rw [hhere] at henter
        rw [hkept here hstands]
        exact henter
      rw [List.foldlM_cons, henter']
      refine ih next ?_ hrest
      intro q hq hne
      unfold enter at henter
      rw [hhere] at henter
      obtain rfl := Except.ok.inj henter
      split at hq
      · exact hstands q (hq.trans (List.dropLast_prefix here))
      · split at hq
        · exact hstands q hq
        · rcases List.prefix_concat_iff.mp hq with heq | hprefix
          · simp_all
          · exact hstands q hprefix
  refine hwalk p [] ?_ hlocate
  intro q hq hne
  exact absurd (List.prefix_nil.mp hq) hne

/-- A path goes on from the directory that it leads to. -/
theorem locate_concat {name : String} (hbase : t.locate p = .ok place)
    (hplace : t.node? place = some .directory) (hup : name ≠ "..") (hne : name ≠ "") :
    t.locate (p ++ [name]) = .ok (place ++ [name]) := by
  have henter : t.enter place name = .ok (place ++ [name]) := by
    unfold enter
    rw [hplace]
    dsimp only
    rw [if_neg hup, if_neg hne]
  unfold locate at hbase ⊢
  rw [List.foldlM_append, hbase]
  exact except_bind_eq_ok.mpr ⟨_, rfl, except_bind_eq_ok.mpr ⟨_, henter, rfl⟩⟩

theorem write_eq_ok (h : t.write p text = .ok v) : ∃ place, t.locate p = .ok place ∧
    t.node? place ≠ some .directory ∧ v = t.put place (.file text) := by
  unfold write at h
  obtain ⟨place, hplace, h⟩ := except_bind_eq_ok.mp h
  split at h
  · exact absurd h (by simp)
  · exact absurd h (by simp)
  · rename_i hlast hnode
    rw [if_neg fun hslash => hlast hslash] at hplace
    exact ⟨place, hplace, hnode, (except_pure_eq_ok.mp h).symm⟩

theorem rename_eq_ok (h : t.rename p q = .ok t') : ∃ source target text,
    t.locate p = .ok source ∧ t.locate q = .ok target ∧ t.node? source = some (.file text) ∧
      t.node? target ≠ some .directory ∧ t' = (t.drop source).put target (.file text) := by
  unfold rename at h
  obtain ⟨source, hsource, h⟩ := except_bind_eq_ok.mp h
  obtain ⟨target, htarget, h⟩ := except_bind_eq_ok.mp h
  split at h
  · exact absurd h (by simp)
  · exact absurd h (by simp)
  · exact absurd h (by simp)
  · rename_i text hfile hnode
    exact ⟨source, target, text, hsource, htarget, hfile, hnode, (except_pure_eq_ok.mp h).symm⟩

theorem ne_nil_of_not_directory (h : t.node? place ≠ some .directory) : place ≠ [] := by
  rintro rfl
  exact h rfl

/-- Writing a file takes no directory away. -/
theorem stands_put (hnode : t.node? place ≠ some .directory) (hq : t.Stands q) :
    (t.put place (.file text)).node? q = some .directory := by
  have hdir := hq q (List.prefix_refl q)
  have hother : q ≠ place := by
    rintro rfl
    exact hnode hdir
  rw [t.node?_put_of_ne_nil _ (ne_nil_of_not_directory hnode), if_neg hother]
  exact hdir

/-- Moving a file takes no directory away. -/
theorem stands_move {source target : Path} {moved : Node} (hsource : t.node? source = some (.file text))
    (htarget : t.node? target ≠ some .directory) (hq : t.Stands q) :
    ((t.drop source).put target moved).node? q = some .directory := by
  have hdir := hq q (List.prefix_refl q)
  have habove : ¬ source <+: q := by
    intro hprefix
    have := hq source hprefix
    rw [hsource] at this
    exact absurd this (by simp)
  have hother : q ≠ target := by
    rintro rfl
    exact htarget hdir
  rw [(t.drop source).node?_put_of_ne_nil _ (ne_nil_of_not_directory htarget), if_neg hother]
  by_cases hnil : q = []
  · rw [hnil]
    rfl
  · rw [t.node?_drop source hnil, if_neg habove]
    exact hdir

/-- A file that was written beside its place and then moved there stands at its place, and what was
written beside it is gone. Nothing else changes, and every path leads where it led. -/
theorem node?_of_replaced (hwrite : t.write p text = .ok v) (hmove : v.rename p q = .ok t') :
    ∃ draft target, t.locate p = .ok draft ∧ v.locate q = .ok target ∧
      t'.locate q = .ok target ∧ target ≠ [] ∧
      (∀ r place, t.locate r = .ok place → v.locate r = .ok place ∧ t'.locate r = .ok place) ∧
      ∀ place ≠ [], t'.node? place =
        if place = target then some (.file text) else if draft <+: place then none else t.node? place := by
  obtain ⟨draft, hdraft, hnode, rfl⟩ := write_eq_ok hwrite
  obtain ⟨source, target, moved, hsource, htarget, hfile, hfree, rfl⟩ := rename_eq_ok hmove
  have hput := t.node?_put_of_ne_nil (.file text) (ne_nil_of_not_directory hnode)
  have hwritten : ∀ r place, t.locate r = .ok place → (t.put draft (.file text)).locate r = .ok place :=
    fun r place h => locate_of_stands (fun q hq => stands_put hnode hq) h
  have hmoved : ∀ r place, (t.put draft (.file text)).locate r = .ok place →
      (((t.put draft (.file text)).drop source).put target (.file moved)).locate r = .ok place :=
    fun r place h => locate_of_stands (fun q hq => stands_move hfile hfree hq) h
  obtain rfl : source = draft := Except.ok.inj (hsource.symm.trans (hwritten _ _ hdraft))
  obtain rfl : text = moved := by
    rw [hput, if_pos rfl] at hfile
    exact Node.file.inj (Option.some.inj hfile)
  have hend := ((t.put source (.file text)).drop source).node?_put_of_ne_nil (.file text)
    (ne_nil_of_not_directory hfree)
  refine ⟨source, target, hdraft, htarget, hmoved _ _ htarget, ne_nil_of_not_directory hfree, ?_, ?_⟩
  · intro r place h
    exact ⟨hwritten r place h, hmoved r place (hwritten r place h)⟩
  · intro place hne
    rw [hend, node?_drop _ _ hne]
    by_cases habove : source <+: place
    · rw [if_pos habove, if_pos habove]
    · have hother : place ≠ source := fun heq => habove (heq ▸ List.prefix_refl place)
      rw [if_neg habove, if_neg habove, hput, if_neg hother]

theorem find_of_replaced (hwrite : t.write p text = .ok v) (hmove : v.rename p q = .ok t') :
    t'.find q = .ok (some (.file text)) := by
  obtain ⟨draft, target, -, -, htarget, hne, -, hnode⟩ := node?_of_replaced hwrite hmove
  unfold find
  rw [htarget]
  show Except.ok _ = _
  rw [hnode target hne, if_pos rfl]

theorem read_of_find (h : t.find p = .ok (some (.file text))) : t.read p = .ok text := by
  unfold read
  rw [h]
  rfl

/-- An operation that went through left the tree it made. -/
theorem act_run {α : Type} {op : FileTree → Except DiskFault (α × FileTree)} {x : α}
    (h : (act op).run t = (.ok x, t')) : op t = .ok (x, t') := by
  rcases hop : op t with fault | ⟨y, after⟩
  · have hrun : (act op).run t = (.error fault, t) := by
      simp [act, hop]
      rfl
    exact absurd (Prod.mk.inj (hrun.symm.trans h)).1 (by simp)
  · have hrun : (act op).run t = (.ok y, after) := by
      simp [act, hop]
      rfl
    obtain ⟨hy, rfl⟩ := Prod.mk.inj (hrun.symm.trans h)
    rw [Except.ok.inj hy]

/-- The same for an operation that only changes the tree. -/
theorem act_map_run {op : FileTree → Except DiskFault FileTree}
    (h : (act fun t => (op t).map (((), ·))).run t = (.ok (), t')) : op t = .ok t' := by
  obtain ⟨after, hop, hafter⟩ := except_map_eq_ok.mp (act_run h)
  rw [hop, (Prod.mk.inj hafter).2]

end FileTree

namespace Store

variable {σ α : Type} {w w' : σ}

theorem orElse_run {op : StateM σ (Except DiskFault α)} {error : DiskFault → StoreError} {a : α}
    (h : (orElse op error).run.run w = (.ok a, w')) : op.run w = (.ok a, w') := by
  rcases hop : op.run w with ⟨fault | b, v⟩
  · have hrun : (orElse op error).run.run w = (.error (error fault), v) := by
      simp [orElse, hop]
      rfl
    exact absurd (Prod.mk.inj (hrun.symm.trans h)).1 (by simp)
  · have hrun : (orElse op error).run.run w = (.ok b, v) := by
      simp [orElse, hop]
      rfl
    obtain ⟨hb, rfl⟩ := Prod.mk.inj (hrun.symm.trans h)
    rw [Except.ok.inj hb]

/-- A file that was replaced is there with its new contents. -/
theorem replace_run {s : Store (StateM σ)} {f : StoreFile} {contents : String}
    (h : (s.replace f contents).run.run w = (.ok (), w')) :
    ∃ v, (s.disk.write f.draft contents).run w = (.ok (), v) ∧
      (s.disk.rename f.draft f.path).run v = (.ok (), w') := by
  unfold replace at h
  rw [ExceptT.run_bind, StateT.run_bind] at h
  rcases hwrite : (orElse (s.disk.write f.draft contents) (.write (s.text f.draft))).run.run w
    with ⟨fault | _, v⟩
  · rw [hwrite] at h
    exact absurd (Prod.mk.inj h).1 (by simp)
  · rw [hwrite] at h
    exact ⟨v, orElse_run hwrite, orElse_run h⟩

end Store

end RewardPool
