import RewardPool.Proofs.Files
import RewardPool.Proofs.Forms

/-!
What a store holds, and how its files say so. A shelf is the store without its files: checkpoints by
their roots, the latest root, and a ledger. The files of a directory spell a shelf if each of them is
there with the text of what is on the shelf, and is not there where the shelf has nothing. Drafts do
not count. A file that is written to its draft leaves the shelf as it was, and the step that moves the
draft to its place puts one thing on the shelf.
-/
namespace RewardPool

namespace StoreFile

/-- The names that a file may have in a directory. -/
def IsName (name : String) : Prop := name ≠ ".." ∧ name ≠ ""

/-- Where the files of a store and their drafts may stand. -/
inductive Leads : Path → Prop
  | top {name : String} (hname : IsName name) : Leads [name]
  | below {name : String} (hname : IsName name) : Leads [checkpointsDir, name]

variable {p : Path}

theorem Leads.append_ne_nil (hp : Leads p) (place : Path) : place ++ p ≠ [] := by
  cases hp <;> simp

theorem Leads.getLast?_append (hp : Leads p) (base : Path) :
    (base ++ p).getLast? ≠ some "" := by
  cases hp with
  | top hname => simpa using hname.2
  | below hname => simpa using hname.2

theorem isName_append {name ending : String} (hlong : 2 < ending.length) :
    IsName (name ++ ending) := by
  constructor
  · intro h
    have hlength := congrArg String.length h
    rw [String.length_append] at hlength
    have htwo : "..".length = 2 := rfl
    omega
  · intro h
    have hlength := congrArg String.length h
    rw [String.length_append] at hlength
    have hzero : "".length = 0 := rfl
    omega

theorem leads_path (f : StoreFile) : Leads f.path := by
  cases f with
  | checkpoint root => exact .below (isName_append (by decide))
  | latest => exact .top (by constructor <;> decide)
  | ledger => exact .top (by constructor <;> decide)

theorem leads_draft (f : StoreFile) : Leads f.draft := by
  cases f with
  | checkpoint root => exact .below (isName_append (by decide))
  | latest => exact .top (by constructor <;> decide)
  | ledger => exact .top (by constructor <;> decide)

theorem text_injective {n : Nat} {a b : FixedBytes n} (h : a.text = b.text) : a = b := by
  have hread : FixedBytes.ofText? (n := n) a.text.toList = FixedBytes.ofText? b.text.toList := by
    rw [h]
  rw [a.ofText?_text, b.ofText?_text] at hread
  exact Option.some.inj hread

/-- No two files have the same place. -/
theorem path_injective {f g : StoreFile} (h : f.path = g.path) : f = g := by
  cases f with
  | checkpoint root =>
    cases g with
    | checkpoint root' =>
      have htext : root.text = root'.text := by simpa [path] using h
      rw [text_injective htext]
    | latest => simp [path] at h
    | ledger => simp [path] at h
  | latest => cases g <;> simp_all [path, checkpointsDir]
  | ledger => cases g <;> simp_all [path, checkpointsDir]

theorem path_ne_dir (f : StoreFile) : f.path ≠ [checkpointsDir] := by
  cases f <;> simp [path, checkpointsDir]

theorem draft_ne_dir (f : StoreFile) : f.draft ≠ [checkpointsDir] := by
  cases f <;> simp [draft, checkpointsDir]

/-- A draft stands neither at the place of a file nor above it. -/
theorem draft_not_above (f g : StoreFile) : ¬ f.draft <+: g.path := by
  have hending : ∀ a b : String, a ++ ".tmp" ≠ b ++ ".json" := by
    intro a b h
    have hlast := congrArg (fun s : String => s.toList.getLast?) h
    simp at hlast
  intro h
  cases f with
  | checkpoint root =>
    cases g with
    | checkpoint root' => simp [draft, path, List.cons_prefix_cons, hending] at h
    | latest => simp [draft, path, List.cons_prefix_cons] at h
    | ledger => simp [draft, path, List.cons_prefix_cons] at h
  | latest => cases g <;> simp [draft, path, List.cons_prefix_cons, checkpointsDir] at h
  | ledger => cases g <;> simp [draft, path, List.cons_prefix_cons, checkpointsDir] at h

end StoreFile

/-- What a store holds: checkpoints by their roots, the root that the pointer names, and a ledger. -/
structure Shelf where
  checkpoints : Hash → Option Checkpoint
  latest : Option Hash
  ledger : Option Ledger

namespace Shelf

def empty : Shelf := ⟨fun _ => none, none, none⟩

/-- The text of a file of a store that holds the shelf. -/
def text? (s : Shelf) : StoreFile → Option String
  | .checkpoint root => (s.checkpoints root).map fun c => c.toJson.pretty
  | .latest => s.latest.map fun root => root.text ++ "\n"
  | .ledger => s.ledger.map fun l => l.toJson.pretty

def keep (s : Shelf) (c : Checkpoint) : Shelf :=
  { s with checkpoints := fun root => if root = c.root then some c else s.checkpoints root }

def point (s : Shelf) (root : Hash) : Shelf := { s with latest := some root }

def keepLedger (s : Shelf) (l : Ledger) : Shelf := { s with ledger := some l }

/-- The checkpoint that the pointer names. -/
def latestCheckpoint? (s : Shelf) : Option Checkpoint := s.latest.bind s.checkpoints

/-- The pointer never names a checkpoint that is missing. -/
def Sound (s : Shelf) : Prop := ∀ root ∈ s.latest, (s.checkpoints root).isSome

theorem sound_empty : empty.Sound := fun _ h => absurd h (by simp [empty])

variable {s : Shelf} {c : Checkpoint} {l : Ledger}

theorem Sound.keep (hs : s.Sound) (c : Checkpoint) : (s.keep c).Sound := by
  intro root hroot
  by_cases hc : root = c.root
  · simp [Shelf.keep, hc]
  · simpa [Shelf.keep, hc] using hs root hroot

theorem sound_point {root : Hash} (hroot : (s.checkpoints root).isSome) :
    (s.point root).Sound := by
  intro root' hroot'
  obtain rfl := Option.some.inj hroot'
  exact hroot

theorem text?_keep (s : Shelf) (c : Checkpoint) (g : StoreFile) :
    (s.keep c).text? g = if g = .checkpoint c.root then some c.toJson.pretty else s.text? g := by
  cases g with
  | checkpoint root =>
    by_cases hroot : root = c.root
    · simp [text?, Shelf.keep, hroot]
    · simp [text?, Shelf.keep, hroot]
  | latest => rfl
  | ledger => rfl

theorem text?_point (s : Shelf) (root : Hash) (g : StoreFile) :
    (s.point root).text? g = if g = .latest then some (root.text ++ "\n") else s.text? g := by
  cases g with
  | checkpoint root' => rfl
  | latest => rfl
  | ledger => rfl

theorem text?_keepLedger (s : Shelf) (l : Ledger) (g : StoreFile) :
    (s.keepLedger l).text? g = if g = .ledger then some l.toJson.pretty else s.text? g := by
  cases g with
  | checkpoint root => rfl
  | latest => rfl
  | ledger => rfl

/-- A directory whose files spell a shelf: where it stands, and what its files are. -/
structure Spelled (s : Shelf) (base place : Path) (t : FileTree) : Prop where
  located : t.locate base = .ok place
  stands : t.Stands (place ++ [StoreFile.checkpointsDir])
  files : ∀ f : StoreFile, t.node? (place ++ f.path) = (s.text? f).map .file
  drafts : ∀ f : StoreFile, t.node? (place ++ f.draft) ≠ some .directory

variable {base place : Path} {t t' : FileTree} {f : StoreFile} {p : Path} {text : String}

theorem Spelled.locate (h : s.Spelled base place t) (hp : StoreFile.Leads p) :
    t.locate (base ++ p) = .ok (place ++ p) := by
  have hplace : t.node? place = some .directory := h.stands place (List.prefix_append _ _)
  have hbelow := h.stands _ (List.prefix_refl _)
  cases hp with
  | top hname => exact FileTree.locate_concat h.located hplace hname.1 hname.2
  | below hname =>
    have hdir : t.locate (base ++ [StoreFile.checkpointsDir]) =
        .ok (place ++ [StoreFile.checkpointsDir]) :=
      FileTree.locate_concat h.located hplace (by decide) (by decide)
    simpa using FileTree.locate_concat hdir hbelow hname.1 hname.2

/-- A tree in which the directories of a store are as they were. -/
theorem Spelled.of_stands (h : s.Spelled base place t) {s' : Shelf}
    (hkept : ∀ q, t.Stands q → t'.node? q = some .directory)
    (hfiles : ∀ f : StoreFile, t'.node? (place ++ f.path) = (s'.text? f).map .file)
    (hdrafts : ∀ f : StoreFile, t'.node? (place ++ f.draft) ≠ some .directory) :
    s'.Spelled base place t' where
  located := FileTree.locate_of_stands hkept h.located
  stands q hq := hkept q (h.stands.of_prefix hq)
  files := hfiles
  drafts := hdrafts

/-- A draft can be written, and leaves what the files spell. -/
theorem Spelled.write (h : s.Spelled base place t) (f : StoreFile) (text : String) :
    ∃ t', t.write (base ++ f.draft) text = .ok t' ∧ s.Spelled base place t' ∧
      t'.node? (place ++ f.draft) = some (.file text) := by
  have hne := f.leads_draft.append_ne_nil place
  have hnode := t.node?_put_of_ne_nil (.file text) hne
  refine ⟨t.put (place ++ f.draft) (.file text), ?_, ?_, by rw [hnode, if_pos rfl]⟩
  · have hlast := f.leads_draft.getLast?_append base
    unfold FileTree.write
    rw [if_neg hlast, h.locate f.leads_draft]
    refine except_bind_eq_ok.mpr ⟨_, rfl, ?_⟩
    split
    · rename_i hempty
      exact absurd hempty hlast
    · rename_i hdir _
      exact absurd hdir (h.drafts f)
    · rfl
  · refine h.of_stands (fun q hq => FileTree.stands_put (h.drafts f) hq) ?_ ?_
    · intro g
      have hother : place ++ g.path ≠ place ++ f.draft := by
        intro heq
        exact StoreFile.draft_not_above f g (List.append_cancel_left heq ▸ List.prefix_refl _)
      rw [hnode, if_neg hother]
      exact h.files g
    · intro g
      rw [hnode]
      split
      · simp
      · exact h.drafts g

/-- A draft that is moved to its place puts its text on the shelf. -/
theorem Spelled.rename (h : s.Spelled base place t) {s' : Shelf}
    (hdraft : t.node? (place ++ f.draft) = some (.file text))
    (htext : ∀ g, s'.text? g = if g = f then some text else s.text? g) :
    ∃ t', t.rename (base ++ f.draft) (base ++ f.path) = .ok t' ∧ s'.Spelled base place t' := by
  have hne := f.leads_path.append_ne_nil place
  have hput := (t.drop (place ++ f.draft)).node?_put_of_ne_nil (.file text) hne
  refine ⟨(t.drop (place ++ f.draft)).put (place ++ f.path) (.file text), ?_, ?_⟩
  · unfold FileTree.rename
    rw [h.locate f.leads_draft, h.locate f.leads_path]
    refine except_bind_eq_ok.mpr ⟨_, rfl, except_bind_eq_ok.mpr ⟨_, rfl, ?_⟩⟩
    rw [hdraft, h.files f]
    cases s.text? f <;> rfl
  · have hfree : t.node? (place ++ f.path) ≠ some .directory := by
      rw [h.files f]
      cases s.text? f <;> simp
    refine h.of_stands (fun q hq => FileTree.stands_move hdraft hfree hq) ?_ ?_
    · intro g
      have habove : ¬ place ++ f.draft <+: place ++ g.path := fun hprefix =>
        StoreFile.draft_not_above f g ((List.prefix_append_right_inj place).mp hprefix)
      rw [hput, htext]
      by_cases hg : g = f
      · rw [if_pos (by rw [hg]), if_pos hg]
        rfl
      · have hother : place ++ g.path ≠ place ++ f.path := fun heq =>
          hg (StoreFile.path_injective (List.append_cancel_left heq))
        rw [if_neg hother, if_neg hg, t.node?_drop _ (g.leads_path.append_ne_nil place), if_neg habove]
        exact h.files g
    · intro g
      have hother : place ++ g.draft ≠ place ++ f.path := by
        intro heq
        exact StoreFile.draft_not_above g f (List.append_cancel_left heq ▸ List.prefix_refl _)
      rw [hput, if_neg hother, t.node?_drop _ (g.leads_draft.append_ne_nil place)]
      split
      · simp
      · exact h.drafts g

/-- What is on the shelf is what is found at the place of a file. -/
theorem Spelled.find (h : s.Spelled base place t) (f : StoreFile) :
    t.find (base ++ f.path) = .ok ((s.text? f).map .file) := by
  unfold FileTree.find
  rw [h.locate f.leads_path]
  exact congrArg Except.ok (h.files f)

theorem Spelled.isThere (h : s.Spelled base place t) (f : StoreFile) :
    t.isThere (base ++ f.path) = (s.text? f).isSome := by
  unfold FileTree.isThere
  rw [h.find f]
  cases s.text? f <;> rfl

theorem Spelled.read (h : s.Spelled base place t) (htext : s.text? f = some text) :
    t.read (base ++ f.path) = .ok text := by
  apply FileTree.read_of_find
  rw [h.find f, htext]
  rfl

end Shelf

end RewardPool
