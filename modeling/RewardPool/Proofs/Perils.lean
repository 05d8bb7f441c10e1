import RewardPool.Proofs.Shelves

/-!
A store on a disk that is not safe. A write or a move may fail, or be the last thing that the program
does, and either way its work may be undone, half done or done. A file is written beside its place, so
a save that does not come to its end leaves each file as it was or as it will be. What a reader is told
of the store is then one of two things, and never an error.
-/
namespace RewardPool

/-- Computations in a world that may be cut off. What they did until then has been done. -/
abbrev Mortal (σ : Type) := OptionT (StateM σ)

namespace Mortal

variable {σ α β δ : Type}

/-- What a computation comes to, unless it is cut off, and the world that it leaves behind. -/
def outcome (x : Mortal σ α) (w : σ) : Option α × σ := x.run.run w

theorem outcome_bind_of_some {x : Mortal σ α} {f : α → Mortal σ β} {w w' : σ} {a : α}
    (hx : outcome x w = (some a, w')) : outcome (x >>= f) w = outcome (f a) w' := by
  show ((x >>= f).run.run w) = _
  rw [OptionT.run_bind, Option.elimM, StateT.run_bind]
  have hrun : x.run.run w = (some a, w') := hx
  rw [hrun]
  rfl

theorem outcome_bind_of_none {x : Mortal σ α} {f : α → Mortal σ β} {w w' : σ}
    (hx : outcome x w = (none, w')) : outcome (x >>= f) w = (none, w') := by
  show ((x >>= f).run.run w) = _
  rw [OptionT.run_bind, Option.elimM, StateT.run_bind]
  have hrun : x.run.run w = (none, w') := hx
  rw [hrun]
  rfl

theorem outcome_run_bind {x : ExceptT δ (Mortal σ) α} {f : α → ExceptT δ (Mortal σ) β} {w w' : σ}
    {a : α} (hx : outcome x.run w = (some (.ok a), w')) :
    outcome (x >>= f).run w = outcome (f a).run w' := by
  rw [ExceptT.run_bind, outcome_bind_of_some hx]

theorem outcome_adapt {ε : Type} {x : ExceptT δ (Mortal σ) α} {f : δ → ε} {w w' : σ} {a : α}
    (hx : outcome x.run w = (some (.ok a), w')) :
    outcome (x.adapt f).run w = (some (.ok a), w') := by
  show outcome (Except.mapError f <$> x.run) w = _
  rw [map_eq_pure_bind, outcome_bind_of_some hx]
  rfl

/-- From a world with the first property, a computation leaves one with the second, cut off or not, and
what it comes to is as the third says. -/
def Ends (P : σ → Prop) (x : Mortal σ α) (A : σ → Prop) (Q : α → σ → Prop) : Prop :=
  ∀ w, P w → A (outcome x w).2 ∧ ∀ a, (outcome x w).1 = some a → Q a (outcome x w).2

variable {P P' A B : σ → Prop} {Q Q' : α → σ → Prop} {R : β → σ → Prop}

theorem ends_pure (a : α) : Ends P (pure a) P (fun b w => b = a ∧ P w) := by
  intro w hw
  refine ⟨hw, fun b hb => ⟨?_, hw⟩⟩
  exact (Option.some.inj hb).symm

theorem Ends.mono {x : Mortal σ α} (hx : Ends P x A Q) (hP : ∀ w, P' w → P w) (hA : ∀ w, A w → B w)
    (hQ : ∀ a w, A w → Q a w → Q' a w) : Ends P' x B Q' := by
  intro w hw
  obtain ⟨hleft, hresult⟩ := hx w (hP w hw)
  exact ⟨hA _ hleft, fun a ha => hQ a _ hleft (hresult a ha)⟩

theorem Ends.bind {x : Mortal σ α} {f : α → Mortal σ β} (hx : Ends P x A Q)
    (hf : ∀ a, Ends (fun w => A w ∧ Q a w) (f a) B R) (hAB : ∀ w, A w → B w) :
    Ends P (x >>= f) B R := by
  intro w hw
  obtain ⟨hleft, hresult⟩ := hx w hw
  obtain ⟨⟨a | a, w'⟩, houtcome⟩ : ∃ o, outcome x w = o := ⟨_, rfl⟩
  · rw [houtcome] at hleft
    rw [outcome_bind_of_none houtcome]
    exact ⟨hAB w' hleft, fun b hb => absurd hb (by simp)⟩
  · rw [houtcome] at hleft hresult
    rw [outcome_bind_of_some houtcome]
    exact hf a w' ⟨hleft, hresult a rfl⟩

/-- The same for what may fail: the last property is that of a world in which it did not. -/
def Saves (P : σ → Prop) (x : Mortal σ (Except δ Unit)) (A D : σ → Prop) : Prop :=
  Ends P x A fun r w => r = .ok () → D w

variable {C D E : σ → Prop}

theorem Saves.andThen {x y : ExceptT δ (Mortal σ) Unit} (hx : Saves P x.run A D)
    (hy : Saves (fun w => A w ∧ D w) y.run B E) (hAB : ∀ w, A w → B w) :
    Saves P (x >>= fun _ => y).run B E := by
  unfold Saves
  rw [ExceptT.run_bind]
  refine Ends.bind hx (fun r => ?_) hAB
  cases r with
  | ok _ => exact hy.mono (fun w hw => ⟨hw.1, hw.2 rfl⟩) (fun _ hw => hw) (fun _ _ _ h => h)
  | error e =>
    refine (ends_pure _).mono (fun w hw => hw) (fun w hw => hAB w hw.1) ?_
    rintro _ w - ⟨rfl, -⟩ hok
    exact absurd hok (by simp)

theorem Saves.mono {x : Mortal σ (Except δ Unit)} (hx : Saves P x A D) (hP : ∀ w, P' w → P w)
    (hA : ∀ w, A w → B w) (hD : ∀ w, D w → E w) : Saves P' x B E :=
  Ends.mono hx hP hA fun _ w _ h hok => hD w (h hok)

end Mortal

open Mortal (outcome Ends Saves)

namespace FileTree

variable {α : Type} {t t' : FileTree}

theorem run_act {op : FileTree → Except DiskFault (α × FileTree)} {a : α}
    (hop : op t = .ok (a, t')) : (act op).run t = (.ok a, t') := by
  simp [act, hop]
  rfl

theorem run_act_map {op : FileTree → Except DiskFault FileTree} (hop : op t = .ok t') :
    (act fun t => (op t).map (((), ·))).run t = (.ok (), t') :=
  run_act (by rw [hop]; rfl)

end FileTree

/-- What becomes of an operation on a disk. If it fails or is cut off, something of it may be left. -/
inductive Peril (α : Type) where
  | spared
  | fails (fault : DiskFault) (left : α)
  | cut (left : α)

/-- What becomes of the operations on a disk, as a world decides that need not know what it does. A
write that does not come through may leave any text where it writes, or nothing new; a move is done or
not. -/
structure Perils (σ : Type) where
  write : Path → String → StateM σ (Peril (Option String))
  rename : Path → Path → StateM σ (Peril Bool)

/-- A world beside a tree of files. -/
structure Exposed (σ : Type) where
  world : σ
  files : FileTree

namespace Exposed

variable {σ α β : Type}

def onWorld (x : StateM σ α) : Mortal (Exposed σ) α :=
  OptionT.lift fun w =>
    let (a, world) := x w.world
    (a, { w with world })

def onFiles (x : StateM FileTree α) : Mortal (Exposed σ) α :=
  OptionT.lift fun w =>
    let (a, files) := x w.files
    (a, { w with files })

/-- Lets an operation through, or leaves of it what is left. -/
def meet (op : StateM FileTree (Except DiskFault Unit))
    (leave : β → StateM FileTree (Except DiskFault Unit)) :
    Peril β → Mortal (Exposed σ) (Except DiskFault Unit)
  | .spared => onFiles op
  | .fails fault left => do
    let _ ← onFiles (leave left)
    return .error fault
  | .cut left => do
    let _ ← onFiles (leave left)
    failure

/-- The files below a directory, as a disk with perils. Nothing is read wrongly. -/
def disk (perils : Perils σ) (base : Path) : Disk (Mortal (Exposed σ)) where
  makeDirs p := onFiles ((FileTree.disk base).makeDirs p)
  isThere p := onFiles ((FileTree.disk base).isThere p)
  read p := onFiles ((FileTree.disk base).read p)
  write p text := do
    let leave : Option String → StateM FileTree (Except DiskFault Unit) := fun left =>
      match left with
      | none => return .ok ()
      | some text => (FileTree.disk base).write p text
    meet ((FileTree.disk base).write p text) leave (← onWorld (perils.write p text))
  rename source target := do
    let move := (FileTree.disk base).rename source target
    meet move (fun done => if done then move else return .ok ())
      (← onWorld (perils.rename source target))

/-- The store of a directory on a disk with perils. -/
def store (perils : Perils σ) (base : Path) (dir : String) : Store (Mortal (Exposed σ)) :=
  ⟨dir, disk perils base⟩

/-- The files spell a shelf, and a draft of one of them is written. -/
def Drafted (base place : Path) (s : Shelf) (f : StoreFile) (text : String) (t : FileTree) : Prop :=
  s.Spelled base place t ∧ t.node? (place ++ f.draft) = some (.file text)

/-- The files spell a shelf. -/
def Holds (base place : Path) (s : Shelf) (w : Exposed σ) : Prop := s.Spelled base place w.files

theorem onWorld_ends {P : FileTree → Prop} (x : StateM σ α) :
    Ends (fun w => P w.files) (onWorld x) (fun w => P w.files) (fun _ w => P w.files) :=
  fun _ hw => ⟨hw, fun _ _ => hw⟩

/-- An operation that a tree with the first property allows, and what of it may be left, all lead to
trees with the second property. -/
theorem meet_saves {P A D : FileTree → Prop} {op : StateM FileTree (Except DiskFault Unit)}
    {leave : β → StateM FileTree (Except DiskFault Unit)}
    (hop : ∀ t, P t → A (op.run t).2 ∧ D (op.run t).2)
    (hleave : ∀ b t, P t → A ((leave b).run t).2) (peril : Peril β) :
    Saves (σ := Exposed σ) (fun w => P w.files) (meet op leave peril) (fun w => A w.files)
      (fun w => D w.files) := by
  intro w hw
  cases peril with
  | spared => exact ⟨(hop w.files hw).1, fun _ _ _ => (hop w.files hw).2⟩
  | fails fault left =>
    refine ⟨hleave left w.files hw, fun r hr hok => ?_⟩
    rw [← Option.some.inj hr] at hok
    exact absurd hok (by simp)
  | cut left =>
    refine ⟨hleave left w.files hw, fun r hr => ?_⟩
    have hnone : none = some r := hr
    exact absurd hnone (by simp)

variable {perils : Perils σ} {base place : Path} {dir text : String} {s s' : Shelf} {f : StoreFile}
/-- A draft can always be written, and whatever is left of it changes nothing. -/
theorem write_saves (perils : Perils σ) (f : StoreFile) (text : String) :
    Saves (Holds base place s) ((disk perils base).write f.draft text) (Holds base place s)
      (fun w => Drafted base place s f text w.files) := by
  have hwrite : ∀ text t, s.Spelled base place t →
      Drafted base place s f text (((FileTree.disk base).write f.draft text).run t).2 := by
    intro text t ht
    obtain ⟨t', hok, hspelled⟩ := ht.write f text
    have hrun : ((FileTree.disk base).write f.draft text).run t = (.ok (), t') :=
      FileTree.run_act_map hok
    rw [hrun]
    exact hspelled
  refine Ends.bind (onWorld_ends _) (fun peril => ?_) (fun w hw => hw)
  refine (meet_saves (P := s.Spelled base place) (A := s.Spelled base place)
    (D := Drafted base place s f text) ?_ ?_ peril).mono (fun w hw => hw.1) (fun w hw => hw)
    (fun w hw => hw)
  · exact fun t ht => ⟨(hwrite text t ht).1, hwrite text t ht⟩
  · rintro (_ | left) t ht
    · exact ht
    · exact (hwrite left t ht).1

/-- A draft that is moved, or not, leaves the old shelf or the new one. -/
theorem rename_saves (perils : Perils σ)
    (htext : ∀ g, s'.text? g = if g = f then some text else s.text? g) :
    Saves (fun w => Drafted base place s f text w.files) ((disk perils base).rename f.draft f.path)
      (fun w => Holds base place s w ∨ Holds base place s' w) (Holds base place s') := by
  have hmove : ∀ t, Drafted base place s f text t →
      s'.Spelled base place (((FileTree.disk base).rename f.draft f.path).run t).2 := by
    rintro t ⟨ht, hdraft⟩
    obtain ⟨t', hok, hspelled⟩ := ht.rename hdraft htext
    have hrun : ((FileTree.disk base).rename f.draft f.path).run t = (.ok (), t') :=
      FileTree.run_act_map hok
    rw [hrun]
    exact hspelled
  refine Ends.bind (onWorld_ends (P := Drafted base place s f text) _) (fun peril => ?_)
    (fun w hw => .inl hw.1)
  refine (meet_saves (P := Drafted base place s f text)
    (A := fun t => s.Spelled base place t ∨ s'.Spelled base place t)
    (D := s'.Spelled base place) ?_ ?_ peril).mono (fun w hw => hw.1) (fun w hw => hw)
    (fun w hw => hw)
  · exact fun t ht => ⟨.inr (hmove t ht), hmove t ht⟩
  · rintro (_ | _) t ht
    · exact .inl ht.1
    · exact .inr (hmove t ht)

theorem orElse_saves {P A D : Exposed σ → Prop} {op : Mortal (Exposed σ) (Except DiskFault Unit)}
    (hop : Saves P op A D) (error : DiskFault → StoreError) :
    Saves P (Store.orElse op error).run A D := by
  refine Ends.bind hop (fun r => ?_) (fun w hw => hw)
  cases r with
  | ok _ =>
    refine (Mortal.ends_pure _).mono (fun w hw => hw) (fun w hw => hw.1) ?_
    rintro _ w - ⟨-, hw⟩ -
    exact hw.2 rfl
  | error fault =>
    refine (Mortal.ends_pure _).mono (fun w hw => hw) (fun w hw => hw.1) ?_
    rintro _ w - ⟨rfl, -⟩ hok
    exact absurd hok (by simp)

/-- A file that is replaced puts one thing on the shelf, or does not. -/
theorem replace_saves (perils : Perils σ) (dir : String)
    (htext : ∀ g, s'.text? g = if g = f then some text else s.text? g) :
    Saves (Holds base place s) ((store perils base dir).replace f text).run
      (fun w => Holds base place s w ∨ Holds base place s' w) (Holds base place s') := by
  refine (orElse_saves (write_saves perils f text) _).andThen ?_ (fun w hw => .inl hw)
  exact (orElse_saves (rename_saves perils htext) _).mono (fun w hw => hw.2) (fun w hw => hw)
    (fun w hw => hw)

end Exposed

end RewardPool
