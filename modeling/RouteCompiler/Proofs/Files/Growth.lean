import RouteCompiler.Proofs.Files.Walk

/-!
What making directories and writing files change in a tree. Directories are only ever made where
nothing was, on the way of the path they are made for, and a file is only ever written where no
directory is. So directories stay, and a path that could be followed can be followed afterwards.
-/

namespace RouteCompiler.FileTree

variable {t t' t₁ t₂ : FileTree} {cwd : Location} {p : Path} {l l' : Location} {n : FileNode}
  {content : ByteArray}

/-! ## Nodes -/

@[simp] theorem node?_root : t.node? [] = some .directory := if_pos rfl

theorem node?_set (h : l ≠ []) :
    (t.set l n).node? l' = if l = l' then some n else t.node? l' := by
  by_cases hl' : l' = []
  · rw [hl', node?_root, if_neg h, node?_root]
  · rw [node?, node?, if_neg hl', if_neg hl']
    exact OrderedMap.get?_insert _ _ _ _

theorem node?_set_self (h : l ≠ []) : (t.set l n).node? l = some n := by
  rw [node?_set h, if_pos rfl]

theorem node?_set_of_ne (h : l ≠ []) (hne : l' ≠ l) : (t.set l n).node? l' = t.node? l' := by
  rw [node?_set h, if_neg (Ne.symm hne)]

theorem ne_root_of_node? (h : t.node? l ≠ some .directory) : l ≠ [] := by
  rintro rfl
  exact h node?_root

/-! ## Operations that succeed -/

theorem stat_eq_ok_iff :
    t.stat cwd p = .ok n ↔ ∃ l, t.locate cwd p = .ok l ∧ t.node? l = some n := by
  rw [stat]
  cases t.locate cwd p with
  | error e => exact ⟨nofun, nofun⟩
  | ok l =>
    simp only [bind, Except.bind, Except.ok.injEq, exists_eq_left']
    cases t.node? l with
    | none => exact ⟨nofun, nofun⟩
    | some n => simp

theorem isDirectory_iff : t.isDirectory cwd p = true ↔ t.stat cwd p = .ok .directory := by
  rw [isDirectory]
  split <;> simp_all

theorem read_eq_ok_iff : t.read cwd p = .ok content ↔ t.stat cwd p = .ok (.file content) := by
  rw [read]
  cases t.stat cwd p with
  | error e => exact ⟨nofun, nofun⟩
  | ok n =>
    simp only [bind, Except.bind]
    cases n with
    | directory => exact ⟨nofun, nofun⟩
    | file b => simp

theorem makeDirectory_eq_ok_iff : t.makeDirectory cwd p = .ok t' ↔
    ∃ l, t.locate cwd p = .ok l ∧ t.node? l = none ∧ t' = t.set l .directory := by
  rw [makeDirectory]
  cases t.locate cwd p with
  | error e => exact ⟨nofun, nofun⟩
  | ok l =>
    simp only [bind, Except.bind, Except.ok.injEq, exists_eq_left']
    cases t.node? l with
    | none => simp [eq_comm]
    | some n => exact ⟨nofun, nofun⟩

theorem write_eq_ok_iff : t.write cwd p content = .ok t' ↔ ∃ l, t.locate cwd p = .ok l ∧
    t.node? l ≠ some .directory ∧ t' = t.set l (.file content) := by
  rw [write]
  cases t.locate cwd p with
  | error e => exact ⟨nofun, nofun⟩
  | ok l =>
    simp only [bind, Except.bind, Except.ok.injEq, exists_eq_left']
    split
    next h => exact ⟨nofun, fun h' => absurd h h'.1⟩
    next h => exact ⟨fun e => ⟨h, (Except.ok.inj e).symm⟩, fun h' => congrArg _ h'.2.symm⟩

/-! ## Directories stay -/

/-- What is a directory in the first tree is one in the second. -/
def KeepsDirectories (t t' : FileTree) : Prop :=
  ∀ l, t.node? l = some .directory → t'.node? l = some .directory

theorem KeepsDirectories.locate (hk : t.KeepsDirectories t') (h : t.locate cwd p = .ok l) :
    t'.locate cwd p = .ok l := by
  obtain ⟨hgoal, hway⟩ := locate_eq_ok_iff.1 h
  exact locate_eq_ok_iff.2 ⟨hgoal, fun xs hxs hne => hk _ (hway xs hxs hne)⟩

theorem KeepsDirectories.stat (hk : t.KeepsDirectories t') (hn : t'.node? (p.goal cwd) = some n)
    (h : t.locate cwd p = .ok l) : t'.stat cwd p = .ok n := by
  obtain rfl := locate_eq_goal h
  exact stat_eq_ok_iff.2 ⟨_, hk.locate h, hn⟩

theorem keepsDirectories_set (h : t.node? l ≠ some .directory) :
    t.KeepsDirectories (t.set l n) := by
  intro l' hl'
  have hne : l' ≠ l := by
    rintro rfl
    exact h hl'
  rw [node?_set_of_ne (ne_root_of_node? h) hne, hl']

/-! ## Making directories -/

/-- The second tree is the first with directories made on the way of a path. -/
def GrowsAlong (t t' : FileTree) (cwd : Location) (p : Path) : Prop :=
  ∀ l, t'.node? l = t.node? l ∨
    (l ∈ p.way cwd ∧ t.node? l = none ∧ t'.node? l = some .directory)

theorem GrowsAlong.refl : t.GrowsAlong t cwd p := fun _ => .inl rfl

theorem GrowsAlong.trans (h₁ : t.GrowsAlong t₁ cwd p) (h₂ : t₁.GrowsAlong t₂ cwd p) :
    t.GrowsAlong t₂ cwd p := by
  intro l
  obtain hkept | ⟨hway, hnone, hmade⟩ := h₂ l
  · rw [hkept]
    exact h₁ l
  · obtain hkept | ⟨-, -, hdirectory⟩ := h₁ l
    · exact .inr ⟨hway, hkept ▸ hnone, hmade⟩
    · rw [hdirectory] at hnone
      cases hnone

theorem GrowsAlong.of_parent (h : t.GrowsAlong t' cwd p.parent) : t.GrowsAlong t' cwd p := by
  intro l
  obtain hkept | ⟨hway, hmade⟩ := h l
  · exact .inl hkept
  · exact .inr ⟨Path.way_parent_subset hway, hmade⟩

theorem growsAlong_makeDirectory (h : t.makeDirectory cwd p = .ok t') :
    t.GrowsAlong t' cwd p ∧ t'.stat cwd p = .ok .directory := by
  obtain ⟨l, hl, hnone, rfl⟩ := makeDirectory_eq_ok_iff.1 h
  have hnode : t.node? l ≠ some .directory := by rw [hnone]; nofun
  have hroot := ne_root_of_node? hnode
  refine ⟨fun l' => ?_, ?_⟩
  · by_cases hne : l' = l
    · rw [hne]
      refine .inr ⟨?_, hnone, node?_set_self hroot⟩
      rw [locate_eq_goal hl]
      exact Path.goal_mem_way
    · exact .inl (node?_set_of_ne hroot hne)
  · exact stat_eq_ok_iff.2 ⟨l, (keepsDirectories_set hnode).locate hl, node?_set_self hroot⟩

/-- A failure after which the directory is there all the same is none. -/
theorem stat_of_there {e : FileError}
    (h : (if t.isDirectory cwd p then Except.ok () else .error e) = .ok ()) :
    t.stat cwd p = .ok .directory := by
  split at h
  next hd => exact isDirectory_iff.1 hd
  next => cases h

/-- Making a directory and those above it makes nothing but them, and if it succeeds the directory
is there. -/
theorem growsAlong_makeDirectories (k : Nat) (t : FileTree) (p : Path) :
    t.GrowsAlong (makeDirectories cwd k t p).2 cwd p ∧
      ((makeDirectories cwd k t p).1 = .ok () →
        (makeDirectories cwd k t p).2.stat cwd p = .ok .directory) := by
  induction k generalizing t p with
  | zero =>
    rw [makeDirectories]
    split
    next h => exact ⟨(growsAlong_makeDirectory h).1, fun _ => (growsAlong_makeDirectory h).2⟩
    next => split <;> exact ⟨.refl, nofun⟩
    next => exact ⟨.refl, stat_of_there⟩
  | succ k ih =>
    rw [makeDirectories]
    split
    next h => exact ⟨(growsAlong_makeDirectory h).1, fun _ => (growsAlong_makeDirectory h).2⟩
    next =>
      split
      · exact ⟨.refl, nofun⟩
      have hparent := ih t p.parent
      cases hr : makeDirectories cwd k t p.parent with
      | mk r t₁ =>
        rw [hr] at hparent
        have hgrows := hparent.1.of_parent
        cases r with
        | error e => exact ⟨hgrows, nofun⟩
        | ok u =>
          dsimp only
          split
          next h =>
            obtain ⟨hmade, hstat⟩ := growsAlong_makeDirectory h
            exact ⟨hgrows.trans hmade, fun _ => hstat⟩
          next => exact ⟨hgrows, stat_of_there⟩
    next => exact ⟨.refl, stat_of_there⟩

end RouteCompiler.FileTree
