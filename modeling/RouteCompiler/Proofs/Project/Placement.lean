import RouteCompiler.Project.Output
import RouteCompiler.Proofs.Files.Growth
import RouteCompiler.Proofs.OrderedMap

/-!
What writing a project leaves in a file tree. Nothing changes but the locations that its paths lead
to and the directories missing on the way to them, however the writing ends. If it succeeds, each
path reads back what stands under it, or under the last path in order that leads to the same place.
-/

namespace RouteCompiler

variable {cwd : Location} {t t' t₁ t₂ : FileTree} {l : Location} {content : ByteArray}
  {es fs : List (Path × ByteArray)}

/-! ## Files placed in a tree -/

/-- What has become of a location when files were placed in a tree. -/
inductive FileTree.Received (cwd : Location) (es : List (Path × ByteArray)) (t t' : FileTree)
    (l : Location) : Prop
  | kept (h : t'.node? l = t.node? l)
  | made {e : Path × ByteArray} (he : e ∈ es) (hway : l ∈ e.1.parent.way cwd)
      (hnone : t.node? l = none) (h : t'.node? l = some .directory)
  | placed {e : Path × ByteArray} (he : e ∈ es) (hgoal : e.1.goal cwd = l)
      (hnode : t.node? l ≠ some .directory) (h : t'.node? l = some (.file e.2))

/-- The second tree is the first with some files placed in it. -/
def FileTree.Receives (t t' : FileTree) (cwd : Location) (es : List (Path × ByteArray)) : Prop :=
  ∀ l, FileTree.Received cwd es t t' l

namespace FileTree

theorem Receives.refl : t.Receives t cwd es := fun _ => .kept rfl

theorem Receives.mono (h : t.Receives t' cwd es) (hs : es ⊆ fs) : t.Receives t' cwd fs := by
  intro l
  cases h l with
  | kept h => exact .kept h
  | made he hway hnone h => exact .made (hs he) hway hnone h
  | placed he hgoal hnode h => exact .placed (hs he) hgoal hnode h

theorem Receives.keepsDirectories (h : t.Receives t' cwd es) : t.KeepsDirectories t' := by
  intro l hl
  cases h l with
  | kept h => rw [h, hl]
  | made _ _ hnone _ =>
    rw [hl] at hnone
    cases hnone
  | placed _ _ hnode _ => exact absurd hl hnode

theorem Receives.trans (h₁ : t.Receives t₁ cwd es) (h₂ : t₁.Receives t₂ cwd es) :
    t.Receives t₂ cwd es := by
  intro l
  cases h₂ l with
  | kept h =>
    cases h₁ l with
    | kept h' => exact .kept (h.trans h')
    | made he hway hnone h' => exact .made he hway hnone (h.trans h')
    | placed he hgoal hnode h' => exact .placed he hgoal hnode (h.trans h')
  | made he hway hnone h =>
    -- Where nothing is now, nothing was.
    cases h₁ l with
    | kept h' => exact .made he hway (h' ▸ hnone) h
    | made _ _ _ h' =>
      rw [h'] at hnone
      cases hnone
    | placed _ _ _ h' =>
      rw [h'] at hnone
      cases hnone
  | placed he hgoal hnode h =>
    exact .placed he hgoal (fun hl => hnode (h₁.keepsDirectories l hl)) h

/-- Where a file is, one stays, the same if no other is placed there. -/
theorem Receives.read (h : t.Receives t' cwd es) {p : Path} (hr : t.read cwd p = .ok content) :
    (∃ b, t'.read cwd p = .ok b) ∧
      ((∀ e ∈ es, e.1.goal cwd ≠ p.goal cwd) → t'.read cwd p = .ok content) := by
  obtain ⟨l, hl, hn⟩ := stat_eq_ok_iff.1 (read_eq_ok_iff.1 hr)
  obtain rfl := locate_eq_goal hl
  have hread : ∀ b, t'.node? (p.goal cwd) = some (.file b) → t'.read cwd p = .ok b :=
    fun b hb => read_eq_ok_iff.2 (h.keepsDirectories.stat hb hl)
  cases h (p.goal cwd) with
  | kept h => exact ⟨⟨content, hread _ (h.trans hn)⟩, fun _ => hread _ (h.trans hn)⟩
  | made _ _ hnone _ =>
    rw [hn] at hnone
    cases hnone
  | placed he hgoal _ h => exact ⟨⟨_, hread _ h⟩, fun hne => absurd hgoal (hne _ he)⟩

theorem GrowsAlong.receives {p : Path} (h : t.GrowsAlong t' cwd p.parent) :
    t.Receives t' cwd [(p, content)] := by
  intro l
  obtain hkept | ⟨hway, hnone, hmade⟩ := h l
  · exact .kept hkept
  · exact .made (List.mem_singleton_self _) hway hnone hmade

theorem receives_write {p : Path} (h : t.write cwd p content = .ok t') :
    t.Receives t' cwd [(p, content)] ∧ t'.read cwd p = .ok content := by
  obtain ⟨l, hl, hnode, rfl⟩ := write_eq_ok_iff.1 h
  obtain rfl := locate_eq_goal hl
  have hroot := ne_root_of_node? hnode
  refine ⟨fun l' => ?_, ?_⟩
  · by_cases hne : l' = p.goal cwd
    · rw [hne]
      exact .placed (List.mem_singleton_self _) rfl hnode (node?_set_self hroot)
    · exact .kept (node?_set_of_ne hroot hne)
  · exact read_eq_ok_iff.2 ((keepsDirectories_set hnode).stat (node?_set_self hroot) hl)

end FileTree

/-! ## Writing files -/

theorem receives_writeFile (cwd : Location) (t : FileTree) (p : Path) (content : ByteArray) :
    t.Receives (writeFile cwd t p content).2 cwd [(p, content)] ∧
      ((writeFile cwd t p content).1 = .ok () →
        (writeFile cwd t p content).2.read cwd p = .ok content) := by
  have hgrows : t.GrowsAlong (FileTree.makeDirectories cwd p.parts.length t p.parent).2 cwd
      p.parent := (FileTree.growsAlong_makeDirectories p.parts.length t p.parent).1
  rw [writeFile]
  cases hm : FileTree.makeDirectories cwd p.parts.length t p.parent with
  | mk r t₁ =>
    rw [hm] at hgrows
    cases r with
    | error e => exact ⟨hgrows.receives, nofun⟩
    | ok u =>
      dsimp only
      split
      next h =>
        obtain ⟨hplaced, hread⟩ := FileTree.receives_write h
        exact ⟨hgrows.receives.trans hplaced, fun _ => hread⟩
      next => exact ⟨hgrows.receives, nofun⟩

/-- The files of a project under the paths they are written to. -/
def placements (out : Path) (es : List (String × ByteArray)) : List (Path × ByteArray) :=
  es.map fun e => (out.join (Path.ofString e.1), e.2)

/-- The location of the file of a path. -/
def target (cwd : Location) (out : Path) (path : String) : Location :=
  (out.join (Path.ofString path)).goal cwd

variable {out : Path}

theorem writeFiles_cons (path : String) (content : ByteArray) (es : List (String × ByteArray))
    (t : FileTree) : writeFiles cwd out ((path, content) :: es) t =
      match writeFile cwd t (out.join (Path.ofString path)) content with
      | (.error e, t) => (.error e, [], t)
      | (.ok (), t) => ((writeFiles cwd out es t).1, written path :: (writeFiles cwd out es t).2.1,
          (writeFiles cwd out es t).2.2) := by
  cases hw : writeFile cwd t (out.join (Path.ofString path)) content with
  | mk r t₁ => cases r <;> simp [writeFiles, hw]

/-- However it ends, writing files places nothing but them. -/
theorem receives_writeFiles (es : List (String × ByteArray)) (t : FileTree) :
    t.Receives (writeFiles cwd out es t).2.2 cwd (placements out es) := by
  induction es generalizing t with
  | nil => exact .refl
  | cons e es ih =>
    have hfirst : t.Receives (writeFile cwd t (out.join (Path.ofString e.1)) e.2).2 cwd
        (placements out (e :: es)) :=
      (receives_writeFile cwd t (out.join (Path.ofString e.1)) e.2).1.mono (by simp [placements])
    rw [writeFiles_cons]
    cases hw : writeFile cwd t (out.join (Path.ofString e.1)) e.2 with
    | mk r t₁ =>
      rw [hw] at hfirst
      cases r with
      | error => exact hfirst
      | ok u => exact hfirst.trans ((ih t₁).mono (List.subset_cons_self _ _))

/-- Of files that are all written, each is there before those behind it are placed. -/
theorem exists_read_of_writeFiles {before after : List (String × ByteArray)}
    {e : String × ByteArray}
    (h : (writeFiles cwd out (before ++ e :: after) t).1 = .ok ()) :
    ∃ t₁ : FileTree, t₁.read cwd (out.join (Path.ofString e.1)) = .ok e.2 ∧
      t₁.Receives (writeFiles cwd out (before ++ e :: after) t).2.2 cwd (placements out after) := by
  induction before generalizing t with
  | nil =>
    obtain ⟨-, hread⟩ := receives_writeFile cwd t (out.join (Path.ofString e.1)) e.2
    rw [List.nil_append, writeFiles_cons] at h ⊢
    cases hw : writeFile cwd t (out.join (Path.ofString e.1)) e.2 with
    | mk r t₁ =>
      rw [hw] at h hread
      cases r with
      | error => cases h
      | ok u => exact ⟨t₁, hread rfl, receives_writeFiles after t₁⟩
  | cons b before ih =>
    rw [List.cons_append, writeFiles_cons] at h ⊢
    cases hw : writeFile cwd t (out.join (Path.ofString b.1)) b.2 with
    | mk r t₁ =>
      rw [hw] at h
      cases r with
      | error => cases h
      | ok u => exact ih h

/-! ## Writing a project -/

namespace Artifacts

variable (files : Artifacts)

/-- Later files have later paths. -/
theorem pairwise_inOrder : files.inOrder.Pairwise fun e f => e.1 ≤ f.1 := by
  have htrans : ∀ e f g : String × ByteArray, decide (e.1 ≤ f.1) = true →
      decide (f.1 ≤ g.1) = true → decide (e.1 ≤ g.1) = true := fun _ _ _ h h' =>
    decide_eq_true (String.le_trans (of_decide_eq_true h) (of_decide_eq_true h'))
  have htotal : ∀ e f : String × ByteArray,
      (decide (e.1 ≤ f.1) || decide (f.1 ≤ e.1)) = true := fun e f => by
    simpa using String.le_total e.1 f.1
  exact (List.pairwise_mergeSort htrans htotal files.entries).imp of_decide_eq_true

theorem perm_inOrder : files.inOrder.Perm files.entries := List.mergeSort_perm _ _

theorem nodup_inOrder : (files.inOrder.map Prod.fst).Nodup :=
  (files.perm_inOrder.map Prod.fst).nodup_iff.2 files.nodup

end Artifacts

/-- Every path reads back its own content, unless a later path leads to the same location. All
other locations are as they were, or directories that were missing on the way of a path. -/
structure Artifacts.Written (files : Artifacts) (cwd : Location) (out : Path) (t t' : FileTree) :
    Prop where
  file : ∀ path content, files.get? path = some content →
    (∀ q ∈ files.keys, target cwd out q = target cwd out path → q ≤ path) →
    t'.read cwd (out.join (Path.ofString path)) = .ok content
  other : ∀ l, (∀ q ∈ files.keys, target cwd out q ≠ l) → t'.node? l = t.node? l ∨
    (t.node? l = none ∧ t'.node? l = some .directory ∧
      ∃ q ∈ files.keys, l ∈ (out.join (Path.ofString q)).parent.way cwd)

/-- However it ends, writing a project places nothing but its files. -/
theorem receives_writeArtifacts (cwd : Location) (t : FileTree) (out : Path) (files : Artifacts) :
    t.Receives (writeArtifacts cwd t out files).2.2 cwd (placements out files.entries) := by
  refine (receives_writeFiles files.inOrder t).mono fun e he => ?_
  exact (files.perm_inOrder.map _).subset he

/-- Where a path of a project leads that is written, there is a file. -/
theorem exists_read_of_writeArtifacts {files : Artifacts} {path : String}
    (h : (writeArtifacts cwd t out files).1 = .ok ()) (hp : path ∈ files.keys) :
    ∃ b, (writeArtifacts cwd t out files).2.2.read cwd (out.join (Path.ofString path)) = .ok b := by
  obtain ⟨e, he, rfl⟩ := List.mem_map.1 hp
  obtain ⟨before, after, hsplit⟩ := List.append_of_mem (files.perm_inOrder.mem_iff.2 he)
  rw [writeArtifacts, hsplit] at h ⊢
  obtain ⟨t₁, hread, hreceives⟩ := exists_read_of_writeFiles h
  exact (hreceives.read hread).1

theorem exists_node_of_writeArtifacts {files : Artifacts} {path : String}
    (h : (writeArtifacts cwd t out files).1 = .ok ()) (hp : path ∈ files.keys) :
    ∃ b, (writeArtifacts cwd t out files).2.2.node? (target cwd out path) = some (.file b) := by
  obtain ⟨b, hread⟩ := exists_read_of_writeArtifacts h hp
  obtain ⟨l, hl, hn⟩ := FileTree.stat_eq_ok_iff.1 (FileTree.read_eq_ok_iff.1 hread)
  obtain rfl := FileTree.locate_eq_goal hl
  exact ⟨b, hn⟩

/-- A project that is written is there. -/
theorem written_of_writeArtifacts {files : Artifacts}
    (h : (writeArtifacts cwd t out files).1 = .ok ()) :
    files.Written cwd out t (writeArtifacts cwd t out files).2.2 := by
  constructor
  · intro path content hget hlast
    obtain ⟨before, after, hsplit⟩ := List.append_of_mem
      (files.perm_inOrder.mem_iff.2 (OrderedMap.mem_entries_of_get? hget))
    rw [writeArtifacts, hsplit] at h ⊢
    obtain ⟨t₁, hread, hreceives⟩ := exists_read_of_writeFiles h
    refine (hreceives.read hread).2 fun g hg htarget => ?_
    obtain ⟨f, hf, rfl⟩ := List.mem_map.1 hg
    -- A later entry has a later path, and no path comes twice.
    have hle := (List.pairwise_append.1 (hsplit ▸ files.pairwise_inOrder)).2.1
    have hnodup := hsplit ▸ files.nodup_inOrder
    rw [List.map_append, List.map_cons, List.nodup_append] at hnodup
    have hkey : f.1 ∈ files.keys :=
      (files.perm_inOrder.map Prod.fst).subset (List.mem_map_of_mem (hsplit ▸ by simp [hf]))
    have heq : f.1 = path :=
      String.le_antisymm (hlast f.1 hkey htarget) ((List.pairwise_cons.1 hle).1 f hf)
    exact (List.nodup_cons.1 hnodup.2.1).1 (List.mem_map.2 ⟨f, hf, heq⟩)
  · intro l hl
    cases receives_writeArtifacts cwd t out files l with
    | kept h => exact .inl h
    | made he hway hnone h =>
      obtain ⟨f, hf, rfl⟩ := List.mem_map.1 he
      exact .inr ⟨hnone, h, f.1, List.mem_map_of_mem hf, hway⟩
    | placed he hgoal =>
      obtain ⟨f, hf, rfl⟩ := List.mem_map.1 he
      exact absurd hgoal (hl f.1 (List.mem_map_of_mem hf))

end RouteCompiler
