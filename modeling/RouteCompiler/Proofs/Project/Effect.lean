import RouteCompiler.Proofs.Project.Obstruction
import Mathlib.Data.List.Nodup

/-!
What writing a project of plain paths does to a tree in which everything stands in directories. It
succeeds if no path has something in its way, and then the files are there, with the directories
above them, and nothing else has changed. Otherwise it does what writing the paths before the first
obstructed one does. The order in which the paths were given is of no account.
-/

namespace RouteCompiler

variable {cwd : Location} {t t' : FileTree} {out : Path} {files files' : Artifacts}
  {before after : List (String × ByteArray)} {e f : String × ByteArray}

namespace Artifacts

/-! ## The order of writing -/

theorem pairwise_lt_inOrder (files : Artifacts) :
    files.inOrder.Pairwise fun e f => e.1 < f.1 := by
  have hne : files.inOrder.Pairwise fun e f => e.1 ≠ f.1 := List.pairwise_map.1 files.nodup_inOrder
  refine (files.pairwise_inOrder.and hne).imp fun h => ?_
  exact String.not_le.1 fun hge => h.2 (String.le_antisymm h.1 hge)

/-- There is one order only in which paths ascend. -/
theorem inOrder_eq {es : List (String × ByteArray)} (hs : es.Pairwise fun e f => e.1 < f.1)
    (hp : es.Perm files.entries) : files.inOrder = es := by
  refine List.Perm.eq_of_pairwise (fun e f _ _ hef hfe => ?_) files.pairwise_lt_inOrder hs
    (files.perm_inOrder.trans hp.symm)
  exact absurd (String.lt_trans hef hfe) (String.lt_irrefl _)

theorem inOrder_of_perm (h : files.entries.Perm files'.entries) : files.inOrder = files'.inOrder :=
  inOrder_eq files'.pairwise_lt_inOrder (files'.perm_inOrder.trans h.symm)

/-- The part of a project with the paths before one. -/
def beforePath (files : Artifacts) (path : String) : Artifacts :=
  files.filterKeys fun q => decide (q < path)

theorem mem_before_iff (h : files.inOrder = before ++ e :: after) :
    f ∈ before ↔ f ∈ files.inOrder ∧ f.1 < e.1 := by
  have hlt := files.pairwise_lt_inOrder
  rw [h] at hlt ⊢
  obtain ⟨-, hrest, hcross⟩ := List.pairwise_append.1 hlt
  constructor
  · intro hf
    exact ⟨List.mem_append_left _ hf, hcross f hf e List.mem_cons_self⟩
  · rintro ⟨hf, hfe⟩
    obtain hf | hf := List.mem_append.1 hf
    · exact hf
    obtain rfl | hf := List.mem_cons.1 hf
    · exact absurd hfe (String.lt_irrefl _)
    · have hef := (List.pairwise_cons.1 hrest).1 f hf
      exact absurd (String.lt_trans hef hfe) (String.lt_irrefl _)

theorem inOrder_beforePath (h : files.inOrder = before ++ e :: after) :
    (files.beforePath e.1).inOrder = before := by
  have hlt := files.pairwise_lt_inOrder
  rw [h] at hlt
  have hbefore := (List.pairwise_append.1 hlt).1
  have hnodup : before.Nodup := by
    refine List.Pairwise.imp ?_ hbefore
    rintro e f hef rfl
    exact String.lt_irrefl _ hef
  have hentries : (files.beforePath e.1).entries.Nodup :=
    List.Nodup.of_map Prod.fst (files.beforePath e.1).nodup
  refine inOrder_eq hbefore ((List.perm_ext_iff_of_nodup hnodup hentries).2 fun f => ?_)
  rw [mem_before_iff h, files.perm_inOrder.mem_iff, beforePath, OrderedMap.filterKeys,
    List.mem_filter, decide_eq_true_iff]

/-! ## Obstructed paths -/

/-- The place of the path is barred in the tree, or another path leads above it. -/
def Obstructed (files : Artifacts) (cwd : Location) (out : Path) (t : FileTree) (path : String) :
    Prop :=
  t.Barred (target cwd out path) ∨
    ∃ q ∈ files.keys, Location.Below (target cwd out q) (target cwd out path)

/-- The files of a project stand in the tree, below directories; all else is as it was. -/
structure Stand (files : Artifacts) (cwd : Location) (out : Path) (t t' : FileTree) : Prop where
  file : ∀ path content, files.get? path = some content →
    t'.node? (target cwd out path) = some (.file content)
  above : ∀ path ∈ files.keys, ∀ l, Location.Below l (target cwd out path) →
    t'.node? l = some .directory
  other : ∀ l, (∀ path ∈ files.keys, target cwd out path ≠ l) → t'.node? l = t.node? l ∨
    (t.node? l = none ∧ t'.node? l = some .directory ∧
      ∃ path ∈ files.keys, Location.Below l (target cwd out path))

theorem mem_keys_of_mem_inOrder (h : e ∈ files.inOrder) : e.1 ∈ files.keys :=
  List.mem_map_of_mem (files.perm_inOrder.mem_iff.1 h)

theorem exists_mem_inOrder {path : String} (h : path ∈ files.keys) :
    ∃ e ∈ files.inOrder, e.1 = path := by
  obtain ⟨e, he, rfl⟩ := List.mem_map.1 h
  exact ⟨e, files.perm_inOrder.mem_iff.2 he, rfl⟩

section Plain

variable (hout : out.Direct) (hplain : ∀ path ∈ files.keys, Path.Plain path)
  (ht : t.Ready (out.start cwd))

include hplain

/-- Paths with nothing in their way lead to places apart. -/
theorem pairwise_apart (hsplit : files.inOrder = before ++ after)
    (hclear : ∀ f ∈ before, ¬ files.Obstructed cwd out t f.1) :
    before.Pairwise fun e f =>
      Location.Apart (target cwd out e.1) (target cwd out f.1) := by
  have hlt := files.pairwise_lt_inOrder
  have hkey : ∀ f ∈ before, f.1 ∈ files.keys := fun f hf =>
    mem_keys_of_mem_inOrder (hsplit ▸ List.mem_append_left after hf)
  rw [hsplit] at hlt
  refine (List.pairwise_append.1 hlt).1.imp_of_mem fun {e f} he hf hef => ?_
  have hlater : ¬ target cwd out f.1 <+: target cwd out e.1 :=
    (hplain e.1 (hkey e he)).not_isPrefix_of_lt (hplain f.1 (hkey f hf)) hef
  refine ⟨fun hpre => ?_, hlater⟩
  obtain heq | hbelow | hnot := Location.eq_or_below_or (target cwd out e.1) (target cwd out f.1)
  · exact hlater (heq ▸ List.prefix_rfl)
  · exact hclear f hf (.inr ⟨e.1, hkey e he, hbelow⟩)
  · exact hnot hpre

include hout ht

theorem writeFiles_before (hsplit : files.inOrder = before ++ after)
    (hclear : ∀ f ∈ before, ¬ files.Obstructed cwd out t f.1) :
    ∃ t', writeFiles cwd out before t = (.ok (), before.map (written ·.1), t') ∧
      t'.Ready (out.start cwd) ∧ ∀ l, (∀ f ∈ before, ¬ l <+: target cwd out f.1) →
        (t'.Barred l ↔ t.Barred l ∨ ∃ f ∈ before, Location.Below (target cwd out f.1) l) := by
  refine writeFiles_of_apart hout ht (fun f hf => ?_) (pairwise_apart hplain hsplit hclear)
    fun f hf hb => hclear f hf (.inl hb)
  exact hplain f.1 (mem_keys_of_mem_inOrder (hsplit ▸ List.mem_append_left after hf))

theorem writeArtifacts_of_clear (hclear : ∀ path ∈ files.keys, ¬ files.Obstructed cwd out t path) :
    ∃ t', writeArtifacts cwd t out files = (.ok (), files.inOrder.map (written ·.1), t') ∧
      t'.Ready (out.start cwd) := by
  obtain ⟨t', hw, hready, -⟩ := writeFiles_before hout hplain ht (List.append_nil _).symm
    fun f hf => hclear f.1 (mem_keys_of_mem_inOrder hf)
  exact ⟨t', hw, hready⟩

/-- The first obstructed path ends the writing, with what was written before it. -/
theorem writeArtifacts_of_obstructed (hsplit : files.inOrder = before ++ e :: after)
    (hob : files.Obstructed cwd out t e.1)
    (hclear : ∀ f ∈ before, ¬ files.Obstructed cwd out t f.1) :
    ∃ err t', writeArtifacts cwd t out files = (.error err, before.map (written ·.1), t') ∧
      writeArtifacts cwd t out (files.beforePath e.1) =
        (.ok (), before.map (written ·.1), t') ∧ t'.Ready (out.start cwd) := by
  obtain ⟨t', hw, hready, hbarred⟩ := writeFiles_before hout hplain ht hsplit hclear
  have hmem : e ∈ files.inOrder := hsplit ▸ List.mem_append_right before List.mem_cons_self
  have hpe := hplain e.1 (mem_keys_of_mem_inOrder hmem)
  have hfree : ∀ f ∈ before, ¬ target cwd out e.1 <+: target cwd out f.1 := by
    intro f hf hpre
    obtain ⟨hmem, hlt⟩ := (mem_before_iff hsplit).1 hf
    exact (hplain f.1 (mem_keys_of_mem_inOrder hmem)).not_isPrefix_of_lt hpe hlt hpre
  have hb : t'.Barred (target cwd out e.1) := by
    refine (hbarred _ hfree).2 (hob.imp_right ?_)
    rintro ⟨q, hq, hbelow⟩
    obtain ⟨f, hf, rfl⟩ := exists_mem_inOrder hq
    have hlt := (hplain f.1 hq).lt_of_below hpe hbelow
    exact ⟨f, (mem_before_iff hsplit).2 ⟨hf, hlt⟩, hbelow⟩
  obtain ⟨err, herr⟩ := writeFiles_of_barred hout hready hw hpe hb after
  refine ⟨err, t', ?_, ?_, hready⟩
  · rw [writeArtifacts, hsplit, herr]
  · rw [writeArtifacts, inOrder_beforePath hsplit, hw]

omit hout ht in
/-- What is written can be read back. -/
theorem read_of_writeArtifacts (h : (writeArtifacts cwd t out files).1 = .ok ())
    (he : e ∈ files.entries) :
    (writeArtifacts cwd t out files).2.2.read cwd (out.join (Path.ofString e.1)) = .ok e.2 := by
  refine (written_of_writeArtifacts h).file e.1 e.2 (files.get?_of_mem he) fun q hq heq => ?_
  have hqe := (hplain q hq).target_injective (hplain e.1 (List.mem_map_of_mem he)) heq
  exact hqe ▸ String.le_refl q

omit ht in
/-- A project that is written stands in the tree it leaves, if that is closed. -/
theorem stand_of_writeArtifacts (h : (writeArtifacts cwd t out files).1 = .ok ())
    (hc : (writeArtifacts cwd t out files).2.2.Closed) :
    files.Stand cwd out t (writeArtifacts cwd t out files).2.2 := by
  have hfile : ∀ e ∈ files.entries, (writeArtifacts cwd t out files).2.2.node?
      (target cwd out e.1) = some (.file e.2) := by
    intro e he
    obtain ⟨l, hl, hn⟩ := FileTree.stat_eq_ok_iff.1
      (FileTree.read_eq_ok_iff.1 (read_of_writeArtifacts hplain h he))
    obtain rfl := FileTree.locate_eq_goal hl
    exact hn
  refine ⟨fun path content hget => ?_, fun path hp l hl => ?_, fun l hl => ?_⟩
  · exact hfile (path, content) (OrderedMap.mem_entries_of_get? hget)
  · obtain ⟨e, he, rfl⟩ := List.mem_map.1 hp
    exact hc l _ _ hl (hfile e he)
  · refine ((written_of_writeArtifacts h).other l hl).imp_right ?_
    rintro ⟨hnone, hmade, path, hp, hway⟩
    have hd := (hplain path hp).direct_join hout
    have hbelow : Location.Below ((out.join (Path.ofString path)).parent.goal cwd)
        (target cwd out path) := hd.below_goal_parent (hplain path hp).parts_join_ne_nil
    exact ⟨hnone, hmade, path, hp, hbelow.of_isPrefix (hd.parent.prefix_of_mem_way hway)⟩

omit hout ht in
/-- Writing a project again changes nothing. -/
theorem writeArtifacts_again (h : (writeArtifacts cwd t out files).1 = .ok ()) :
    writeArtifacts cwd (writeArtifacts cwd t out files).2.2 out files =
      (.ok (), files.inOrder.map (written ·.1), (writeArtifacts cwd t out files).2.2) :=
  writeFiles_of_read (fun _ he => hplain _ (mem_keys_of_mem_inOrder he)) fun _ he =>
    read_of_writeArtifacts hplain h (files.perm_inOrder.mem_iff.1 he)

theorem effect_of_clear (hclear : ∀ path ∈ files.keys, ¬ files.Obstructed cwd out t path) :
    (writeArtifacts cwd t out files).1 = .ok () ∧
      files.Stand cwd out t (writeArtifacts cwd t out files).2.2 ∧
      writeArtifacts cwd (writeArtifacts cwd t out files).2.2 out files =
        writeArtifacts cwd t out files := by
  obtain ⟨t', hw, hready⟩ := writeArtifacts_of_clear hout hplain ht hclear
  have hok : (writeArtifacts cwd t out files).1 = .ok () := by rw [hw]
  have hstand := stand_of_writeArtifacts hout hplain hok
  have hagain := writeArtifacts_again hplain hok
  rw [hw] at hstand hagain ⊢
  exact ⟨rfl, hstand hready.closed, hagain⟩

theorem effect_of_obstructed {path : String} (hp : path ∈ files.keys)
    (hob : files.Obstructed cwd out t path) :
    (writeArtifacts cwd t out files).1 ≠ .ok () ∧ ∃ first ∈ files.keys,
      files.Obstructed cwd out t first ∧
      (∀ q ∈ files.keys, q < first → ¬ files.Obstructed cwd out t q) ∧
      writeArtifacts cwd t out (files.beforePath first) =
        (.ok (), (writeArtifacts cwd t out files).2) ∧
      (files.beforePath first).Stand cwd out t (writeArtifacts cwd t out files).2.2 := by
  obtain ⟨f, hf, rfl⟩ := exists_mem_inOrder hp
  obtain ⟨before, e, after, hsplit, hfirst, hbefore⟩ : ∃ before e after,
      files.inOrder = before ++ e :: after ∧ files.Obstructed cwd out t e.1 ∧
        ∀ f ∈ before, ¬ files.Obstructed cwd out t f.1 := exists_first ⟨f, hf, hob⟩
  obtain ⟨err, t', hw, hwbefore, hready⟩ :=
    writeArtifacts_of_obstructed hout hplain ht hsplit hfirst hbefore
  have hmem : e ∈ files.inOrder := hsplit ▸ List.mem_append_right before List.mem_cons_self
  have hkeys : ∀ q ∈ (files.beforePath e.1).keys, Path.Plain q := by
    intro q hq
    rw [beforePath, OrderedMap.keys_filterKeys] at hq
    exact hplain q (List.mem_filter.1 hq).1
  have hok : (writeArtifacts cwd t out (files.beforePath e.1)).1 = .ok () := by rw [hwbefore]
  have hstand := stand_of_writeArtifacts hout hkeys hok
  rw [hwbefore] at hstand
  rw [hw]
  refine ⟨nofun, e.1, mem_keys_of_mem_inOrder hmem, hfirst, fun q hq hlt => ?_, hwbefore,
    hstand hready.closed⟩
  obtain ⟨f, hf, rfl⟩ := exists_mem_inOrder hq
  exact hbefore f ((mem_before_iff hsplit).2 ⟨hf, hlt⟩)

end Plain

end Artifacts

/-- Writing a project of plain paths below a directory succeeds exactly if no path is obstructed;
then all files stand in the tree, and writing them again changes nothing. Otherwise just the paths
before the first obstructed one are written. The order of the entries is of no account. -/
theorem writeArtifacts_effect (hout : out.Direct) (hplain : ∀ path ∈ files.keys, Path.Plain path)
    (ht : t.Ready (out.start cwd)) :
    ((writeArtifacts cwd t out files).1 = .ok () ↔
      ∀ path ∈ files.keys, ¬ files.Obstructed cwd out t path) ∧
    ((writeArtifacts cwd t out files).1 = .ok () →
      files.Stand cwd out t (writeArtifacts cwd t out files).2.2 ∧
      writeArtifacts cwd (writeArtifacts cwd t out files).2.2 out files =
        writeArtifacts cwd t out files) ∧
    (∀ err, (writeArtifacts cwd t out files).1 = .error err → ∃ path ∈ files.keys,
      files.Obstructed cwd out t path ∧
      (∀ q ∈ files.keys, q < path → ¬ files.Obstructed cwd out t q) ∧
      writeArtifacts cwd t out (files.beforePath path) =
        (.ok (), (writeArtifacts cwd t out files).2) ∧
      (files.beforePath path).Stand cwd out t (writeArtifacts cwd t out files).2.2) ∧
    (files.keys = [] → (writeArtifacts cwd t out files).2.2 = t) ∧
    ∀ files' : Artifacts, files.entries.Perm files'.entries →
      writeArtifacts cwd t out files' = writeArtifacts cwd t out files := by
  have hok_iff : (writeArtifacts cwd t out files).1 = .ok () ↔
      ∀ path ∈ files.keys, ¬ files.Obstructed cwd out t path := by
    refine ⟨fun hok path hp hob => ?_, fun h => (Artifacts.effect_of_clear hout hplain ht h).1⟩
    exact (Artifacts.effect_of_obstructed hout hplain ht hp hob).1 hok
  refine ⟨hok_iff, fun hok => ?_, fun err herr => ?_, fun hkeys => ?_, fun files' hperm => ?_⟩
  · exact (Artifacts.effect_of_clear hout hplain ht (hok_iff.1 hok)).2
  · have hex : ∃ path ∈ files.keys, files.Obstructed cwd out t path := by
      by_contra hnone
      have hclear : ∀ path ∈ files.keys, ¬ files.Obstructed cwd out t path :=
        fun path hp hob => hnone ⟨path, hp, hob⟩
      rw [hok_iff.2 hclear] at herr
      cases herr
    obtain ⟨path, hp, hob⟩ := hex
    exact (Artifacts.effect_of_obstructed hout hplain ht hp hob).2
  · have hnil : files.inOrder = [] := Artifacts.inOrder_eq .nil (List.map_eq_nil_iff.1 hkeys ▸ .nil)
    rw [writeArtifacts, hnil]
    rfl
  · rw [writeArtifacts, writeArtifacts, Artifacts.inOrder_of_perm hperm]

/-- A file and one below it. -/
def nestedFiles : Artifacts := OrderedMap.ofList [("a/b", "2".toUTF8), ("a", "1".toUTF8)]

theorem inOrder_nestedFiles :
    nestedFiles.inOrder = [("a", "1".toUTF8), ("a/b", "2".toUTF8)] :=
  Artifacts.inOrder_eq (by decide) (.swap _ _ _)

/-- The upper file is written, and the lower one is not. -/
theorem writeArtifacts_effect_nestedFiles :
    (∀ path ∈ nestedFiles.keys, Path.Plain path) ∧ FileTree.empty.Ready [] ∧
      (writeArtifacts [] .empty ⟨"", ["out"]⟩ nestedFiles).1 = .error .exists ∧
      (nestedFiles.beforePath "a/b").Stand [] ⟨"", ["out"]⟩ .empty
        (writeArtifacts [] .empty ⟨"", ["out"]⟩ nestedFiles).2.2 := by
  have hkeys : nestedFiles.keys = ["a/b", "a"] := by decide
  have hplain : ∀ path ∈ nestedFiles.keys, Path.Plain path := by
    rw [hkeys]
    intro path hp
    obtain rfl | hp := List.mem_cons.1 hp
    · exact ⟨["a", "b"], by decide, by decide, by decide⟩
    · rw [List.mem_singleton.1 hp]
      exact ⟨["a"], by decide, by decide, by decide⟩
  have hready : FileTree.empty.Ready [] := ⟨FileTree.closed_empty, rfl⟩
  have hout : Path.Direct ⟨"", ["out"]⟩ := by
    unfold Path.Direct
    decide
  have hfails : (writeArtifacts [] .empty ⟨"", ["out"]⟩ nestedFiles).1 = .error .exists := by
    rw [writeArtifacts, inOrder_nestedFiles]
    decide +kernel
  obtain ⟨-, -, hfail, -⟩ := writeArtifacts_effect hout hplain hready
  obtain ⟨path, hp, -, -, hbefore, hstand⟩ := hfail _ hfails
  rw [hkeys] at hp
  obtain rfl | hp := List.mem_cons.1 hp
  · exact ⟨hplain, hready, hfails, hstand⟩
  · -- Nothing is written before the upper file.
    obtain rfl := List.mem_singleton.1 hp
    have hnone : (nestedFiles.beforePath "a").inOrder = [] :=
      Artifacts.inOrder_eq .nil (by decide)
    rw [writeArtifacts, hnone, writeArtifacts, inOrder_nestedFiles] at hbefore
    exact absurd (congrArg (·.2.1) hbefore) (by decide +kernel)

end RouteCompiler
