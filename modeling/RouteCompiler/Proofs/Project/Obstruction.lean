import RouteCompiler.Proofs.Files.Closed
import RouteCompiler.Proofs.Project.Paths

/-!
When a project of plain paths can be written. Only a file above a target, be it one of the project
itself, or a directory in its place is in the way. Above sorts before below, so that the first path
in order with something in its way ends the writing, with the paths before it written and nothing
else done.
-/

namespace RouteCompiler

variable {cwd s g l : Location} {t t' t₁ : FileTree} {p out : Path} {content : ByteArray}

/-! ## One file -/

namespace FileTree

/-- A directory stands at the location, or a file above it. -/
def Barred (t : FileTree) (l : Location) : Prop :=
  t.node? l = some .directory ∨
    ∃ a content, Location.Below a l ∧ t.node? a = some (.file content)

/-- The second tree is the first with a file placed in it and directories above the file. -/
structure Places (t t' : FileTree) (g : Location) (content : ByteArray) : Prop where
  file : t'.node? g = some (.file content)
  above : ∀ l, Location.Below l g → t'.node? l = some .directory
  other : ∀ l, ¬ l <+: g → t'.node? l = t.node? l

theorem Places.keepsDirectories (h : t.Places t' g content) (hb : ¬ t.Barred g) :
    t.KeepsDirectories t' := by
  intro l hl
  obtain rfl | hbelow | hother := Location.eq_or_below_or l g
  · exact absurd (.inl hl) hb
  · exact h.above l hbelow
  · rw [h.other l hother, hl]

theorem Places.ready (h : t.Places t' g content) (ht : t.Ready s) (hb : ¬ t.Barred g) :
    t'.Ready s := by
  refine ⟨fun l l' n hl hn => ?_, h.keepsDirectories hb s ht.start⟩
  by_cases hg : l' <+: g
  · exact h.above l (hl.trans_isPrefix hg)
  · rw [h.other l' hg] at hn
    exact h.keepsDirectories hb l (ht.closed l l' n hl hn)

/-- A file that is placed is in the way of what is below it, and of nothing else. -/
theorem Places.barred_iff (h : t.Places t' g content) (hb : ¬ t.Barred g) (hl : ¬ l <+: g) :
    t'.Barred l ↔ t.Barred l ∨ Location.Below g l := by
  rw [Barred, Barred, h.other l hl]
  constructor
  · rintro (hdir | ⟨a, b, ha, hab⟩)
    · exact .inl (.inl hdir)
    · obtain rfl | hbelow | hother := Location.eq_or_below_or a g
      · exact .inr ha
      · rw [h.above a hbelow] at hab
        cases hab
      · exact .inl (.inr ⟨a, b, ha, h.other a hother ▸ hab⟩)
  · rintro ((hdir | ⟨a, b, ha, hab⟩) | hgl)
    · exact .inl hdir
    · obtain rfl | hbelow | hother := Location.eq_or_below_or a g
      · exact .inr ⟨a, content, ha, h.file⟩
      · exact absurd (.inr ⟨a, b, hbelow, hab⟩) hb
      · exact .inr ⟨a, b, ha, (h.other a hother).trans hab⟩
    · exact .inr ⟨g, content, hgl, h.file⟩

end FileTree

/-- What is above a goal is above or in the place of its parent. -/
theorem Path.Direct.prefix_goal_parent (hd : p.Direct) (hp : p.parts ≠ [])
    (hl : Location.Below l (p.goal cwd)) : l <+: p.parent.goal cwd := by
  have hparent : p.parent.goal cwd = (p.goal cwd).dropLast := by
    rw [hd.goal_parent, hd.goal_eq, List.dropLast_append_of_ne_nil hp]
  rw [hparent]
  exact prefix_dropLast hl.isPrefix hl.ne

theorem Path.Direct.below_goal_parent (hd : p.Direct) (hp : p.parts ≠ []) :
    Location.Below (p.parent.goal cwd) (p.goal cwd) := by
  refine ⟨[p.parts.getLast hp], nofun, ?_⟩
  rw [hd.goal_parent, hd.goal_eq, List.append_assoc, List.dropLast_append_getLast hp]

theorem writeFile_of_not_barred (ht : t.Ready (p.start cwd)) (hd : p.Direct)
    (hb : ¬ t.Barred (p.goal cwd)) (content : ByteArray) :
    ∃ t', writeFile cwd t p content = (.ok (), t') ∧ t.Places t' (p.goal cwd) content := by
  have hparts : p.parts ≠ [] := by
    intro hp
    refine hb (.inl ?_)
    rw [hd.goal_eq, hp, List.append_nil, ht.start]
  have hbelow : Location.Below (p.parent.goal cwd) (p.goal cwd) := hd.below_goal_parent hparts
  have hclear : ¬ t.Blocked (p.parent.goal cwd) := by
    rintro ⟨a, b, ha, hfile⟩
    exact hb (.inr ⟨a, b, hbelow.of_isPrefix ha, hfile⟩)
  have hlen : p.parent.parts.length ≤ p.parts.length := (List.dropLast_prefix _).length_le
  have hready : t.Ready (p.parent.start cwd) := ht
  obtain ⟨t₁, hmade, hstat, habove, hother⟩ :=
    FileTree.exists_makeDirectories hready hd.parent hlen hclear
  have hnode : t₁.node? (p.goal cwd) ≠ some .directory := by
    rw [hother _ hbelow.not_isPrefix]
    exact fun h => hb (.inl h)
  have hroot := FileTree.ne_root_of_node? hnode
  have hw : t₁.write cwd p content = .ok (t₁.set (p.goal cwd) (.file content)) :=
    FileTree.write_eq_ok_iff.2 ⟨_, FileTree.locate_of_stat_parent hstat, hnode, rfl⟩
  refine ⟨t₁.set (p.goal cwd) (.file content), ?_, ?_, fun l hl => ?_, fun l hl => ?_⟩
  · rw [writeFile, hmade]
    simp only [hw]
  · exact FileTree.node?_set_self hroot
  · rw [FileTree.node?_set_of_ne hroot hl.ne]
    exact habove l (hd.prefix_goal_parent hparts hl)
  · have hne : l ≠ p.goal cwd := fun h => hl (h ▸ List.prefix_rfl)
    rw [FileTree.node?_set_of_ne hroot hne]
    exact hother l fun h => hl (h.trans hbelow.isPrefix)

theorem writeFile_of_barred (ht : t.Ready (p.start cwd)) (hd : p.Direct)
    (hb : t.Barred (p.goal cwd)) (content : ByteArray) :
    ∃ e, writeFile cwd t p content = (.error e, t) := by
  have hready : t.Ready (p.parent.start cwd) := ht
  obtain hdir | ⟨a, b, ha, hfile⟩ := hb
  · have hparent : t.node? (p.parent.goal cwd) = some .directory := by
      by_cases heq : p.parent.goal cwd = p.goal cwd
      · rw [heq, hdir]
      · exact ht.closed _ _ _ (Location.below_iff.2 ⟨hd.goal_parent_isPrefix, heq⟩) hdir
    have hstat : t.stat cwd p.parent = .ok .directory := hready.stat hd.parent hparent
    refine ⟨.isDirectory, ?_⟩
    rw [writeFile, FileTree.makeDirectories_of_stat hstat]
    simp only [FileTree.write, ht.locate hd hdir, bind, Except.bind, hdir]
  · have hparts : p.parts ≠ [] := by
      intro hp
      rw [hd.goal_eq, hp, List.append_nil] at ha
      exact ht.not_blocked ⟨a, b, ha.isPrefix, hfile⟩
    have hblocked : t.Blocked (p.parent.goal cwd) :=
      ⟨a, b, hd.prefix_goal_parent hparts ha, hfile⟩
    obtain ⟨e, he⟩ := FileTree.makeDirectories_of_blocked hready hd.parent hblocked p.parts.length
    exact ⟨e, by rw [writeFile, he]⟩

/-- Writing a file that is there already changes nothing. -/
theorem writeFile_of_read (hp : p.parts ≠ []) (h : t.read cwd p = .ok content) :
    writeFile cwd t p content = (.ok (), t) := by
  obtain ⟨l, hl, hn⟩ := FileTree.stat_eq_ok_iff.1 (FileTree.read_eq_ok_iff.1 h)
  have hne : t.node? l ≠ some .directory := by
    rw [hn]
    nofun
  have hw : t.write cwd p content = .ok t := by
    refine FileTree.write_eq_ok_iff.2 ⟨l, hl, hne, ?_⟩
    exact (FileTree.set_of_node? (FileTree.ne_root_of_node? hne) hn).symm
  rw [writeFile, FileTree.makeDirectories_of_stat (FileTree.stat_parent_of_locate hp hl)]
  simp only [hw]

/-! ## Plain paths -/

namespace Path

variable {path q : String}

theorem Plain.exists_join (h : Plain path) (out : Path) : ∃ names, names ≠ [] ∧ ".." ∉ names ∧
    out.join (ofString path) = ⟨out.root, out.parts ++ names⟩ := by
  obtain ⟨names, hn, hnames, rfl⟩ := h
  refine ⟨names, hn, fun hup => (hnames _ hup).2.2.1 rfl, ?_⟩
  rw [ofString_intercalate hn hnames]
  rfl

theorem Plain.ready_join (h : Plain path) (ht : t.Ready (out.start cwd)) :
    t.Ready ((out.join (ofString path)).start cwd) := by
  obtain ⟨names, -, -, hjoin⟩ := h.exists_join out
  rw [hjoin]
  exact ht

theorem Plain.direct_join (h : Plain path) (hout : out.Direct) :
    (out.join (ofString path)).Direct := by
  obtain ⟨names, -, hup, hjoin⟩ := h.exists_join out
  rw [hjoin]
  exact fun hm => (List.mem_append.1 hm).elim hout hup

theorem Plain.parts_join_ne_nil (h : Plain path) : (out.join (ofString path)).parts ≠ [] := by
  obtain ⟨names, hn, -, hjoin⟩ := h.exists_join out
  rw [hjoin]
  exact List.append_ne_nil_of_right_ne_nil _ hn

theorem prefix_intercalate (sep : String) (xs ys : List String) :
    (sep.intercalate xs).toList <+: (sep.intercalate (xs ++ ys)).toList := by
  by_cases hxs : xs = []
  · rw [hxs, String.intercalate_nil]
    exact List.nil_prefix
  by_cases hys : ys = []
  · rw [hys, List.append_nil]
  · rw [String.intercalate_append_of_ne_nil hxs hys, String.append_assoc, String.toList_append]
    exact List.prefix_append _ _

/-- What is above sorts before. -/
theorem Plain.lt_of_below (hq : Plain q) (hp : Plain path)
    (h : Location.Below (target cwd out q) (target cwd out path)) : q < path := by
  have hne : q ≠ path := fun heq => h.ne (heq ▸ rfl)
  obtain ⟨qs, rfl, hqs⟩ := hq.exists_target
  obtain ⟨ps, rfl, hps⟩ := hp.exists_target
  have hpre := h.isPrefix
  rw [hqs, hps] at hpre
  obtain ⟨xs, rfl⟩ := (List.prefix_append_right_inj _).1 hpre
  have hle : "/".intercalate qs ≤ "/".intercalate (qs ++ xs) := (prefix_intercalate "/" qs xs).le
  exact String.not_le.1 fun hge => hne (String.le_antisymm hle hge)

theorem Plain.not_isPrefix_of_lt (hq : Plain q) (hp : Plain path) (hlt : q < path) :
    ¬ target cwd out path <+: target cwd out q := by
  intro hpre
  obtain heq | hbelow | hnot := Location.eq_or_below_or (target cwd out path) (target cwd out q)
  · exact String.lt_irrefl q (hp.target_injective hq heq ▸ hlt)
  · exact String.lt_irrefl q (String.lt_trans hlt (hp.lt_of_below hq hbelow))
  · exact hnot hpre

end Path

/-! ## One file after the other -/

/-- Neither location is the other one or above it. -/
def Location.Apart (l l' : Location) : Prop := ¬ l <+: l' ∧ ¬ l' <+: l

section Files

variable {es : List (String × ByteArray)} {e : String × ByteArray} {log : List LogRecord}

theorem writeFiles_append (h : writeFiles cwd out es t = (.ok (), log, t'))
    (fs : List (String × ByteArray)) : writeFiles cwd out (es ++ fs) t =
      ((writeFiles cwd out fs t').1, log ++ (writeFiles cwd out fs t').2.1,
        (writeFiles cwd out fs t').2.2) := by
  induction es generalizing t log with
  | nil =>
    cases h
    rfl
  | cons e es ih =>
    rw [writeFiles_cons] at h
    rw [List.cons_append, writeFiles_cons]
    cases hw : writeFile cwd t (out.join (Path.ofString e.1)) e.2 with
    | mk r t₁ =>
      rw [hw] at h
      cases r with
      | error => cases h
      | ok u =>
        obtain ⟨hok, hrest⟩ := Prod.mk.inj h
        obtain ⟨rfl, htree⟩ := Prod.mk.inj hrest
        simp only [ih (Prod.ext hok (Prod.ext rfl htree))]
        rfl

/-- Files whose places are apart can be written if none is barred. What they bar is what is below
them. -/
theorem writeFiles_of_apart (hout : out.Direct) (ht : t.Ready (out.start cwd))
    (hplain : ∀ e ∈ es, Path.Plain e.1)
    (hapart : es.Pairwise fun e f => Location.Apart (target cwd out e.1) (target cwd out f.1))
    (hb : ∀ e ∈ es, ¬ t.Barred (target cwd out e.1)) :
    ∃ t', writeFiles cwd out es t = (.ok (), es.map (written ·.1), t') ∧
      t'.Ready (out.start cwd) ∧ ∀ l, (∀ e ∈ es, ¬ l <+: target cwd out e.1) →
        (t'.Barred l ↔ t.Barred l ∨ ∃ e ∈ es, Location.Below (target cwd out e.1) l) := by
  induction es generalizing t with
  | nil => exact ⟨t, rfl, ht, by simp⟩
  | cons e es ih =>
    obtain ⟨hfirst, hapart⟩ := List.pairwise_cons.1 hapart
    have he := hplain e List.mem_cons_self
    have hbe := hb e List.mem_cons_self
    obtain ⟨t₁, hw, hplaces⟩ :=
      writeFile_of_not_barred (he.ready_join ht) (he.direct_join hout) hbe e.2
    rw [← target] at hplaces
    have hb₁ : ∀ f ∈ es, ¬ t₁.Barred (target cwd out f.1) := by
      intro f hf hbarred
      obtain hbarred | hbelow := (hplaces.barred_iff hbe (hfirst f hf).2).1 hbarred
      · exact hb f (List.mem_cons_of_mem e hf) hbarred
      · exact (hfirst f hf).1 hbelow.isPrefix
    obtain ⟨t₂, hrest, hready₂, hbarred₂⟩ := ih (hplaces.ready ht hbe)
      (fun f hf => hplain f (List.mem_cons_of_mem e hf)) hapart hb₁
    refine ⟨t₂, ?_, hready₂, fun l hl => ?_⟩
    · rw [writeFiles_cons, hw]
      simp only [hrest, List.map_cons]
    · rw [hbarred₂ l fun f hf => hl f (List.mem_cons_of_mem e hf),
        hplaces.barred_iff hbe (hl e List.mem_cons_self), or_assoc]
      simp only [List.mem_cons, exists_eq_or_imp]

/-- A file that is barred ends the writing. -/
theorem writeFiles_of_barred (hout : out.Direct) (ht : t'.Ready (out.start cwd))
    (h : writeFiles cwd out es t = (.ok (), log, t')) (he : Path.Plain e.1)
    (hb : t'.Barred (target cwd out e.1)) (fs : List (String × ByteArray)) :
    ∃ err, writeFiles cwd out (es ++ e :: fs) t = (.error err, log, t') := by
  obtain ⟨err, hw⟩ := writeFile_of_barred (he.ready_join ht) (he.direct_join hout) hb e.2
  refine ⟨err, ?_⟩
  rw [writeFiles_append h, writeFiles_cons, hw]
  simp only [List.append_nil]

/-- Files that are there already are written without a change. -/
theorem writeFiles_of_read (hplain : ∀ e ∈ es, Path.Plain e.1)
    (h : ∀ e ∈ es, t.read cwd (out.join (Path.ofString e.1)) = .ok e.2) :
    writeFiles cwd out es t = (.ok (), es.map (written ·.1), t) := by
  induction es with
  | nil => rfl
  | cons e es ih =>
    have hw := writeFile_of_read (hplain e List.mem_cons_self).parts_join_ne_nil
      (h e List.mem_cons_self)
    have hrest := ih (fun f hf => hplain f (List.mem_cons_of_mem e hf))
      fun f hf => h f (List.mem_cons_of_mem e hf)
    rw [writeFiles_cons, hw]
    simp only [hrest, List.map_cons]

end Files

end RouteCompiler
