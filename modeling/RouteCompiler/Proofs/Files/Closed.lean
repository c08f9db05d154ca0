import RouteCompiler.Proofs.Files.Growth
import RouteCompiler.Proofs.OrderedMap

/-!
Making directories in trees in which everything stands in directories, along paths without steps up.
A file on the way there, or in the place of the directory, is all that can prevent it, and then
nothing is made.
-/

namespace RouteCompiler

/-! ## Paths without steps up -/

theorem prefix_dropLast {α : Type} {xs ys : List α} (h : xs <+: ys) (hne : xs ≠ ys) :
    xs <+: ys.dropLast := by
  obtain ⟨zs, rfl⟩ := h
  have hzs : zs ≠ [] := by
    rintro rfl
    exact hne (List.append_nil xs).symm
  rw [List.dropLast_append_of_ne_nil hzs]
  exact List.prefix_append xs _

/-- No segment leads up, so that the path goes through nothing but what is above its goal. -/
def Path.Direct (p : Path) : Prop := ".." ∉ p.parts

namespace Path

variable {cwd : Location} {p : Path} {l : Location}

theorem Direct.of_isPrefix {xs : List String} (h : p.Direct) (hxs : xs <+: p.parts) : ".." ∉ xs :=
  fun hm => h (hxs.subset hm)

theorem Direct.parent (h : p.Direct) : p.parent.Direct :=
  h.of_isPrefix (List.dropLast_prefix p.parts)

theorem Direct.goal_eq (h : p.Direct) : p.goal cwd = p.start cwd ++ p.parts :=
  Location.followAll_direct h _

theorem Direct.goal_parent (h : p.Direct) : p.parent.goal cwd = p.start cwd ++ p.parts.dropLast :=
  h.parent.goal_eq

theorem Direct.goal_parent_isPrefix (h : p.Direct) : p.parent.goal cwd <+: p.goal cwd := by
  rw [h.goal_eq, h.goal_parent]
  exact (List.prefix_append_right_inj _).2 (List.dropLast_prefix _)

/-- What is on the way is the goal or above it. -/
theorem Direct.prefix_of_mem_way (h : p.Direct) (hl : l ∈ p.way cwd) : l <+: p.goal cwd := by
  obtain ⟨xs, hxs, rfl⟩ := mem_way_iff.1 hl
  rw [Location.followAll_direct (h.of_isPrefix hxs), h.goal_eq]
  exact (List.prefix_append_right_inj _).2 hxs

end Path

/-! ## Closed trees -/

namespace FileTree

variable {t t' : FileTree} {cwd s l l' : Location} {p : Path} {e : FileError}

/-- Whatever is in the tree stands in directories. -/
def Closed (t : FileTree) : Prop :=
  ∀ l l' n, Location.Below l l' → t.node? l' = some n → t.node? l = some .directory

theorem closed_empty : empty.Closed := by
  intro l l' n h hn
  obtain ⟨xs, hxs, rfl⟩ := h
  have hne : l ++ xs ≠ [] := fun h => hxs (List.append_eq_nil_iff.1 h).2
  rw [node?, if_neg hne] at hn
  cases hn

/-- A closed tree with a directory to start from. -/
structure Ready (t : FileTree) (s : Location) : Prop where
  closed : t.Closed
  start : t.node? s = some .directory

/-- A file stands at the location or above it. -/
def Blocked (t : FileTree) (l : Location) : Prop :=
  ∃ a content, a <+: l ∧ t.node? a = some (.file content)

theorem Blocked.mono (h : t.Blocked l) (hl : l <+: l') : t.Blocked l' := by
  obtain ⟨a, content, ha, hfile⟩ := h
  exact ⟨a, content, ha.trans hl, hfile⟩

theorem GrowsAlong.blocked (h : t.GrowsAlong t' cwd p) (hb : t'.Blocked l) : t.Blocked l := by
  obtain ⟨a, content, ha, hfile⟩ := hb
  obtain hkept | ⟨-, -, hmade⟩ := h a
  · exact ⟨a, content, ha, hkept ▸ hfile⟩
  · rw [hmade] at hfile
    cases hfile

theorem Ready.above (h : t.Ready s) (hl : l <+: s) : t.node? l = some .directory := by
  by_cases hs : l = s
  · rw [hs, h.start]
  · exact h.closed l s _ (Location.below_iff.2 ⟨hl, hs⟩) h.start

theorem Ready.not_blocked (h : t.Ready s) : ¬ t.Blocked s := by
  rintro ⟨a, content, ha, hfile⟩
  rw [h.above ha] at hfile
  cases hfile

/-- A file that is in the way of what is below the start stands below the start itself. -/
theorem Ready.exists_of_blocked (h : t.Ready s) {xs : List String} (hb : t.Blocked (s ++ xs)) :
    ∃ ys content, ys <+: xs ∧ t.node? (s ++ ys) = some (.file content) := by
  obtain ⟨a, content, ha, hfile⟩ := hb
  obtain has | ⟨ys, rfl⟩ := List.prefix_or_prefix_of_prefix ha (List.prefix_append s xs)
  · exact absurd ⟨a, content, has, hfile⟩ h.not_blocked
  · exact ⟨ys, content, (List.prefix_append_right_inj _).1 ha, hfile⟩

/-! ## Locating -/

/-- If it is no file that ends the walk, something is missing. -/
theorem foldlM_step_error {xs : List String} (hx : ".." ∉ xs) (h : xs.foldlM t.step l = .error e) :
    e = .notFound ∨ t.Blocked (l ++ xs) := by
  induction xs generalizing l with
  | nil => cases h
  | cons s xs ih =>
    rw [List.mem_cons, not_or] at hx
    rw [List.foldlM_cons, step] at h
    split at h
    · cases h
      exact .inl rfl
    next content hfile =>
      exact .inr ⟨l, content, List.prefix_append _ _, hfile⟩
    · rw [if_neg (Ne.symm hx.1)] at h
      have hrest := ih hx.2 h
      rwa [List.append_assoc] at hrest

theorem locate_error (hd : p.Direct) (hb : ¬ t.Blocked (p.goal cwd))
    (h : t.locate cwd p = .error e) : e = .notFound := by
  rw [hd.goal_eq] at hb
  exact (foldlM_step_error hd h).resolve_right hb

/-- What stands in a directory can be reached. -/
theorem locate_of_stat_parent (h : t.stat cwd p.parent = .ok .directory) :
    t.locate cwd p = .ok (p.goal cwd) := by
  obtain ⟨l, hl, hnode⟩ := stat_eq_ok_iff.1 h
  obtain ⟨rfl, hway⟩ := locate_eq_ok_iff.1 hl
  refine locate_eq_ok_iff.2 ⟨rfl, fun xs hxs hne => ?_⟩
  by_cases hlast : xs = p.parts.dropLast
  · rw [hlast]
    exact hnode
  · exact hway xs (prefix_dropLast hxs hne) hlast

theorem stat_parent_of_locate (hp : p.parts ≠ []) (h : t.locate cwd p = .ok l) :
    t.stat cwd p.parent = .ok .directory := by
  obtain ⟨-, hway⟩ := locate_eq_ok_iff.1 h
  have hshort : ∀ xs, xs <+: p.parts.dropLast → xs ≠ p.parts := by
    rintro xs hxs rfl
    have hlen := hxs.length_le
    have hpos := List.length_pos_iff.2 hp
    rw [List.length_dropLast] at hlen
    omega
  have hl : t.locate cwd p.parent = .ok (p.parent.goal cwd) := by
    refine locate_eq_ok_iff.2 ⟨rfl, fun xs hxs _ => ?_⟩
    exact hway xs (hxs.trans (List.dropLast_prefix _)) (hshort xs hxs)
  refine stat_eq_ok_iff.2 ⟨_, hl, ?_⟩
  exact hway _ (List.dropLast_prefix _) (hshort _ List.prefix_rfl)

/-- Everything above a directory that was reached is a directory. -/
theorem node?_of_stat (hd : p.Direct) (hs : ∀ a, a <+: p.start cwd → t.node? a = some .directory)
    (h : t.stat cwd p = .ok .directory) (hl : l <+: p.goal cwd) :
    t.node? l = some .directory := by
  obtain ⟨g, hg, hnode⟩ := stat_eq_ok_iff.1 h
  obtain ⟨rfl, hway⟩ := locate_eq_ok_iff.1 hg
  rw [hd.goal_eq] at hl hnode
  obtain hstart | ⟨xs, rfl⟩ := List.prefix_or_prefix_of_prefix hl (List.prefix_append _ _)
  · exact hs l hstart
  · have hxs := (List.prefix_append_right_inj _).1 hl
    by_cases hall : xs = p.parts
    · rw [hall, hnode]
    · have hdir := hway xs hxs hall
      rwa [Location.followAll_direct (hd.of_isPrefix hxs)] at hdir

/-- In a closed tree everything that is there can be reached. -/
theorem Ready.reach (h : t.Ready s) {xs : List String} (hx : ".." ∉ xs) {n : FileNode}
    (hn : t.node? (s ++ xs) = some n) : xs.foldlM t.step s = .ok (s ++ xs) := by
  refine foldlM_step_eq_ok_iff.2 ⟨Location.followAll_direct hx s, fun ys hys hne => ?_⟩
  rw [Location.followAll_direct fun hm => hx (hys.subset hm)]
  refine h.closed _ _ n (Location.below_iff.2 ⟨(List.prefix_append_right_inj s).2 hys, ?_⟩) hn
  exact fun heq => hne (List.append_cancel_left heq)

theorem Ready.locate (h : t.Ready (p.start cwd)) (hd : p.Direct) {n : FileNode}
    (hn : t.node? (p.goal cwd) = some n) : t.locate cwd p = .ok (p.goal cwd) := by
  rw [hd.goal_eq] at hn ⊢
  exact h.reach hd hn

theorem Ready.stat (h : t.Ready (p.start cwd)) (hd : p.Direct) {n : FileNode}
    (hn : t.node? (p.goal cwd) = some n) : t.stat cwd p = .ok n :=
  stat_eq_ok_iff.2 ⟨_, h.locate hd hn, hn⟩

/-! ## Making directories -/

theorem set_of_node? (h : l ≠ []) {n : FileNode} (hn : t.node? l = some n) : t.set l n = t := by
  rw [node?, if_neg h] at hn
  exact congrArg FileTree.mk (OrderedMap.insert_of_get? hn)

theorem makeDirectory_of_stat {n : FileNode} (h : t.stat cwd p = .ok n) :
    t.makeDirectory cwd p = .error .exists := by
  obtain ⟨l, hl, hn⟩ := stat_eq_ok_iff.1 h
  rw [makeDirectory, hl]
  simp only [bind, Except.bind, hn]

/-- Without a file in the way, a directory cannot be made only if one above it is missing or it is
there already. -/
theorem makeDirectory_error (hd : p.Direct) (hb : ¬ t.Blocked (p.goal cwd))
    (h : t.makeDirectory cwd p = .error e) :
    (e = .notFound ∧ t.locate cwd p = .error .notFound) ∨ t.isDirectory cwd p = true := by
  rw [makeDirectory] at h
  cases hl : t.locate cwd p with
  | error e' =>
    rw [hl] at h
    cases h
    obtain rfl := locate_error hd hb hl
    exact .inl ⟨rfl, rfl⟩
  | ok l =>
    rw [hl] at h
    simp only [bind, Except.bind] at h
    split at h
    next n hn =>
      cases n with
      | directory => exact .inr (isDirectory_iff.2 (stat_eq_ok_iff.2 ⟨l, hl, hn⟩))
      | file content =>
        obtain rfl := locate_eq_goal hl
        exact absurd ⟨_, content, List.prefix_rfl, hn⟩ hb
    next => cases h

theorem makeDirectories_of_error (h : t.makeDirectory cwd p = .error e) (he : e ≠ .notFound)
    (k : Nat) : makeDirectories cwd k t p =
      (if t.isDirectory cwd p then .ok () else .error e, t) := by
  cases k <;> simp only [makeDirectories, h]

/-- A directory that is there is left alone. -/
theorem makeDirectories_of_stat (h : t.stat cwd p = .ok .directory) (k : Nat) :
    makeDirectories cwd k t p = (.ok (), t) := by
  rw [makeDirectories_of_error (makeDirectory_of_stat h) (by decide), if_pos (isDirectory_iff.2 h)]

/-- Without a file in the way, either the directory can be made at once or the one above it is
missing too. -/
theorem makeDirectories_ok_or (hd : p.Direct) (hb : ¬ t.Blocked (p.goal cwd)) :
    (∀ k, (makeDirectories cwd k t p).1 = .ok ()) ∨
      (p.parts ≠ [] ∧ t.makeDirectory cwd p = .error .notFound) := by
  cases hm : t.makeDirectory cwd p with
  | ok t' =>
    refine .inl fun k => ?_
    cases k <;> simp only [makeDirectories, hm]
  | error e =>
    obtain ⟨rfl, hnone⟩ | hthere := makeDirectory_error hd hb hm
    · refine .inr ⟨fun hparts => ?_, rfl⟩
      rw [locate, hparts] at hnone
      cases hnone
    · refine .inl fun k => ?_
      rw [makeDirectories_of_stat (isDirectory_iff.1 hthere)]

theorem makeDirectories_of_not_blocked (hd : p.Direct) {k : Nat} (hk : p.parts.length ≤ k)
    (hb : ¬ t.Blocked (p.goal cwd)) : (makeDirectories cwd k t p).1 = .ok () := by
  induction k generalizing p with
  | zero =>
    obtain hok | ⟨hparts, -⟩ := makeDirectories_ok_or hd hb
    · exact hok 0
    · exact absurd (List.length_eq_zero_iff.1 (Nat.le_zero.1 hk)) hparts
  | succ k ih =>
    obtain hok | ⟨hparts, hm⟩ := makeDirectories_ok_or hd hb
    · exact hok (k + 1)
    have hlen : p.parent.parts.length ≤ k := by
      rw [Path.parent, List.length_dropLast]
      omega
    have hparent := ih hd.parent hlen fun h => hb (h.mono hd.goal_parent_isPrefix)
    obtain ⟨hgrows, hstat⟩ := @growsAlong_makeDirectories cwd k t p.parent
    rw [makeDirectories, hm]
    simp only [if_neg hparts]
    cases hr : makeDirectories cwd k t p.parent with
    | mk r t₁ =>
      rw [hr] at hparent hgrows hstat
      dsimp only at hparent hgrows hstat
      subst hparent
      -- The directory above is there now, so that only the last one can be missing.
      cases hm₁ : t₁.makeDirectory cwd p with
      | ok t₂ => simp only [hm₁]
      | error e =>
        obtain ⟨-, hnone⟩ | hthere := makeDirectory_error hd (fun h => hb (hgrows.blocked h)) hm₁
        · rw [locate_of_stat_parent (hstat rfl)] at hnone
          cases hnone
        · simp only [hm₁, hthere, if_true]

/-- Without a file in the way, the directory and all above it are there afterwards, and nothing else
has changed. -/
theorem exists_makeDirectories (h : t.Ready (p.start cwd)) (hd : p.Direct) {k : Nat}
    (hk : p.parts.length ≤ k) (hb : ¬ t.Blocked (p.goal cwd)) :
    ∃ t', makeDirectories cwd k t p = (.ok (), t') ∧ t'.stat cwd p = .ok .directory ∧
      (∀ l, l <+: p.goal cwd → t'.node? l = some .directory) ∧
      ∀ l, ¬ l <+: p.goal cwd → t'.node? l = t.node? l := by
  have hok := makeDirectories_of_not_blocked hd hk hb
  obtain ⟨hgrows, hstat⟩ := @growsAlong_makeDirectories cwd k t p
  have hstart : ∀ a, a <+: p.start cwd →
      (makeDirectories cwd k t p).2.node? a = some .directory := by
    intro a ha
    obtain hkept | ⟨-, -, hmade⟩ := hgrows a
    · rw [hkept, h.above ha]
    · exact hmade
  refine ⟨_, Prod.ext hok rfl, hstat hok, fun l hl => ?_, fun l hl => ?_⟩
  · exact node?_of_stat hd hstart (hstat hok) hl
  · exact (hgrows l).resolve_right fun hmade => hl (hd.prefix_of_mem_way hmade.1)

/-- A file in the way stops the making before anything is made. -/
theorem makeDirectories_of_blocked (h : t.Ready (p.start cwd)) (hd : p.Direct)
    (hb : t.Blocked (p.goal cwd)) (k : Nat) :
    ∃ e, makeDirectories cwd k t p = (.error e, t) := by
  rw [hd.goal_eq] at hb
  obtain ⟨ys, content, ⟨zs, hzs⟩, hfile⟩ := h.exists_of_blocked hb
  have hreach := h.reach (hd.of_isPrefix ⟨zs, hzs⟩) hfile
  have hl : t.locate cwd p = zs.foldlM t.step (p.start cwd ++ ys) := by
    rw [locate, ← hzs, List.foldlM_append]
    exact congrArg (· >>= zs.foldlM t.step) hreach
  cases zs with
  | nil =>
    have hstat : t.stat cwd p = .ok (.file content) := stat_eq_ok_iff.2 ⟨_, hl, hfile⟩
    refine ⟨.exists, ?_⟩
    rw [makeDirectories_of_error (makeDirectory_of_stat hstat) (by decide), isDirectory, hstat]
    rfl
  | cons z zs =>
    have hlocate : t.locate cwd p = .error .notDirectory := by
      rw [hl, List.foldlM_cons, step, hfile]
      rfl
    have hm : t.makeDirectory cwd p = .error .notDirectory := by
      rw [makeDirectory, hlocate]
      rfl
    refine ⟨.notDirectory, ?_⟩
    rw [makeDirectories_of_error hm (by decide), isDirectory, stat, hlocate]
    rfl

end FileTree
end RouteCompiler
