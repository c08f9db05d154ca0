import RouteCompiler.Files.Tree
import Mathlib.Data.List.Infix

/-!
Where paths lead. A tree has no links, so a path that can be followed leads to the location its
segments spell, whatever else stands in the tree. A path that never has more steps up than down
stays at or below the location it starts from.
-/

namespace RouteCompiler

/-- One segment on from a location, whatever stands there. -/
def Location.follow (l : Location) (segment : String) : Location :=
  if segment = ".." then l.dropLast else l ++ [segment]

/-- The location some segments lead to. -/
def Location.followAll (l : Location) (segments : List String) : Location :=
  segments.foldl Location.follow l

namespace Path

variable (cwd : Location) (p : Path)

/-- Where a path starts. -/
def start : Location := if p.isAbsolute then [] else cwd

/-- The location a path spells. -/
def goal : Location := Location.followAll (p.start cwd) p.parts

/-- The locations a path leads through, its start and its goal included. -/
def way : List Location := p.parts.inits.map (Location.followAll (p.start cwd))

end Path

/-! ## Following segments -/

namespace Location

theorem followAll_append (l : Location) (xs ys : List String) :
    followAll l (xs ++ ys) = followAll (followAll l xs) ys := List.foldl_append

/-- Without steps up, segments lead just below. -/
theorem followAll_direct {xs : List String} (h : ".." ∉ xs) (l : Location) :
    followAll l xs = l ++ xs := by
  induction xs generalizing l with
  | nil => exact (List.append_nil l).symm
  | cons s xs ih =>
    rw [List.mem_cons, not_or] at h
    have hs : follow l s = l ++ [s] := if_neg (Ne.symm h.1)
    calc followAll l (s :: xs) = followAll (l ++ [s]) xs := by rw [← hs]; rfl
      _ = l ++ s :: xs := by
        rw [ih h.2, List.append_assoc]
        rfl

end Location

namespace Path

variable {cwd : Location} {p : Path} {l : Location}

theorem mem_way_iff :
    l ∈ p.way cwd ↔ ∃ xs, xs <+: p.parts ∧ Location.followAll (p.start cwd) xs = l := by
  simp only [way, List.mem_map, List.mem_inits]

theorem goal_mem_way : p.goal cwd ∈ p.way cwd :=
  mem_way_iff.2 ⟨p.parts, List.prefix_rfl, rfl⟩

/-- The way to a path's parent is a part of its way. -/
theorem way_parent_subset (h : l ∈ p.parent.way cwd) : l ∈ p.way cwd := by
  obtain ⟨xs, hxs, rfl⟩ := mem_way_iff.1 h
  exact mem_way_iff.2 ⟨xs, hxs.trans (List.dropLast_prefix _), rfl⟩

theorem join_relative {q : Path} (h : q.isAbsolute = false) :
    p.join q = ⟨p.root, p.parts ++ q.parts⟩ := by
  rw [join, if_neg (by simp [h])]

theorem start_join {q : Path} (h : q.isAbsolute = false) :
    (p.join q).start cwd = p.start cwd := by
  rw [join_relative h]
  rfl

theorem goal_join {q : Path} (h : q.isAbsolute = false) :
    (p.join q).goal cwd = Location.followAll (p.goal cwd) q.parts := by
  rw [goal, start_join h, goal, ← Location.followAll_append, join_relative h]

/-- The way behind a directory goes on from that directory. -/
theorem mem_way_join {q : Path} (h : q.isAbsolute = false) : l ∈ (p.join q).way cwd ↔
    l ∈ p.way cwd ∨ ∃ xs, xs <+: q.parts ∧ Location.followAll (p.goal cwd) xs = l := by
  rw [mem_way_iff, mem_way_iff, start_join h, join_relative h]
  constructor
  · rintro ⟨xs, hxs, rfl⟩
    obtain hxs' | ⟨ys, rfl⟩ := List.prefix_or_prefix_of_prefix hxs (List.prefix_append _ _)
    · exact .inl ⟨xs, hxs', rfl⟩
    · exact .inr ⟨ys, (List.prefix_append_right_inj _).1 hxs,
        (Location.followAll_append _ _ _).symm⟩
  · rintro (⟨xs, hxs, rfl⟩ | ⟨ys, hys, rfl⟩)
    · exact ⟨xs, hxs.trans (List.prefix_append _ _), rfl⟩
    · exact ⟨p.parts ++ ys, (List.prefix_append_right_inj _).2 hys, Location.followAll_append _ _ _⟩

end Path

/-! ## Paths that stay inside -/

/-- How deep segments lead below a start; nothing if they lead above it on the way. -/
def depth? (d : Nat) : List String → Option Nat
  | [] => some d
  | s :: xs => if s = ".." then (if d = 0 then none else depth? (d - 1) xs) else depth? (d + 1) xs

/-- The path leads below its start and never above it on the way. -/
def Path.isInward (p : Path) : Bool := !p.isAbsolute && (depth? 0 p.parts).any (0 < ·)

/-- The second location is below the first. -/
def Location.Below (l l' : Location) : Prop := ∃ xs, xs ≠ [] ∧ l' = l ++ xs

namespace Location

variable {a g l l' : Location}

theorem below_iff : Below l l' ↔ l <+: l' ∧ l ≠ l' := by
  constructor
  · rintro ⟨xs, hxs, rfl⟩
    exact ⟨List.prefix_append l xs, fun h => hxs (List.append_right_eq_self.1 h.symm)⟩
  · rintro ⟨⟨xs, rfl⟩, hne⟩
    refine ⟨xs, ?_, rfl⟩
    rintro rfl
    exact hne (List.append_nil l).symm

theorem eq_or_below_or (l g : Location) : l = g ∨ Below l g ∨ ¬ l <+: g := by
  by_cases hpre : l <+: g
  · by_cases heq : l = g
    · exact .inl heq
    · exact .inr (.inl (below_iff.2 ⟨hpre, heq⟩))
  · exact .inr (.inr hpre)

theorem Below.isPrefix (h : Below l l') : l <+: l' := (below_iff.1 h).1

theorem Below.ne (h : Below l l') : l ≠ l' := (below_iff.1 h).2

theorem Below.not_isPrefix (h : Below l l') : ¬ l' <+: l :=
  fun h' => h.ne (h.isPrefix.eq_of_length_le h'.length_le)

theorem Below.of_isPrefix (h : Below l l') (ha : a <+: l) : Below a l' := by
  refine below_iff.2 ⟨ha.trans h.isPrefix, ?_⟩
  rintro rfl
  exact h.not_isPrefix ha

theorem Below.trans_isPrefix (h : Below l l') (hg : l' <+: g) : Below l g := by
  refine below_iff.2 ⟨h.isPrefix.trans hg, ?_⟩
  rintro rfl
  exact h.not_isPrefix hg

end Location

theorem depth?_append (d : Nat) (xs ys : List String) :
    depth? d (xs ++ ys) = (depth? d xs).bind (depth? · ys) := by
  induction xs generalizing d with
  | nil => rfl
  | cons s xs ih =>
    rw [List.cons_append, depth?, depth?]
    split
    · split
      · rfl
      · exact ih (d - 1)
    · exact ih (d + 1)

theorem Location.followAll_of_depth {xs : List String} (l below : Location) {d : Nat}
    (h : depth? below.length xs = some d) :
    ∃ below', below'.length = d ∧ followAll (l ++ below) xs = l ++ below' := by
  induction xs generalizing below with
  | nil => exact ⟨below, Option.some.inj h, rfl⟩
  | cons s xs ih =>
    rw [depth?] at h
    have hf : followAll (l ++ below) (s :: xs) = followAll (follow (l ++ below) s) xs := rfl
    rw [hf, follow]
    split at h
    next hs =>
      split at h
      · cases h
      next hd =>
        have hne : below ≠ [] := fun hb => hd (List.length_eq_zero_iff.2 hb)
        rw [if_pos hs, List.dropLast_append_of_ne_nil hne]
        exact ih below.dropLast (by rwa [List.length_dropLast])
    next hs =>
      rw [if_neg hs, List.append_assoc]
      exact ih (below ++ [s]) (by rwa [List.length_append])

namespace Path

variable {cwd : Location} {out p : Path} {l : Location}

/-- An inward path leads below the directory it is seen from. -/
theorem below_goal_join (h : p.isInward = true) :
    Location.Below (out.goal cwd) ((out.join p).goal cwd) := by
  obtain ⟨hrel, hd⟩ := Bool.and_eq_true_iff.1 h
  obtain ⟨d, hd, hpos⟩ := (Option.any_eq_true _ _).1 hd
  obtain ⟨xs, hlen, hxs⟩ := Location.followAll_of_depth (out.goal cwd) [] hd
  rw [List.append_nil] at hxs
  rw [goal_join (by simpa using hrel), hxs]
  refine ⟨xs, ?_, rfl⟩
  rintro rfl
  simp_all

/-- The way of an inward path leads through nothing but its directory's way and what is below. -/
theorem below_of_mem_way_join (h : p.isInward = true) (hl : l ∈ (out.join p).way cwd) :
    l ∈ out.way cwd ∨ Location.Below (out.goal cwd) l := by
  obtain ⟨hrel, hd⟩ := Bool.and_eq_true_iff.1 h
  obtain hl | ⟨xs, ⟨ys, hys⟩, rfl⟩ := (mem_way_join (by simpa using hrel)).1 hl
  · exact .inl hl
  obtain ⟨e, he⟩ : ∃ e, depth? 0 xs = some e := by
    rw [← hys, depth?_append] at hd
    cases hx : depth? 0 xs with
    | none => simp [hx] at hd
    | some e => exact ⟨e, rfl⟩
  obtain ⟨zs, -, hzs⟩ := Location.followAll_of_depth (out.goal cwd) [] he
  rw [List.append_nil] at hzs
  rw [hzs]
  by_cases hz : zs = []
  · rw [hz, List.append_nil]
    exact .inl goal_mem_way
  · exact .inr ⟨zs, hz, rfl⟩

end Path

/-! ## Locating -/

namespace FileTree

variable {t : FileTree} {cwd : Location} {p : Path} {l l' : Location}

theorem foldlM_step_eq_ok_iff {xs : List String} : xs.foldlM t.step l = .ok l' ↔
    Location.followAll l xs = l' ∧
      ∀ ys, ys <+: xs → ys ≠ xs → t.node? (Location.followAll l ys) = some .directory := by
  induction xs generalizing l with
  | nil =>
    have hf : ([] : List String).foldlM t.step l = .ok l' ↔ l = l' := by
      simp [pure, Except.pure]
    rw [hf]
    exact ⟨fun h => ⟨h, fun ys hys hne => absurd (List.prefix_nil.1 hys) hne⟩, And.left⟩
  | cons s xs ih =>
    rw [List.foldlM_cons, step]
    constructor
    · intro h
      split at h
      · cases h
      · cases h
      next hd =>
        obtain ⟨rfl, hways⟩ := ih.1 h
        refine ⟨rfl, fun ys hys hne => ?_⟩
        cases ys with
        | nil => exact hd
        | cons y ys =>
          obtain ⟨rfl, htail⟩ := List.cons_prefix_cons.1 hys
          exact hways ys htail fun e => hne (e ▸ rfl)
    · rintro ⟨rfl, hways⟩
      rw [show t.node? l = _ from hways [] (List.nil_prefix) (List.cons_ne_nil _ _).symm]
      refine ih.2 ⟨rfl, fun ys hys hne => ?_⟩
      exact hways (s :: ys) (List.cons_prefix_cons.2 ⟨rfl, hys⟩) fun e => hne (List.cons.inj e).2

/-- A path leads somewhere if all it goes through before are directories, and then to its goal. -/
theorem locate_eq_ok_iff : t.locate cwd p = .ok l ↔ p.goal cwd = l ∧
    ∀ xs, xs <+: p.parts → xs ≠ p.parts →
      t.node? (Location.followAll (p.start cwd) xs) = some .directory :=
  foldlM_step_eq_ok_iff

theorem locate_eq_goal (h : t.locate cwd p = .ok l) : l = p.goal cwd :=
  (locate_eq_ok_iff.1 h).1.symm

end FileTree
end RouteCompiler
