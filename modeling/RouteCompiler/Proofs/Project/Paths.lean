import RouteCompiler.Proofs.Project.Placement
import RouteCompiler.Proofs.Project.Precedence

/-!
The paths of a project. What a build makes itself has paths that name each directory on their way;
they lead below the directory a project is written to, and different ones lead to different places.
All other paths are destinations of resources, which may be spelled in any way.
-/

namespace RouteCompiler

open Project

/-- The segment names an entry of a directory, and not the directory or the one above. -/
def Path.IsName (s : String) : Prop := s ≠ "" ∧ s ≠ "." ∧ s ≠ ".." ∧ '/' ∉ s.toList

instance : DecidablePred Path.IsName := fun s =>
  inferInstanceAs (Decidable (s ≠ "" ∧ s ≠ "." ∧ s ≠ ".." ∧ '/' ∉ s.toList))

/-- The text of a path is nothing but names. -/
def Path.Plain (path : String) : Prop :=
  ∃ names, names ≠ [] ∧ (∀ s ∈ names, Path.IsName s) ∧ path = "/".intercalate names

theorem Location.followAll_names {names : List String} (h : ∀ s ∈ names, Path.IsName s)
    (l : Location) : followAll l names = l ++ names :=
  followAll_direct (fun hup => (h _ hup).2.2.1 rfl) l

theorem depth?_names {names : List String} (h : ∀ s ∈ names, Path.IsName s) (d : Nat) :
    depth? d names = some (d + names.length) := by
  induction names generalizing d with
  | nil => rfl
  | cons s names ih =>
    rw [depth?, if_neg (h s List.mem_cons_self).2.2.1,
      ih fun s hs => h s (List.mem_cons_of_mem _ hs), List.length_cons, Nat.add_right_comm,
      Nat.add_assoc]

namespace Path

theorem segments_intercalate {names : List String} (hn : names ≠ []) (h : ∀ s ∈ names, IsName s) :
    segments ("/".intercalate names).toList = names := by
  have hsplit : (['/'].intercalate (names.map String.toList)).splitOn '/' =
      names.map String.toList := by
    refine List.splitOn_intercalate '/' ?_ (by simpa using hn)
    intro cs hcs
    obtain ⟨s, hs, rfl⟩ := List.mem_map.1 hcs
    exact (h s hs).2.2.2
  have hall : (names.map String.toList).filter (fun s => s ≠ [] && s ≠ ['.']) =
      names.map String.toList := by
    refine List.filter_eq_self.2 ?_
    intro cs hcs
    obtain ⟨s, hs, rfl⟩ := List.mem_map.1 hcs
    obtain ⟨hempty, hpoint, -, -⟩ := h s hs
    have hpoint' : s.toList ≠ ['.'] := fun e => hpoint (String.toList_inj.1 e)
    simp [hempty, hpoint']
  have hlist : ("/".intercalate names).toList = ['/'].intercalate (names.map String.toList) :=
    String.toList_intercalate
  rw [segments, hlist, hsplit, hall, List.map_map]
  simp [Function.comp_def]

theorem rootOf_intercalate {names : List String} (h : ∀ s ∈ names, IsName s) :
    rootOf ("/".intercalate names).toList = "" := by
  cases names with
  | nil => rfl
  | cons s names =>
    obtain ⟨hempty, -, -, hslash⟩ := h s List.mem_cons_self
    obtain ⟨c, cs, hc⟩ : ∃ c cs, s.toList = c :: cs :=
      List.exists_cons_of_ne_nil (by simpa using hempty)
    obtain ⟨ds, hd⟩ : ∃ ds, ("/".intercalate (s :: names)).toList = c :: ds := by
      by_cases hn : names = []
      · exact ⟨cs, by simp [hn, hc]⟩
      · refine ⟨cs ++ ("/" ++ "/".intercalate names).toList, ?_⟩
        rw [String.intercalate_cons_of_ne_nil hn]
        simp [hc]
    have hne : c ≠ '/' := by
      rintro rfl
      exact hslash (hc ▸ List.mem_cons_self)
    rw [hd]
    unfold rootOf
    split <;> simp_all

theorem ofString_intercalate {names : List String} (hn : names ≠ []) (h : ∀ s ∈ names, IsName s) :
    ofString ("/".intercalate names) = ⟨"", names⟩ := by
  rw [ofString, rootOf_intercalate h, segments_intercalate hn h]

theorem Plain.isInward {path : String} (h : Plain path) : (ofString path).isInward = true := by
  obtain ⟨names, hn, hnames, rfl⟩ := h
  rw [ofString_intercalate hn hnames, Path.isInward, depth?_names hnames]
  simp [isAbsolute, List.length_pos_iff, hn]

theorem Plain.exists_target {path : String} (h : Plain path) : ∃ names,
    path = "/".intercalate names ∧ ∀ cwd out, target cwd out path = out.goal cwd ++ names := by
  obtain ⟨names, hn, hnames, rfl⟩ := h
  refine ⟨names, rfl, fun cwd out => ?_⟩
  have hrel : (ofString ("/".intercalate names)).isAbsolute = false := by
    rw [ofString_intercalate hn hnames]
    rfl
  rw [target, goal_join hrel, ofString_intercalate hn hnames, Location.followAll_names hnames]

/-- Different names lead to different places. -/
theorem Plain.target_injective {p q : String} (hp : Plain p) (hq : Plain q) {cwd : Location}
    {out : Path} (h : target cwd out p = target cwd out q) : p = q := by
  obtain ⟨ps, rfl, hps⟩ := hp.exists_target
  obtain ⟨qs, rfl, hqs⟩ := hq.exists_target
  rw [hps, hqs] at h
  rw [List.append_cancel_left h]

end Path

/-! ## What a build makes -/

theorem Mapper.isName_fileName (i : Nat) : Path.IsName (fileName i) := by
  have hl : (fileName i).toList =
      "mapping-step-".toList ++ (Nat.toDigits 10 i ++ ".json".toList) := by
    have h : fileName i = "mapping-step-" ++ i.repr ++ ".json" := rfl
    rw [h]
    simp
  have hlong : ∀ s : String, s.toList.length < 13 → fileName i ≠ s := by
    rintro s hs rfl
    simp [hl] at hs
    omega
  refine ⟨hlong _ (by decide), hlong _ (by decide), hlong _ (by decide), ?_⟩
  have hdigit : '/' ∉ Nat.toDigits 10 i := fun h =>
    absurd (Nat.isDigit_of_mem_toDigits (by decide) (by decide) h) (by decide)
  have hfirst : '/' ∉ "mapping-step-".toList := by decide
  have hlast : '/' ∉ ".json".toList := by decide
  rw [hl]
  simp only [List.mem_append, hdigit, hfirst, hlast, or_self, not_false_iff]

namespace Project

/-- The names in the paths of the files made for every request. -/
def generatedNames : List (List String) :=
  [ ["README.md"], ["src", "main", "java", "io", "flowgen", "example", "Application.java"],
    ["src", "main", "resources", "application.properties"],
    ["src", "main", "resources", "flow.yml"], ["pom.xml"] ]

theorem generatedPaths_eq : generatedPaths = generatedNames.map "/".intercalate := by decide

theorem plain_of_mem_generatedPaths {p : String} (h : p ∈ generatedPaths) : Path.Plain p := by
  have hnames : ∀ names ∈ generatedNames, names ≠ [] ∧ ∀ s ∈ names, Path.IsName s := by decide
  rw [generatedPaths_eq] at h
  obtain ⟨names, hmem, rfl⟩ := List.mem_map.1 h
  exact ⟨names, (hnames names hmem).1, (hnames names hmem).2, rfl⟩

theorem plain_filePath (i : Nat) : Path.Plain (Mapper.filePath i) := by
  have hnames : ∀ s ∈ ["src", "main", "resources"], Path.IsName s := by decide
  refine ⟨["src", "main", "resources"] ++ [Mapper.fileName i], by simp, ?_, rfl⟩
  intro s hs
  obtain hs | hs := List.mem_append.1 hs
  · exact hnames s hs
  · rw [List.mem_singleton.1 hs]
    exact Mapper.isName_fileName i

theorem plain_of_mem_ownPaths {steps : List Step} {p : String} (h : p ∈ ownPaths steps) :
    Path.Plain p := by
  obtain h | h := List.mem_append.1 h
  · exact plain_of_mem_generatedPaths h
  · obtain ⟨e, he, rfl⟩ := List.mem_map.1 h
    obtain ⟨i, s, m, -, -, rfl⟩ := mem_mappingFiles_iff.1 he
    exact plain_filePath (i + 1)

end Project

/-- A project has no paths but those of what the build makes and the destinations of resources. -/
theorem mem_keys_of_generate {c : Compiler} {src : Sources} {r : FlowRequest} {files : Artifacts}
    {path : String} (hr : c.registry = Registry.builtin) (h : (c.generate src r).1 = .ok files)
    (hp : path ∈ files.keys) : path ∈ ownPaths r.integration.steps ∨
      ∃ res ∈ c.settings.templates.resources, res.destination = path := by
  rw [keys_of_generate hr h, List.mem_eraseDups] at hp
  unfold ownPaths
  simp only [List.mem_append] at hp ⊢
  obtain ((hp | hp) | hp) | hp := hp
  · exact .inr (List.mem_map.1 hp)
  · exact .inl (.inl (requestPaths_subset path hp).1)
  · exact .inl (.inr hp)
  · exact .inl (.inl (closingPaths_subset path hp))

end RouteCompiler
