import RouteCompiler.CommandLine.Run
import RouteCompiler.Proofs.Console.Escape
import RouteCompiler.Proofs.Files.Outline
import RouteCompiler.Proofs.Project.Confinement

/-!
What the command `generate` leaves behind. Everything that can fail for the sake of the request,
the settings or the templates comes before the first file is written, so the tree is then as it was.
A command that succeeds has written the project, and nothing outside its directory unless the
destination of a resource leads there.
-/

namespace RouteCompiler.CommandLine

open Console Project Template

/-- The date is written with digits and hyphens. -/
def Surroundings.Dated (x : Surroundings) : Prop :=
  ∀ c ∈ x.today.toList, c.isDigit = true ∨ c = '-'

namespace Surroundings

variable {x : Surroundings} {flow out : String} {c : Choices}

/-- The project that a request file compiles to, or why there is none. -/
def project (x : Surroundings) (flow : String) (c : Choices) : Except Failure Artifacts := do
  let r ← (x.load flow).1
  let k ← x.compiler c
  (k.generate x.sources r).1

theorem project_eq {r : FlowRequest} {k : Compiler} (hl : (x.load flow).1 = .ok r)
    (hk : x.compiler c = .ok k) : x.project flow c = (k.generate x.sources r).1 := by
  rw [project, hl, hk]
  rfl

/-! ## Messages -/

theorem beginsTag_eq_false {d : Char} (h : d.isDigit = true ∨ d = '-') : beginsTag d = false := by
  obtain h | rfl := h
  · have hd : d < 'a' := by
      rw [Char.isDigit, Bool.and_eq_true, decide_eq_true_eq, decide_eq_true_eq] at h
      exact lt_of_le_of_lt h.2 (by decide)
    have hne : d ≠ '#' ∧ d ≠ '/' ∧ d ≠ '@' := by
      refine ⟨?_, ?_, ?_⟩ <;> (rintro rfl; revert h; decide)
    simp [beginsTag, hne, hd.not_ge]
  · rfl

/-- What is said under a date can be shown if it has no tags. -/
theorem exists_say (hx : x.Dated) {markup : String} (h : TagFree markup.toList) (code : Nat)
    (log : List LogRecord) : ∃ output, x.say code markup log = .finished code output log := by
  have hdate : ∀ d ∈ x.today.toList ++ [']', ' '], d ≠ '\\' ∧ d ≠ '[' := by
    intro d hd
    obtain hd | hd := List.mem_append.1 hd
    · refine ⟨?_, ?_⟩ <;> (rintro rfl; exact absurd (hx _ hd) (by decide))
    · simp only [List.mem_cons, List.not_mem_nil, or_false] at hd
      obtain rfl | rfl := hd <;> decide
  have hl : (x.stamp ++ markup).toList =
      '[' :: (x.today.toList ++ [']', ' '] ++ markup.toList) := by
    simp [stamp]
  have hstamp : TagFree (x.stamp ++ markup).toList := by
    rw [hl]
    refine (h.append hdate).cons (by decide) fun _ => ?_
    cases hd : x.today.toList with
    | nil => rfl
    | cons d ds =>
      rw [List.cons_append, List.cons_append, tag?_cons_eq_none]
      exact .inl (beginsTag_eq_false (hx d (hd ▸ List.mem_cons_self)))
  obtain ⟨output, ho⟩ := exists_message hstamp
  rw [say, ho]
  exact ⟨output, rfl⟩

/-- Whatever the message of an error is, it is reported with code one. -/
theorem exists_fail (hx : x.Dated) (what : String)
    (h : ∀ d ∈ (what ++ ": ").toList, d ≠ '\\' ∧ d ≠ '[') (log : List LogRecord)
    (e : CompileError) : ∃ output, x.fail what log (.compile e) = .finished 1 output log := by
  refine exists_say hx ?_ 1 log
  rw [String.toList_append]
  exact (tagFree_escape _).append h

theorem fail_ne_finished {what output : String} {log log' : List LogRecord} {e : Failure} :
    x.fail what log e ≠ .finished 0 output log' := by
  intro h
  cases e with
  | compile e =>
    rw [fail, say] at h
    split at h <;> cases h
  | breakdown b => cases h

/-! ## The command -/

variable (x flow out c)

theorem command_generate_of_missing (h : x.hasConfig c = false) :
    x.command (.generate flow out c) = (.usage, x.sources.tree) := by
  rw [command, withRequest, h]
  rfl

/-- With its settings file there, the command fails with the project, or writes it. -/
theorem command_generate (h : x.hasConfig c = true) :
    (∃ e log, x.project flow c = .error e ∧ x.command (.generate flow out c) =
      (x.fail "Generate failed with error(s)" log e, x.sources.tree)) ∨
    ∃ k r files log, x.compiler c = .ok k ∧ (k.generate x.sources r).1 = .ok files ∧
      x.project flow c = .ok files ∧
      x.command (.generate flow out c) =
        match writeArtifacts x.sources.cwd x.sources.tree (x.outPath out) files with
        | (.error e, _, t) => (.broken (.file e), t)
        | (.ok (), more, t) =>
          (x.say 0 s!"{files.size} file(s) emitted to: {x.outPath out}" (log ++ more), t) := by
  rw [command, withRequest, h, project]
  cases hl : x.load flow with
  | mk request log =>
    cases request with
    | error e => exact .inl ⟨e, log, rfl, rfl⟩
    | ok r =>
      cases hk : x.compiler c with
      | error e => exact .inl ⟨e, log, rfl, rfl⟩
      | ok k =>
        cases hg : k.generate x.sources r with
        | mk result rest =>
          simp only [bind, Except.bind, pure, Except.pure, hg]
          cases result with
          | error e => exact .inl ⟨e, log ++ rest.1, rfl, rfl⟩
          | ok files => exact .inr ⟨k, r, files, log ++ rest.1, rfl, congrArg Prod.fst hg, rfl, rfl⟩

variable {x flow out c}

theorem compiler_registry {k : Compiler} (h : x.compiler c = .ok k) :
    k.registry = Registry.builtin := by
  rw [compiler] at h
  cases hs : Settings.load x.env x.sources.tree x.sources.cwd (c.config.map Path.ofString) with
  | error e =>
    rw [hs] at h
    cases h
  | ok s =>
    rw [hs] at h
    cases h
    rfl

/-- A command that fails leaves the tree as it was. -/
theorem command_generate_of_error (hx : x.Dated) (h : x.hasConfig c = true) {e : Failure}
    (he : x.project flow c = .error e) :
    (x.command (.generate flow out c)).2 = x.sources.tree ∧ ∀ e', e = .compile e' →
      ∃ output log, (x.command (.generate flow out c)).1 = .finished 1 output log := by
  obtain ⟨e₁, log, he₁, hcommand⟩ | ⟨k, r, files, log, -, -, hp, -⟩ :=
    x.command_generate flow out c h
  · obtain rfl := Except.error.inj (he₁.symm.trans he)
    rw [hcommand]
    refine ⟨rfl, ?_⟩
    rintro e' rfl
    obtain ⟨output, ho⟩ := exists_fail hx "Generate failed with error(s)"
      (forall_plain_of_all (by decide)) log e'
    exact ⟨output, log, ho⟩
  · rw [hp] at he
    cases he

/-- A command that succeeds has written the project. -/
theorem command_generate_of_finished (h : x.hasConfig c = true) {output : String}
    {log : List LogRecord} (hf : (x.command (.generate flow out c)).1 = .finished 0 output log) :
    ∃ k r files, x.compiler c = .ok k ∧ (k.generate x.sources r).1 = .ok files ∧
      x.project flow c = .ok files ∧
      (writeArtifacts x.sources.cwd x.sources.tree (x.outPath out) files).1 = .ok () ∧
      (x.command (.generate flow out c)).2 =
        (writeArtifacts x.sources.cwd x.sources.tree (x.outPath out) files).2.2 := by
  obtain ⟨e, log', -, hcommand⟩ | ⟨k, r, files, log', hk, hg, hp, hcommand⟩ :=
    x.command_generate flow out c h
  · rw [hcommand] at hf
    exact absurd hf fail_ne_finished
  · refine ⟨k, r, files, hk, hg, hp, ?_⟩
    rw [hcommand] at hf ⊢
    cases hw : writeArtifacts x.sources.cwd x.sources.tree (x.outPath out) files with
    | mk result rest =>
      rw [hw] at hf
      cases result with
      | error e => cases hf
      | ok u => exact ⟨rfl, rfl⟩

end Surroundings

theorem run_of_invocation {x : Surroundings} {args : List String} {i : Invocation} {m : Command}
    (h : invocation? false false args = some i) (hm : i.command = m) :
    (run x args).1 = (x.command m).1 ∧ (run x args).2.1 = (x.command m).2 := by
  rw [run, h, ← hm]
  exact ⟨rfl, rfl⟩

/-- How a run of `generate` ends. If the settings file is missing, or the request, the settings or
the build fails, the tree is as it was, and a compile error ends the run with code one. If the run
succeeds, the project is written, and apart from its directory only what the destinations of
resources lead to outside is changed. -/
theorem run_generate {x : Surroundings} {args : List String} {i : Invocation} {flow out : String}
    {c : Choices} (hx : x.Dated) (hi : invocation? false false args = some i)
    (hc : i.command = .generate flow out c) :
    (x.hasConfig c = false → (run x args).1 = .usage ∧ (run x args).2.1 = x.sources.tree) ∧
    (x.hasConfig c = true → ∀ e, x.project flow c = .error e →
      (run x args).2.1 = x.sources.tree ∧
      ∀ e', e = .compile e' → ∃ output log, (run x args).1 = .finished 1 output log) ∧
    (∀ output log, (run x args).1 = .finished 0 output log → ∃ files,
      x.project flow c = .ok files ∧
      files.Written x.sources.cwd (x.outPath out) x.sources.tree (run x args).2.1 ∧
      ∀ l, FileTree.Confined x.sources.cwd (x.outPath out) x.sources.tree (run x args).2.1 l ∨
        ∃ k, x.compiler c = .ok k ∧ ∃ res ∈ k.settings.templates.resources,
          Path.Strays x.sources.cwd (x.outPath out) res.destination l) := by
  obtain ⟨hending, hafter⟩ := run_of_invocation (x := x) hi hc
  rw [hending, hafter]
  refine ⟨fun hconfig => ?_, fun hconfig e he => ?_, fun output log hf => ?_⟩
  · rw [x.command_generate_of_missing flow out c hconfig]
    exact ⟨rfl, rfl⟩
  · exact Surroundings.command_generate_of_error hx hconfig he
  · have hconfig : x.hasConfig c = true := by
      cases hconfig : x.hasConfig c with
      | false =>
        rw [x.command_generate_of_missing flow out c hconfig] at hf
        cases hf
      | true => rfl
    obtain ⟨k, r, files, hk, hg, hp, hw, ht⟩ :=
      Surroundings.command_generate_of_finished hconfig hf
    refine ⟨files, hp, ?_, fun l => ?_⟩
    · rw [ht]
      exact written_of_writeArtifacts hw
    · rw [ht]
      exact (confined_writeArtifacts_of_generate (Surroundings.compiler_registry hk) hg _ _ _ l).imp
        id fun hstrays => ⟨k, hk, hstrays⟩

/-- A resource that leads out of the project. -/
def strayingSettings : Settings :=
  { templates := { resources := [⟨"README.md.jinja", "../stray.txt"⟩] } }

def plainRequest : FlowRequest := { integration := { name := "A" } }

/-- A home directory with a request in it. -/
def homeTree : FileTree :=
  (FileTree.empty.set ["home"] .directory).set ["home", "flow.yml"]
    (.file "integration: \x7bname: A\x7d".toUTF8)

/-- The directory, and settings in the environment. -/
def strayingHome : Surroundings where
  today := "2024-01-01"
  env := [("FLOWGEN_TEMPLATES",
    "\x7b\"additional_resources\": [\x7b\"source\": \"README.md.jinja\"," ++
    "\"destination\": \"../stray.txt\"\x7d]\x7d")]
  sources := ⟨Shipped.install homeTree, ["home"]⟩

def strayingArguments : List String := ["generate", "flow.yml", "--out", "out"]

theorem invocation_strayingArguments : invocation? false false strayingArguments =
    some ⟨false, false, .generate "flow.yml" "out" {}⟩ := by
  decide +kernel

theorem dated_strayingHome : strayingHome.Dated := by
  have hdate : (strayingHome.today.toList.all fun c => c.isDigit || c == '-') = true := by
    decide
  simpa [Surroundings.Dated] using hdate

theorem load_strayingHome : (strayingHome.load "flow.yml").1 = .ok plainRequest :=
  eq_ok_of_toOption (by decide +kernel)

theorem compiler_strayingHome :
    strayingHome.compiler {} = .ok (.ofSettings strayingSettings) := by
  have h : Settings.load strayingHome.env strayingHome.sources.tree strayingHome.sources.cwd none =
      .ok strayingSettings :=
    eq_ok_of_toOption (by decide +kernel)
  rw [Surroundings.compiler, Option.map_none, h]
  rfl

theorem exists_project_strayingHome : ∃ files, strayingHome.project "flow.yml" {} = .ok files ∧
    files.keys = ["../stray.txt", readmePath, applicationPath, propertiesPath, flowPath,
      descriptorPath] := by
  have hres : ∀ res ∈ strayingSettings.templates.resources,
      ∃ f ∈ Shipped.files, res.source = f.1 := by
    simp [strayingSettings, Shipped.files]
  obtain ⟨files, h⟩ : ∃ files, ((Compiler.ofSettings strayingSettings).generate
      strayingHome.sources plainRequest).1 = .ok files :=
    exists_generate_installed homeTree ["home"] hres
      fun s hs => absurd hs List.not_mem_nil
  refine ⟨files, ?_, ?_⟩
  · rw [Surroundings.project_eq load_strayingHome compiler_strayingHome, h]
  · rw [keys_of_generate rfl h]
    decide

theorem writeArtifacts_strayingHome {files : Artifacts}
    (h : files.keys = ["../stray.txt", readmePath, applicationPath, propertiesPath, flowPath,
      descriptorPath]) : (writeArtifacts strayingHome.sources.cwd strayingHome.sources.tree
        (strayingHome.outPath "out") files).1 = .ok () := by
  rw [fst_writeArtifacts, h]
  decide +kernel

theorem exists_finished_strayingHome : ∃ output log,
    (run strayingHome strayingArguments).1 = .finished 0 output log := by
  obtain ⟨files, hp, hkeys⟩ := exists_project_strayingHome
  rw [(run_of_invocation invocation_strayingArguments rfl).1]
  obtain ⟨e, log, he, -⟩ | ⟨k, r, files', log, -, -, hp', hcommand⟩ :=
    strayingHome.command_generate "flow.yml" "out" {} rfl
  · rw [hp] at he
    cases he
  · obtain rfl := Except.ok.inj (hp.symm.trans hp')
    have hw := writeArtifacts_strayingHome hkeys
    have hsize : files.size = 6 := by
      have h := congrArg List.length hkeys
      simpa [OrderedMap.keys, OrderedMap.size] using h
    have htext : ∀ out, out = strayingHome.outPath "out" →
        TagFree s!"{files.size} file(s) emitted to: {out}".toList := by
      rintro out rfl
      rw [hsize, ← List.append_nil (String.toList _)]
      exact tagFree_nil.append (forall_plain_of_all (by decide))
    rw [hcommand]
    cases hw' : writeArtifacts strayingHome.sources.cwd strayingHome.sources.tree
        (strayingHome.outPath "out") files with
    | mk result rest =>
      rw [hw'] at hw
      cases hw
      obtain ⟨output, ho⟩ :=
        Surroundings.exists_say dated_strayingHome (htext _ rfl) 0 (log ++ rest.1)
      exact ⟨output, _, ho⟩

/-- The run succeeds, and its project is there. On a request that is not there it ends with code
one, and the tree stays as it is. -/
theorem run_generate_strayingHome :
    (∃ (files : Artifacts) (output : String) (log : List LogRecord),
      (run strayingHome strayingArguments).1 = .finished 0 output log ∧
      files.Written strayingHome.sources.cwd (strayingHome.outPath "out") strayingHome.sources.tree
        (run strayingHome strayingArguments).2.1) ∧
    ∃ output log, (run strayingHome ["generate", "missing.yml"]).1 = .finished 1 output log ∧
      (run strayingHome ["generate", "missing.yml"]).2.1 = strayingHome.sources.tree := by
  have hmissing : invocation? false false ["generate", "missing.yml"] =
      some ⟨false, false, .generate "missing.yml" "generated" {}⟩ := by decide +kernel
  obtain ⟨-, hfails, -⟩ := run_generate dated_strayingHome hmissing rfl
  obtain ⟨-, -, hsucceeds⟩ := run_generate dated_strayingHome invocation_strayingArguments rfl
  refine ⟨?_, ?_⟩
  · obtain ⟨output, log, hf⟩ := exists_finished_strayingHome
    obtain ⟨files, -, hwritten, -⟩ := hsucceeds output log hf
    exact ⟨files, output, log, hf, hwritten⟩
  · have hread : strayingHome.sources.tree.read strayingHome.sources.cwd
        (Path.ofString "missing.yml") = .error .notFound := by
      decide
    have he : strayingHome.project "missing.yml" {} =
        .error (.compile (.requestUnreadable (Path.ofString "missing.yml") .notFound)) := by
      rw [Surroundings.project, Surroundings.load, FlowRequest.load, hread]
      rfl
    obtain ⟨htree, hcode⟩ := hfails rfl _ he
    obtain ⟨output, log, hf⟩ := hcode _ rfl
    exact ⟨output, log, hf, htree⟩

/-- The run succeeds, and a file is there that was not, beside the project and not below it. -/
theorem run_generate_strays : (∃ output log,
      (run strayingHome strayingArguments).1 = .finished 0 output log) ∧
    (strayingHome.outPath "out").goal strayingHome.sources.cwd = ["home", "out"] ∧
    strayingHome.sources.tree.node? ["home", "stray.txt"] = none ∧
    ∃ content, (run strayingHome strayingArguments).2.1.node? ["home", "stray.txt"] =
      some (.file content) := by
  obtain ⟨output, log, hf⟩ := exists_finished_strayingHome
  refine ⟨⟨output, log, hf⟩, by decide, by decide, ?_⟩
  obtain ⟨hending, hafter⟩ := run_of_invocation (x := strayingHome) invocation_strayingArguments rfl
  rw [hending] at hf
  rw [hafter]
  obtain ⟨k, r, files, -, -, hp, hw, ht⟩ := Surroundings.command_generate_of_finished rfl hf
  obtain ⟨files', hp', hkeys⟩ := exists_project_strayingHome
  obtain rfl := Except.ok.inj (hp.symm.trans hp')
  have htarget : target strayingHome.sources.cwd (strayingHome.outPath "out") "../stray.txt" =
      ["home", "stray.txt"] := by decide
  have hmem : "../stray.txt" ∈ files.keys := by
    rw [hkeys]
    exact List.mem_cons_self
  obtain ⟨content, hn⟩ := exists_node_of_writeArtifacts hw hmem
  rw [htarget] at hn
  rw [ht]
  exact ⟨content, hn⟩

end RouteCompiler.CommandLine
