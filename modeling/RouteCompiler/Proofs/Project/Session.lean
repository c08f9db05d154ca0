import RouteCompiler.Project.Session
import RouteCompiler.Proofs.Project.Outcome
import RouteCompiler.Proofs.Project.Writing

/-!
Calls on one compiler do not disturb each other. What a call comes to is what it comes to on a new
compiler without files: templates that were read before make no difference, and visitors do not
look at the files. All that remains of a call in the files is the mappings of the steps it reached,
also if it fails.
-/

namespace RouteCompiler

open Project Template

/-! ## Builds and what was read before -/

/-- The libraries are alike for these files. -/
def Sources.Alike (src : Sources) (l l' : Library) : Prop := l.Alike src.tree src.cwd l'

/-- Templates that were read before make no difference to the build, and the library remains as it
was, but for what the build reads. -/
structure Build.Unaffected {α : Type} (src : Sources) (m : Build α) : Prop where
  result : ∀ w l l', src.Alike l l' → (m.runOn ⟨w, l⟩).1 = (m.runOn ⟨w, l'⟩).1
  work : ∀ w l l', src.Alike l l' → (m.runOn ⟨w, l⟩).2.work = (m.runOn ⟨w, l'⟩).2.work
  alike : ∀ w l, src.Alike l (m.runOn ⟨w, l⟩).2.templates

namespace Build.Unaffected

variable {α β : Type} {src : Sources}

theorem pure (a : α) : Unaffected src (Pure.pure a : Build α) where
  result _ _ _ _ := rfl
  work _ _ _ _ := rfl
  alike _ l := .refl l

theorem ofCompile (m : Compile α) : Unaffected src (Build.ofCompile m) where
  result _ _ _ _ := rfl
  work _ _ _ _ := rfl
  alike _ l := .refl l

theorem bind {m : Build α} {f : α → Build β} (hm : Unaffected src m)
    (hf : ∀ a, Unaffected src (f a)) : Unaffected src (m >>= f) := by
  have halike : ∀ w l l', src.Alike l l' →
      src.Alike (m.runOn ⟨w, l⟩).2.templates (m.runOn ⟨w, l'⟩).2.templates :=
    fun w l l' h => ((hm.alike w l).symm.trans h).trans (hm.alike w l')
  -- behind `m` both runs are in the same workspace, with libraries that are alike
  have hrun : ∀ w l l', src.Alike l l' →
      ((m >>= f).runOn ⟨w, l⟩).1 = ((m >>= f).runOn ⟨w, l'⟩).1 ∧
      ((m >>= f).runOn ⟨w, l⟩).2.work = ((m >>= f).runOn ⟨w, l'⟩).2.work := by
    intro w l l' h
    have hresult := hm.result w l l' h
    have hwork := hm.work w l l' h
    have hl := halike w l l' h
    rw [runOn_bind, runOn_bind]
    generalize m.runOn ⟨w, l⟩ = run at hresult hwork hl
    generalize m.runOn ⟨w, l'⟩ = run' at hresult hwork hl
    obtain ⟨r, w₁, l₁⟩ := run
    obtain ⟨r', w₁', l₁'⟩ := run'
    cases hresult
    cases hwork
    cases r with
    | error e => exact ⟨rfl, rfl⟩
    | ok a => exact ⟨(hf a).result w₁ l₁ l₁' hl, (hf a).work w₁ l₁ l₁' hl⟩
  refine ⟨fun w l l' h => (hrun w l l' h).1, fun w l l' h => (hrun w l l' h).2, fun w l => ?_⟩
  have hl := hm.alike w l
  rw [runOn_bind]
  generalize m.runOn ⟨w, l⟩ = run at hl
  obtain ⟨r, w₁, l₁⟩ := run
  cases r with
  | error e => exact hl
  | ok a => exact hl.trans ((hf a).alike w₁ l₁)

theorem lift (x : Except Failure α) : Unaffected src (liftM x : Build α) where
  result _ _ _ _ := by cases x <;> rfl
  work _ _ _ _ := by cases x <;> rfl
  alike _ l := by cases x <;> exact .refl l

/-- A build may go on with its state, unless it asks what was read before. -/
theorem get_bind {f : BuildState → Build β} (hf : ∀ s, Unaffected src (f s))
    (hs : ∀ w l l', src.Alike l l' → f ⟨w, l⟩ = f ⟨w, l'⟩) : Unaffected src (get >>= f) where
  result w l l' h := by
    rw [runOn_bind_ok (runOn_get _), runOn_bind_ok (runOn_get _), hs w l l' h]
    exact (hf _).result w l l' h
  work w l l' h := by
    rw [runOn_bind_ok (runOn_get _), runOn_bind_ok (runOn_get _), hs w l l' h]
    exact (hf _).work w l l' h
  alike w l := by
    rw [runOn_bind_ok (runOn_get _)]
    exact (hf _).alike w l

theorem render (name : String) (scope : Scope) : Unaffected src (Build.render src name scope) where
  result _ _ _ h := congrArg (Except.map String.ofList) (h.text_eq name scope)
  work w _ _ h := congrArg (fun log => ({ w with log := w.log ++ log } : Workspace))
    (h.log_eq name scope)
  alike _ l := Library.alike_render l name scope

theorem forM {f : α → Build Unit} (hf : ∀ a, Unaffected src (f a)) (as : List α) :
    Unaffected src (as.forM f) := by
  rw [List.forM_eq_forM]
  induction as with
  | nil => exact pure ()
  | cons a as ih =>
    rw [List.forM_cons]
    exact (hf a).bind fun _ => ih

end Build.Unaffected

section
variable (src : Sources)

open Build (Unaffected)

theorem unaffected_copyResource (res : Resource) : Unaffected src (copyResource src res) := by
  refine Unaffected.get_bind (fun s => ?_) fun w l l' h => ?_
  · refine (Unaffected.lift _).bind fun content => ?_
    exact (Unaffected.ofCompile _).bind fun _ => .ofCompile _
  · rw [h.readResource_eq]

theorem unaffected_renderFile (scope : Scope) (file : String × String) :
    Unaffected src (renderFile src scope file) :=
  (Unaffected.render file.2 scope).bind fun _ => .ofCompile _

theorem unaffected_buildDescriptor (i : Integration) : Unaffected src (buildDescriptor src i) :=
  (Unaffected.ofCompile _).bind fun _ => (Unaffected.ofCompile _).bind fun _ => .render _ _

theorem unaffected_buildProject (settings : Settings) (registry : Registry VisitorFactory)
    (r : FlowRequest) : Unaffected src (buildProject src settings registry r) := by
  refine (Unaffected.ofCompile _).bind fun _ => ?_
  refine (Unaffected.forM (unaffected_copyResource src) _).bind fun _ => ?_
  refine (Unaffected.forM (unaffected_renderFile src _) _).bind fun _ => ?_
  refine (Unaffected.ofCompile _).bind fun flow => ?_
  refine (Unaffected.ofCompile _).bind fun _ => ?_
  refine (unaffected_buildDescriptor src _).bind fun pom => ?_
  refine (Unaffected.ofCompile _).bind fun _ => ?_
  refine Unaffected.get_bind (fun s => ?_) fun _ _ _ _ => rfl
  exact (Unaffected.ofCompile _).bind fun _ => .pure _

end

/-! ## Flows and the files at hand -/

/-- The mappings of the steps that are reached: no step in front of them fails. -/
def FlowRequest.reachedMappings (r : FlowRequest) : List (String × ByteArray) :=
  ((StepCursor.places r.integration.steps).takeWhile fun c =>
    decide ¬ c.step.Fails r).filterMap mappingFile?

theorem Workspace.extend_nil (w : Workspace) : w.extend [] [] = w := by
  rw [Workspace.extend, List.append_nil, OrderedMap.insertMany]
  rfl

theorem Workspace.extend_extend (w : Workspace) (files files' : List (String × ByteArray))
    (records records' : List LogRecord) :
    (w.extend files records).extend files' records' =
      w.extend (files ++ files') (records ++ records') := by
  simp only [Workspace.extend, OrderedMap.insertMany_append, List.append_assoc]

/-- Steps come to one result and write one list of files and records, whatever they are compiled
on: what they write are the mappings of the steps in front of the first that fails. -/
theorem exists_runOn_compileSteps (x : Context) (cs : List StepCursor) :
    ∃ result records, ∀ w, (compileSteps x cs).runOn w =
      (result, w.extend ((cs.takeWhile fun c =>
        decide ¬ c.step.Fails x.request).filterMap mappingFile?) records) := by
  induction cs with
  | nil =>
    refine ⟨.ok [], [], fun w => ?_⟩
    rw [List.takeWhile_nil, List.filterMap_nil, Workspace.extend_nil]
    rfl
  | cons c cs ih =>
    cases hc : Compiled.ofStep x c.index c.step with
    | error e =>
      have hf : c.step.Fails x.request := ((Step.ofStep_error_iff _ _ _ _).1 hc).1
      refine ⟨.error e, [], fun w => ?_⟩
      rw [compileSteps, Compile.runOn_bind_error (runOn_compileStep_of_error hc w),
        List.takeWhile_cons_of_neg (by simpa using hf), List.filterMap_nil, Workspace.extend_nil]
    | ok p =>
      have hf : ¬ c.step.Fails x.request := Step.not_fails_of_compiles hc
      obtain ⟨result, records, ih⟩ := ih
      refine ⟨result.map fun es => p.element.toList ++ es, p.records ++ records, fun w => ?_⟩
      have hrun : (compileStep x c).runOn w = (.ok p.element, w.extend p.files p.records) :=
        runOn_compileStep_of_ok hc w
      have hfiles : p.files ++ (cs.takeWhile fun c => decide ¬ c.step.Fails x.request).filterMap
          mappingFile? = ((c :: cs).takeWhile fun c => decide ¬ c.step.Fails x.request).filterMap
          mappingFile? := by
        rw [List.takeWhile_cons_of_pos (by simpa using hf), Compiled.files_eq hc]
        cases hm : mappingFile? c <;> simp [hm]
      rw [compileSteps, Compile.runOn_bind_ok hrun, Compile.runOn_bind, ih, Workspace.extend_extend,
        hfiles]
      cases result <;> rfl

theorem exists_runOn_generateFlow (settings : Settings) (r : FlowRequest) :
    ∃ flow records, ∀ w, (generateFlow Registry.builtin settings r).runOn w =
      (flow, w.extend r.reachedMappings records) := by
  obtain ⟨result, records, h⟩ :=
    exists_runOn_compileSteps ⟨settings, r⟩ (StepCursor.places r.integration.steps)
  refine ⟨result.map fun steps => ⟨some r.integration.name, steps⟩, records, fun w => ?_⟩
  rw [runOn_generateFlow, h]
  rfl

/-- A request with a step between its mappers that no visitor is there for. -/
def mappedAround : FlowRequest where
  integration :=
    { name := "feed"
      steps :=
        [ { kind := "mapper", configured := OrderedMap.ofList [("atlasmapping", "first")] },
          { kind := "split" },
          { kind := "mapper", configured := OrderedMap.ofList [("atlasmapping", "second")] } ] }

example : mappedAround.reachedMappings =
    [("src/main/resources/mapping-step-1.json", "first".toUTF8)] := by
  decide

/-! ## Calls -/

/-- The compiler is the one made from these settings, whatever it has read since. -/
def Compiler.Serves (src : Sources) (settings : Settings) (c : Compiler) : Prop :=
  ∃ l, src.Alike (Library.ofSettings settings.templates) l ∧ c = ⟨settings, Registry.builtin, l⟩

theorem Compiler.serves_ofSettings (src : Sources) (settings : Settings) :
    (Compiler.ofSettings settings).Serves src settings :=
  ⟨_, .refl _, rfl⟩

/-- A build comes to what it comes to on the compiler as it was made. -/
theorem Compiler.Serves.runWith {α : Type} {src : Sources} {settings : Settings} {c : Compiler}
    (hc : c.Serves src settings) {m : Build α} (hm : m.Unaffected src) :
    ∃ c' : Compiler, c'.Serves src settings ∧
      m.runWith c = ((m.runWith (Compiler.ofSettings settings)).1,
        (m.runWith (Compiler.ofSettings settings)).2.1, c') := by
  obtain ⟨l, hl, rfl⟩ := hc
  refine ⟨_, ⟨_, hl.trans (hm.alike {} l), rfl⟩, ?_⟩
  simp only [Build.runWith_eq, ← hm.result {} _ _ hl, ← hm.work {} _ _ hl]
  rfl

namespace Project.Session

/-- What a call puts into the files. -/
def Call.mappings : Call → List (String × ByteArray)
  | .flow r => r.reachedMappings
  | .project _ | .descriptor _ => []

/-- What a call comes to on a new compiler without files, and what is logged for it. -/
def alone (src : Sources) (settings : Settings) (call : Call) : Answer × List LogRecord :=
  let (answer, log, _) := step src ⟨Compiler.ofSettings settings, {}⟩ call
  (answer, log)

variable {src : Sources} {settings : Settings}

/-- One call: its answer is its own, the compiler remains what it was made, and only the mappings
of the call go into the files. -/
theorem step_of_serves {c : Compiler} (hc : c.Serves src settings) (files : Artifacts)
    (call : Call) : ∃ c' : Compiler, c'.Serves src settings ∧
      step src ⟨c, files⟩ call = ((alone src settings call).1, (alone src settings call).2,
        ⟨c', files.insertMany call.mappings⟩) := by
  cases call with
  | flow r =>
    refine ⟨c, hc, ?_⟩
    obtain ⟨l, -, rfl⟩ := hc
    obtain ⟨flow, records, hrun⟩ := exists_runOn_generateFlow settings r
    simp only [step, alone, Compiler.ofSettings, hrun]
    rfl
  | project r =>
    obtain ⟨c', hc', hrun⟩ := hc.runWith (unaffected_buildProject src settings Registry.builtin r)
    refine ⟨c', hc', ?_⟩
    obtain ⟨l, -, rfl⟩ := hc
    simp only [step, Compiler.generate, hrun]
    rfl
  | descriptor i =>
    obtain ⟨c', hc', hrun⟩ := hc.runWith (unaffected_buildDescriptor src i)
    refine ⟨c', hc', ?_⟩
    simp only [step, Compiler.descriptor, hrun]
    rfl

theorem run_of_serves {c : Compiler} (hc : c.Serves src settings) (files : Artifacts)
    (calls : List Call) : ∃ c' : Compiler, c'.Serves src settings ∧
      run src ⟨c, files⟩ calls = (calls.map (alone src settings),
        ⟨c', files.insertMany (calls.flatMap Call.mappings)⟩) := by
  induction calls generalizing c files with
  | nil => exact ⟨c, hc, rfl⟩
  | cons call calls ih =>
    obtain ⟨c₁, hc₁, hstep⟩ := step_of_serves hc files call
    obtain ⟨c₂, hc₂, hrun⟩ := ih hc₁ (files.insertMany call.mappings)
    refine ⟨c₂, hc₂, ?_⟩
    rw [run, hstep]
    dsimp only
    rw [hrun, List.flatMap_cons, OrderedMap.insertMany_append]
    rfl

/-- Calls on one compiler with one map of files do not disturb each other: each has the answer, and
logs, what it would on a new compiler without files. In the end the files are those at the start
with the mappings of the steps that the flows reached laid over them, in the order of the calls;
what was there before keeps its place, and what no mapping is written to keeps its content. -/
theorem run_ofSettings (src : Sources) (settings : Settings) (files : Artifacts)
    (calls : List Call) :
    let outcome := run src ⟨Compiler.ofSettings settings, files⟩ calls
    let written := calls.flatMap Call.mappings
    outcome.1 = calls.map (alone src settings) ∧
      outcome.2.files = files.insertMany written ∧
      files.keys <+: outcome.2.files.keys ∧
      (∀ path ∉ written.map Prod.fst, outcome.2.files.get? path = files.get? path) := by
  intro outcome written
  obtain ⟨c, -, hrun⟩ := run_of_serves (Compiler.serves_ofSettings src settings) files calls
  have hfiles : outcome.2.files = files.insertMany written := congrArg (·.2.files) hrun
  refine ⟨congrArg Prod.fst hrun, hfiles, ?_, fun path hpath => ?_⟩
  · rw [hfiles, OrderedMap.keys_insertMany]
    exact List.prefix_append _ _
  · rw [hfiles, OrderedMap.get?_insertMany_of_notMem _ hpath]

end Project.Session

end RouteCompiler
