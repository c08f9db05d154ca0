import RouteCompiler.Project.Basic

/-!
Running compilation steps and builds. What fails keeps what it did so far, and nothing behind it
runs.
-/

namespace RouteCompiler

variable {α β : Type}

theorem exists_of_bind_eq_ok {ε : Type} {x : Except ε α} {f : α → Except ε β} {b : β}
    (h : x >>= f = .ok b) : ∃ a, x = .ok a ∧ f a = .ok b := by
  cases x with
  | error e => cases h
  | ok a => exact ⟨a, rfl, h⟩

theorem eq_ok_of_toOption {ε : Type} {x : Except ε α} {a : α} (h : x.toOption = some a) :
    x = .ok a := by
  cases x with
  | error e => cases h
  | ok b => exact congrArg _ (Option.some.inj h)

theorem run_bind {σ : Type} (m : ExceptT Failure (StateM σ) α)
    (f : α → ExceptT Failure (StateM σ) β) (s : σ) :
    (ExceptT.run (m >>= f)).run s =
      match (ExceptT.run m).run s with
      | (.ok a, s') => (ExceptT.run (f a)).run s'
      | (.error e, s') => (.error e, s') := by
  simp only [ExceptT.run, bind, ExceptT.bind, ExceptT.mk, ExceptT.bindCont, StateT.bind,
    StateT.run]
  cases m s with
  | mk a s' => cases a <;> rfl

namespace Compile

@[simp] theorem runOn_pure (a : α) (w : Workspace) : (pure a : Compile α).runOn w = (.ok a, w) :=
  rfl

theorem runOn_bind (m : Compile α) (f : α → Compile β) (w : Workspace) :
    (m >>= f).runOn w =
      match m.runOn w with
      | (.ok a, w') => (f a).runOn w'
      | (.error e, w') => (.error e, w') := by
  rw [runOn, run_bind, ← runOn]
  cases m.runOn w with
  | mk a w' => cases a <;> rfl

theorem runOn_bind_ok {m : Compile α} {w w' : Workspace} {a : α} (h : m.runOn w = (.ok a, w'))
    (f : α → Compile β) : (m >>= f).runOn w = (f a).runOn w' := by
  rw [runOn_bind, h]

/-- A sequence that succeeds is a success behind a success. -/
theorem of_runOn_bind {m : Compile α} {f : α → Compile β} {w w' : Workspace} {b : β}
    (h : (m >>= f).runOn w = (.ok b, w')) :
    ∃ a w₁, m.runOn w = (.ok a, w₁) ∧ (f a).runOn w₁ = (.ok b, w') := by
  rw [runOn_bind] at h
  cases hm : m.runOn w with
  | mk r w₁ =>
    rw [hm] at h
    cases r with
    | error e => cases h
    | ok a => exact ⟨a, w₁, rfl, h⟩

theorem runOn_bind_error {m : Compile α} {w w' : Workspace} {e : Failure}
    (h : m.runOn w = (.error e, w')) (f : α → Compile β) :
    (m >>= f).runOn w = (.error e, w') := by
  rw [runOn_bind, h]

@[simp] theorem runOn_log (level : LogLevel) (module message : String) (w : Workspace) :
    (log level module message).runOn w =
      (.ok (), { w with log := w.log ++ [⟨level, loggerOf (some module), message⟩] }) := rfl

end Compile

namespace Build

def runOn (m : Build α) (s : BuildState) : Except Failure α × BuildState := (ExceptT.run m).run s

@[simp] theorem runOn_pure (a : α) (s : BuildState) : (pure a : Build α).runOn s = (.ok a, s) := rfl

theorem runOn_bind (m : Build α) (f : α → Build β) (s : BuildState) :
    (m >>= f).runOn s =
      match m.runOn s with
      | (.ok a, s') => (f a).runOn s'
      | (.error e, s') => (.error e, s') := by
  rw [runOn, run_bind, ← runOn]
  cases m.runOn s with
  | mk a s' => cases a <;> rfl

theorem runOn_bind_ok {m : Build α} {s s' : BuildState} {a : α} (h : m.runOn s = (.ok a, s'))
    (f : α → Build β) : (m >>= f).runOn s = (f a).runOn s' := by
  rw [runOn_bind, h]

theorem of_runOn_bind {m : Build α} {f : α → Build β} {s s' : BuildState} {b : β}
    (h : (m >>= f).runOn s = (.ok b, s')) :
    ∃ a s₁, m.runOn s = (.ok a, s₁) ∧ (f a).runOn s₁ = (.ok b, s') := by
  rw [runOn_bind] at h
  cases hm : m.runOn s with
  | mk r s₁ =>
    rw [hm] at h
    cases r with
    | error e => cases h
    | ok a => exact ⟨a, s₁, rfl, h⟩

@[simp] theorem runOn_get (s : BuildState) : (get : Build BuildState).runOn s = (.ok s, s) := rfl

theorem runOn_ofCompile (m : Compile α) (s : BuildState) :
    (ofCompile m).runOn s = ((m.runOn s.work).1, { s with work := (m.runOn s.work).2 }) := rfl

@[simp] theorem runOn_log (level : LogLevel) (message : String) (s : BuildState) :
    (log level message).runOn s =
      (.ok (), { s with work.log := s.work.log ++
        [⟨level, loggerOf (some generatorModule), message⟩] }) := rfl

@[simp] theorem runOn_write (path : String) (content : ByteArray) (s : BuildState) :
    (write path content).runOn s =
      (.ok (), { s with work.artifacts := s.work.artifacts.insert path content }) := rfl

theorem runWith_eq (m : Build α) (c : Compiler) :
    m.runWith c = ((m.runOn { templates := c.templates }).1,
      (m.runOn { templates := c.templates }).2.work.log,
      { c with templates := (m.runOn { templates := c.templates }).2.templates }) := rfl

end Build
end RouteCompiler
