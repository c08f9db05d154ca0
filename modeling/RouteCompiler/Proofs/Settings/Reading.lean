import RouteCompiler.Proofs.Yaml.Entries
import RouteCompiler.Settings.Load

/-!
What settings that were read come from: each field from the value found for it, or from nothing,
and then it has its default.
-/

namespace RouteCompiler

open Yaml (Value)

namespace Schema

namespace Checked

variable {α β : Type}

theorem map_eq_ok {c : Checked α} {g : α → β} {b : β} :
    g <$> c = .ok b ↔ ∃ a, c = .ok a ∧ g a = b := by
  cases c with
  | ok a => simp [Functor.map, map]
  | bad ps => simp [Functor.map, map]

theorem seq_eq_ok {c : Checked (α → β)} {d : Checked α} {b : β} :
    c <*> d = .ok b ↔ ∃ g a, c = .ok g ∧ d = .ok a ∧ g a = b := by
  cases c with
  | ok g => cases d <;> simp [Seq.seq, apply]
  | bad ps => cases d <;> simp [Seq.seq, apply]

theorem within_eq_ok {c : Checked α} {p : Place} {a : α} : c.within p = .ok a ↔ c = .ok a := by
  cases c <;> simp [within]

end Checked

/-- The field has the value read from what was found for it, or its default. -/
def Chosen {α : Type} (read : Value → Checked α) (default : α) : Option Value → α → Prop
  | some v, a => read v = .ok a
  | none, a => a = default

variable {α : Type} {read : Value → Checked α} {default a b : α}

theorem withDefault_eq_ok {f : Field} {es : Entries} :
    withDefault f default read es = .ok a ↔ Chosen read default ((f.find es).map Prod.snd) a := by
  rw [withDefault]
  cases f.find es with
  | none => simp [Chosen, eq_comm]
  | some e => exact Checked.within_eq_ok

/-- What is found first counts. -/
theorem Chosen.or {v w : Option Value} (hv : Chosen read default v a)
    (hw : Chosen read default w b) :
    Chosen read default (v.or w) (if v.isSome then a else b) := by
  cases v with
  | some v => exact hv
  | none => exact hw

theorem find_map_snd (name : String) (es : Entries) :
    (Field.find ⟨name, name⟩ es).map Prod.snd = Value.entry? name es := by
  rw [Field.find]
  cases h : Value.entry? name es with
  | some v => rfl
  | none => simp

end Schema

open Schema

/-- The last of the names, if there are any, that differ from the name at most in case. -/
theorem Settings.otherCase_eq (name : String) (es : Entries) :
    otherCase name es =
      (((Value.textKeys es).filter fun k => lower k = name).getLast?).getD name := by
  have hfold : ∀ {step : String → Value × Value → String},
      (∀ found e, step found e =
        (Value.textKey? e).elim found fun k => if lower k = name then k else found) →
      ∀ found, es.foldl step found =
        (((Value.textKeys es).filter fun k => lower k = name).getLast?).getD found := by
    intro step hstep
    induction es with
    | nil => exact fun _ => rfl
    | cons e es ih =>
      intro found
      rw [List.foldl_cons, ih, hstep]
      cases hkey : Value.textKey? e with
      | none => simp [Value.textKeys, hkey]
      | some k =>
        by_cases hk : lower k = name
        · simp [Value.textKeys, hkey, hk, List.getLast?_cons]
        · simp [Value.textKeys, hkey, hk]
  refine hfold (fun found e => ?_) name
  obtain ⟨a, v⟩ := e
  cases a with
  | text s => cases hs : s.string? <;> simp [Value.textKey?, hs]
  | _ => rfl

namespace Settings

/-- The value of an outermost field, whose name may have any case; the exact name wins. -/
def outer? (name : String) (es : Entries) : Option Value :=
  (Field.find ⟨name, otherCase name es⟩ es).map Prod.snd

variable {name : String} {es : Entries}

theorem outer?_of_exact {v : Value} (h : Value.entry? name es = some v) :
    outer? name es = some v := by
  rw [outer?, Field.find, h]
  rfl

theorem outer?_of_none (h : Value.entry? name es = none) :
    outer? name es = Value.entry? (otherCase name es) es := by
  rw [outer?, Field.find, h]
  cases Value.entry? (otherCase name es) es <;> rfl

theorem exists_mem_of_outer? {v : Value} (h : outer? name es = some v) : ∃ e ∈ es, e.2 = v := by
  cases he : Value.entry? name es with
  | some w =>
    rw [outer?_of_exact he] at h
    exact ⟨_, Value.mem_of_entry he, Option.some.inj h⟩
  | none =>
    rw [outer?_of_none he] at h
    exact ⟨_, Value.mem_of_entry h, rfl⟩

theorem entry?_outerEntry : Value.entry? name (outerEntry name es) = outer? name es := by
  rw [outerEntry, outer?]
  cases Field.find ⟨name, otherCase name es⟩ es with
  | some e => exact Value.entry?_cons_of_eq
  | none => rfl

end Settings

/-- Templates are read field by field. -/
theorem TemplateSettings.read_eq_ok {es : Entries} {t : TemplateSettings} :
    read (.map es) = .ok t ↔
      Chosen (orNull (text strictText)) none (Value.entry? Settings.rootName es) t.root ∧
      Chosen (orNull (text strictText)) none (Value.entry? Settings.overridePathName es)
        t.overridePath ∧
      Chosen (list Resource.read) [] (Value.entry? Settings.resourcesName es) t.resources := by
  simp only [read, record, Schema.optional, Checked.seq_eq_ok, Checked.map_eq_ok, withDefault_eq_ok,
    find_map_snd]
  constructor
  · rintro ⟨_, _, ⟨_, _, ⟨_, hroot, rfl⟩, hoverride, rfl⟩, hresources, rfl⟩
    exact ⟨hroot, hoverride, hresources⟩
  · rintro ⟨hroot, hoverride, hresources⟩
    exact ⟨_, _, ⟨_, _, ⟨_, hroot, rfl⟩, hoverride, rfl⟩, hresources, rfl⟩

theorem Settings.read_eq_ok {es : Entries} {s : Settings} :
    read es = .ok s ↔
      Chosen truth false (outer? maskSecretsName es) s.maskSecrets ∧
      Chosen TemplateSettings.read {} (outer? templatesName es) s.templates := by
  simp only [read, Checked.seq_eq_ok, Checked.map_eq_ok, withDefault_eq_ok, find_map_snd,
    entry?_outerEntry]
  constructor
  · rintro ⟨_, _, ⟨_, hmask, rfl⟩, htemplates, rfl⟩
    exact ⟨hmask, htemplates⟩
  · rintro ⟨hmask, htemplates⟩
    exact ⟨_, _, ⟨_, hmask, rfl⟩, htemplates, rfl⟩

/-- The templates of a document that is read, where it has some, are a mapping. -/
theorem Settings.exists_map_of_read {v : Value} {t : TemplateSettings}
    (h : TemplateSettings.read v = .ok t) : ∃ es, v = .map es := by
  cases v with
  | map es => exact ⟨es, rfl⟩
  | _ => cases h

end RouteCompiler
