import RouteCompiler.Proofs.Schema.Respelling
import RouteCompiler.Request.Load

/-!
Spellings of a request. A document and any other that respells parts of it give the same request,
or they are rejected for the same problems at the same places.
-/

namespace RouteCompiler

open Schema
open Yaml (Value)

/-! ## The shapes of requests -/

abbrev Fields := List (Field × Shape)

def PropertyDefinition.fields : Fields := [
  (sameField "kind", .text plainText),
  (sameField "required", .truth),
  (⟨"defaultValue", "default_value"⟩, .text scalarText),
  (sameField "secret", .truth),
  (⟨"componentProperty", "component_property"⟩, .truth),
  (⟨"displayName", "display_name"⟩, .text plainText),
  (sameField "description", .text plainText)]

def definitionsShape : Shape := .map (.record PropertyDefinition.fields)

def configuredShape : Shape := .map (.text scalarText)

def Connector.fields : Fields := [
  (sameField "id", .text plainText),
  (sameField "name", .text plainText),
  (sameField "description", .text plainText),
  (sameField "properties", definitionsShape)]

def DefinitionGroup.fields : Fields := [
  (sameField "name", .text plainText),
  (sameField "description", .text plainText),
  (sameField "properties", definitionsShape)]

def Action.fields : Fields := [
  (sameField "id", .text plainText),
  (sameField "name", .text plainText),
  (⟨"connectorId", "connector_id"⟩, .text plainText),
  (⟨"camelConnectorPrefix", "connector_prefix"⟩, .text plainText),
  (⟨"camelConnectorGAV", "dependency"⟩, .text plainText),
  (⟨"propertyDefinitionSteps", "property_definition_groups"⟩,
    .list (.record DefinitionGroup.fields))]

def Connection.fields : Fields := [
  (sameField "id", .text plainText),
  (sameField "name", .text plainText),
  (⟨"connectorId", "connector_id"⟩, .text plainText),
  (⟨"configuredProperties", "configured_properties"⟩, configuredShape)]

def Step.fields : Fields := [
  (sameField "id", .text plainText),
  (sameField "name", .text plainText),
  (⟨"stepKind", "kind"⟩, .text plainText),
  (sameField "connection", .record Connection.fields),
  (sameField "action", .record Action.fields),
  (⟨"configuredProperties", "configured_properties"⟩, configuredShape)]

def Integration.fields : Fields := [
  (sameField "id", .text plainText),
  (sameField "name", .text plainText),
  (sameField "description", .text plainText),
  (sameField "steps", .list (.record Step.fields))]

def FlowRequest.fields : Fields := [
  (sameField "integration", .record Integration.fields),
  (sameField "connectors", .map (.record Connector.fields))]

def FlowRequest.shape : Shape := .record FlowRequest.fields

/-! ## Reading them -/

variable {declared : Fields} {f : Field}

theorem alike_textField (ha : Apart declared) (hf : (f, .text plainText) ∈ declared) :
    ReadsAlike declared (textField f) :=
  ReadsAlike.optional ha hf (admits_text _)

theorem alike_truthField (ha : Apart declared) (hf : (f, .truth) ∈ declared) :
    ReadsAlike declared (withDefault f false truth) :=
  ReadsAlike.withDefault ha hf admits_truth

theorem PropertyDefinition.admits_read : (Shape.record fields).Admits read := by
  have ha : Apart fields := by decide
  refine ReadsAlike.record (.seq (.seq (.seq (.seq (.seq (.seq (.map _ ?kind) ?required)
    ?defaultValue) ?secret) ?componentLevel) ?displayName) ?description)
  case kind => exact .withDefault ha (by simp [fields]) (admits_text _)
  case required => exact alike_truthField ha (by simp [fields])
  case defaultValue => exact .optional ha (by simp [fields]) (admits_text _)
  case secret => exact alike_truthField ha (by simp [fields])
  case componentLevel => exact alike_truthField ha (by simp [fields])
  case displayName => exact alike_textField ha (by simp [fields])
  case description => exact alike_textField ha (by simp [fields])

theorem alike_definitionsField (ha : Apart declared)
    (hf : (sameField "properties", definitionsShape) ∈ declared) :
    ReadsAlike declared definitionsField :=
  .withDefault ha hf PropertyDefinition.admits_read.map

theorem alike_configuredField (ha : Apart declared)
    (hf : (⟨"configuredProperties", "configured_properties"⟩, configuredShape) ∈ declared) :
    ReadsAlike declared configuredField :=
  .withDefault ha hf (admits_text scalarText).map

theorem Connector.admits_read : (Shape.record fields).Admits read := by
  have ha : Apart fields := by decide
  refine ReadsAlike.record (.seq (.seq (.seq (.map _ ?id) ?name) ?description) ?definitions)
  case id => exact .required ha (by simp [fields]) (admits_text _)
  case name => exact alike_textField ha (by simp [fields])
  case description => exact alike_textField ha (by simp [fields])
  case definitions => exact alike_definitionsField ha (by simp [fields])

theorem DefinitionGroup.admits_read : (Shape.record fields).Admits read := by
  have ha : Apart fields := by decide
  refine ReadsAlike.record (.seq (.seq (.map _ ?name) ?description) ?definitions)
  case name => exact alike_textField ha (by simp [fields])
  case description => exact alike_textField ha (by simp [fields])
  case definitions => exact alike_definitionsField ha (by simp [fields])

theorem Action.admits_read : (Shape.record fields).Admits read := by
  have ha : Apart fields := by decide
  refine ReadsAlike.record (.seq (.seq (.seq (.seq (.seq (.map _ ?id) ?name) ?connectorId) ?scheme)
    ?dependency) ?groups)
  case id => exact alike_textField ha (by simp [fields])
  case name => exact alike_textField ha (by simp [fields])
  case connectorId => exact alike_textField ha (by simp [fields])
  case scheme => exact .required ha (by simp [fields]) (admits_text _)
  case dependency => exact alike_textField ha (by simp [fields])
  case groups => exact .withDefault ha (by simp [fields]) DefinitionGroup.admits_read.list

theorem Connection.admits_read : (Shape.record fields).Admits read := by
  have ha : Apart fields := by decide
  refine ReadsAlike.record (.seq (.seq (.seq (.map _ ?id) ?name) ?connectorId) ?configured)
  case id => exact alike_textField ha (by simp [fields])
  case name => exact alike_textField ha (by simp [fields])
  case connectorId => exact alike_textField ha (by simp [fields])
  case configured => exact alike_configuredField ha (by simp [fields])

theorem Step.admits_read : (Shape.record fields).Admits read := by
  have ha : Apart fields := by decide
  refine ReadsAlike.record (.seq (.seq (.seq (.seq (.seq (.map _ ?id) ?name) ?kind) ?connection)
    ?action) ?configured)
  case id => exact alike_textField ha (by simp [fields])
  case name => exact alike_textField ha (by simp [fields])
  case kind => exact .required ha (by simp [fields]) (admits_text _)
  case connection => exact .optional ha (by simp [fields]) Connection.admits_read
  case action => exact .optional ha (by simp [fields]) Action.admits_read
  case configured => exact alike_configuredField ha (by simp [fields])

theorem Integration.admits_read : (Shape.record fields).Admits read := by
  have ha : Apart fields := by decide
  refine ReadsAlike.record (.seq (.seq (.seq (.map _ ?id) ?name) ?description) ?steps)
  case id => exact alike_textField ha (by simp [fields])
  case name => exact .required ha (by simp [fields]) (admits_text _)
  case description => exact alike_textField ha (by simp [fields])
  case steps => exact .withDefault ha (by simp [fields]) Step.admits_read.list

namespace FlowRequest

theorem admits_read : shape.Admits read := by
  have ha : Apart fields := by decide
  refine ReadsAlike.record (.seq (.map _ ?integration) ?connectors)
  case integration => exact .required ha (by simp [fields]) Integration.admits_read
  case connectors => exact .withDefault ha (by simp [fields]) Connector.admits_read.map

theorem eq_or_maps_of_eqvGen {v w : Value} (h : Relation.EqvGen (Respelling shape) v w) :
    v = w ∨ ∃ es fs, v = .map es ∧ w = .map fs := by
  induction h with
  | rel v w h => exact .inr h.exists_map
  | refl v => exact .inl rfl
  | symm v w _ ih =>
    rcases ih with rfl | ⟨es, fs, rfl, rfl⟩
    · exact .inl rfl
    · exact .inr ⟨fs, es, rfl, rfl⟩
  | trans u v w _ _ ih ih' =>
    rcases ih with rfl | ⟨es, fs, rfl, rfl⟩
    · exact ih'
    · rcases ih' with rfl | ⟨es', fs', _, rfl⟩
      · exact .inr ⟨es, fs, rfl, rfl⟩
      · exact .inr ⟨es, fs', rfl, rfl⟩

/-- Where a problem is, under the names of fields and the texts of keys, and what it says. -/
def report (p : Problem) : List Place × String × String :=
  (shape.canonical p.location, p.expectation.name, p.expectation.message)

theorem map_report_of_relocate {ps qs : List Problem}
    (h : ps.map (·.relocate shape.canonical) = qs.map (·.relocate shape.canonical)) :
    ps.map report = qs.map report := by
  have hreport : ∀ rs : List Problem, rs.map report =
      (rs.map (·.relocate shape.canonical)).map fun p =>
        (p.location, p.expectation.name, p.expectation.message) := fun rs => by
    rw [List.map_map]
    rfl
  rw [hreport, hreport, h]

/-- However a request is spelled, it is the same request or has the same problems. -/
theorem ofValue_of_respellings {v w : Value} (h : Relation.EqvGen (Respelling shape) v w) :
    (∃ r, ofValue v = .ok r ∧ ofValue w = .ok r) ∨
    ∃ d e, ofValue v = .error d ∧ ofValue w = .error e ∧ d.message = e.message ∧
      d.problems.map report = e.problems.map report := by
  rcases eq_or_maps_of_eqvGen h with rfl | ⟨es, fs, rfl, rfl⟩
  · cases hv : ofValue v with
    | ok r => exact .inl ⟨r, rfl, rfl⟩
    | error e => exact .inr ⟨e, e, rfl, rfl, rfl, rfl⟩
  · have hread := admits_read.eq_of_eqvGen h
    simp only [ofValue]
    cases hv : read (.map es) with
    | ok r =>
      cases hw : read (.map fs) with
      | ok r' =>
        rw [hv, hw] at hread
        obtain rfl : r = r' := Checked.ok.inj hread
        exact .inl ⟨r, rfl, rfl⟩
      | bad qs =>
        rw [hv, hw] at hread
        cases hread
    | bad ps =>
      cases hw : read (.map fs) with
      | ok r' =>
        rw [hv, hw] at hread
        cases hread
      | bad qs =>
        rw [hv, hw] at hread
        exact .inr ⟨_, _, rfl, rfl, rfl, map_report_of_relocate (Checked.bad.inj hread)⟩

/-- A request with one step. -/
def oneStep (name : Value) (step : Entries) : Value :=
  .map [(.text "integration", .map [(.text "name", name), (.text "steps", .seq [.map step])])]

theorem respelling_oneStep_name (i : Int) (step : Entries) :
    Respelling shape (oneStep (.int i) step) (oneStep (.text (toString i)) step) := by
  have hintegration : (sameField "integration", .record Integration.fields) ∈ fields := by
    simp [fields]
  have hname : (sameField "name", .text plainText) ∈ Integration.fields := by
    simp [Integration.fields]
  exact .field [] [] hintegration (.inl rfl) (.field [] [_] hname (.inl rfl) (.number rfl))

theorem respelling_oneStep (name : Value) {es fs : Entries}
    (h : Respelling (.record Step.fields) (.map es) (.map fs)) :
    Respelling shape (oneStep name es) (oneStep name fs) := by
  have hintegration : (sameField "integration", .record Integration.fields) ∈ fields := by
    simp [fields]
  have hsteps : (sameField "steps", .list (.record Step.fields)) ∈ Integration.fields := by
    simp [Integration.fields]
  exact .field [] [] hintegration (.inl rfl) (.field [_] [] hsteps (.inl rfl) (.item [] [] h))

/-- Both spellings are rejected, for the level that is no text. -/
theorem ofValue_of_respellings_oneStep :
    let camel := oneStep (.int 5) [(.text "stepKind", .text "log"),
      (.text "configuredProperties", .map [(.int 7, .bool true), (.text "level", .null)])]
    let snake := oneStep (.text "5") [(.text "kind", .text "log"),
      (.text "configured_properties", .map [(.text "7", .text "true"), (.text "level", .null)]),
      (.text "note", .null)]
    Relation.EqvGen (Respelling shape) camel snake ∧
    ∃ d e, ofValue camel = .error d ∧ ofValue snake = .error e ∧ d.message = e.message ∧
      d.problems.map report = e.problems.map report := by
  intro camel snake
  let configured : Field := ⟨"configuredProperties", "configured_properties"⟩
  have hkind : (⟨"stepKind", "kind"⟩, .text plainText) ∈ Step.fields := by simp [Step.fields]
  have hconfigured : (configured, configuredShape) ∈ Step.fields := by
    simp [Step.fields, configured]
  have hunknown : ∀ e ∈ Step.fields, ∀ n, e.1.Spells n → Value.text "note" ≠ .text n := by
    simp [Step.fields, Field.Spells, sameField]
  have hchain : Relation.EqvGen (Respelling shape) camel snake := by
    refine .trans _ _ _ (.rel _ _ (respelling_oneStep_name 5 _)) ?_
    refine .trans _ _ _ (.rel _ _ (respelling_oneStep _ (.name [] [_] hkind ?_))) ?_
    · rintro _ (rfl | rfl) <;> rfl
    refine .trans _ _ _ (.rel _ _ (respelling_oneStep _ (.field [_] [] hconfigured (.inl rfl)
      (.key [] [_] rfl)))) ?_
    refine .trans _ _ _ (.rel _ _ (respelling_oneStep _ (.field [_] [] hconfigured (.inl rfl)
      (.entry [] [_] (.truth rfl))))) ?_
    refine .trans _ _ _ (.rel _ _ (respelling_oneStep _ (.name [_] [] hconfigured ?_))) ?_
    · rintro _ (rfl | rfl) <;> exact Value.entry?_eq_none_iff.2 (by decide)
    exact .rel _ _ (respelling_oneStep _ (.unknown [_, _] [] hunknown))
  have hrejected : (ofValue camel).toOption.isNone = true := by decide +kernel
  obtain ⟨r, hr, -⟩ | hproblems := ofValue_of_respellings hchain
  · rw [hr] at hrejected
    cases hrejected
  · exact ⟨hchain, hproblems⟩

end FlowRequest

end RouteCompiler
