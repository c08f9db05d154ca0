import RouteCompiler.Proofs.Template.Shipped
import RouteCompiler.Template.RequestScope

/-!
The texts that the shipped templates make of a request, written out. They name the integration and
its steps, and the build descriptor its dependencies; nothing configured is in them.
-/

namespace RouteCompiler.Template

open Shipped

/-- The text, unless it is missing or empty. -/
def said (s : Option String) : Option String := s.filter fun t => !t.isEmpty

namespace Documents

/-! ## Texts -/

def stepLine (i : Nat) (s : Step) : List Char :=
  (toString (i + 1)).toList ++ ". `".toList ++ s.kind.toList ++ "`".toList ++
    ((said s.name).elim [] fun n => ' ' :: n.toList) ++
    (s.action.elim [] fun a => " (".toList ++ ((said a.name).getD a.scheme).toList ++ ")".toList) ++
    "\n".toList

def stepsText (steps : List Step) : List Char :=
  if steps.isEmpty then charsOf ((readmeLines.drop 15).take 1)
  else (steps.zipIdx.map fun p => stepLine p.2 p.1).flatten

def readme (i : Integration) : List Char :=
  "# ".toList ++ i.name.toList ++ "\n".toList ++
    ((said i.description).elim [] fun d => "\n".toList ++ d.toList ++ "\n".toList) ++
    charsOf ((readmeLines.drop 5).take 2) ++
    ((said i.id).elim "definition".toList fun d => "`".toList ++ d.toList ++ "`".toList) ++
    ('.' :: '\n' :: charsOf ((readmeLines.drop 8).take 3)) ++ stepsText i.steps ++
    charsOf (readmeLines.drop 17)

def application (i : Integration) : List Char :=
  charsOf (applicationLines.take 6) ++ " * Entry point of the \"".toList ++ i.name.toList ++
    "\" integration.\n".toList ++ charsOf (applicationLines.drop 7)

def properties (i : Integration) : List Char :=
  "spring.application.name=".toList ++ i.name.toList ++
    ('\n' :: charsOf ((propertiesLines.drop 1).take 1)) ++ "camel.springboot.name=".toList ++
    ((said i.id).getD i.name).toList ++ ('\n' :: charsOf (propertiesLines.drop 3))

def escapedText (s : String) : List Char := Value.escapeChars s.toList

def dependencyText (c : Coordinate) : List Char :=
  "    <dependency>\n      <groupId>".toList ++ escapedText c.group ++
    "</groupId>\n      <artifactId>".toList ++ escapedText c.artifact ++
    "</artifactId>\n      <version>".toList ++ escapedText c.version ++
    "</version>\n    </dependency>\n".toList

def descriptor (i : Integration) (dependencies : List Coordinate) : List Char :=
  charsOf (pomLines.take 7) ++ "  <artifactId>".toList ++
    escapedText ((said i.id).getD "integration") ++
    "</artifactId>\n  <version>0.1.0</version>\n  <name>".toList ++ escapedText i.name ++
    "</name>\n".toList ++
    ((said i.description).elim [] fun d =>
      "  <description>".toList ++ escapedText d ++ "</description>\n".toList) ++
    charsOf ((pomLines.drop 13).take 35) ++ (dependencies.map dependencyText).flatten ++
    charsOf (pomLines.drop 55)

theorem mapM_eq_ok {α β ε : Type} {f : α → Except ε β} {g : α → β} {l : List α}
    (h : ∀ a ∈ l, f a = .ok (g a)) : l.mapM f = .ok (l.map g) := by
  induction l with
  | nil => rfl
  | cons a l ih =>
    rw [List.mapM_cons, h a List.mem_cons_self, ih fun b hb => h b (List.mem_cons_of_mem a hb)]
    rfl

/-! ## Optional texts -/

theorem output_text (s : String) : (Value.text s).output false = s.toList := rfl

theorem holds_ofOption (s : Option String) : (Value.ofOption s).holds = (said s).isSome := by
  cases s with
  | none => rfl
  | some t => cases h : t.isEmpty <;> simp [Value.ofOption, Value.holds, said, Option.filter, h]

theorem eq_some_of_said {s : Option String} {t : String} (h : said s = some t) : s = some t :=
  (Option.filter_eq_some_iff.1 h).1

theorem ofOption_of_said {s : Option String} {t : String} (h : said s = some t) :
    Value.ofOption s = .text t := by
  rw [eq_some_of_said h]
  rfl

/-- The first of two optional texts that says something. -/
theorem eval_or {scope : Scope} {a b : Expr} {s : Option String} {t : String}
    (ha : a.eval scope = .ok (.ofOption s)) (hb : b.eval scope = .ok (.text t)) :
    Expr.eval scope (.or a b) = .ok (.text ((said s).getD t)) := by
  rw [Expr.eval, ha]
  simp only [bind, Except.bind, holds_ofOption]
  cases hs : said s with
  | none => exact hb
  | some u =>
    rw [ofOption_of_said hs]
    rfl

/-! ## Nodes and their texts -/

/-- The nodes render to a text. -/
def Renders (safe : Bool) (scope : Scope) (ns : List Node) (t : List Char) : Prop :=
  renderAll safe scope ns = .ok t

namespace Renders

variable {safe : Bool} {scope : Scope} {ns : List Node} {t : List Char}

theorem of_eq {t' : List Char} (h : Renders safe scope ns t) (e : t = t') :
    Renders safe scope ns t' := e ▸ h

theorem nil : Renders safe scope [] [] := rfl

theorem cons {n : Node} {a : List Char} (ha : n.render safe scope = .ok a)
    (h : Renders safe scope ns t) : Renders safe scope (n :: ns) (a ++ t) := by
  rw [Renders, renderAll, ha, show renderAll safe scope ns = .ok t from h]
  rfl

theorem text {s : String} (h : Renders safe scope ns t) :
    Renders safe scope (.text s :: ns) (s.toList ++ t) :=
  cons rfl h

theorem output {e : Expr} {v : Value} (he : e.eval scope = .ok v) (h : Renders safe scope ns t) :
    Renders safe scope (.output e :: ns) (v.output safe ++ t) := by
  refine cons ?_ h
  rw [Node.render, he]
  rfl

theorem chosen {test : Expr} {v : Value} {thenDo elseDo : List Node} {a : List Char}
    (he : test.eval scope = .ok v) (hv : v.holds = true) (ha : Renders safe scope thenDo a)
    (h : Renders safe scope ns t) :
    Renders safe scope (.choice test thenDo elseDo :: ns) (a ++ t) := by
  refine cons ?_ h
  rw [Node.render, he]
  simpa [Renders, bind, Except.bind, hv] using ha

theorem notChosen {test : Expr} {v : Value} {thenDo elseDo : List Node} {a : List Char}
    (he : test.eval scope = .ok v) (hv : v.holds = false) (ha : Renders safe scope elseDo a)
    (h : Renders safe scope ns t) :
    Renders safe scope (.choice test thenDo elseDo :: ns) (a ++ t) := by
  refine cons ?_ h
  rw [Node.render, he]
  simpa [Renders, bind, Except.bind, hv] using ha

/-- A part about an optional text is there if the text says something. -/
theorem optional {test : Expr} {s : Option String} {thenDo elseDo : List Node}
    {f : String → List Char} {b : List Char} (he : test.eval scope = .ok (.ofOption s))
    (ha : ∀ u, test.eval scope = .ok (.text u) → Renders safe scope thenDo (f u))
    (hb : Renders safe scope elseDo b) (h : Renders safe scope ns t) :
    Renders safe scope (.choice test thenDo elseDo :: ns) ((said s).elim b f ++ t) := by
  cases hs : said s with
  | none => exact notChosen he (by rw [holds_ofOption, hs]; rfl) hb h
  | some u =>
    exact chosen he (by rw [holds_ofOption, hs]; rfl) (ha u (by rw [he, ofOption_of_said hs])) h

/-- A part repeated for the values of a list. -/
theorem each {α : Type} {name : String} {source : Expr} {l : List α} {g : α → Value}
    {body ifNone : List Node} {f : α × Nat → List Char} {b : List Char}
    (he : source.eval scope = .ok (.list (l.map g)))
    (hf : ∀ p ∈ l.zipIdx, Renders safe
      ((name, g p.1) :: (loopName, loopPosition p.2 l.length) :: scope) body (f p))
    (hb : Renders safe scope ifNone b) (h : Renders safe scope ns t) :
    Renders safe scope (.each name source body ifNone :: ns)
      ((if l.isEmpty then b else (l.zipIdx.map f).flatten) ++ t) := by
  refine cons ?_ h
  rw [Node.render, he]
  simp only [bind, Except.bind, Value.items]
  cases l with
  | nil => exact hb
  | cons u us =>
    rw [List.map_cons]
    dsimp only
    rw [← List.map_cons, List.zipIdx_map, List.length_map, List.mapM_map]
    have hm : (u :: us).zipIdx.mapM ((fun p => renderAll safe
        ((name, p.1) :: (loopName, loopPosition p.2 (u :: us).length) :: scope) body) ∘
          Prod.map g id) = .ok ((u :: us).zipIdx.map f) := mapM_eq_ok hf
    rw [hm]
    rfl

end Renders

/-! ## The files of a request -/

section
variable (r : FlowRequest)

theorem eval_name : Expr.eval (requestScope r) (.member (.name "integration") "name") =
    .ok (.text r.integration.name) := rfl

theorem eval_id : Expr.eval (requestScope r) (.member (.name "integration") "id") =
    .ok (.ofOption r.integration.id) := rfl

theorem eval_description :
    Expr.eval (requestScope r) (.member (.name "integration") "description") =
      .ok (.ofOption r.integration.description) := rfl

theorem eval_steps : Expr.eval (requestScope r) (.name "steps") =
    .ok (.list (r.integration.steps.map stepValue)) := rfl

theorem renders_application :
    Renders false (requestScope r) applicationNodes (application r.integration) := by
  rw [applicationNodes]
  refine (Renders.text (.output (eval_name r) (.text .nil))).of_eq ?_
  rw [application]
  simp only [output_text, String.toList_ofList, List.append_assoc, List.append_nil]

theorem renders_properties :
    Renders false (requestScope r) propertiesNodes (properties r.integration) := by
  have h := eval_or (eval_id r) (eval_name r)
  rw [propertiesNodes]
  refine (Renders.text (.output (eval_name r) (.text (.output h (.text .nil))))).of_eq ?_
  unfold properties
  simp only [output_text, String.toList_ofList, List.append_assoc, List.append_nil]

def stepScope (size : Nat) (p : Value × Nat) : Scope :=
  ("step", p.1) :: (loopName, loopPosition p.2 size) :: requestScope r

theorem eval_action (size i : Nat) (s : Step) :
    Expr.eval (stepScope r size (stepValue s, i)) (.member (.name "step") "action") =
      .ok ((s.action.map actionValue).getD .null) := rfl

/-- The action of a step goes by its name, or else by its scheme. -/
theorem renders_action (size i : Nat) (s : Step) {ns : List Node} {t : List Char}
    (h : Renders false (stepScope r size (stepValue s, i)) ns t) :
    Renders false (stepScope r size (stepValue s, i))
      (.choice (.member (.name "step") "action")
        [ .text " (",
          .output (.or (.member (.member (.name "step") "action") "name")
            (.member (.member (.name "step") "action") "connector_prefix")),
          .text ")" ]
        [] :: ns)
      ((s.action.elim [] fun a =>
        " (".toList ++ ((said a.name).getD a.scheme).toList ++ ")".toList) ++ t) := by
  have ha := eval_action r size i s
  cases hs : s.action with
  | none =>
    rw [hs] at ha
    exact .notChosen ha rfl .nil h
  | some a =>
    rw [hs] at ha
    have hn : Expr.eval (stepScope r size (stepValue s, i))
        (.or (.member (.member (.name "step") "action") "name")
          (.member (.member (.name "step") "action") "connector_prefix")) =
        .ok (.text ((said a.name).getD a.scheme)) := by
      refine eval_or ?_ ?_
      · rw [Expr.eval, ha]
        rfl
      · rw [Expr.eval, ha]
        rfl
    refine (Renders.chosen ha rfl (.text (.output hn (.text .nil))) h).of_eq ?_
    simp only [output_text, Option.elim_some, List.append_assoc, List.append_nil]

theorem renders_step (size i : Nat) (s : Step) :
    Renders false (stepScope r size (stepValue s, i)) stepNodes (stepLine i s) := by
  have hi : Expr.eval (stepScope r size (stepValue s, i)) (.member (.name "loop") "index") =
      .ok (.int (i + 1 : Nat)) := rfl
  have hk : Expr.eval (stepScope r size (stepValue s, i)) (.member (.name "step") "kind") =
      .ok (.text s.kind) := rfl
  have hn : Expr.eval (stepScope r size (stepValue s, i)) (.member (.name "step") "name") =
      .ok (.ofOption s.name) := rfl
  rw [stepNodes]
  refine (Renders.output hi (.text (.output hk (.text (.optional hn
    (fun u hu => .text (.output hu .nil)) .nil
    (renders_action r size i s (.text .nil))))))).of_eq ?_
  rw [stepLine]
  simp only [output_text, List.append_assoc, List.append_nil]
  rfl

theorem renders_readme :
    Renders false (requestScope r) readmeNodes (readme r.integration) := by
  rw [readmeNodes]
  refine (Renders.text (.output (eval_name r) (.text (.optional (eval_description r)
    (fun u hu => .text (.output hu (.text .nil))) .nil
    (.text (.optional (eval_id r)
      (fun u hu => .text (.output hu (.text .nil)))
      (.text .nil)
      (.text (.each (eval_steps r) (fun p _ => renders_step r _ p.2 p.1) (.text .nil)
        (.text .nil))))))))).of_eq ?_
  unfold readme stepsText
  simp only [output_text, String.toList_ofList, List.append_assoc, List.append_nil]
end

/-! ## The build descriptor -/

theorem output_escaped (s : String) : (Value.text s).escaped.output false = escapedText s := by
  simp [Value.escaped, Value.output, Value.toText, escapedText]

theorem eval_escaped {scope : Scope} {e : Expr} {s : String} (h : e.eval scope = .ok (.text s)) :
    Expr.eval scope (.filtered e "e") = .ok (Value.text s).escaped := by
  rw [Expr.eval, h]
  rfl

theorem renders_dependency (scope : Scope) (c : Coordinate) :
    Renders false (("connector", coordinateValue c) :: scope) dependencyNodes
      (dependencyText c) := by
  have eval (n : String) (s : String) (h : (coordinateValue c).member n = .ok (.text s)) :
      Expr.eval (("connector", coordinateValue c) :: scope) (.member (.name "connector") n) =
        .ok (.text s) := h
  rw [dependencyNodes]
  refine (Renders.text (.output (eval_escaped (eval "group_id" c.group rfl))
    (.text (.output (eval_escaped (eval "artifact_id" c.artifact rfl))
    (.text (.output (eval_escaped (eval "version" c.version rfl)) (.text .nil))))))).of_eq ?_
  unfold dependencyText
  simp only [output_escaped, List.append_assoc, List.append_nil]

theorem renders_descriptor (i : Integration) (dependencies : List Coordinate) :
    Renders false (descriptorScope i dependencies) descriptorNodes
      (descriptor i dependencies) := by
  have hi : Expr.eval (descriptorScope i dependencies) (.or (.name "id") (.text "integration")) =
      .ok (.text ((said i.id).getD "integration")) := by
    have h : said (some (i.id.getD "")) = said i.id := by
      cases i.id with
      | none => simp [said]
      | some t => rfl
    rw [← h]
    exact eval_or rfl rfl
  have hn : Expr.eval (descriptorScope i dependencies) (.name "name") = .ok (.text i.name) := rfl
  have hd : Expr.eval (descriptorScope i dependencies) (.name "description") =
      .ok (.ofOption i.description) := rfl
  have hc : Expr.eval (descriptorScope i dependencies) (.name "connectors") =
      .ok (.list (dependencies.map coordinateValue)) := rfl
  rw [descriptorNodes]
  refine (Renders.text (.output (eval_escaped hi) (.text (.output (eval_escaped hn) (.text
    (.optional hd (fun u hu => .text (.output (eval_escaped hu) (.text .nil))) .nil
    (.text (.each hc (fun p _ => renders_dependency _ p.1) .nil (.text .nil))))))))).of_eq ?_
  have hl : (if dependencies.isEmpty then []
      else (dependencies.zipIdx.map fun p => dependencyText p.1).flatten) =
        (dependencies.map dependencyText).flatten := by
    have hz : dependencies.zipIdx.map (fun p => dependencyText p.1) =
        dependencies.map dependencyText := by
      have hcomp : (fun p : Coordinate × Nat => dependencyText p.1) = dependencyText ∘ Prod.fst :=
        rfl
      rw [hcomp, ← List.map_map, List.zipIdx_map_fst]
    cases dependencies with
    | nil => rfl
    | cons c cs => rw [hz]; rfl
  rw [descriptor]
  simp only [output_escaped, String.toList_ofList, List.append_assoc, List.append_nil, hl]

end Documents
end RouteCompiler.Template
