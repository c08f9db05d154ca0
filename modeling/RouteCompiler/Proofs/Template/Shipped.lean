import RouteCompiler.Template.Library

/-!
The shipped templates as they are read: their pieces, and the nodes these make. Evaluation goes by
characters, so lines are first taken apart into the characters they spell.
-/

namespace RouteCompiler

theorem Text.unifyLineEnds_of_notMem {cs : List Char} (h : '\r' ∉ cs) :
    Text.unifyLineEnds cs = cs := by
  fun_induction Text.unifyLineEnds cs <;> simp_all

theorem Text.ofBytes?_toUTF8 {s : String} (h : '\r' ∉ s.toList) :
    Text.ofBytes? s.toUTF8 = some s := by
  have hv : String.fromUTF8? s.toUTF8 = some s := by
    rw [String.fromUTF8?, dif_pos (show s.toUTF8.IsValidUTF8 from s.isValidUTF8)]
    rfl
  rw [Text.ofBytes?, hv]
  simp [Text.unifyLineEnds_of_notMem h]

namespace Template
namespace Shipped

def charsOf (lines : List String) : List Char := lines.flatMap (·.toList ++ ['\n'])

theorem charsOf_nil : charsOf [] = [] := rfl

theorem charsOf_cons (l : List Char) (lines : List String) :
    charsOf (String.ofList l :: lines) = l ++ '\n' :: charsOf lines := by
  simp [charsOf]

theorem toList_textOf (lines : List String) : (textOf lines).toList = charsOf lines := by
  simp [textOf, charsOf, String.toList_join, List.flatMap_map]

/-! ## Pieces -/

def readmePieces : List Piece :=
  [ .text "# ".toList,
    .output [.word "integration", .sign '.', .word "name"],
    .text "\n".toList,
    .statement [.word "if", .word "integration", .sign '.', .word "description"],
    .text "\n".toList,
    .output [.word "integration", .sign '.', .word "description"],
    .text "\n".toList,
    .statement [.word "endif"],
    .text (charsOf ((readmeLines.drop 5).take 2)),
    .statement [.word "if", .word "integration", .sign '.', .word "id"],
    .text "`".toList,
    .output [.word "integration", .sign '.', .word "id"],
    .text "`".toList,
    .statement [.word "else"],
    .text "definition".toList,
    .statement [.word "endif"],
    .text ('.' :: '\n' :: charsOf ((readmeLines.drop 8).take 3)),
    .statement [.word "for", .word "step", .word "in", .word "steps"],
    .output [.word "loop", .sign '.', .word "index"],
    .text ". `".toList,
    .output [.word "step", .sign '.', .word "kind"],
    .text "`".toList,
    .statement [.word "if", .word "step", .sign '.', .word "name"],
    .text " ".toList,
    .output [.word "step", .sign '.', .word "name"],
    .statement [.word "endif"],
    .statement [.word "if", .word "step", .sign '.', .word "action"],
    .text " (".toList,
    .output [.word "step", .sign '.', .word "action", .sign '.', .word "name", .word "or",
      .word "step", .sign '.', .word "action", .sign '.', .word "connector_prefix"],
    .text ")".toList,
    .statement [.word "endif"],
    .text "\n".toList,
    .statement [.word "else"],
    .text (charsOf ((readmeLines.drop 15).take 1)),
    .statement [.word "endfor"],
    .text (charsOf (readmeLines.drop 17)) ]

def applicationPieces : List Piece :=
  [ .text (charsOf (applicationLines.take 6) ++ " * Entry point of the \"".toList),
    .output [.word "integration", .sign '.', .word "name"],
    .text ("\" integration.\n".toList ++ charsOf (applicationLines.drop 7)) ]

def propertiesPieces : List Piece :=
  [ .text "spring.application.name=".toList,
    .output [.word "integration", .sign '.', .word "name"],
    .text ('\n' :: charsOf ((propertiesLines.drop 1).take 1) ++ "camel.springboot.name=".toList),
    .output [.word "integration", .sign '.', .word "id", .word "or", .word "integration", .sign '.',
      .word "name"],
    .text ('\n' :: charsOf (propertiesLines.drop 3)) ]

def descriptorPieces : List Piece :=
  [ .text (charsOf (pomLines.take 7) ++ "  <artifactId>".toList),
    .output [.sign '(', .word "id", .word "or", .text "integration", .sign ')', .sign '|',
      .word "e"],
    .text "</artifactId>\n  <version>0.1.0</version>\n  <name>".toList,
    .output [.word "name", .sign '|', .word "e"],
    .text "</name>\n".toList,
    .statement [.word "if", .word "description"],
    .text "  <description>".toList,
    .output [.word "description", .sign '|', .word "e"],
    .text "</description>\n".toList,
    .statement [.word "endif"],
    .text (charsOf ((pomLines.drop 13).take 35)),
    .statement [.word "for", .word "connector", .word "in", .word "connectors"],
    .text "    <dependency>\n      <groupId>".toList,
    .output [.word "connector", .sign '.', .word "group_id", .sign '|', .word "e"],
    .text "</groupId>\n      <artifactId>".toList,
    .output [.word "connector", .sign '.', .word "artifact_id", .sign '|', .word "e"],
    .text "</artifactId>\n      <version>".toList,
    .output [.word "connector", .sign '.', .word "version", .sign '|', .word "e"],
    .text "</version>\n    </dependency>\n".toList,
    .statement [.word "endfor"],
    .text (charsOf (pomLines.drop 55)) ]

theorem pieces_shipped :
    ('\r' ∉ charsOf readmeLines ∧ Piece.ofText? (charsOf readmeLines) = some readmePieces) ∧
    ('\r' ∉ charsOf applicationLines ∧
      Piece.ofText? (charsOf applicationLines) = some applicationPieces) ∧
    ('\r' ∉ charsOf propertiesLines ∧
      Piece.ofText? (charsOf propertiesLines) = some propertiesPieces) ∧
    '\r' ∉ charsOf pomLines ∧ Piece.ofText? (charsOf pomLines) = some descriptorPieces := by
  refine ⟨?_, ?_, ?_, ?_⟩
  all_goals
    simp only [readmePieces, readmeLines, applicationPieces, applicationLines, propertiesPieces,
      propertiesLines, descriptorPieces, pomLines, List.take, List.drop]
    repeat rw [charsOf_cons]
    repeat rw [String.toList_ofList]
    rw [charsOf_nil]
    decide +kernel

/-! ## Nodes -/

def stepNodes : List Node :=
  [ .output (.member (.name "loop") "index"),
    .text ". `",
    .output (.member (.name "step") "kind"),
    .text "`",
    .choice (.member (.name "step") "name") [.text " ", .output (.member (.name "step") "name")] [],
    .choice (.member (.name "step") "action")
      [ .text " (",
        .output (.or (.member (.member (.name "step") "action") "name")
          (.member (.member (.name "step") "action") "connector_prefix")),
        .text ")" ]
      [],
    .text "\n" ]

def readmeNodes : List Node :=
  [ .text "# ",
    .output (.member (.name "integration") "name"),
    .text "\n",
    .choice (.member (.name "integration") "description")
      [.text "\n", .output (.member (.name "integration") "description"), .text "\n"] [],
    .text (String.ofList (charsOf ((readmeLines.drop 5).take 2))),
    .choice (.member (.name "integration") "id")
      [.text "`", .output (.member (.name "integration") "id"), .text "`"] [.text "definition"],
    .text (String.ofList ('.' :: '\n' :: charsOf ((readmeLines.drop 8).take 3))),
    .each "step" (.name "steps") stepNodes
      [.text (String.ofList (charsOf ((readmeLines.drop 15).take 1)))],
    .text (String.ofList (charsOf (readmeLines.drop 17))) ]

def applicationNodes : List Node :=
  [ .text (String.ofList (charsOf (applicationLines.take 6) ++ " * Entry point of the \"".toList)),
    .output (.member (.name "integration") "name"),
    .text (String.ofList ("\" integration.\n".toList ++ charsOf (applicationLines.drop 7))) ]

def propertiesNodes : List Node :=
  [ .text "spring.application.name=",
    .output (.member (.name "integration") "name"),
    .text (String.ofList
      ('\n' :: charsOf ((propertiesLines.drop 1).take 1) ++ "camel.springboot.name=".toList)),
    .output (.or (.member (.name "integration") "id") (.member (.name "integration") "name")),
    .text (String.ofList ('\n' :: charsOf (propertiesLines.drop 3))) ]

def dependencyNodes : List Node :=
  [ .text "    <dependency>\n      <groupId>",
    .output (.filtered (.member (.name "connector") "group_id") "e"),
    .text "</groupId>\n      <artifactId>",
    .output (.filtered (.member (.name "connector") "artifact_id") "e"),
    .text "</artifactId>\n      <version>",
    .output (.filtered (.member (.name "connector") "version") "e"),
    .text "</version>\n    </dependency>\n" ]

def descriptorNodes : List Node :=
  [ .text (String.ofList (charsOf (pomLines.take 7) ++ "  <artifactId>".toList)),
    .output (.filtered (.or (.name "id") (.text "integration")) "e"),
    .text "</artifactId>\n  <version>0.1.0</version>\n  <name>",
    .output (.filtered (.name "name") "e"),
    .text "</name>\n",
    .choice (.name "description")
      [ .text "  <description>", .output (.filtered (.name "description") "e"),
        .text "</description>\n" ]
      [],
    .text (String.ofList (charsOf ((pomLines.drop 13).take 35))),
    .each "connector" (.name "connectors") dependencyNodes [],
    .text (String.ofList (charsOf (pomLines.drop 55))) ]

/-- A file of lines without carriage returns is read as the nodes its pieces make. -/
theorem parse_textOf {lines : List String} {ps : List Piece} {nodes : List Node}
    (hp : '\r' ∉ charsOf lines ∧ Piece.ofText? (charsOf lines) = some ps)
    (hn : nodes? (2 * ps.length + 2) ps = some (nodes, none))
    (hf : (filtersOf false nodes).all knownFilters.contains = true) :
    Library.parse (textOf lines).toUTF8 = .ok nodes := by
  obtain ⟨hr, hp⟩ := hp
  have h : read? (charsOf lines) = some nodes := by
    simp only [read?, hp, hn, Option.bind_eq_bind, Option.bind_some]
    rfl
  rw [Library.parse, Text.ofBytes?_toUTF8 (by rwa [toList_textOf])]
  simp only [toList_textOf, h, hf, if_true]

theorem parse_readme : Library.parse (textOf readmeLines).toUTF8 = .ok readmeNodes :=
  parse_textOf pieces_shipped.1 rfl (by decide)

theorem parse_application :
    Library.parse (textOf applicationLines).toUTF8 = .ok applicationNodes :=
  parse_textOf pieces_shipped.2.1 rfl (by decide)

theorem parse_properties :
    Library.parse (textOf propertiesLines).toUTF8 = .ok propertiesNodes :=
  parse_textOf pieces_shipped.2.2.1 rfl (by decide)

theorem parse_descriptor : Library.parse (textOf pomLines).toUTF8 = .ok descriptorNodes :=
  parse_textOf pieces_shipped.2.2.2 rfl (by decide)

end Shipped
end Template
end RouteCompiler
