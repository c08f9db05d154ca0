import RouteCompiler.Proofs.Yaml.JsonText
import RouteCompiler.Request.Load

/-!
JSON text is read as if it were YAML text. For a request in a spelling that all readers share this
makes no difference: the outcome is that of its JSON value. A tabulator between two parts of the
text makes one, since no token of YAML text starts with it. The two escapes of a surrogate pair are
no shared spelling either: only the reader of JSON makes one character of them.
-/

namespace RouteCompiler.FlowRequest

open Json (IsLayout Spells)

/-- So many containers within each other are too few for any of the readers to run out of stack. -/
def sharedNesting : Nat := 250

/-- The text of a JSON value comes to the same request, or to the same error, as the value. -/
theorem ofText_of_spells {n : Nat} {l w l' : List Char} {v : Json} (hl : IsLayout l)
    (h : Spells n w (.value v)) (hl' : IsLayout l') (hn : n ≤ sharedNesting) :
    Json.read (String.ofList (l ++ (w ++ l'))) = .ok v ∧
      ofText (String.ofList (l ++ (w ++ l'))) = (ofJson v).mapError .compile := by
  have hroom : sharedNesting ≤ Json.nestingLimit := by decide
  refine ⟨?_, ?_⟩
  · rw [Json.read, String.toList_ofList, Json.readWithin_of_spells hl h hl' (Nat.le_trans hn hroom)]
  · rw [ofText, Yaml.Value.read_of_spells hl h hl']
    rfl

def spacedRequest : String :=
  "\x7b \"integration\" : \x7b\"name\": \"A\\u00e9\"\x7d,\n  \"connectors\":\r\n\x7b \x7d\x7d\n"

theorem spells_spacedRequest : ∃ w, spacedRequest = String.ofList ([] ++ (w ++ ['\n'])) ∧
    Spells 2 w (.value (Json.ofMembers
      [("integration", Json.ofMembers [("name", .str "Aé")]), ("connectors", .obj [])])) := by
  have hpair : Json.NotPaired (.ofNat 0xe9) [] := by
    intro es r m h
    cases h
  have hname : Json.Quoted ['A', '\\', 'u', '0', '0', 'e', '9'] "Aé" :=
    .char rfl (@Json.Quoted.unit 0xe9 ['0', '0', 'e', '9'] [] [] rfl rfl hpair .nil)
  have hintegration := Spells.object (@Spells.members 0 0 [] ['n', 'a', 'm', 'e'] [' '] _ [] []
    "name" _ _ (by decide) (Json.quoted_of_all (by decide)) (by decide) (by decide) (.string hname)
    (by decide) .noMoreMembers)
  have hconnectors := @Spells.members 1 0 ['\n', ' ', ' '] "connectors".toList ['\r', '\n'] _ [] []
    "connectors" _ _ (by decide) (Json.quoted_of_all (by decide)) (by decide) (by decide)
    (@Spells.emptyObject _ [' '] (by decide)) (by decide) .noMoreMembers
  have h := Spells.object (@Spells.members 1 1 [' '] "integration".toList [' '] _ [] _
    "integration" _ _ (by decide) (Json.quoted_of_all (by decide)) (by decide) (by decide)
    hintegration (by decide) (.moreMembers hconnectors))
  exact ⟨_, by decide +kernel, h⟩

theorem ofText_spacedRequest :
    Json.read spacedRequest =
        .ok (.obj [("integration", .obj [("name", .str "Aé")]), ("connectors", .obj [])]) ∧
      ofText spacedRequest = .ok ⟨⟨none, "Aé", none, []⟩, {}⟩ := by
  obtain ⟨w, hw, h⟩ := spells_spacedRequest
  have hread := @ofText_of_spells _ [] w ['\n'] _ (by decide) h (by decide) (by decide)
  rw [← hw] at hread
  exact ⟨hread.1, hread.2.trans rfl⟩

/-- With a tabulator before its first name an object is the same JSON value, and no request. -/
theorem ofText_of_tab {n : Nat} {w : List Char} {ms : List (Points × Json)}
    (h : Spells n w (.members ms)) (hn : n < sharedNesting) :
    Json.read (String.ofList ('\x7b' :: '\t' :: (w ++ ['\x7d']))) = .ok (Json.ofMembers ms) ∧
      ofText (String.ofList ('\x7b' :: '\t' :: (w ++ ['\x7d']))) =
        .error (.compile .requestMalformed) := by
  have hroom : sharedNesting ≤ Json.nestingLimit := by decide
  refine ⟨?_, ?_⟩
  · rw [Json.read, String.toList_ofList]
    exact Json.readWithin_ok_of_le (Nat.le_trans hn hroom)
      (Json.readWithin_object (b := ['\t']) (List.forall_mem_singleton.2 rfl) h)
  · rw [ofText, Yaml.Value.read_tab]

def tabbedRequest : String := "\x7b\t\"integration\": \x7b\"name\": \"A\"\x7d\x7d"

theorem spells_tabbedRequest : ∃ w,
    tabbedRequest = String.ofList ('\x7b' :: '\t' :: (w ++ ['\x7d'])) ∧
    Spells 1 w (.members [("integration", Json.ofMembers [("name", .str "A")])]) := by
  have hintegration := Spells.object (@Spells.members 0 0 [] ['n', 'a', 'm', 'e'] [' '] _ [] []
    "name" _ _ (by decide) (Json.quoted_of_all (by decide)) (by decide) (by decide)
    (.string (@Json.quoted_of_all ['A'] (by decide))) (by decide) .noMoreMembers)
  have h := @Spells.members 1 0 [] "integration".toList [' '] _ [] [] "integration" _ _ (by decide)
    (Json.quoted_of_all (by decide)) (by decide) (by decide) hintegration (by decide)
    .noMoreMembers
  exact ⟨_, by decide +kernel, h⟩

/-- There is a request for the value, and none for its text. -/
theorem ofText_tabbedRequest : ∃ v, Json.read tabbedRequest = .ok v ∧
    ofJson v = .ok ⟨⟨none, "A", none, []⟩, {}⟩ ∧
    ofText tabbedRequest = .error (.compile .requestMalformed) := by
  obtain ⟨w, hw, h⟩ := spells_tabbedRequest
  have htab := ofText_of_tab h (by decide)
  rw [← hw] at htab
  exact ⟨_, htab.1, rfl, htab.2⟩

end RouteCompiler.FlowRequest
