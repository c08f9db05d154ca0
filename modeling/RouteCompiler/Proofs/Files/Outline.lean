import RouteCompiler.Project.Output
import RouteCompiler.Proofs.Files.Growth
import RouteCompiler.Proofs.OrderedMap
import Mathlib.Data.List.Sort
import Mathlib.Data.String.Basic

/-!
Outlines of file trees. Nothing that is done to a tree looks into its files, so how it ends can be
told from a tree in which all files are empty.
-/

namespace RouteCompiler

def FileNode.outline : FileNode → FileNode
  | .directory => .directory
  | .file _ => .file .empty

/-- The tree with all its files made empty. -/
def FileTree.outline (t : FileTree) : FileTree := ⟨t.nodes.mapEntries fun _ n => n.outline⟩

namespace OrderedMap

variable {κ α β : Type} [DecidableEq κ]

theorem mapEntries_insert (f : α → β) (m : OrderedMap κ α) (k : κ) (v : α) :
    (m.insert k v).mapEntries (fun _ => f) = (m.mapEntries fun _ => f).insert k (f v) := by
  have hp : ∀ es : List (κ × α),
      (put k v es).map (fun e => (e.1, f e.2)) = put k (f v) (es.map fun e => (e.1, f e.2)) := by
    intro es
    induction es with
    | nil => rfl
    | cons e es ih =>
      rw [put, List.map_cons, put]
      split
      · rfl
      · rw [List.map_cons, ih]
  exact OrderedMap.ext (hp m.entries)

end OrderedMap

namespace FileTree

variable (t : FileTree) (cwd l : Location) (p : Path)

theorem node?_outline : t.outline.node? l = (t.node? l).map FileNode.outline := by
  rw [node?, node?]
  split
  · rfl
  · exact OrderedMap.get?_mapEntries _ _ _

theorem outline_set (n : FileNode) : (t.set l n).outline = t.outline.set l n.outline :=
  congrArg FileTree.mk (OrderedMap.mapEntries_insert _ _ _ _)

theorem step_outline : t.outline.step l = t.step l := by
  funext s
  rw [step, step, node?_outline]
  cases t.node? l with
  | none => rfl
  | some n => cases n <;> rfl

theorem locate_outline : t.outline.locate cwd p = t.locate cwd p := by
  have hstep : t.outline.step = t.step := funext t.step_outline
  rw [locate, locate, hstep]

theorem isDirectory_outline : t.outline.isDirectory cwd p = t.isDirectory cwd p := by
  rw [isDirectory, isDirectory, stat, stat, locate_outline]
  cases t.locate cwd p with
  | error e => rfl
  | ok l =>
    simp only [bind, Except.bind, node?_outline]
    cases t.node? l with
    | none => rfl
    | some n => cases n <;> rfl

theorem makeDirectory_outline :
    t.outline.makeDirectory cwd p = (t.makeDirectory cwd p).map outline := by
  rw [makeDirectory, makeDirectory, locate_outline]
  cases t.locate cwd p with
  | error e => rfl
  | ok l =>
    simp only [bind, Except.bind, node?_outline]
    cases t.node? l with
    | none => exact congrArg Except.ok (t.outline_set l .directory).symm
    | some n => rfl

theorem write_outline (content : ByteArray) :
    t.outline.write cwd p .empty = (t.write cwd p content).map outline := by
  rw [write, write, locate_outline]
  cases t.locate cwd p with
  | error e => rfl
  | ok l =>
    have hset : Except.ok (t.outline.set l (.file .empty)) =
        (Except.ok (t.set l (.file content)) : Except FileError FileTree).map outline :=
      congrArg Except.ok (t.outline_set l (.file content)).symm
    simp only [bind, Except.bind, node?_outline]
    cases t.node? l with
    | none => exact hset
    | some n =>
      cases n with
      | directory => rfl
      | file => exact hset

theorem makeDirectories_outline (k : Nat) (t : FileTree) (p : Path) :
    makeDirectories cwd k t.outline p =
      ((makeDirectories cwd k t p).1, (makeDirectories cwd k t p).2.outline) := by
  induction k generalizing t p with
  | zero =>
    rw [makeDirectories, makeDirectories, makeDirectory_outline, isDirectory_outline]
    cases t.makeDirectory cwd p with
    | ok t' => rfl
    | error e =>
      cases e with
      | notFound =>
        simp only [Except.map]
        split <;> rfl
      | «exists» | notDirectory | isDirectory => rfl
  | succ k ih =>
    rw [makeDirectories, makeDirectories, makeDirectory_outline, isDirectory_outline]
    cases t.makeDirectory cwd p with
    | ok t' => rfl
    | error e =>
      cases e with
      | notFound =>
        simp only [Except.map]
        split
        · rfl
        rw [ih]
        cases makeDirectories cwd k t p.parent with
        | mk r t₁ =>
          cases r with
          | error => rfl
          | ok =>
            simp only [makeDirectory_outline, isDirectory_outline]
            cases t₁.makeDirectory cwd p <;> rfl
      | «exists» | notDirectory | isDirectory => rfl

end FileTree

/-! ## Writing projects -/

theorem writeFile_outline (cwd : Location) (t : FileTree) (p : Path) (content : ByteArray) :
    writeFile cwd t.outline p .empty =
      ((writeFile cwd t p content).1, (writeFile cwd t p content).2.outline) := by
  rw [writeFile, writeFile, FileTree.makeDirectories_outline]
  cases FileTree.makeDirectories cwd p.parts.length t p.parent with
  | mk r t₁ =>
    cases r with
    | error => rfl
    | ok =>
      simp only [FileTree.write_outline t₁ cwd p content]
      cases t₁.write cwd p content <;> rfl

theorem fst_writeFiles_outline (cwd : Location) (out : Path) (es : List (String × ByteArray))
    (t : FileTree) : (writeFiles cwd out (es.map fun e => (e.1, .empty)) t.outline).1 =
      (writeFiles cwd out es t).1 := by
  induction es generalizing t with
  | nil => rfl
  | cons e es ih =>
    rw [List.map_cons, writeFiles, writeFiles, writeFile_outline cwd t _ e.2]
    cases writeFile cwd t (out.join (Path.ofString e.1)) e.2 with
    | mk r t₁ =>
      cases r with
      | error => rfl
      | ok => exact ih t₁

theorem keys_inOrder (files : Artifacts) :
    files.inOrder.map Prod.fst = files.keys.insertionSort (· ≤ ·) := by
  rw [← List.mergeSort_eq_insertionSort]
  exact List.map_mergeSort (f := Prod.fst)
    (r := fun e f : String × ByteArray => decide (e.1 ≤ f.1)) fun _ _ _ _ => rfl

/-- Whether a project can be written can be told from its paths. -/
theorem fst_writeArtifacts (cwd : Location) (t : FileTree) (out : Path) (files : Artifacts) :
    (writeArtifacts cwd t out files).1 =
      (writeFiles cwd out ((files.keys.insertionSort (· ≤ ·)).map (·, .empty)) t.outline).1 := by
  rw [writeArtifacts, ← fst_writeFiles_outline, ← keys_inOrder, List.map_map]
  rfl

end RouteCompiler
