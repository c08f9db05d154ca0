import RouteCompiler.Proofs.Project.Paths

/-!
Which locations writing a project can change. A path that stays inside the directory changes only
what is below it; apart from that, directories missing on the way to it are made. Everything a build
makes itself stays inside. Destinations of resources are taken as they are, and one that leads
outside is written there.
-/

namespace RouteCompiler

open Project Template

/-- What may become of a location when files are written below a directory. -/
inductive FileTree.Confined (cwd : Location) (out : Path) (t t' : FileTree) (l : Location) : Prop
  | kept (h : t'.node? l = t.node? l)
  | below (h : Location.Below (out.goal cwd) l)
  | made (hway : l ∈ out.way cwd) (hnone : t.node? l = none) (h : t'.node? l = some .directory)

/-- The path, seen from the directory, leaves it or does not go below it, and goes through the
location. -/
def Path.Strays (cwd : Location) (out : Path) (path : String) (l : Location) : Prop :=
  (Path.ofString path).isInward = false ∧ l ∈ (out.join (Path.ofString path)).way cwd

variable {cwd : Location} {t t' : FileTree} {out : Path} {l : Location}

/-- Files placed along inward paths stay confined. -/
theorem FileTree.Received.confined {es : List (String × ByteArray)}
    (h : FileTree.Received cwd (placements out es) t t' l) :
    FileTree.Confined cwd out t t' l ∨ ∃ path ∈ es.map Prod.fst, Path.Strays cwd out path l := by
  cases h with
  | kept h => exact .inl (.kept h)
  | made he hway hnone h =>
    obtain ⟨e, hmem, rfl⟩ := List.mem_map.1 he
    have hway := Path.way_parent_subset hway
    cases hin : (Path.ofString e.1).isInward with
    | false => exact .inr ⟨e.1, List.mem_map_of_mem hmem, hin, hway⟩
    | true =>
      obtain hout | hbelow := Path.below_of_mem_way_join hin hway
      · exact .inl (.made hout hnone h)
      · exact .inl (.below hbelow)
  | placed he hgoal =>
    obtain ⟨e, hmem, rfl⟩ := List.mem_map.1 he
    cases hin : (Path.ofString e.1).isInward with
    | false => exact .inr ⟨e.1, List.mem_map_of_mem hmem, hin, hgoal ▸ Path.goal_mem_way⟩
    | true => exact .inl (.below (hgoal ▸ Path.below_goal_join hin))

theorem confined_writeArtifacts (cwd : Location) (t : FileTree) (out : Path) (files : Artifacts)
    (l : Location) : FileTree.Confined cwd out t (writeArtifacts cwd t out files).2.2 l ∨
      ∃ path ∈ files.keys, Path.Strays cwd out path l :=
  (receives_writeArtifacts cwd t out files l).confined

/-- The paths of what a build makes itself do not stray. -/
theorem confined_writeArtifacts_of_generate {c : Compiler} {src : Sources} {r : FlowRequest}
    {files : Artifacts} (hr : c.registry = Registry.builtin) (h : (c.generate src r).1 = .ok files)
    (cwd : Location) (t : FileTree) (out : Path) (l : Location) :
    FileTree.Confined cwd out t (writeArtifacts cwd t out files).2.2 l ∨
      ∃ res ∈ c.settings.templates.resources, Path.Strays cwd out res.destination l := by
  obtain hconfined | ⟨path, hp, hstrays⟩ := confined_writeArtifacts cwd t out files l
  · exact .inl hconfined
  obtain hown | ⟨res, hres, rfl⟩ := mem_keys_of_generate hr h hp
  · have hin := (plain_of_mem_ownPaths hown).isInward
    rw [hstrays.1] at hin
    cases hin
  · exact .inr ⟨res, hres, hstrays⟩

/-- Writing a project below a directory, however it ends, changes nothing but what is below and what
is missing on the way there, unless a path strays. No link can lead a path astray, for there are
none in a tree. For a project that was compiled, only the destination of a resource can stray. Where
a path leads that is written there is a file, be it outside. -/
theorem writeArtifacts_confined (cwd : Location) (t : FileTree) (out : Path) :
    (∀ files l, FileTree.Confined cwd out t (writeArtifacts cwd t out files).2.2 l ∨
      ∃ path ∈ files.keys, Path.Strays cwd out path l) ∧
    (∀ (c : Compiler) src r files, c.registry = Registry.builtin →
      (c.generate src r).1 = .ok files →
      ∀ l, FileTree.Confined cwd out t (writeArtifacts cwd t out files).2.2 l ∨
        ∃ res ∈ c.settings.templates.resources, Path.Strays cwd out res.destination l) ∧
    (∀ files, (writeArtifacts cwd t out files).1 = .ok () → ∀ path ∈ files.keys, ∃ content,
      (writeArtifacts cwd t out files).2.2.node? (target cwd out path) = some (.file content)) := by
  refine ⟨confined_writeArtifacts cwd t out, ?_, ?_⟩
  · intro c src r files hr h
    exact confined_writeArtifacts_of_generate hr h cwd t out
  · intro files h path hp
    exact exists_node_of_writeArtifacts h hp

/-- The project with the colliding resources stays inside whatever directory it is written to. -/
theorem writeArtifacts_confined_mappedTwice :
    ∃ files, ((Compiler.ofSettings { templates := { resources := collidingResources } }).generate
        ⟨Shipped.install FileTree.empty, []⟩ mappedTwice).1 = .ok files ∧
      ∀ cwd t out l, FileTree.Confined cwd out t (writeArtifacts cwd t out files).2.2 l := by
  have hin : ∀ res ∈ collidingResources, (Path.ofString res.destination).isInward = true := by
    decide +kernel
  obtain ⟨files, h⟩ := exists_generate_mappedTwice
  refine ⟨files, h, fun cwd t out l => ?_⟩
  obtain hconfined | ⟨res, hres, hout, -⟩ :=
    (writeArtifacts_confined cwd t out).2.1 _ _ _ files rfl h l
  · exact hconfined
  · rw [hin res hres] at hout
    cases hout

/-- One file, a level above the directory. -/
def strayFile : Artifacts := OrderedMap.ofList [("../x.txt", "hi".toUTF8)]

/-- It is written, and it is not below the directory. -/
theorem writeArtifacts_strayFile :
    (writeArtifacts [] FileTree.empty ⟨"", ["out"]⟩ strayFile).1 = .ok () ∧
      ¬ FileTree.Confined [] ⟨"", ["out"]⟩ FileTree.empty
        (writeArtifacts [] FileTree.empty ⟨"", ["out"]⟩ strayFile).2.2 ["x.txt"] := by
  have hnode : (writeArtifacts [] FileTree.empty ⟨"", ["out"]⟩ strayFile).2.2.node? ["x.txt"] =
      some (.file "hi".toUTF8) := by decide +kernel
  refine ⟨by decide +kernel, fun h => ?_⟩
  cases h with
  | kept h =>
    rw [hnode] at h
    cases h
  | below h =>
    obtain ⟨xs, -, h⟩ := h
    exact absurd (List.cons.inj h).1 (by decide)
  | made _ _ h =>
    rw [hnode] at h
    cases h

end RouteCompiler
