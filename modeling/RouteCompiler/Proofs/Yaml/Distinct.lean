import RouteCompiler.Proofs.Compile
import RouteCompiler.Proofs.Yaml.Entries
import RouteCompiler.Proofs.Yaml.FlowGrammar

/-!
In the value of a document no mapping has a text key twice, wherever it stands below mappings. What
a node is built to depends on the anchored nodes built before it, so the induction carries that all
of them are so too, and with them what merging takes from them. The same holds of an object read
from JSON, whose members are written one after the other.
-/

namespace RouteCompiler

namespace Json

variable {cs r : List Char} {ms : List (Points × Json)}

theorem unsignedNumber_ne_obj (negative : Bool) :
    unsignedNumber negative cs ≠ some (.ok (.obj ms, r)) := by
  intro h
  cases cs with
  | nil => cases h
  | cons c cs =>
    rw [unsignedNumber] at h
    split at h
    · generalize (if c = '0' then ([c], cs) else _ : List Char × List Char) = p at h
      dsimp only at h
      split at h
      · split at h <;> cases h
      · cases h
    · cases h

theorem scalar_ne_obj : scalar cs ≠ .ok (.obj ms, r) := by
  intro h
  rw [scalar] at h
  split at h
  next a hw =>
    obtain rfl := Except.ok.inj h
    obtain ⟨w, hmem, hw⟩ := List.exists_of_findSome?_eq_some hw
    obtain ⟨_, -, hw⟩ := Option.map_eq_some_iff.1 hw
    have hnot : ∀ w ∈ words, ∀ ms, w.2 ≠ .obj ms := by simp [words]
    exact hnot w hmem ms (congrArg Prod.fst hw)
  next =>
    cases hn : number cs with
    | none =>
      rw [hn] at h
      cases h
    | some a =>
      rw [hn] at h
      obtain rfl : a = .ok (.obj ms, r) := h
      rw [number.eq_def] at hn
      split at hn <;> exact unsignedNumber_ne_obj _ hn

theorem exists_ofMembers_of_value {room f : Nat} (h : value room f cs = .ok (.obj ms, r)) :
    ∃ written, Json.obj ms = ofMembers written := by
  rw [value.eq_def] at h
  split at h
  · cases h
  · obtain ⟨a, -, h⟩ := exists_of_bind_eq_ok h
    cases h
  · split at h
    · cases h
    · split at h
      · cases h
      · obtain ⟨a, -, h⟩ := exists_of_bind_eq_ok h
        cases h
  · split at h
    · cases h
    · split at h
      · cases h
        exact ⟨[], rfl⟩
      · obtain ⟨a, -, h⟩ := exists_of_bind_eq_ok h
        exact ⟨a.1, (congrArg Prod.fst (Except.ok.inj h)).symm⟩
  · exact absurd h scalar_ne_obj

theorem exists_ofMembers_of_read {s : String} (h : read s = .ok (.obj ms)) :
    ∃ written, Json.obj ms = ofMembers written := by
  rw [read, readWithin] at h
  split at h
  · cases h
  · obtain ⟨⟨v, r⟩, hvalue, h⟩ := exists_of_bind_eq_ok h
    dsimp only at h
    split at h
    · obtain rfl := Except.ok.inj h
      exact exists_ofMembers_of_value hvalue
    · cases h

end Json

namespace Yaml

theorem Value.distinct_of_read_json {s : String} {j : Json} {es : List (Value × Value)}
    (h : Json.read s = .ok j) (hes : ofJson j = .map es) : Distinct es := by
  cases j with
  | obj ms =>
    obtain ⟨written, hw⟩ := Json.exists_ofMembers_of_read h
    rw [hw, ofJson_ofMembers] at hes
    cases hes
    exact distinct_distinctEntries
  | _ => cases hes

/-- The keys of the mapping are distinct, and so in mappings below it. -/
inductive Value.Neat : Value → Prop
  | map {es : List (Value × Value)} (hd : Value.Distinct es) (h : ∀ e ∈ es, Neat e.2) :
      Neat (.map es)
  | other {v : Value} (h : ∀ es, v ≠ .map es) : Neat v

namespace Built

inductive Neat : Built → Prop
  | leaf {v : Value} (hv : v.Neat) : Neat (.leaf v)
  | seq {v : Value} {items : List Built} (hv : v.Neat) (h : ∀ i ∈ items, Neat i) :
      Neat (.seq v items)
  | map {v : Value} {es : List (Value × Value)} (hv : v.Neat) (h : ∀ e ∈ es, e.2.Neat) :
      Neat (.map v es)

variable {b : Built}

theorem Neat.value (h : b.Neat) : b.value.Neat := by
  cases h with
  | leaf hv | seq hv _ | map hv _ => exact hv

theorem Neat.entries (h : b.Neat) : ∀ e ∈ b.entries, e.2.Neat := by
  cases h with
  | leaf _ | seq _ _ => exact nofun
  | map _ h => exact h

theorem Neat.merged (h : b.Neat) : ∀ e ∈ b.merged, e.2.Neat := by
  cases h with
  | leaf _ => exact nofun
  | seq _ hitems =>
    intro e he
    obtain ⟨i, hi, he⟩ := List.mem_flatMap.1 he
    exact (hitems i (List.mem_reverse.1 hi)).entries e he
  | map _ h => exact h

theorem neat_ofScalar (tag : Tag) (s : Points) : (ofScalar tag s).Neat := by
  refine .other fun es he => ?_
  rw [ofScalar.eq_def] at he
  split at he
  · cases he
  · split at he
    next v hv =>
      have hcollection := (Node.isCollection_of_value hv).2
      rw [he] at hcollection
      cases hcollection
    next => cases he

theorem neat_ofItems {items : List Built} (h : ∀ i ∈ items, i.Neat) (tag : Tag) :
    (ofItems tag items).Neat := by
  refine .seq (.other fun es he => ?_) h
  split at he <;> cases he

theorem neat_putEntry {P : Value → Prop} {k v : Value} {es : List (Value × Value)} (hv : P v)
    (h : ∀ e ∈ es, P e.2) : ∀ e ∈ Value.putEntry k v es, P e.2 := by
  induction es with
  | nil => simpa [Value.putEntry] using hv
  | cons e es ih =>
    obtain ⟨k', v'⟩ := e
    obtain ⟨hfirst, hrest⟩ := List.forall_mem_cons.1 h
    rw [Value.putEntry]
    split
    · exact List.forall_mem_cons.2 ⟨hv, hrest⟩
    · exact List.forall_mem_cons.2 ⟨hfirst, ih hrest⟩

theorem neat_distinctEntries {es : List (Value × Value)} (h : ∀ e ∈ es, e.2.Neat) :
    ∀ e ∈ Value.distinctEntries es, e.2.Neat := by
  have hfold : ∀ acc : List (Value × Value), (∀ e ∈ acc, e.2.Neat) →
      ∀ e ∈ es.foldl (fun acc e => Value.putEntry e.1 e.2 acc) acc, e.2.Neat := by
    induction es with
    | nil => exact fun _ h => h
    | cons e es ih =>
      obtain ⟨hfirst, hrest⟩ := List.forall_mem_cons.1 h
      exact fun acc hacc => ih hrest _ (neat_putEntry hfirst hacc)
  exact hfold [] nofun

theorem neat_ofEntries {es : List (Value × Value)} (h : ∀ e ∈ es, e.2.Neat) (tag : Tag)
    (scalar : Option Points) : (ofEntries tag scalar es).Neat := by
  have hes := neat_distinctEntries h
  refine .map ?_ hes
  split
  · exact .map Value.distinct_distinctEntries hes
  · exact .other nofun
  · exact neat_ofScalar _ _

end Built

namespace Node

/-- All anchored nodes are built so. -/
def NeatAnchors (env : BuiltAnchors) : Prop := ∀ p ∈ env, p.2.Neat

variable {env : BuiltAnchors}

theorem neat_unfold {build : BuiltAnchors → Built × BuiltAnchors}
    (h : ∀ env, NeatAnchors env → (build env).1.Neat ∧ NeatAnchors (build env).2)
    (henv : NeatAnchors env) (anchor : Option String) (recursive : Bool) :
    (unfold anchor recursive env build).1.Neat ∧
      NeatAnchors (unfold anchor recursive env build).2 := by
  cases anchor with
  | none => exact h env henv
  | some a =>
    have hfold : ∀ n, (Nat.fold n (fun _ _ (r : Built × BuiltAnchors) => build ((a, r.1) :: env))
          (.leaf .null, env)).1.Neat ∧
        NeatAnchors (Nat.fold n (fun _ _ (r : Built × BuiltAnchors) => build ((a, r.1) :: env))
          (.leaf .null, env)).2 := by
      intro n
      induction n with
      | zero => exact ⟨.leaf (.other nofun), henv⟩
      | succ n ih =>
        rw [Nat.fold_succ]
        exact h _ (List.forall_mem_cons.2 ⟨ih.1, henv⟩)
    have hbuilt : ∀ r : Built × BuiltAnchors, r.1.Neat ∧ NeatAnchors r.2 →
        r.1.Neat ∧ NeatAnchors ((a, r.1) :: r.2) :=
      fun r hr => ⟨hr.1, List.forall_mem_cons.2 hr⟩
    rw [unfold]
    cases recursive with
    | true => exact hbuilt _ (hfold unfoldings)
    | false => exact hbuilt _ (h env henv)

theorem neat_of_lookup (henv : NeatAnchors env) (n : String) :
    ((env.lookup n).getD (.leaf .null)).Neat := by
  induction env with
  | nil => exact .leaf (.other nofun)
  | cons p env ih =>
    obtain ⟨hfirst, hrest⟩ := List.forall_mem_cons.1 henv
    rw [List.lookup_cons]
    split
    · exact hfirst
    · exact ih hrest

mutual
theorem neat_build {env : BuiltAnchors} (anchors : Anchors) (henv : NeatAnchors env) (n : Node) :
    (build anchors env n).1.Neat ∧ NeatAnchors (build anchors env n).2 := by
  match n with
  | .alias n =>
    rw [build]
    exact ⟨neat_of_lookup henv n, henv⟩
  | .scalar a tag s =>
    have hb : (Built.leaf (Built.ofScalar tag s)).Neat := .leaf (Built.neat_ofScalar tag s)
    rw [build]
    refine ⟨hb, fun p hp => ?_⟩
    cases a with
    | none => exact henv p hp
    | some a =>
      cases hp with
      | head => exact hb
      | tail _ hp => exact henv p hp
  | .seq a tag items =>
    rw [build]
    refine neat_unfold (fun env henv => ?_) henv _ _
    have hitems := neat_buildItems anchors henv items
    exact ⟨Built.neat_ofItems hitems.1 tag, hitems.2⟩
  | .map a tag entries =>
    rw [build]
    refine neat_unfold (fun env henv => ?_) henv _ _
    obtain ⟨hmerges, hown, hafter⟩ := neat_buildEntries anchors henv entries
    exact ⟨Built.neat_ofEntries (List.forall_mem_append.2 ⟨hmerges, hown⟩) _ _, hafter⟩

theorem neat_buildItems {env : BuiltAnchors} (anchors : Anchors) (henv : NeatAnchors env)
    (ns : List Node) :
    (∀ b ∈ (buildItems anchors env ns).1, b.Neat) ∧ NeatAnchors (buildItems anchors env ns).2 := by
  match ns with
  | [] =>
    rw [buildItems]
    exact ⟨nofun, henv⟩
  | n :: r =>
    have hfirst := neat_build anchors henv n
    have hrest := neat_buildItems anchors hfirst.2 r
    rw [buildItems]
    exact ⟨List.forall_mem_cons.2 ⟨hfirst.1, hrest.1⟩, hrest.2⟩

theorem neat_buildEntries {env : BuiltAnchors} (anchors : Anchors) (henv : NeatAnchors env)
    (es : List (Node × Node)) :
    (∀ e ∈ (buildEntries anchors env es).1, e.2.Neat) ∧
      (∀ e ∈ (buildEntries anchors env es).2.1, e.2.Neat) ∧
      NeatAnchors (buildEntries anchors env es).2.2 := by
  match es with
  | [] =>
    rw [buildEntries]
    exact ⟨nofun, nofun, henv⟩
  | (k, v) :: r =>
    have hkey := neat_build anchors henv k
    have hvalue := neat_build anchors hkey.2 v
    obtain ⟨hmerges, hown, hafter⟩ := neat_buildEntries anchors hvalue.2 r
    rw [buildEntries]
    dsimp only
    split
    · exact ⟨List.forall_mem_append.2 ⟨hvalue.1.merged, hmerges⟩, hown, hafter⟩
    · exact ⟨hmerges, List.forall_mem_cons.2 ⟨hvalue.1.value, hown⟩, hafter⟩
end

end Node

theorem Value.neat_of_ofNode {n : Node} {v : Value} (h : ofNode n = .ok v) : v.Neat := by
  rw [ofNode] at h
  cases hc : n.check with
  | error e =>
    rw [hc] at h
    cases h
  | ok u =>
    rw [hc] at h
    obtain rfl := Except.ok.inj h
    have hnone : Node.NeatAnchors [] := fun p hp => absurd hp List.not_mem_nil
    exact (Node.neat_build _ hnone n).1.value

/-- The value of a document is neat. -/
theorem Value.neat_of_read {s : String} {v : Value} (h : read s = .ok v) : v.Neat := by
  simp only [read] at h
  split at h
  · cases h
  · obtain rfl := Except.ok.inj h
    exact .other fun es he => by cases he
  · exact neat_of_ofNode h

end Yaml
end RouteCompiler
