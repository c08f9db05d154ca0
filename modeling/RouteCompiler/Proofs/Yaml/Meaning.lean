import RouteCompiler.Proofs.Yaml.Grammar
import RouteCompiler.Yaml.Value.OfNode

/-!
Nodes made of scalars, sequences and mappings under texts have their values: nothing in them is
anchored or merged, and no part of them is refused.
-/

namespace RouteCompiler.Yaml

/-- The node, which has no anchors and the tags of its kind throughout, stands for the value. -/
inductive Node.Means : Node → Value → Prop
  | scalar (tag : Tag) (s : Points) (v : Value) (h : Scalar.value tag s = .ok v) :
    Means (.scalar none tag s) v
  | seq (items : List (Node × Value)) (h : ∀ i ∈ items, Means i.1 i.2) :
    Means (.seq none .seq (items.map Prod.fst)) (.seq (items.map Prod.snd))
  | map (entries : List (Points × Node × Value)) (h : ∀ e ∈ entries, Means e.2.1 e.2.2) :
    Means (.map none .map (entries.map fun e => (Node.text e.1, e.2.1)))
      (.map (Value.distinctEntries (entries.map fun e => (.text e.1, e.2.2))))

namespace Node

theorem Means.text (s : Points) : Means (Node.text s) (.text s) := .scalar .str s _ rfl

/-! ## Scalars -/

/-- Only tags of scalars give a text a value, and the value is no collection. -/
theorem isCollection_of_value {tag : Tag} {s : Points} {v : Value}
    (h : Scalar.value tag s = .ok v) : isCollectionTag tag = false ∧ v.isCollection = false := by
  have hmap {α : Type} {f : α → Value} {r : Except Error α} (hf : ∀ a, (f a).isCollection = false)
      (hr : f <$> r = .ok v) : v.isCollection = false := by
    cases r with
    | error e => cases hr
    | ok a =>
      cases hr
      exact hf a
  cases tag with
  | null | str =>
    cases h
    exact ⟨rfl, rfl⟩
  | bool | int | float | binary | timestamp => exact ⟨rfl, hmap (fun _ => rfl) h⟩
  | seq | map | set | omap | pairs | merge | value | unknown => cases h

/-! ## Anchors -/

theorem anchorsOfItems_eq {ns : List Node} {seen : List String}
    (h : ∀ n ∈ ns, n.anchors seen = some seen) : anchorsOfItems seen ns = some seen := by
  induction ns with
  | nil => rfl
  | cons n ns ih =>
    simp [anchorsOfItems, h n List.mem_cons_self, ih fun m hm => h m (List.mem_cons_of_mem n hm)]

theorem anchorsOfEntries_eq {es : List (Node × Node)} {seen : List String}
    (h : ∀ e ∈ es, e.1.anchors seen = some seen ∧ e.2.anchors seen = some seen) :
    anchorsOfEntries seen es = some seen := by
  induction es with
  | nil => rfl
  | cons e es ih =>
    obtain ⟨h₁, h₂⟩ := h e List.mem_cons_self
    simp [anchorsOfEntries, h₁, h₂, ih fun m hm => h m (List.mem_cons_of_mem e hm)]

theorem anchoredInItems_eq {ns : List Node} (h : ∀ n ∈ ns, n.anchored = []) :
    anchoredInItems ns = [] := by
  induction ns with
  | nil => rfl
  | cons n ns ih =>
    simp [anchoredInItems, h n List.mem_cons_self, ih fun m hm => h m (List.mem_cons_of_mem n hm)]

theorem anchoredInEntries_eq {es : List (Node × Node)}
    (h : ∀ e ∈ es, e.1.anchored = [] ∧ e.2.anchored = []) : anchoredInEntries es = [] := by
  induction es with
  | nil => rfl
  | cons e es ih =>
    obtain ⟨h₁, h₂⟩ := h e List.mem_cons_self
    simp [anchoredInEntries, h₁, h₂, ih fun m hm => h m (List.mem_cons_of_mem e hm)]

theorem anchors_text (seen : List String) (s : Points) :
    (Node.text s).anchors seen = some seen := by simp [Node.text, anchors, addAnchor]

theorem anchored_text (s : Points) : (Node.text s).anchored = [] := by simp [Node.text, anchored]

variable {n : Node} {v : Value}

theorem Means.anchors (h : Means n v) (seen : List String) : n.anchors seen = some seen := by
  induction h with
  | scalar tag s v _ => rfl
  | seq items _ ih =>
    have hi : anchorsOfItems seen (items.map Prod.fst) = some seen :=
      anchorsOfItems_eq (by simpa using ih)
    simp [Node.anchors, addAnchor, hi]
  | map entries _ ih =>
    have he : anchorsOfEntries seen (entries.map fun e => (Node.text e.1, e.2.1)) = some seen := by
      refine anchorsOfEntries_eq ?_
      intro p hp
      obtain ⟨e, he, rfl⟩ := List.mem_map.1 hp
      exact ⟨anchors_text seen e.1, ih e he⟩
    simp [Node.anchors, addAnchor, he]

theorem Means.anchored (h : Means n v) : n.anchored = [] := by
  induction h with
  | scalar tag s v _ => rfl
  | seq items _ ih =>
    have hi : anchoredInItems (items.map Prod.fst) = [] := anchoredInItems_eq (by simpa using ih)
    simp [Node.anchored, hi]
  | map entries _ ih =>
    have he : anchoredInEntries (entries.map fun e => (Node.text e.1, e.2.1)) = [] := by
      refine anchoredInEntries_eq ?_
      intro p hp
      obtain ⟨e, he, rfl⟩ := List.mem_map.1 hp
      exact ⟨anchored_text e.1, ih e he⟩
    simp [Node.anchored, he]

theorem Means.name (h : Means n v) : n.name = none := by
  cases h <;> rfl

/-! ## Checking -/

/-- A collection that a check may look into. -/
def Open (n : Node) : Prop := ∃ v, Means n v ∧ v.isCollection = true

/-- Nodes are touched, and the collections among them wait at the end of the queue. -/
def Adds (p : Pending) (r : Except Error Pending) : Prop :=
  ∃ q, r = .ok { p with queue := p.queue ++ q } ∧ ∀ m ∈ q, m.Open

theorem resolve_of_name (h : n.name = none) : resolve [] n = n := by
  match n, h with
  | .scalar .., _ | .seq .., _ | .map .., _ => rfl

theorem current_of_name (h : n.name = none) (settled : List String) :
    current [] settled n = n := by
  simp [current, h, resolve_of_name h]

/-- A node without a name is looked at whatever has been seen. -/
theorem touch_of_name (h : n.name = none) (p : Pending) : touch [] p n = do
    atOnce [] p.settled n
    return { p with queue := p.queue ++ if n.isCollection then [n] else [] } := by
  simp [touch, h, current_of_name h, resolve_of_name h]

theorem touch_scalar (p : Pending) {tag : Tag} {s : Points} {v : Value}
    (h : Scalar.value tag s = .ok v) : touch [] p (.scalar none tag s) = .ok p := by
  have hname : (Node.scalar none tag s).name = none := rfl
  have hcollection : (Node.scalar none tag s).isCollection = false := (isCollection_of_value h).1
  rw [touch_of_name hname, atOnce, current_of_name hname]
  simp [hcollection, h, bind, Except.bind, pure, Except.pure, discard, Functor.discard,
    Functor.mapConst, Except.map]

theorem touch_text (p : Pending) (s : Points) : touch [] p (Node.text s) = .ok p :=
  touch_scalar p (show Scalar.value .str s = .ok (.text s) from rfl)

theorem Open.isCollection (h : n.Open) : n.isCollection = true := by
  obtain ⟨v, h, hc⟩ := h
  cases h with
  | scalar tag s v hv =>
    rw [(isCollection_of_value hv).2] at hc
    cases hc
  | seq items _ => rfl
  | map entries _ => rfl

theorem Open.touch (h : n.Open) (p : Pending) :
    Node.touch [] p n = .ok { p with queue := p.queue ++ [n] } := by
  obtain ⟨v, hv, -⟩ := id h
  rw [touch_of_name hv.name, atOnce, current_of_name hv.name]
  simp [h.isCollection, bind, Except.bind, pure, Except.pure]

theorem Means.touch (h : Means n v) (p : Pending) : Adds p (Node.touch [] p n) := by
  have hopen (ho : n.Open) : Adds p (Node.touch [] p n) := ⟨[n], ho.touch p, by simpa using ho⟩
  cases h with
  | scalar tag s v hv => exact ⟨[], by simpa using touch_scalar p hv, by simp⟩
  | seq items hi => exact hopen ⟨_, .seq items hi, rfl⟩
  | map entries he => exact hopen ⟨_, .map entries he, rfl⟩

theorem Adds.bind {p : Pending} {r : Except Error Pending} {f : Pending → Except Error Pending}
    (h : Adds p r) (hf : ∀ u, Adds u (f u)) : Adds p (r >>= f) := by
  obtain ⟨q, rfl, hq⟩ := h
  obtain ⟨q', hu, hq'⟩ := hf { p with queue := p.queue ++ q }
  refine ⟨q ++ q', by simp [Bind.bind, Except.bind, hu], fun m hm => ?_⟩
  obtain hm | hm := List.mem_append.1 hm
  · exact hq m hm
  · exact hq' m hm

theorem touchAll_adds {ns : List Node} (h : ∀ n ∈ ns, ∃ v, Means n v) (p : Pending) :
    Adds p (touchAll [] p ns) := by
  induction ns generalizing p with
  | nil => exact ⟨[], by simp [touchAll], by simp⟩
  | cons n ns ih =>
    obtain ⟨v, hn⟩ := h n List.mem_cons_self
    exact (hn.touch p).bind (ih fun m hm => h m (List.mem_cons_of_mem n hm))

theorem touchEntries_adds {es : List (Points × Node)} (h : ∀ e ∈ es, ∃ v, Means e.2 v)
    (p : Pending) : Adds p (touchEntries [] p (es.map fun e => (Node.text e.1, e.2))) := by
  induction es generalizing p with
  | nil => exact ⟨[], by simp [touchEntries], by simp⟩
  | cons e es ih =>
    obtain ⟨v, hn⟩ := h e List.mem_cons_self
    have hkey : (current [] p.settled (Node.text e.1)).isCollection = false := by
      rw [current_of_name rfl]
      rfl
    rw [List.map_cons, touchEntries, touch_text]
    simp only [Bind.bind, Except.bind, hkey, Bool.false_eq_true, if_false]
    exact (hn.touch p).bind (ih fun m hm => h m (List.mem_cons_of_mem e hm))

theorem isMergeKey_text (s : Points) : isMergeKey [] (Node.text s) = false := rfl

/-- Nothing is merged into a mapping whose keys are texts. -/
theorem merged_text (f : Nat) (busy : List String) (es : List (Points × Node)) :
    merged [] (f + 1) busy (es.map fun e => (Node.text e.1, e.2)) =
      .ok (es.map fun e => (Node.text e.1, e.2), []) := by
  have hkey : ∀ p ∈ es.map fun e => (Node.text e.1, e.2),
      isMergeKey [] p.1 = false ∧ (resolve [] p.1).hasTag .value = false := by
    intro p hp
    obtain ⟨e, -, rfl⟩ := List.mem_map.1 hp
    exact ⟨isMergeKey_text e.1, rfl⟩
  have hnone : (es.map fun e => (Node.text e.1, e.2)).filter (fun p => isMergeKey [] p.1) = [] :=
    List.filter_eq_nil_iff.2 fun p hp => by simp [(hkey p hp).1]
  have hall : (es.map fun e => (Node.text e.1, e.2)).filter (fun p => !isMergeKey [] p.1) =
      es.map fun e => (Node.text e.1, e.2) :=
    List.filter_eq_self.2 fun p hp => by simp [(hkey p hp).1]
  have htexts : (es.map fun e => (Node.text e.1, e.2)).filter
      (fun p => (resolve [] p.1).hasTag .value) = [] :=
    List.filter_eq_nil_iff.2 fun p hp => by simp [(hkey p hp).2]
  simp only [merged, hnone, hall, htexts]
  rfl

theorem settle_text (tag : Tag) (es : List (Points × Node)) :
    settle [] (.map none tag (es.map fun e => (Node.text e.1, e.2))) =
      .ok (es.map fun e => (Node.text e.1, e.2), []) := by
  have hself : (es.map fun e => (Node.text e.1, e.2)).map (fun e => (e.1.asText, e.2)) =
      es.map fun e => (Node.text e.1, e.2) := by
    rw [List.map_map]
    rfl
  simp only [settle, depth, entriesOf, merged_text, Bind.bind, Except.bind, hself]
  rfl

theorem Open.lookInto (h : n.Open) (p : Pending) : Adds p (n.lookInto [] p) := by
  obtain ⟨v, h, hc⟩ := h
  cases h with
  | scalar tag s v hv =>
    rw [(isCollection_of_value hv).2] at hc
    cases hc
  | seq items hi =>
    rw [Node.lookInto]
    refine touchAll_adds (fun m hm => ?_) p
    obtain ⟨i, him, rfl⟩ := List.mem_map.1 hm
    exact ⟨i.2, hi i him⟩
  | map entries he =>
    have hmap : entries.map (fun e => (Node.text e.1, e.2.1)) =
        (entries.map fun e => (e.1, e.2.1)).map fun e => (Node.text e.1, e.2) := by simp
    rw [Node.lookInto, hmap, settle_text]
    refine touchEntries_adds (fun m hm => ?_) p
    obtain ⟨e, hem, rfl⟩ := List.mem_map.1 hm
    exact ⟨e.2.2, he e hem⟩

theorem lookAll_ok (f : Nat) {p : Pending} (h : ∀ n ∈ p.queue, n.Open) :
    lookAll [] f p = .ok () := by
  induction f generalizing p with
  | zero => rfl
  | succ f ih =>
    obtain ⟨seen, settled, queue⟩ := p
    cases queue with
    | nil => rfl
    | cons n r =>
      obtain ⟨q, hlook, hq⟩ := (h n List.mem_cons_self).lookInto ⟨seen, settled, r⟩
      simp only [lookAll, hlook, bind, Except.bind]
      -- what was found is as open as what was looked into
      refine ih ?_
      intro m hm
      obtain hm | hm := List.mem_append.1 hm
      · exact h m (List.mem_cons_of_mem n hm)
      · exact hq m hm

theorem Means.check (h : Means n v) : n.check = .ok () := by
  obtain ⟨q, htouch, hq⟩ := h.touch ⟨[], [], []⟩
  simp only [Node.check, h.anchored, htouch, bind, Except.bind]
  exact lookAll_ok _ (by simpa using hq)

/-! ## Building -/

theorem sameKey_text (a b : Points) : Value.sameKey (.text a) (.text b) = (a == b) := rfl

theorem putEntry_new {es : List (Points × Value)} {k : Points} (h : k ∉ es.map Prod.fst)
    (v : Value) : Value.putEntry (.text k) v (es.map fun e => (.text e.1, e.2)) =
      (es ++ [(k, v)]).map fun e => (.text e.1, e.2) := by
  induction es with
  | nil => rfl
  | cons e es ih =>
    simp only [List.map_cons, List.mem_cons, not_or] at h
    have hk : Value.sameKey (.text e.1) (.text k) = false := by
      rw [sameKey_text]
      exact beq_eq_false_iff_ne.2 fun he => h.1 he.symm
    simp only [List.map_cons, Value.putEntry, hk, Bool.false_eq_true, if_false, ih h.2,
      List.cons_append]

theorem foldl_putEntry {es acc : List (Points × Value)}
    (h : ((acc ++ es).map Prod.fst).Nodup) :
    (es.map fun e => ((.text e.1, e.2) : Value × Value)).foldl
        (fun acc e => Value.putEntry e.1 e.2 acc) (acc.map fun e => (.text e.1, e.2)) =
      (acc ++ es).map fun e => (.text e.1, e.2) := by
  induction es generalizing acc with
  | nil => simp
  | cons e es ih =>
    have hnew : e.1 ∉ acc.map Prod.fst := by
      intro he
      rw [List.map_append, List.nodup_append] at h
      exact h.2.2 e.1 he e.1 (by simp) rfl
    rw [List.map_cons, List.foldl_cons, putEntry_new hnew, ih (by simpa using h)]
    simp

theorem distinctEntries_text {es : List (Points × Value)} (h : (es.map Prod.fst).Nodup) :
    Value.distinctEntries (es.map fun e => (.text e.1, e.2)) =
      es.map fun e => (.text e.1, e.2) := by
  have hnodup : (([] ++ es).map Prod.fst).Nodup := h
  exact foldl_putEntry hnodup

theorem ofScalar_of_value {tag : Tag} {s : Points} (h : Scalar.value tag s = .ok v) :
    Built.ofScalar tag s = v := by
  cases tag with
  | value => cases h
  | _ => simp only [Built.ofScalar, h]

/-- Where nothing is anchored, the node builds the value. -/
def Builds (n : Node) (v : Value) : Prop := ∃ b, n.build [] [] = (b, []) ∧ b.value = v

theorem build_text (s : Points) : (Node.text s).build [] [] = (.leaf (.text s), []) := rfl

theorem buildItems_eq {items : List (Node × Value)} (h : ∀ i ∈ items, Builds i.1 i.2) :
    ∃ bs, buildItems [] [] (items.map Prod.fst) = (bs, []) ∧
      bs.map Built.value = items.map Prod.snd := by
  induction items with
  | nil => exact ⟨[], rfl, rfl⟩
  | cons i items ih =>
    obtain ⟨b, hb, hv⟩ := h i List.mem_cons_self
    obtain ⟨bs, hbs, hvs⟩ := ih fun m hm => h m (List.mem_cons_of_mem i hm)
    exact ⟨b :: bs, by simp [buildItems, hb, hbs], by simp [hv, hvs]⟩

theorem buildEntries_eq {es : List (Points × Node × Value)} (h : ∀ e ∈ es, Builds e.2.1 e.2.2) :
    buildEntries [] [] (es.map fun e => (Node.text e.1, e.2.1)) =
      ([], es.map fun e => (.text e.1, e.2.2), []) := by
  induction es with
  | nil => rfl
  | cons e es ih =>
    obtain ⟨b, hb, hv⟩ := h e List.mem_cons_self
    have hes := ih fun m hm => h m (List.mem_cons_of_mem e hm)
    simp only [List.map_cons, buildEntries, build_text, hb, hes, hv]
    rfl

theorem Means.builds (h : Means n v) : Builds n v := by
  induction h with
  | scalar tag s v hv => exact ⟨_, rfl, ofScalar_of_value hv⟩
  | seq items _ ih =>
    obtain ⟨bs, hbs, hvs⟩ := buildItems_eq ih
    refine ⟨Built.ofItems .seq bs, ?_, ?_⟩
    · simp only [build, unfold, hbs]
    · simp [Built.ofItems, Built.value, hvs]
  | map entries _ ih =>
    have hes := buildEntries_eq ih
    exact ⟨Built.ofEntries .map _ _, by simp only [build, unfold, hes]; rfl, rfl⟩

/-- Under distinct texts all entries of a mapping remain. -/
theorem Means.map_of_nodup (entries : List (Points × Node × Value))
    (h : ∀ e ∈ entries, Means e.2.1 e.2.2) (hd : (entries.map Prod.fst).Nodup) :
    Means (.map none .map (entries.map fun e => (Node.text e.1, e.2.1)))
      (.map (entries.map fun e => (.text e.1, e.2.2))) := by
  have hnodup : ((entries.map fun e => (e.1, e.2.2)).map Prod.fst).Nodup := by
    rw [List.map_map]
    exact hd
  have hdistinct := distinctEntries_text hnodup
  rw [List.map_map] at hdistinct
  exact congrArg Value.map hdistinct ▸ Means.map entries h

end Node

theorem Value.ofNode_of_means {n : Node} {v : Value} (h : n.Means v) : Value.ofNode n = .ok v := by
  obtain ⟨b, hb, rfl⟩ := h.builds
  simp only [Value.ofNode, h.check, h.anchored, hb, bind, Except.bind, pure, Except.pure]

end RouteCompiler.Yaml
