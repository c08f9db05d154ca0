import RouteCompiler.Proofs.OrderedMap
import RouteCompiler.Proofs.Yaml.Distinct

/-!
What the environment says about the fields of the templates section. A field's own variable comes
before the section given whole, and of several spellings of a field there the last one counts.
Variables that lead below a field put a mapping in its place, which no field accepts; so the lemmas
below leave that case open.
-/

namespace RouteCompiler.Settings

open Yaml (Value)

theorem lowerChar_lowerChar (c : Char) : lowerChar (lowerChar c) = lowerChar c := by
  have htoLower (c : Char) : c.toLower.toLower = c.toLower := by
    delta Char.toLower
    split
    next h =>
      rw [dif_neg]
      have hle := h.1
      have hge := h.2
      simp only [ge_iff_le, UInt32.le_iff_toNat_le, UInt32.toNat_add] at *
      simp at *
      omega
    next => rfl
  have hkelvin : c ≠ '\u212a' → c.toLower ≠ '\u212a' := by
    intro hc he
    delta Char.toLower at he
    split at he
    next h =>
      have hle := h.2
      have hnat := congrArg Char.toNat he
      simp only [Char.toNat, UInt32.toNat_add, UInt32.le_iff_toNat_le] at hnat hle
      simp at hnat hle
      omega
    next => exact hc he
  by_cases hc : c = '\u212a'
  · subst hc
    rfl
  · have hc' : lowerChar c = c.toLower := if_neg hc
    rw [hc', lowerChar, if_neg (hkelvin hc), htoLower]

theorem lower_lower (s : String) : lower (lower s) = lower s := by
  simp only [lower, String.toList_ofList, List.map_map]
  congr 2
  funext c
  exact lowerChar_lowerChar c

/-! ## Splitting a name at its underscores -/

theorem splitUnderscores_ne_nil (acc cs : List Char) : splitUnderscores acc cs ≠ [] := by
  fun_induction splitUnderscores acc cs with
  | case1 | case3 => exact nofun
  | case2 _ _ _ _ ih => exact ih

theorem eq_of_splitUnderscores {k : String} (acc cs : List Char)
    (h : splitUnderscores acc cs = [k]) : k.toList = acc.reverse ++ cs := by
  fun_induction splitUnderscores acc cs with
  | case1 acc r => exact absurd (List.cons.inj h).2 (splitUnderscores_ne_nil [] r)
  | case2 acc c r _ ih => rw [ih h, List.reverse_cons, List.append_assoc, List.singleton_append]
  | case3 acc =>
    obtain rfl := List.singleton_inj.1 h
    rw [String.toList_ofList, List.append_nil]

theorem mem_of_mem_splitUnderscores {k : String} {c : Char} (acc cs : List Char)
    (h : k ∈ splitUnderscores acc cs) (hc : c ∈ k.toList) : c ∈ acc ∨ c ∈ cs := by
  fun_induction splitUnderscores acc cs with
  | case1 acc r ih =>
    obtain rfl | h := List.mem_cons.1 h
    · rw [String.toList_ofList, List.mem_reverse] at hc
      exact .inl hc
    · have hr := (ih h).resolve_left List.not_mem_nil
      exact .inr (List.mem_cons_of_mem _ (List.mem_cons_of_mem _ hr))
  | case2 acc d r _ ih =>
    obtain hacc | hr := ih h
    · obtain rfl | hacc := List.mem_cons.1 hacc
      · exact .inr List.mem_cons_self
      · exact .inl hacc
    · exact .inr (List.mem_cons_of_mem d hr)
  | case3 acc =>
    obtain rfl := List.mem_singleton.1 h
    rw [String.toList_ofList, List.mem_reverse] at hc
    exact .inl hc

theorem splitUnderscores_templateFields :
    ∀ f ∈ templateFields, splitUnderscores [] f.toList = [f] := by decide

theorem lower_templateFields : ∀ f ∈ templateFields, lower f = f := by decide

/-! ## Variables of single fields -/

def sectionVariable : String := variableStart ++ templatesName

def fieldVariable (field : String) : String := sectionVariable ++ "__" ++ field

/-- The value that a variable of its own gives a field. -/
def fieldValue (field s : String) : Except Breakdown Value :=
  if field = resourcesName && !s.isEmpty then fromJson s else .ok (.text s)

/-- At the key there is a mapping. -/
def Blocked (f : String) (es : List (Value × Value)) : Prop :=
  ∃ inner, Value.entry? f es = some (.map inner)

variable {v : Value} {f name s : String} {es es' : List (Value × Value)}

theorem putDeep_of_ne {keys : List String} (h : keys ≠ [f]) :
    Value.entry? f (putDeep v es keys) = Value.entry? f es ∨ Blocked f (putDeep v es keys) := by
  match keys with
  | [] => exact .inl rfl
  | [k] =>
    have hk : Value.text k ≠ .text f := by simpa using h
    exact .inl (Value.entry?_putEntry_of_ne hk)
  | k :: k' :: r =>
    have hput : ∀ inner, putDeep v es (k :: k' :: r) = Value.putEntry (.text k) (.map inner) es →
        Value.entry? f (putDeep v es (k :: k' :: r)) = Value.entry? f es ∨
          Blocked f (putDeep v es (k :: k' :: r)) := by
      intro inner he
      rw [he]
      by_cases hk : k = f
      · subst hk
        exact .inr ⟨inner, Value.entry?_putEntry_of_eq⟩
      · have hne : Value.text k ≠ .text f := fun e => hk (Points.ofString_inj.1 (Value.text.inj e))
        exact .inl (Value.entry?_putEntry_of_ne hne)
    cases he : Value.entry? k es with
    | none => exact hput _ (by rw [putDeep, he]; exact nofun)
    | some w =>
      cases w with
      | map inner => exact hput _ (by rw [putDeep, he]; exact nofun)
      | _ => exact .inl (by rw [putDeep, he]; exact nofun)

theorem toList_fieldVariable (field : String) :
    (fieldVariable field).toList = (sectionVariable ++ "__").toList ++ field.toList :=
  String.toList_append

theorem fieldVariable_inj {field : String} : fieldVariable f = fieldVariable field ↔ f = field := by
  rw [← String.toList_inj, toList_fieldVariable, toList_fieldVariable, List.append_cancel_left_eq,
    String.toList_inj]

theorem addTemplateVariable_fieldVariable (field : String) :
    addTemplateVariable es (fieldVariable field, s) =
      (if splitUnderscores [] field.toList = [resourcesName] && !s.isEmpty then fromJson s
        else .ok (.text s)) >>= fun v => .ok (putDeep v es (splitUnderscores [] field.toList)) := by
  have hprefix :
      (sectionVariable ++ "__").toList.isPrefixOf (fieldVariable field).toList = true := by
    rw [toList_fieldVariable]
    exact List.isPrefixOf_iff_prefix.2 (List.prefix_append _ _)
  rw [addTemplateVariable]
  refine (if_pos hprefix).trans ?_
  have hdrop : (fieldVariable field).toList.drop (sectionVariable ++ "__").toList.length =
      field.toList := by
    rw [toList_fieldVariable, List.drop_left]
  have hkeys : splitUnderscores [] ((fieldVariable field).toList.drop
      (variableStart ++ templatesName ++ "__").toList.length) =
        splitUnderscores [] field.toList := congrArg _ hdrop
  simp only [hkeys]
  split <;> rfl

/-- A variable is no field's and changes nothing, or its value goes to where its name leads. -/
theorem of_addTemplateVariable (h : addTemplateVariable es (name, s) = .ok es') :
    (∀ f, name ≠ fieldVariable f) ∧ es' = es ∨
      ∃ field v, name = fieldVariable field ∧
        (if splitUnderscores [] field.toList = [resourcesName] && !s.isEmpty then fromJson s
          else .ok (.text s)) = .ok v ∧
        es' = putDeep v es (splitUnderscores [] field.toList) := by
  by_cases hname : ∃ field, name = fieldVariable field
  · obtain ⟨field, rfl⟩ := hname
    rw [addTemplateVariable_fieldVariable] at h
    obtain ⟨v, hv, h⟩ := exists_of_bind_eq_ok h
    exact .inr ⟨field, v, rfl, hv, (Except.ok.inj h).symm⟩
  · have hprefix : ¬ (sectionVariable ++ "__").toList.isPrefixOf name.toList = true := by
      intro hp
      obtain ⟨rest, hrest⟩ := List.isPrefixOf_iff_prefix.1 hp
      refine hname ⟨String.ofList rest, ?_⟩
      rw [← String.toList_inj, toList_fieldVariable, String.toList_ofList, hrest]
    rw [addTemplateVariable] at h
    have hes := (if_neg hprefix).symm.trans h
    exact .inl ⟨fun f hf => hname ⟨f, hf⟩, (Except.ok.inj hes).symm⟩

theorem addTemplateVariable_of_eq (hf : f ∈ templateFields)
    (h : addTemplateVariable es (fieldVariable f, s) = .ok es') :
    ∃ v, fieldValue f s = .ok v ∧ es' = Value.putEntry (.text f) v es := by
  obtain ⟨hnot, -⟩ | ⟨field, v, hname, hv, rfl⟩ := of_addTemplateVariable h
  · exact absurd rfl (hnot f)
  · obtain rfl := fieldVariable_inj.1 hname
    rw [splitUnderscores_templateFields f hf] at hv ⊢
    refine ⟨v, ?_, rfl⟩
    simpa [fieldValue] using hv

/-- A variable of another name leaves the field as it is, or puts a mapping in its place. -/
theorem addTemplateVariable_of_ne (hname : name ≠ fieldVariable f)
    (h : addTemplateVariable es (name, s) = .ok es') :
    Value.entry? f es' = Value.entry? f es ∨ Blocked f es' := by
  obtain ⟨-, rfl⟩ | ⟨field, v, rfl, -, rfl⟩ := of_addTemplateVariable h
  · exact .inl rfl
  · refine putDeep_of_ne fun hkeys => hname ?_
    rw [← String.toList_inj.1 (eq_of_splitUnderscores [] _ hkeys)]

/-- All variables together: a field has what its own variable says, or what was there before. -/
theorem entry?_of_foldlM {vars : List (String × String)} (hf : f ∈ templateFields)
    (hvars : (vars.map Prod.fst).Nodup) (h : vars.foldlM addTemplateVariable es = .ok es') :
    (∀ s, OrderedMap.lookup (fieldVariable f) vars = some s →
      ∃ v, fieldValue f s = .ok v ∧ (Value.entry? f es' = some v ∨ Blocked f es')) ∧
    (OrderedMap.lookup (fieldVariable f) vars = none →
      Value.entry? f es' = Value.entry? f es ∨ Blocked f es') := by
  induction vars generalizing es with
  | nil =>
    cases h
    refine ⟨fun s hs => ?_, fun _ => .inl rfl⟩
    cases hs
  | cons var vars ih =>
    obtain ⟨name, s⟩ := var
    rw [List.map_cons, List.nodup_cons] at hvars
    rw [List.foldlM_cons] at h
    obtain ⟨es₁, hstep, hrest⟩ := exists_of_bind_eq_ok h
    have hrun := ih hvars.2 hrest
    rw [OrderedMap.lookup]
    by_cases hname : name = fieldVariable f
    · subst hname
      rw [if_pos rfl]
      refine ⟨fun s' hs => ?_, fun hs => by cases hs⟩
      obtain rfl := Option.some.inj hs
      obtain ⟨v, hv, rfl⟩ := addTemplateVariable_of_eq hf hstep
      have hnone : OrderedMap.lookup (fieldVariable f) vars = none := by
        rw [← Option.not_isSome_iff_eq_none, OrderedMap.lookup_isSome_iff]
        exact hvars.1
      refine ⟨v, hv, (hrun.2 hnone).imp_left fun he => ?_⟩
      rw [he, Value.entry?_putEntry_of_eq]
    · rw [if_neg hname]
      refine ⟨hrun.1, fun hnone => ?_⟩
      obtain he | hblocked := hrun.2 hnone
      · rw [Blocked, he]
        exact addTemplateVariable_of_ne hname hstep
      · exact .inr hblocked

/-! ## What the gathered fields keep -/

theorem distinct_putDeep (h : Value.Distinct es) (keys : List String) :
    Value.Distinct (putDeep v es keys) := by
  match keys with
  | [] => exact h
  | [k] => exact Value.distinct_putEntry h
  | k :: k' :: r =>
    rw [putDeep]
    · split
      · exact Value.distinct_putEntry h
      · exact h
      · exact Value.distinct_putEntry h
    · exact nofun

theorem mem_textKeys_putDeep {k : String} {keys : List String}
    (h : k ∈ Value.textKeys (putDeep v es keys)) : k ∈ Value.textKeys es ∨ k ∈ keys := by
  have hput : ∀ {k' : String} {w r}, k ∈ Value.textKeys (Value.putEntry (.text k') w es) →
      k ∈ Value.textKeys es ∨ k ∈ k' :: r := by
    intro k' w r hk
    refine (Value.mem_textKeys_putEntry hk).imp_right fun e => ?_
    rw [Points.ofString_inj.1 (Value.text.inj e)]
    exact List.mem_cons_self
  match keys with
  | [] => exact .inl h
  | [k'] => exact hput h
  | k' :: k'' :: r =>
    rw [putDeep] at h
    · split at h
      · exact hput h
      · exact .inl h
      · exact hput h
    · exact nofun

/-- The keys gathered so far are distinct and in lower case. -/
structure Gathered (es : List (Value × Value)) : Prop where
  distinct : Value.Distinct es
  lower_eq : ∀ k ∈ Value.textKeys es, lower k = k

theorem Gathered.nil : Gathered [] := ⟨Value.distinct_nil, nofun⟩

theorem lower_eq_iff {k : String} : lower k = k ↔ ∀ c ∈ k.toList, lowerChar c = c := by
  rw [lower, ← String.toList_inj, String.toList_ofList]
  refine Iff.trans ?_ (List.map_inj_left (g := id))
  rw [List.map_id]

theorem Gathered.addTemplateVariable (hes : Gathered es) (hname : lower name = name)
    (h : addTemplateVariable es (name, s) = .ok es') : Gathered es' := by
  obtain ⟨-, rfl⟩ | ⟨field, v, rfl, -, rfl⟩ := of_addTemplateVariable h
  · exact hes
  · refine ⟨distinct_putDeep hes.distinct _, fun k hk => ?_⟩
    obtain hk | hk := mem_textKeys_putDeep hk
    · exact hes.lower_eq k hk
    · refine lower_eq_iff.2 fun c hc => lower_eq_iff.1 hname c ?_
      have hfield := (mem_of_mem_splitUnderscores [] _ hk hc).resolve_left List.not_mem_nil
      rw [fieldVariable, String.toList_append]
      exact List.mem_append_right _ hfield

theorem Gathered.foldlM {vars : List (String × String)} (hes : Gathered es)
    (hvars : ∀ name ∈ vars.map Prod.fst, lower name = name)
    (h : vars.foldlM Settings.addTemplateVariable es = .ok es') : Gathered es' := by
  induction vars generalizing es with
  | nil =>
    cases h
    exact hes
  | cons var vars ih =>
    rw [List.foldlM_cons] at h
    obtain ⟨es₁, hstep, hrest⟩ := exists_of_bind_eq_ok h
    obtain ⟨hname, hvars⟩ := List.forall_mem_cons.1 hvars
    exact ih (hes.addTemplateVariable hname hstep) hvars hrest

theorem lower_keys_lowered (env : Environment) :
    ∀ name ∈ (lowered env).keys, lower name = name := by
  intro name h
  rw [lowered, OrderedMap.keys_ofList, List.mem_eraseDups, List.map_map, List.mem_map] at h
  obtain ⟨var, -, rfl⟩ := h
  exact lower_lower var.1

/-! ## The section -/

variable {env : Environment}

/-- The members of the section given whole. -/
def sectionMembers (env : Environment) : List (Value × Value) :=
  match (lowered env).get? sectionVariable with
  | some s =>
    match fromJson s with
    | .ok (.map es) => es
    | _ => []
  | none => []

/-- The last of the entries at the name in any case. -/
def lastSpelled (name : String) (es : List (Value × Value)) : Option Value :=
  Value.lastWhere (fun k => lower k == name) es

/-- What the environment says about a field of the section. -/
def field? (env : Environment) (f : String) : Option Value :=
  match (lowered env).get? (fieldVariable f) with
  | some s => (fieldValue f s).toOption
  | none => lastSpelled f (sectionMembers env)

/-- The variables of single fields come into their own: the section given whole is not null beside
them, and spells no field that has one in another way behind its own. -/
structure Environment.Plain (env : Environment) : Prop where
  notNull : ∀ s, (lowered env).get? sectionVariable = some s → fromJson s = .ok .null →
    ∀ f ∈ templateFields, (lowered env).get? (fieldVariable f) = none
  last : ∀ f ∈ templateFields, (lowered env).get? (fieldVariable f) ≠ none →
    Value.IsLast (fun k => lower k == f) f (sectionMembers env)

theorem distinct_of_fromJson (h : fromJson s = .ok (.map es)) : Value.Distinct es := by
  rw [fromJson] at h
  split at h
  next j hj => exact Value.distinct_of_read_json hj (Except.ok.inj h)
  · cases h
  · cases h

theorem distinct_sectionMembers (env : Environment) : Value.Distinct (sectionMembers env) := by
  rw [sectionMembers]
  split
  · split
    next h => exact distinct_of_fromJson h
    next => exact Value.distinct_nil
  · exact Value.distinct_nil

theorem properName_beq (hf : f ∈ templateFields) (e : Value × Value) :
    (Value.textKey? (properName e.1, e.2)).any (· == f) =
      (Value.textKey? e).any fun k => lower k == f := by
  obtain ⟨a, v⟩ := e
  cases a with
  | text s =>
    cases hs : s.string? with
    | none => simp [properName, Value.textKey?, hs]
    | some k =>
      obtain rfl := Points.eq_ofString_of_string? hs
      cases hfind : templateFields.find? fun f => f = lower k with
      | some g =>
        have hg : g = lower k := by simpa using List.find?_some hfind
        simp [properName, hfind, hg]
      | none =>
        have hlower : lower k ≠ f := fun e => by
          have hnot := List.find?_eq_none.1 hfind f hf
          simp [e] at hnot
        have hk : k ≠ f := fun e => hlower (e ▸ lower_templateFields f hf)
        simp [properName, hfind, hlower, hk]
  | _ => rfl

theorem entry?_properNames (hf : f ∈ templateFields) :
    Value.entry? f (Value.distinctEntries (es.map fun e => (properName e.1, e.2))) =
      lastSpelled f es := by
  rw [Value.entry?_distinctEntries]
  induction es with
  | nil => rfl
  | cons e es ih => rw [List.map_cons, Value.lastWhere, ih, properName_beq hf]; rfl

theorem exists_overlaid_map (es : List (Value × Value)) (b : Option Value) :
    ∃ inner, Value.overlaid b (.map es) = .map inner := by
  cases b with
  | none => exact ⟨es, rfl⟩
  | some b => cases b <;> exact ⟨_, rfl⟩

theorem gathered_fields (h : (lowered env).entries.foldlM addTemplateVariable [] = .ok es) :
    Gathered es := Gathered.nil.foldlM (lower_keys_lowered env) h

theorem Gathered.eq_of_lower (h : Gathered es) (f : String) :
    ∀ k ∈ Value.textKeys es, (lower k == f) = true → k = f := by
  intro k hk hlower
  rw [← h.lower_eq k hk]
  exact beq_iff_eq.1 hlower

theorem Gathered.overlayEntries_nil (h : Gathered es) (hf : f ∈ templateFields) :
    lastSpelled f (Value.overlayEntries [] es) = lastSpelled f es := by
  have hp : (lower f == f) = true := beq_iff_eq.2 (lower_templateFields f hf)
  have hover := Value.lastWhere_overlayEntries (p := fun k => lower k == f) Value.distinct_nil
    h.distinct hp (h.eq_of_lower f) nofun
  rw [lastSpelled, lastSpelled, hover,
    Value.lastWhere_of_only (p := fun k => lower k == f) h.distinct hp (h.eq_of_lower f)]
  cases Value.entry? f es <;> rfl

/-- The fields gathered over the section given whole. -/
theorem lastSpelled_overlayEntries {fields : List (Value × Value)} (hf : f ∈ templateFields)
    (hplain : env.Plain)
    (h : (lowered env).entries.foldlM addTemplateVariable [] = .ok fields) :
    lastSpelled f (Value.overlayEntries (sectionMembers env) fields) = field? env f ∨
      ∃ inner, lastSpelled f (Value.overlayEntries (sectionMembers env) fields) =
        some (.map inner) := by
  have hgathered := gathered_fields h
  have habove := hgathered.eq_of_lower f
  have hset := entry?_of_foldlM hf (lowered env).nodup h
  cases hvar : (lowered env).get? (fieldVariable f) with
  | none =>
    have hfield : field? env f = lastSpelled f (sectionMembers env) := by rw [field?, hvar]
    obtain hlast | ⟨v, hv, hlast⟩ :=
      Value.lastWhere_overlayEntries_or (sectionMembers env) hgathered.distinct habove
    · exact .inl (hlast.trans hfield.symm)
    · obtain hnone | ⟨inner, hmap⟩ := hset.2 hvar
      · cases hv.symm.trans hnone
      · obtain rfl := Option.some.inj (hv.symm.trans hmap)
        obtain ⟨_, hover⟩ := exists_overlaid_map inner (Value.entry? f (sectionMembers env))
        exact .inr ⟨_, hlast.trans (congrArg some hover)⟩
  | some s =>
    obtain ⟨v, hv, hentry⟩ := hset.1 s hvar
    have hfield : field? env f = some v := by simp only [field?, hvar, hv, Except.toOption]
    have hbelow := hplain.last f hf (by rw [hvar]; exact Option.some_ne_none s)
    have hlast := Value.lastWhere_overlayEntries (p := fun k => lower k == f)
      (distinct_sectionMembers env) hgathered.distinct
      (beq_iff_eq.2 (lower_templateFields f hf)) habove hbelow
    obtain hentry | ⟨inner, hmap⟩ := hentry
    · rw [hentry] at hlast
      by_cases hmap : ∃ inner, v = .map inner
      · obtain ⟨inner, rfl⟩ := hmap
        obtain ⟨_, hover⟩ := exists_overlaid_map inner (Value.entry? f (sectionMembers env))
        exact .inr ⟨_, hlast.trans (congrArg some hover)⟩
      · rw [hfield, ← Value.overlaid_of_ne_map (fun es e => hmap ⟨es, e⟩)
          (Value.entry? f (sectionMembers env))]
        exact .inl hlast
    · rw [hmap] at hlast
      obtain ⟨_, hover⟩ := exists_overlaid_map inner (Value.entry? f (sectionMembers env))
      exact .inr ⟨_, hlast.trans (congrArg some hover)⟩

/-- The section as the environment has it: it is missing, and no field is said anything about; or it
is a mapping that holds what is said, a mapping at a field apart; or it is no mapping. -/
inductive Section (env : Environment) : Option Value → Prop
  | missing (h : ∀ f ∈ templateFields, field? env f = none) : Section env none
  | fields {es : List (Value × Value)} (hd : Value.Distinct es)
      (h : ∀ f ∈ templateFields, Value.entry? f es = field? env f ∨ Blocked f es) :
      Section env (some (.map es))
  | other {v : Value} (h : ∀ es, v ≠ .map es) : Section env (some v)

theorem section_of_spelled (h : ∀ f ∈ templateFields, lastSpelled f es = field? env f ∨
      ∃ inner, lastSpelled f es = some (.map inner)) :
    Section env (some (.map
      (Value.distinctEntries (es.map fun e => (properName e.1, e.2))))) := by
  refine .fields Value.distinct_distinctEntries fun f hf => ?_
  rw [Blocked, entry?_properNames hf]
  exact h f hf

theorem section_of_templatesFrom {v : Option Value} (hplain : env.Plain)
    (h : templatesFrom (lowered env) = .ok v) : Section env v := by
  rw [templatesFrom] at h
  split at h
  next s hs =>
    obtain ⟨w, hw, h⟩ := exists_of_bind_eq_ok h
    split at h
    next es =>
      obtain ⟨fields, hfields, h⟩ := exists_of_bind_eq_ok h
      obtain rfl := Except.ok.inj h
      have hmembers : sectionMembers env = es := by
        rw [sectionMembers]
        simp only [sectionVariable, hs, hw]
      rw [← hmembers]
      exact section_of_spelled fun f hf => lastSpelled_overlayEntries hf hplain hfields
    next =>
      obtain rfl := Except.ok.inj h
      refine .missing fun f hf => ?_
      rw [field?, hplain.notNull s hs hw f hf, sectionMembers]
      simp only [sectionVariable, hs, hw]
      rfl
    next w hmap hnull =>
      obtain rfl := Except.ok.inj h
      exact .other hmap
  next hs =>
    obtain ⟨fields, hfields, h⟩ := exists_of_bind_eq_ok h
    obtain rfl := Except.ok.inj h
    have hmembers : sectionMembers env = [] := by
      rw [sectionMembers]
      simp only [sectionVariable, hs]
    have hspelled : ∀ f ∈ templateFields, lastSpelled f fields = field? env f ∨
        ∃ inner, lastSpelled f fields = some (.map inner) := by
      intro f hf
      have hlast := lastSpelled_overlayEntries hf hplain hfields
      rw [hmembers, (gathered_fields hfields).overlayEntries_nil hf] at hlast
      exact hlast
    split
    next hempty =>
      refine .missing fun f hf => ?_
      have hnil := hspelled f hf
      rw [List.isEmpty_iff.1 hempty] at hnil
      obtain hnone | ⟨inner, hmap⟩ := hnil
      · exact hnone.symm
      · cases hmap
    next => exact section_of_spelled hspelled

/-! ## The document of the environment -/

/-- What the environment says about masking. -/
def mask? (env : Environment) : Option Value :=
  ((lowered env).get? (variableStart ++ maskSecretsName)).map fun (s : String) => .text s

/-- The document says this of the outermost fields, and nothing else. -/
structure Outermost (mask templates : Option Value) (es : List (Value × Value)) : Prop where
  distinct : Value.Distinct es
  keys : ∀ k ∈ Value.textKeys es, k = maskSecretsName ∨ k = templatesName
  textual : ∀ e ∈ es, ∃ k : String, e.1 = .text k
  mask : Value.entry? maskSecretsName es = mask
  templates : Value.entry? templatesName es = templates

theorem outermost_append (mask templates : Option Value) : Outermost mask templates
    ((mask.toList.map fun v => (.text maskSecretsName, v)) ++
      templates.toList.map fun v => (.text templatesName, v)) := by
  have hne : maskSecretsName ≠ templatesName := by decide
  constructor
  all_goals
    cases mask <;> cases templates <;>
      simp [Value.Distinct, Value.textKeys, Value.textKey?, Value.entry?, hne, hne.symm]

theorem outermost_of_ofEnvironment (hplain : env.Plain) (h : ofEnvironment env = .ok es) :
    ∃ templates, Outermost (mask? env) templates es ∧ Section env templates := by
  rw [ofEnvironment] at h
  obtain ⟨v, hv, h⟩ := exists_of_bind_eq_ok h
  obtain rfl := Except.ok.inj h
  refine ⟨v, ?_, section_of_templatesFrom hplain hv⟩
  have hdoc := outermost_append (mask? env) v
  rw [mask?, Option.toList_map, List.map_map] at hdoc
  exact hdoc

end RouteCompiler.Settings
