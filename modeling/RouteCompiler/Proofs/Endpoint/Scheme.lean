import RouteCompiler.Proofs.Endpoint.Options

/-!
Whether two connections of one connector have components of their own. The scheme of such a
connection is the prefix of the action, a hyphen and the identifier of the connection, and both may
have hyphens themselves. So two schemes are one exactly where one prefix goes on with what the other
identifier begins with; under one prefix that does not happen.
-/

namespace RouteCompiler.Endpoint

/-! ## Prefixes and identifiers -/

/-- What the prefix `q` has behind `p` is the beginning of the identifier `i`, of which `j` is the
end. -/
def Absorbs (p i q j : String) : Prop := ∃ mid, q = p ++ "-" ++ mid ∧ i = mid ++ "-" ++ j

theorem Absorbs.scheme_eq {p i q j : String} (h : Absorbs p i q j) :
    p ++ "-" ++ i = q ++ "-" ++ j := by
  obtain ⟨mid, rfl, rfl⟩ := h
  simp only [String.append_assoc]

/-- A prefix is shorter than what absorbs it. -/
theorem not_absorbs_self (p i j : String) : ¬ Absorbs p i p j := by
  intro h
  obtain ⟨mid, hp, -⟩ := h
  have hlength := congrArg String.length hp
  simp only [String.length_append] at hlength
  have hhyphen : "-".length = 1 := rfl
  omega

theorem absorbs_of_append_eq {p i q j : String} {rest : List Char}
    (hq : q.toList = p.toList ++ rest) (h : p ++ "-" ++ i = q ++ "-" ++ j) (hij : i ≠ j) :
    Absorbs p i q j := by
  have htail : '-' :: i.toList = rest ++ '-' :: j.toList := by
    have hchars := congrArg String.toList h
    simp only [String.toList_append, hq, List.append_assoc, List.append_cancel_left_eq] at hchars
    exact hchars
  cases rest with
  | nil => exact absurd (String.toList_inj.1 (List.cons.inj htail).2) hij
  | cons x mid =>
    obtain ⟨hx, hmid⟩ := List.cons.inj htail
    refine ⟨String.ofList mid, String.toList_inj.1 ?_, String.toList_inj.1 ?_⟩
    · rw [hq, ← hx]
      simp
    · rw [hmid]
      simp

/-- Two prefixes and two identifiers make one scheme exactly if one of the prefixes absorbs the
beginning of the other's identifier. -/
theorem append_eq_iff_absorbs {p i q j : String} (hij : i ≠ j) :
    p ++ "-" ++ i = q ++ "-" ++ j ↔ Absorbs p i q j ∨ Absorbs q j p i := by
  constructor
  · intro h
    have hchars : p.toList ++ ("-" ++ i).toList = q.toList ++ ("-" ++ j).toList := by
      rw [← String.toList_append, ← String.toList_append, ← String.append_assoc,
        ← String.append_assoc, h]
    obtain ⟨rest, hq, -⟩ | ⟨rest, hp, -⟩ := List.append_eq_append_iff.1 hchars
    · exact .inl (absorbs_of_append_eq hq h hij)
    · exact .inr (absorbs_of_append_eq hp h.symm hij.symm)
  · intro h
    cases h with
    | inl h => exact h.scheme_eq
    | inr h => exact h.scheme_eq.symm

theorem placeholder_inj {p q key : String} :
    PropertyMap.placeholder p key = PropertyMap.placeholder q key ↔ p = q := by
  simp only [PropertyMap.placeholder, String.append_left_inj, String.append_right_inj]

/-! ## Steps with a component of their own -/

/-- The endpoint of the step belongs to a connection with the identifier `i` that has a component of
its own: some property configured for it is component-level. -/
structure OwnsComponent (x : Context) (s : Step) (c : Connection) (a : Action) (k : Connector)
    (i : String) : Prop where
  connection : s.connection = some c
  action : s.action = some a
  connector : connectorOf x.request c a = .ok k
  identifier : c.id = some i
  identified : i ≠ ""
  component : ∃ e ∈ merged c s,
    k.definitions.isComponentLevel e.1 = true ∨ a.definitions.isComponentLevel e.1 = true

section
variable {x : Context} {c c' : Connection} {a a' : Action} {k : Connector} {i i' : String}

theorem OwnsComponent.owner_eq {s : Step} (h : OwnsComponent x s c a k i) :
    owner c a = a.scheme ++ "-" ++ i := by
  rw [owner, h.identifier]
  exact if_neg h.identified

theorem OwnsComponent.emittedScheme_eq {s : Step} (h : OwnsComponent x s c a k i) :
    emittedScheme c k a (merged c s) = a.scheme ++ "-" ++ i := by
  rw [emittedScheme, if_pos h.component, h.owner_eq]

/-- A secret option is hidden behind the name of its owner. -/
theorem mem_emitted_of_secret {m : List (String × String)} {e : String × String}
    (he : e ∈ selected k a m)
    (hs : k.definitions.isSecret e.1 = true ∨ a.definitions.isSecret e.1 = true) :
    (e.1, PropertyMap.placeholder (owner c a) e.1) ∈ emitted true c k a m := by
  have hshown : shown true (owner c a) k a e =
      (e.1, PropertyMap.placeholder (owner c a) e.1) := by
    rw [shown, Bool.true_and, if_pos (Bool.or_eq_true_iff.2 hs)]
    rfl
  have hlisted : (e.1, PropertyMap.placeholder (owner c a) e.1) ∈
      (selected k a m).map (shown true (owner c a) k a) :=
    List.mem_map.2 ⟨e, he, hshown⟩
  rw [emitted]
  split
  · exact List.mem_append_left _ hlisted
  · exact hlisted

/-- What the step with a component of its own comes to. -/
theorem OwnsComponent.visit {cur : StepCursor} (h : OwnsComponent x cur.step c a k i) :
    ∃ options : PropertyMap,
      options.entries = emitted x.settings.maskSecrets c k a (merged c cur.step) ∧
      (∀ w, (((visitor x).visit cur).runOn w).1 =
        .ok (some (.endpoint (uri a a.scheme (a.scheme ++ "-" ++ i) options)))) ∧
      (x.settings.maskSecrets = true → ∀ e ∈ selected k a (merged c cur.step),
        k.definitions.isSecret e.1 = true ∨ a.definitions.isSecret e.1 = true →
          options.get? e.1 = some (PropertyMap.placeholder (a.scheme ++ "-" ++ i) e.1)) := by
  obtain ⟨options, hoptions, huri⟩ := ofStep_eq_uri (s := cur.step) h.connector
  rw [h.emittedScheme_eq] at huri
  refine ⟨options, hoptions, visit_of_ofStep h.connection h.action huri, fun hm e he hs => ?_⟩
  have hmem := mem_emitted_of_secret (c := c) he hs
  rw [← hm, ← hoptions, h.owner_eq] at hmem
  exact OrderedMap.get?_of_mem options hmem

/-- Two connections of one connector with identifiers and components of their own have one scheme
exactly if one prefix absorbs the beginning of the other's identifier, and exactly then a secret of
both is hidden behind one reference. -/
theorem visits_share_scheme_iff (cur cur' : StepCursor) (h : OwnsComponent x cur.step c a k i)
    (h' : OwnsComponent x cur'.step c' a' k i') (hne : i ≠ i') :
    let scheme := a.scheme ++ "-" ++ i
    let scheme' := a'.scheme ++ "-" ++ i'
    ∃ options options' : PropertyMap,
      options.entries = emitted x.settings.maskSecrets c k a (merged c cur.step) ∧
      options'.entries = emitted x.settings.maskSecrets c' k a' (merged c' cur'.step) ∧
      (∀ w, (((visitor x).visit cur).runOn w).1 =
        .ok (some (.endpoint (uri a a.scheme scheme options)))) ∧
      (∀ w, (((visitor x).visit cur').runOn w).1 =
        .ok (some (.endpoint (uri a' a'.scheme scheme' options')))) ∧
      (scheme = scheme' ↔ Absorbs a.scheme i a'.scheme i' ∨ Absorbs a'.scheme i' a.scheme i) ∧
      (x.settings.maskSecrets = true →
        ∀ e ∈ selected k a (merged c cur.step), ∀ e' ∈ selected k a' (merged c' cur'.step),
          e.1 = e'.1 →
          k.definitions.isSecret e.1 = true ∨ a.definitions.isSecret e.1 = true →
          k.definitions.isSecret e'.1 = true ∨ a'.definitions.isSecret e'.1 = true →
            (options.get? e.1 = options'.get? e'.1 ↔ scheme = scheme')) := by
  intro scheme scheme'
  obtain ⟨options, hoptions, huri, hsecret⟩ := h.visit
  obtain ⟨options', hoptions', huri', hsecret'⟩ := h'.visit
  refine ⟨options, options', hoptions, hoptions', huri, huri', append_eq_iff_absorbs hne, ?_⟩
  intro hm e he e' he' hkey hs hs'
  rw [hsecret hm e he hs, hsecret' hm e' he' hs', hkey, Option.some.injEq]
  exact placeholder_inj

/-- Under one prefix connections with different identifiers do not share a component. -/
theorem emittedScheme_ne_of_scheme_eq {s s' : Step} (h : OwnsComponent x s c a k i)
    (h' : OwnsComponent x s' c' a' k i') (hne : i ≠ i') (hp : a.scheme = a'.scheme) :
    emittedScheme c k a (merged c s) ≠ emittedScheme c' k a' (merged c' s') := by
  rw [h.emittedScheme_eq, h'.emittedScheme_eq, hp]
  intro heq
  cases (append_eq_iff_absorbs hne).1 heq with
  | inl h => exact not_absorbs_self _ _ _ h
  | inr h => exact not_absorbs_self _ _ _ h

end

/-! ## Two connections with one scheme -/

def twitterConnector : Connector where
  id := "twitter"
  definitions := OrderedMap.ofList
    [("apiKey", { componentLevel := true }), ("token", { secret := true })]

def twitterConnection (id apiKey token : String) : Connection where
  id := some id
  connectorId := some "twitter"
  configured := OrderedMap.ofList [("apiKey", apiKey), ("token", token)]

def twitterStep (scheme id apiKey token : String) : Step where
  kind := "endpoint"
  connection := some (twitterConnection id apiKey token)
  action := some { scheme := scheme }

/-- The connection `search-1` under the prefix `twitter`. -/
def firstTwitterStep : Step := twitterStep "twitter" "search-1" "one" "first"

/-- The connection `1` under a longer prefix. -/
def secondTwitterStep : Step := twitterStep "twitter-search" "1" "two" "second"

def twitterContext : Context where
  settings := { maskSecrets := true }
  request :=
    { integration := { name := "A", steps := [firstTwitterStep, secondTwitterStep] }
      connectors := OrderedMap.ofList [("twitter", twitterConnector)] }

theorem ownsComponent_twitterStep (scheme id apiKey token : String) (hid : id ≠ "") :
    OwnsComponent twitterContext (twitterStep scheme id apiKey token)
      (twitterConnection id apiKey token) { scheme := scheme } twitterConnector id where
  connection := rfl
  action := rfl
  connector := rfl
  identifier := rfl
  identified := hid
  component := ⟨("apiKey", apiKey), List.mem_cons_self, .inl rfl⟩

theorem ownsComponent_firstTwitterStep : OwnsComponent twitterContext firstTwitterStep
    (twitterConnection "search-1" "one" "first") { scheme := "twitter" } twitterConnector
    "search-1" :=
  ownsComponent_twitterStep _ _ _ _ (by decide)

theorem ownsComponent_secondTwitterStep : OwnsComponent twitterContext secondTwitterStep
    (twitterConnection "1" "two" "second") { scheme := "twitter-search" } twitterConnector "1" :=
  ownsComponent_twitterStep _ _ _ _ (by decide)

/-- Both connections have a key and a token of their own. They share a component, and one reference
stands for both tokens. -/
theorem visits_twitterSteps : ∃ options options' : PropertyMap,
    (∀ w, (((visitor twitterContext).visit
        ⟨1, firstTwitterStep, [firstTwitterStep, secondTwitterStep], Nat.le_refl 1⟩).runOn w).1 =
      .ok (some (.endpoint (uri { scheme := "twitter" } "twitter" "twitter-search-1" options)))) ∧
    (∀ w, (((visitor twitterContext).visit
        ⟨2, secondTwitterStep, [firstTwitterStep, secondTwitterStep], Nat.le_succ 1⟩).runOn w).1 =
      .ok (some (.endpoint
        (uri { scheme := "twitter-search" } "twitter-search" "twitter-search-1" options')))) ∧
    options.get? "token" = options'.get? "token" := by
  obtain ⟨options, options', -, -, huri, huri', hschemes, hsecrets⟩ := visits_share_scheme_iff
    ⟨1, firstTwitterStep, [firstTwitterStep, secondTwitterStep], Nat.le_refl 1⟩
    ⟨2, secondTwitterStep, [firstTwitterStep, secondTwitterStep], Nat.le_succ 1⟩
    ownsComponent_firstTwitterStep ownsComponent_secondTwitterStep (by decide)
  have habsorbs : Absorbs "twitter" "search-1" "twitter-search" "1" := ⟨"search", by decide⟩
  have hsame := hschemes.2 (.inl habsorbs)
  refine ⟨options, options', huri, huri', ?_⟩
  exact (hsecrets rfl ("token", "first") (by decide) ("token", "second") (by decide) rfl
    (.inl (by decide)) (.inl (by decide))).2 hsame

/-- So different identifiers do not keep two connections of one connector apart. -/
theorem not_emittedScheme_ne : ¬ ∀ (x : Context) (c c' : Connection) (a a' : Action) (k : Connector)
    (i i' : String), ∀ s ∈ x.request.integration.steps, ∀ s' ∈ x.request.integration.steps,
      OwnsComponent x s c a k i → OwnsComponent x s' c' a' k i' → i ≠ i' →
        emittedScheme c k a (merged c s) ≠ emittedScheme c' k a' (merged c' s') := by
  intro h
  have howns := ownsComponent_firstTwitterStep
  have howns' := ownsComponent_secondTwitterStep
  have hfirst : firstTwitterStep ∈ twitterContext.request.integration.steps := List.mem_cons_self
  have hsecond : secondTwitterStep ∈ twitterContext.request.integration.steps :=
    List.mem_cons_of_mem _ List.mem_cons_self
  apply h twitterContext _ _ _ _ _ _ _ _ hfirst _ hsecond howns howns' (by decide)
  rw [howns.emittedScheme_eq, howns'.emittedScheme_eq]
  decide

end RouteCompiler.Endpoint
