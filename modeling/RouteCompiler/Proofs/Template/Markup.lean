import Mathlib.Tactic.SplitIfs
import RouteCompiler.Template.Value

/-!
Documents with tags, read back. A tag is what stands between an opening bracket and the next closing
one; all else is text, in which some characters are written as entities. Escaped text is read back
as what it was, and it opens no tag.
-/

namespace RouteCompiler.Template.Markup

/-! ## Entities -/

/-- The text that is meant, with the entities that escaping writes undone. -/
def unescape : List Char → List Char
  | '&' :: 'a' :: 'm' :: 'p' :: ';' :: cs => '&' :: unescape cs
  | '&' :: 'l' :: 't' :: ';' :: cs => '<' :: unescape cs
  | '&' :: 'g' :: 't' :: ';' :: cs => '>' :: unescape cs
  | '&' :: '#' :: '3' :: '4' :: ';' :: cs => '"' :: unescape cs
  | '&' :: '#' :: '3' :: '9' :: ';' :: cs => '\'' :: unescape cs
  | c :: cs => c :: unescape cs
  | [] => []

theorem unescape_cons_of_ne {c : Char} (h : c ≠ '&') (cs : List Char) :
    unescape (c :: cs) = c :: unescape cs := by
  rw [unescape.eq_6] <;> simp [h]

theorem unescape_escapeChar_append (c : Char) (cs : List Char) :
    unescape (Value.escapeChar c ++ cs) = c :: unescape cs := by
  unfold Value.escapeChar
  split_ifs with h₁ h₂ h₃ h₄ h₅
  · simp [unescape, h₁]
  · simp [unescape, h₂]
  · simp [unescape, h₃]
  · simp [unescape, h₄]
  · simp [unescape, h₅]
  · exact unescape_cons_of_ne h₁ cs

theorem unescape_escapeChars (cs : List Char) : unescape (Value.escapeChars cs) = cs := by
  induction cs with
  | nil => rfl
  | cons c cs ih =>
    rw [Value.escapeChars, List.flatMap_cons, unescape_escapeChar_append]
    exact congrArg (c :: ·) ih

theorem notMem_escapeChar (c : Char) : '<' ∉ Value.escapeChar c := by
  unfold Value.escapeChar
  split_ifs with h₁ h₂ <;> simp [Ne.symm, *]

theorem notMem_escapeChars (cs : List Char) : '<' ∉ Value.escapeChars cs := by
  rw [Value.escapeChars, List.mem_flatMap]
  rintro ⟨c, -, h⟩
  exact notMem_escapeChar c h

/-! ## Tags -/

/-- What a document is read as: its tags, the text in front of each of them, and what stands behind
the last one. -/
structure Reading where
  texts : List (List Char)
  tags : List (List Char)
  rest : List Char
  deriving DecidableEq

mutual
/-- Read on behind `text`, up to the next tag. -/
def readText (text : List Char) : List Char → Option Reading
  | [] => some ⟨[], [], text⟩
  | c :: cs => if c = '<' then readTag text [] cs else readText (text ++ [c]) cs

/-- Read on behind the first characters of a tag. There is no reading if the tag has no end. -/
def readTag (text tag : List Char) : List Char → Option Reading
  | [] => none
  | c :: cs =>
    if c = '>' then (readText [] cs).map fun r => ⟨unescape text :: r.texts, tag :: r.tags, r.rest⟩
    else readTag text (tag ++ [c]) cs
end

def read? (document : String) : Option Reading := readText [] document.toList

/-- Behind the text `t` the characters are read as tags with texts in front of them, and leave
`t'`. -/
def Reads (t cs : List Char) (texts tags : List (List Char)) (t' : List Char) : Prop :=
  readText t cs = some ⟨texts, tags, t'⟩

instance {t cs : List Char} {texts tags : List (List Char)} {t' : List Char} :
    Decidable (Reads t cs texts tags t') := inferInstanceAs (Decidable (_ = _))

theorem readText_append (cs ds : List Char) : (∀ t r, readText t cs = some r →
      readText t (cs ++ ds) = (readText r.rest ds).map fun q =>
        ⟨r.texts ++ q.texts, r.tags ++ q.tags, q.rest⟩) ∧
    (∀ t tag r, readTag t tag cs = some r →
      readTag t tag (cs ++ ds) = (readText r.rest ds).map fun q =>
        ⟨r.texts ++ q.texts, r.tags ++ q.tags, q.rest⟩) := by
  induction cs with
  | nil =>
    refine ⟨fun t r h => ?_, fun t tag r h => ?_⟩
    · cases h
      simp
    · cases h
  | cons c cs ih =>
    obtain ⟨ihText, ihTag⟩ := ih
    refine ⟨fun t r h => ?_, fun t tag r h => ?_⟩
    · rw [readText] at h
      rw [List.cons_append, readText]
      split_ifs at h ⊢ with hc
      · exact ihTag _ _ _ h
      · exact ihText _ _ h
    · rw [readTag] at h
      rw [List.cons_append, readTag]
      split_ifs at h ⊢ with hc
      · obtain ⟨r', hr', rfl⟩ := Option.map_eq_some_iff.1 h
        rw [ihText _ _ hr', Option.map_map]
        rfl
      · exact ihTag _ _ _ h

namespace Reads

variable {t t' t'' cs ds : List Char} {texts tags texts' tags' : List (List Char)}

theorem append (h : Reads t cs texts tags t') (h' : Reads t' ds texts' tags' t'') :
    Reads t (cs ++ ds) (texts ++ texts') (tags ++ tags') t'' := by
  rw [Reads, (readText_append cs ds).1 _ _ h, show readText t' ds = _ from h']
  rfl

theorem text (h : '<' ∉ cs) : Reads t cs [] [] (t ++ cs) := by
  induction cs generalizing t with
  | nil => simp [Reads, readText]
  | cons c cs ih =>
    rw [List.mem_cons, not_or] at h
    have hcs : readText (t ++ [c]) cs = _ := ih h.2
    rw [Reads, readText, if_neg (Ne.symm h.1), hcs, List.append_assoc]
    rfl

theorem tag {name : List Char} (h : '>' ∉ name) :
    Reads t ('<' :: (name ++ ['>'])) [unescape t] [name] [] := by
  have hname (read : List Char) : readTag t read (name ++ ['>']) =
      some ⟨[unescape t], [read ++ name], []⟩ := by
    induction name generalizing read with
    | nil => simp [readTag, readText]
    | cons c name ih =>
      rw [List.mem_cons, not_or] at h
      rw [List.cons_append, readTag, if_neg (Ne.symm h.1), ih h.2, List.append_assoc]
      rfl
  rw [Reads, readText, if_pos rfl, hname, List.nil_append]

/-- Between two tags escaped text stands for what was escaped. -/
theorem escaped (s name : List Char) (h : '>' ∉ name) (hcs : Reads [] cs texts tags t') :
    Reads [] (Value.escapeChars s ++ '<' :: (name ++ '>' :: cs)) (s :: texts) (name :: tags)
      t' := by
  have hs := (text (t := []) (notMem_escapeChars s)).append ((tag h).append hcs)
  simpa [unescape_escapeChars] using hs

end Reads
end RouteCompiler.Template.Markup
