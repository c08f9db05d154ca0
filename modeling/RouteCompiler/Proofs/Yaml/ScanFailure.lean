import RouteCompiler.Proofs.Yaml.JsonString
import RouteCompiler.Yaml.Token.Scan

/-!
Where the splitting of a text into tokens can fail. A text is refused as malformed, with one
exception: an escape between double quotes may name a code point beyond the last character, and
then the error says so. Every token leaves an end of the text that was there, so that the escape
stands in the text itself.
-/

namespace RouteCompiler

/-! ## Results and errors -/

variable {ε α β : Type}

/-- The result satisfies `post`, or the error satisfies `fails`. -/
def Ends (fails : ε → Prop) (post : α → Prop) : Except ε α → Prop
  | .ok a => post a
  | .error e => fails e

namespace Ends

variable {fails fails' : ε → Prop} {post post' : α → Prop} {goal : β → Prop} {x : Except ε α}

theorem bind {f : α → Except ε β} (hx : Ends fails post x)
    (hf : ∀ a, post a → Ends fails goal (f a)) : Ends fails goal (x >>= f) := by
  cases x with
  | ok a => exact hf a hx
  | error e => exact hx

theorem imp (hx : Ends fails post x) (hf : ∀ e, fails e → fails' e)
    (hp : ∀ a, post a → post' a) : Ends fails' post' x := by
  cases x with
  | ok a => exact hp a hx
  | error e => exact hf e hx

theorem mapM (goal : β → Prop) {f : α → Except ε β} {l : List α}
    (hf : ∀ a ∈ l, Ends fails goal (f a)) : Ends fails (fun bs => ∀ b ∈ bs, goal b) (l.mapM f) := by
  induction l with
  | nil => exact nofun
  | cons a l ih =>
    rw [List.mapM_cons]
    refine (hf a List.mem_cons_self).bind fun b hb => ?_
    refine (ih fun a' ha' => hf a' (List.mem_cons_of_mem a ha')).bind fun bs hbs => ?_
    intro b' hb'
    rcases List.mem_cons.1 hb' with rfl | hb'
    · exact hb
    · exact hbs b' hb'

theorem foldlM {f : β → α → Except ε β} {l : List α} {b : β} (hb : goal b)
    (hf : ∀ b, goal b → ∀ a ∈ l, Ends fails goal (f b a)) :
    Ends fails goal (l.foldlM f b) := by
  induction l generalizing b with
  | nil => exact hb
  | cons a l ih =>
    rw [List.foldlM_cons]
    refine (hf b hb a List.mem_cons_self).bind fun b' hb' => ?_
    exact ih hb' fun c hc a' ha' => hf c hc a' (List.mem_cons_of_mem a ha')

theorem of_ok {a : α} (h : Ends fails post x) (ha : x = .ok a) : post a := by
  subst ha
  exact h

end Ends

namespace Yaml

/-! ## Lexemes -/

/-- The text is read, or it is malformed. -/
def FailsMalformed (x : Except Error α) : Prop := Ends (· = .malformed) (fun _ => True) x

theorem FailsMalformed.bind {x : Except Error α} {f : α → Except Error β} (hx : FailsMalformed x)
    (hf : ∀ a, FailsMalformed (f a)) : FailsMalformed (x >>= f) :=
  Ends.bind hx fun a _ => hf a

/-- The error for a code point beyond the last character. -/
def overflow (v : Nat) : Error := if 0x80000000 ≤ v then .hugeCodePoint else .codePoint

/-- An escape of eight digits names no character. -/
def Overflows (cs : List Char) (e : Error) : Prop :=
  ∃ r v, '\\' :: 'U' :: r <:+ cs ∧ hexValue 8 r = some v ∧ 0x110000 ≤ v ∧ e = overflow v

namespace Scan

/-- The scan stays where it is, or the text is malformed. -/
def Stays (s : Scan) (x : Except Error Scan) : Prop :=
  Ends (· = .malformed) (fun t => t.cursor = s.cursor) x

variable {s t : Scan} {x : Except Error Scan}

theorem Stays.bind {f : Scan → Except Error Scan} (hx : s.Stays x)
    (hf : ∀ t, t.cursor = s.cursor → s.Stays (f t)) : s.Stays (x >>= f) :=
  Ends.bind hx hf

end Scan

end Yaml
end RouteCompiler
