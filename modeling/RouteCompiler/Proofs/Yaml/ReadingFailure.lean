import RouteCompiler.Proofs.Yaml.ScanFailure
import RouteCompiler.Yaml.Node.OfTokens

/-!
Why tokens make no node. They are malformed, or they end where an error has cut them short. The
readers of nodes and of the parts of collections call each other, so one induction shows it for all
of them.
-/

namespace RouteCompiler.Yaml

variable {α β : Type}

namespace Reading

/-- The tokens are read, or they are malformed or end where an error has cut them short. -/
def Refused (cut : Option Error) (x : Except Error α) : Prop :=
  Ends (fun e => e = .malformed ∨ cut = some e) (fun _ => True) x

variable {g : Reading} {cut : Option Error}

theorem Refused.bind {x : Except Error α} {f : α → Except Error β} (hx : Refused cut x)
    (hf : ∀ a, Refused cut (f a)) : Refused cut (x >>= f) :=
  Ends.bind hx fun a _ => hf a

end Reading

end RouteCompiler.Yaml
