import RouteCompiler.Text.Upper
import RouteCompiler.Visitor.Basic

/-!
Log steps: a message, empty by default, at a level in upper case.
-/

namespace RouteCompiler.LogStep

def element (configured : PropertyMap) : Element :=
  .log ((configured.get? "message").getD "")
    (Text.upper ((configured.get? "loggingLevel").getD defaultLoggingLevel))

def visitor : VisitorFactory := fun _ => .ofVisit fun c => return some (element c.step.configured)

end RouteCompiler.LogStep
