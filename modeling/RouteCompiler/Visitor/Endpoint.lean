import RouteCompiler.Visitor.Basic

/-!
Endpoint steps. A connection and an action become a URI: a scheme, the values of the positional
properties between colons, and all other endpoint-level properties as a query. The step's
properties win over the connection's. Component-level properties stay out of the URI, but where
there are some the scheme names the connection, so that connections do not share a component.
-/

namespace RouteCompiler

namespace PropertyMap

/-- Some key is component-level for some of the definitions. -/
def hasComponentLevel (m : PropertyMap) (ds : List Definitions) : Bool :=
  ds.any fun d => m.keys.any d.isComponentLevel

/-- What stands for a secret value: a reference to the property of a connection. -/
def placeholder (owner key : String) : String := "\x7b\x7b" ++ owner ++ "." ++ key ++ "\x7d\x7d"

/-- Replace the values that are secret by some of the definitions. -/
def maskSecrets (m : PropertyMap) (owner : String) (ds : List Definitions) : PropertyMap :=
  m.mapEntries fun k v => if ds.any (·.isSecret k) then placeholder owner k else v

end PropertyMap

namespace Endpoint

/-- The scheme whose endpoints need a timer name. -/
def timerScheme : String := "periodic-timer"
def timerKey : String := "timerName"
def timerValue : String := "every"

def withTimerName (m : PropertyMap) : PropertyMap :=
  if m.contains timerKey then m else m.insert timerKey timerValue

/-- Append one positional property, taking it out of the options: its value, or the default of a
required one. -/
def addSegment (acc : String × PropertyMap) (d : String × PropertyDefinition) :
    String × PropertyMap :=
  if !d.2.isPositional then acc
  else match acc.2.get? d.1 with
    | some v => (acc.1 ++ ":" ++ v, acc.2.erase d.1)
    | none => if d.2.required then (acc.1 ++ ":" ++ d.2.defaultValue.getD "", acc.2) else acc

/-- The options as a query, with its mark unless there are none. -/
def query (m : PropertyMap) : String :=
  if m.isEmpty then "" else "?" ++ "&".intercalate (m.entries.map fun e => e.1 ++ "=" ++ e.2)

/-- Put `scheme` in the place of `base` at the front. -/
def swapScheme (base scheme uri : String) : String :=
  if scheme ≠ base && base.toList.isPrefixOf uri.toList then
    String.ofList (scheme.toList ++ uri.toList.drop base.length)
  else uri

/-- The URI of an action's endpoint with these options. -/
def uri (a : Action) (base scheme : String) (options : PropertyMap) : String :=
  let (path, rest) := a.definitions.entries.foldl addSegment (base, options)
  swapScheme base scheme (path ++ query rest)

/-- The connector of a connection, or else of the action. -/
def connectorId (c : Connection) (a : Action) : Option String :=
  match c.connectorId.filter fun i => !i.isEmpty with
  | some i => some i
  | none => a.connectorId

def connectorOf (r : FlowRequest) (c : Connection) (a : Action) : Except CompileError Connector :=
  let id := connectorId c a
  match (id.filter fun i => !i.isEmpty).bind r.connectors.get? with
  | some k => .ok k
  | none => .error (.connectorNotFound id)

/-- The scheme of one connection: the action's, followed by the connection's identifier. -/
def ownScheme (c : Connection) (a : Action) : String :=
  match c.id.filter fun i => !i.isEmpty with
  | some i => a.scheme ++ "-" ++ i
  | none => a.scheme

/-- The options of an endpoint before masking. -/
def options (k : Connector) (a : Action) (configured : PropertyMap) : PropertyMap :=
  (configured.filterKeys k.definitions.isEndpointLevel).overlay
    (configured.filterKeys a.definitions.isEndpointLevel)

/-- The endpoint of a step with its connection and action. -/
def ofStep (x : Context) (s : Step) (c : Connection) (a : Action) :
    Except CompileError String := do
  let k ← connectorOf x.request c a
  let configured := c.configured.overlay s.configured
  let own := ownScheme c a
  let scheme :=
    if PropertyMap.hasComponentLevel configured [k.definitions, a.definitions] then own
    else a.scheme
  let plain := options k a configured
  let masked :=
    if x.settings.maskSecrets then PropertyMap.maskSecrets plain own [k.definitions, a.definitions]
    else plain
  let named := if a.scheme = timerScheme then withTimerName masked else masked
  return uri a a.scheme scheme named

def module : String := "endpoint"

/-- The visitor of endpoint steps; a step without connection or action has no element. -/
def visitor : VisitorFactory := fun x => .ofVisit fun c => do
  match c.step.action, c.step.connection with
  | some a, some k =>
    match ofStep x c.step k a with
    | .error e => Compile.fail e
    | .ok u =>
      Compile.log .debug module s!"  [ENDPOINT] #{c.index} {u}"
      return some (.endpoint u)
  | _, _ =>
    Compile.log .debug module s!"  [SKIP] Step #{c.index} has no action or connection bound"
    return none

end Endpoint
end RouteCompiler
