import RouteCompiler.Registry
import RouteCompiler.Visitor.Endpoint
import RouteCompiler.Visitor.Filter
import RouteCompiler.Visitor.Log
import RouteCompiler.Visitor.Mapper

/-!
The step kinds the library serves.
-/

namespace RouteCompiler.Registry

def builtin : Registry VisitorFactory :=
  OrderedMap.ofList
    [ ("endpoint", Endpoint.visitor), ("filter", Filter.expressionVisitor),
      ("rule-filter", Filter.ruleVisitor), ("log", LogStep.visitor), ("mapper", Mapper.visitor) ]

end RouteCompiler.Registry
