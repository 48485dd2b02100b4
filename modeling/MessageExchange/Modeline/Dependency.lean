import MessageExchange.Modeline.Basic

/-!
# Dependencies

The trait `dependency` declares that a source depends on something.  Its
customizer tells every strategy that is bound in the context when it is applied,
in bind order, and once for each name that a strategy is bound under.
-/

namespace MessageExchange

variable {ε : Type}

/-- The events of telling every bound strategy about a dependency. -/
def notifyStrategies (dependency : String) (context : Context ε) : List ε :=
  (context.registry.findAll .strategy).map fun strategy =>
    DependencyStrategy.onDependency strategy dependency

/-- The trait that declares dependencies. -/
def dependencyTrait : ModelineTrait ε where
  name := "dependency"
  customizer _ dependency := ⟨notifyStrategies dependency⟩

/-- The parser that knows the traits of this library. -/
def ModelineParser.standard : ModelineParser ε := ModelineParser.empty.addTrait dependencyTrait

end MessageExchange
