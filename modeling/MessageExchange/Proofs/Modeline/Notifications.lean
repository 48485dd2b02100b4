import MessageExchange.Proofs.Modeline.Dependencies
import MessageExchange.Proofs.Registry.History

/-!
# Notifications of strategies

A *session* is a context and the customizers of the sources that were read for
it.  Its steps bind and unbind beans of any kind, read a source, and apply one of
the customizers, any of them as often as wanted.  A step answers the events of
the strategies that it tells.

What a step sends depends on the steps before it in two ways only: on the values
that the sources have declared, and on the strategies that a flat list of the
bindings holds at that moment (`notifications_of_history`).  So the steps after it do
not change what it sent.
-/

namespace MessageExchange

variable {ε : Type}

/-! ## Sessions -/

/-- A context and the customizers that are kept for it. -/
structure Session (ε : Type) where
  context : Context ε
  /-- The customizers, in the order in which the sources declared them. -/
  kept : List (Customizer ε)

/-- A step of a session. -/
inductive SessionStep (ε : Type) where
  | bind (kind : BeanKind) (name : String) (bean : Bean ε kind)
  | unbind (name : String)
  /-- Reads a source and keeps its customizers. -/
  | parse (resource : Resource) (source : String)
  /-- Applies the customizer at a place. -/
  | configure (index : Nat)

namespace Session

/-- A session of an empty registry that has read nothing. -/
def start (options : Options) (converter : TypeConverter) : Session ε :=
  { context := { options, converter }, kept := [] }

/-- A step with the events that it sends. -/
def step (session : Session ε) : SessionStep ε → List ε × Session ε
  | .bind kind name bean => ([], { session with context := session.context.bind kind name bean })
  | .unbind name => ([], { session with context := session.context.unbind name })
  | .parse resource source =>
      ([], { session with
        kept := session.kept ++ ModelineParser.standard.parseSource resource source })
  | .configure index =>
      (match session.kept[index]? with
        | some customizer => customizer.configure session.context
        | none => [], session)

end Session

/-! ## What a step depends on -/

namespace SessionStep

/-- The step as a call to the registry. -/
def registryCall? : SessionStep ε → Option (RegistryCall (Bean ε))
  | bind kind name bean => some (.bind kind name bean)
  | unbind name => some (.unbind name)
  | _ => none

/-- What the source of a step declares. -/
def declares : SessionStep ε → List String
  | parse _ source => dependencies source
  | _ => []

/-- The bindings after steps, as one list. -/
def bindingsAfter (steps : List (SessionStep ε)) : FlatRegistry (Bean ε) :=
  (History.run FlatRegistry.step .empty (steps.filterMap registryCall?)).2

/-- The strategies that are bound after steps, in bind order and once for each name. -/
def strategiesAfter (steps : List (SessionStep ε)) : List (DependencyStrategy ε) :=
  (bindingsAfter steps).findAll .strategy

/-- What the sources of steps declare. -/
def declaredBy (steps : List (SessionStep ε)) : List String := steps.flatMap declares

/-- The events of telling strategies about a dependency. -/
def announce (strategies : List (DependencyStrategy ε)) (dependency : String) : List ε :=
  strategies.map fun strategy => strategy.onDependency dependency

/-- The events that a step sends after others. -/
def sentAfter (before : List (SessionStep ε)) : SessionStep ε → List ε
  | configure index =>
      match (declaredBy before)[index]? with
      | some dependency => announce (strategiesAfter before) dependency
      | none => []
  | _ => []

theorem bindingsAfter_concat_of_some {last : SessionStep ε} {call : RegistryCall (Bean ε)}
    (h : last.registryCall? = some call) (steps : List (SessionStep ε)) :
    bindingsAfter (steps ++ [last]) = ((bindingsAfter steps).step call).2 := by
  rw [bindingsAfter, List.filterMap_append, List.filterMap_cons, h]
  exact History.run_concat_state _ _ _ _

theorem bindingsAfter_concat_of_none {last : SessionStep ε} (h : last.registryCall? = none)
    (steps : List (SessionStep ε)) : bindingsAfter (steps ++ [last]) = bindingsAfter steps := by
  rw [bindingsAfter, List.filterMap_append, List.filterMap_cons, h, List.filterMap_nil,
    List.append_nil]
  rfl

theorem declaredBy_concat (steps : List (SessionStep ε)) (last : SessionStep ε) :
    declaredBy (steps ++ [last]) = declaredBy steps ++ last.declares := by
  rw [declaredBy, List.flatMap_append, List.flatMap_singleton]
  rfl

end SessionStep

/-! ## The state of a session -/

namespace Session

open SessionStep

/-- A session has the bindings and the customizers that its steps have led to. -/
structure Follows (session : Session ε) (steps : List (SessionStep ε)) : Prop where
  /-- The registry represents the flat list. -/
  represents : session.context.registry.Represents (bindingsAfter steps)
  /-- The customizers notify of what was declared. -/
  kept_eq : session.kept = (declaredBy steps).map notifier

theorem follows_start (options : Options) (converter : TypeConverter) :
    (start (ε := ε) options converter).Follows [] where
  represents := Registry.represents_empty
  kept_eq := rfl

namespace Follows

variable {session : Session ε} {steps : List (SessionStep ε)}

/-- A step that declares nothing and changes the registry as a flat list. -/
theorem registry_step (h : session.Follows steps) {last : SessionStep ε}
    {call : RegistryCall (Bean ε)} (hcall : last.registryCall? = some call)
    (hdeclares : last.declares = []) {context : Context ε}
    (hcontext : context.registry = (session.context.registry.step call).2) :
    ({ session with context } : Session ε).Follows (steps ++ [last]) where
  represents := by
    rw [bindingsAfter_concat_of_some hcall, hcontext]
    exact (h.represents.step call).2
  kept_eq := by
    rw [declaredBy_concat, hdeclares, List.append_nil]
    exact h.kept_eq

theorem step (h : session.Follows steps) (last : SessionStep ε) :
    (session.step last).2.Follows (steps ++ [last]) := by
  cases last with
  | bind kind name bean =>
      have hcall : (bind kind name bean).registryCall? = some (.bind kind name bean) := rfl
      exact h.registry_step hcall rfl rfl
  | unbind name =>
      have hcall : (unbind (ε := ε) name).registryCall? = some (.unbind name) := rfl
      exact h.registry_step hcall rfl rfl
  | parse resource source =>
      -- The registry is the same, and the customizers of the source come after the others.
      refine ⟨?_, ?_⟩
      · rw [bindingsAfter_concat_of_none rfl]
        exact h.represents
      · rw [declaredBy_concat, List.map_append, ← h.kept_eq, Session.step]
        exact congrArg _ (parseSource_standard resource source)
  | configure index =>
      refine ⟨?_, ?_⟩
      · rw [bindingsAfter_concat_of_none rfl]
        exact h.represents
      · have hdeclares : (configure (ε := ε) index).declares = [] := rfl
        rw [declaredBy_concat, hdeclares, List.append_nil]
        exact h.kept_eq

/-- A customizer tells the strategies that are bound when it is applied. -/
theorem configure_notifier (h : session.Follows steps) (dependency : String) :
    (notifier dependency).configure session.context = announce (strategiesAfter steps) dependency := by
  have hstrategies := h.represents.findAll_eq BeanKind.strategy
  exact congrArg (fun strategies => announce strategies dependency) hstrategies

/-- A step sends what the steps before it have prepared. -/
theorem answer (h : session.Follows steps) (last : SessionStep ε) :
    (session.step last).1 = sentAfter steps last := by
  cases last with
  | bind kind name bean => rfl
  | unbind name => rfl
  | parse resource source => rfl
  | configure index =>
      rw [Session.step, sentAfter, h.kept_eq, List.getElem?_map]
      cases (declaredBy steps)[index]? with
      | none => rfl
      | some dependency => exact h.configure_notifier dependency

end Follows

theorem follows_history (options : Options) (converter : TypeConverter)
    (steps : List (SessionStep ε)) :
    (History.run step (start options converter) steps).2.Follows steps := by
  induction steps using List.reverseRecOn with
  | nil => exact follows_start options converter
  | append_singleton steps last ih =>
      rw [History.run_concat_state]
      exact ih.step last

/-- Applying the customizers of a source tells every strategy about every dependency. -/
theorem configure_source {session : Session ε} {steps : List (SessionStep ε)}
    (h : session.Follows steps) (resource : Resource) (source : String) :
    (ModelineParser.standard.parseSource resource source).flatMap
        (fun customizer => customizer.configure session.context) =
      (dependencies source).flatMap (announce (strategiesAfter steps)) := by
  rw [parseSource_standard, List.flatMap_map]
  exact congrArg (List.flatMap · _) (funext h.configure_notifier)

theorem length_flatMap_announce (strategies : List (DependencyStrategy ε)) (values : List String) :
    (values.flatMap (announce strategies)).length = values.length * strategies.length := by
  induction values with
  | nil => rw [List.flatMap_nil, List.length_nil, List.length_nil, Nat.zero_mul]
  | cons value values ih =>
      rw [List.flatMap_cons, List.length_append, ih, announce, List.length_map, List.length_cons,
        Nat.succ_mul, Nat.add_comm]

end Session

/-! ## Every history -/

/-- In every session a step that applies a customizer tells the strategies that are bound at that
moment about the value that the source declared, in bind order and once for each name.  No other
step sends anything, and no later step changes what was sent.  Applying the customizers of a source
once each tells every strategy about every dependency that its lines declare, grouped by
declaration. -/
theorem notifications_of_history (options : Options) (converter : TypeConverter)
    (steps : List (SessionStep ε)) :
    let after := History.run Session.step (Session.start options converter) steps
    (after.1 = steps.mapIdx fun i step => SessionStep.sentAfter (steps.take i) step) ∧
      (∀ more, after.1 <+:
        (History.run Session.step (Session.start options converter) (steps ++ more)).1) ∧
      (∀ source values, SourceDeclared source values ↔ values = dependencies source) ∧
      ∀ resource source values, SourceDeclared source values →
        let strategies := SessionStep.strategiesAfter steps
        let sent := (ModelineParser.standard.parseSource resource source).flatMap
          fun customizer => customizer.configure after.2.context
        sent = values.flatMap (SessionStep.announce strategies) ∧
          sent.length = values.length * strategies.length := by
  intro after
  refine ⟨?_, fun more => ?_, fun source values => sourceDeclared_iff,
    fun resource source values hdeclared => ?_⟩
  · rw [History.answers_eq_mapIdx]
    congr 1
    funext i step
    exact (Session.follows_history options converter (steps.take i)).answer step
  · rw [History.run_append]
    exact List.prefix_append _ _
  · have hsent := Session.configure_source (Session.follows_history options converter steps)
      resource source
    rw [sourceDeclared_iff.1 hdeclared]
    refine ⟨hsent, ?_⟩
    rw [hsent, Session.length_flatMap_announce]

end MessageExchange
