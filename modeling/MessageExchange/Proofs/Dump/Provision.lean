import MessageExchange.Dump.Provision
import MessageExchange.Proofs.Options.Placeholders
import MessageExchange.Proofs.Registry.History
import Mathlib.Data.List.Basic
import Mathlib.Data.List.Induction

/-!
# Provided formatters

`Provided` says which formatter a context gives: the one that it is given, or the
only one that is bound, or a new one whose limit an option sets.  An option that
cannot be read is an error in the last case only, and the error is wrapped once.
The relation determines the answer (`provided_iff`).

A *provisioning* is a context in which beans are bound and unbound and formatters
are asked for, any number of times.  It keeps an identity beyond those of all
formatters that were bound, given or answered before (`Follows`), and a new
formatter takes that identity.  Which formatters are bound is said by the flat
list of the bindings, so asking for formatters makes no difference to it.
-/

namespace MessageExchange

variable {ε : Type}

/-! ## The formatter of a context -/

/-- The formatter that a context gives, where `bound` are the names and formatters that are bound
and `fresh` is the identity of a new one. -/
inductive Provided (options : Options) (env : Environment) (bound : List (String × Formatter))
    (fresh : Nat) : Option Formatter → Except ExchangeError Formatter → Prop where
  | existing (formatter : Formatter) :
      Provided options env bound fresh (some formatter) (.ok formatter)
  /-- Exactly one name is bound. -/
  | single {name : String} {formatter : Formatter} :
      bound = [(name, formatter)] →
      Provided options env bound fresh none (.ok formatter)
  /-- There is no option. -/
  | standard :
      bound.length ≠ 1 →
      options.find? "RelayLogDebugBodyMaxChars" = none →
      Provided options env bound fresh none
        (.ok ⟨fresh, DumpSettings.dump
          { showId := true, showHeaders := true, multiline := true, style := .fixed
            maxChars := 10000 }⟩)
  /-- The option gives a number. -/
  | limited {text : String} {n : Int32} :
      bound.length ≠ 1 →
      options.find? "RelayLogDebugBodyMaxChars" = some text →
      options.parseInteger env (some text) = .ok (some n) →
      Provided options env bound fresh none
        (.ok ⟨fresh, DumpSettings.dump
          { showId := true, showHeaders := true, multiline := true, style := .fixed
            maxChars := n }⟩)
  /-- The option gives no number. -/
  | refused {text message : String} :
      bound.length ≠ 1 →
      options.find? "RelayLogDebugBodyMaxChars" = some text →
      options.parseInteger env (some text) = .error (.invalidConfiguration message) →
      Provided options env bound fresh none
        (.error (.runtime (.invalidConfiguration message)))

/-- The relation has a case for every context. -/
theorem exists_provided (options : Options) (env : Environment)
    (bound : List (String × Formatter)) (fresh : Nat) (existing : Option Formatter) :
    ∃ answer, Provided options env bound fresh existing answer := by
  cases existing with
  | some formatter => exact ⟨_, .existing formatter⟩
  | none =>
      by_cases hlength : bound.length = 1
      · obtain ⟨binding, hbound⟩ := List.length_eq_one_iff.1 hlength
        exact ⟨_, .single hbound⟩
      · cases hoption : options.find? "RelayLogDebugBodyMaxChars" with
        | none => exact ⟨_, .standard hlength hoption⟩
        | some text =>
            cases hparse : options.readInteger env text with
            | ok n =>
                have hlimit : options.parseInteger env (some text) = .ok (some n) := by
                  rw [Options.parseInteger, hparse]
                  rfl
                exact ⟨_, .limited hlength hoption hlimit⟩
            | error error =>
                obtain ⟨message, rfl⟩ := Options.readInteger_error hparse
                have hlimit : options.parseInteger env (some text) =
                    .error (.invalidConfiguration message) := by
                  rw [Options.parseInteger, hparse]
                  rfl
                exact ⟨_, .refused hlength hoption hlimit⟩

namespace Context

variable {context : Context ε} {flat : FlatRegistry (Bean ε)}

theorem findSingle?_of_length_ne (h : context.registry.Represents flat)
    (hlength : (flat.ofKind .formatter).length ≠ 1) :
    context.registry.findSingle? BeanKind.formatter = none := by
  rw [h.findSingle?_eq, FlatRegistry.findSingle?, FlatRegistry.findAll, List.length_map,
    if_neg hlength]

theorem findSingle?_of_eq_singleton (h : context.registry.Represents flat) {name : String}
    {formatter : Formatter} (hbound : flat.ofKind .formatter = [(name, formatter)]) :
    context.registry.findSingle? BeanKind.formatter = some formatter := by
  rw [h.findSingle?_eq, FlatRegistry.findSingle?, FlatRegistry.findAll, hbound]
  rfl

/-- Without a formatter that is given or bound alone, the option decides. -/
theorem provideFormatter_of_none (h : context.registry.findSingle? BeanKind.formatter = none)
    (env : Environment) (fresh : Nat) :
    context.provideFormatter env none fresh =
      (context.dumpSettings env).map fun settings => settings.toFormatter fresh := by
  simp only [provideFormatter, h]

theorem provideFormatter_of_provided (h : context.registry.Represents flat) {env : Environment}
    {existing : Option Formatter} {fresh : Nat} {answer : Except ExchangeError Formatter}
    (hprovided : Provided context.options env (flat.ofKind .formatter) fresh existing answer) :
    context.provideFormatter env existing fresh = answer := by
  cases hprovided with
  | existing formatter => rfl
  | single hbound =>
      have hsingle := findSingle?_of_eq_singleton h hbound
      simp only [provideFormatter, hsingle]
  | standard hlength hoption =>
      have hnone := findSingle?_of_length_ne h hlength
      rw [provideFormatter_of_none hnone, dumpSettings, option?, bodyMaxCharsKey, hoption]
      rfl
  | limited hlength hoption hparse =>
      have hnone := findSingle?_of_length_ne h hlength
      rw [provideFormatter_of_none hnone, dumpSettings, option?, bodyMaxCharsKey, hoption, hparse]
      rfl
  | refused hlength hoption hparse =>
      have hnone := findSingle?_of_length_ne h hlength
      rw [provideFormatter_of_none hnone, dumpSettings, option?, bodyMaxCharsKey, hoption, hparse]
      rfl

theorem provided_iff (h : context.registry.Represents flat) {env : Environment}
    {existing : Option Formatter} {fresh : Nat} {answer : Except ExchangeError Formatter} :
    Provided context.options env (flat.ofKind .formatter) fresh existing answer ↔
      answer = context.provideFormatter env existing fresh := by
  constructor
  · intro hprovided
    exact (provideFormatter_of_provided h hprovided).symm
  · rintro rfl
    obtain ⟨answer, hprovided⟩ :=
      exists_provided context.options env (flat.ofKind .formatter) fresh existing
    rwa [provideFormatter_of_provided h hprovided]

end Context

/-! ## Provisionings -/

/-- A context in which formatters are asked for. -/
structure Provisioning (ε : Type) where
  context : Context ε
  /-- An identity beyond those of all formatters so far. -/
  unused : Nat

/-- A step of a provisioning: a change of the registry, or a call for a formatter. -/
inductive ProvisionStep (ε : Type) where
  | update (call : RegistryCall (Bean ε))
  | provide (env : Environment) (existing : Option Formatter)

namespace ProvisionStep

/-- The formatters that a step brings along. -/
def given : ProvisionStep ε → List Formatter
  | update (.bind .formatter _ formatter) => [formatter]
  | update _ => []
  | provide _ existing => existing.toList

def registryCall? : ProvisionStep ε → Option (RegistryCall (Bean ε))
  | update call => some call
  | provide _ _ => none

/-- The bindings after steps, as one list. -/
def bindingsAfter (steps : List (ProvisionStep ε)) : FlatRegistry (Bean ε) :=
  (History.run FlatRegistry.step .empty (steps.filterMap registryCall?)).2

/-- The names and formatters that are bound after steps. -/
def boundAfter (steps : List (ProvisionStep ε)) : List (String × Formatter) :=
  (bindingsAfter steps).ofKind .formatter

end ProvisionStep

/-- The first identity from a number on that lies beyond those of formatters. -/
def identityBeyond (start : Nat) (formatters : List Formatter) : Nat :=
  formatters.foldl (fun n formatter => max n (formatter.identity + 1)) start

/-- The formatters of answers to steps. -/
def answered (answers : List (Option (Except ExchangeError Formatter))) : List Formatter :=
  answers.filterMap fun answer => answer.bind Except.toOption

namespace Provisioning

/-- A provisioning with an empty registry. -/
def start (options : Options) (converter : TypeConverter) : Provisioning ε :=
  { context := { options, converter }, unused := 0 }

/-- The answer to a step and the context after it. -/
def respond (provisioning : Provisioning ε) :
    ProvisionStep ε → Option (Except ExchangeError Formatter) × Context ε
  | .update call =>
      let context := provisioning.context
      (none, { context with registry := (context.registry.step call).2 })
  | .provide env existing =>
      (some (provisioning.context.provideFormatter env existing provisioning.unused),
        provisioning.context)

/-- Takes a step.  The formatters of the step and of its answer use up their identities. -/
def step (provisioning : Provisioning ε) (last : ProvisionStep ε) :
    Option (Except ExchangeError Formatter) × Provisioning ε :=
  let answer := (provisioning.respond last).1
  (answer,
    { context := (provisioning.respond last).2
      unused := identityBeyond provisioning.unused (last.given ++ answered [answer]) })

/-! ## Identities -/

theorem le_identityBeyond (start : Nat) (formatters : List Formatter) :
    start ≤ identityBeyond start formatters := by
  induction formatters generalizing start with
  | nil => exact Nat.le_refl start
  | cons formatter rest ih => exact Nat.le_trans (Nat.le_max_left _ _) (ih _)

theorem lt_identityBeyond {start : Nat} {formatters : List Formatter} {formatter : Formatter}
    (h : formatter ∈ formatters) : formatter.identity < identityBeyond start formatters := by
  induction formatters generalizing start with
  | nil => cases h
  | cons first rest ih =>
      rcases List.mem_cons.1 h with rfl | h
      · exact Nat.le_trans (Nat.le_max_right _ _) (le_identityBeyond _ rest)
      · exact ih h

/-! ## The state of a provisioning -/

open ProvisionStep

/-- The formatters that steps have brought along and that were answered to them. -/
def seen (steps : List (ProvisionStep ε))
    (answers : List (Option (Except ExchangeError Formatter))) : List Formatter :=
  steps.flatMap given ++ answered answers

theorem mem_seen_concat {steps : List (ProvisionStep ε)} {last : ProvisionStep ε}
    {answers : List (Option (Except ExchangeError Formatter))}
    {answer : Option (Except ExchangeError Formatter)} {formatter : Formatter}
    (h : formatter ∈ seen (steps ++ [last]) (answers ++ [answer])) :
    formatter ∈ seen steps answers ∨ formatter ∈ last.given ++ answered [answer] := by
  simp only [seen, answered, List.flatMap_append, List.flatMap_singleton, List.filterMap_append,
    List.mem_append] at h ⊢
  rcases h with (h | h) | (h | h)
  · exact .inl (.inl h)
  · exact .inr (.inl h)
  · exact .inl (.inr h)
  · exact .inr (.inr h)

/-- A provisioning has what it was made with, the bindings that its steps have led to, and an
identity that no formatter has that it has seen. -/
structure Follows (provisioning : Provisioning ε) (options : Options) (converter : TypeConverter)
    (steps : List (ProvisionStep ε))
    (answers : List (Option (Except ExchangeError Formatter))) : Prop where
  options_eq : provisioning.context.options = options
  converter_eq : provisioning.context.converter = converter
  represents : provisioning.context.registry.Represents (bindingsAfter steps)
  /-- Every formatter that is bound was brought along. -/
  bound_given : ∀ binding ∈ boundAfter steps, binding.2 ∈ steps.flatMap given
  seen_lt : ∀ formatter ∈ seen steps answers, formatter.identity < provisioning.unused

theorem follows_start (options : Options) (converter : TypeConverter) :
    (start (ε := ε) options converter).Follows options converter [] [] where
  options_eq := rfl
  converter_eq := rfl
  represents := Registry.represents_empty
  bound_given _ h := nomatch h
  seen_lt _ h := nomatch h

theorem bindingsAfter_concat_update (steps : List (ProvisionStep ε))
    (call : RegistryCall (Bean ε)) :
    bindingsAfter (steps ++ [ProvisionStep.update call]) = ((bindingsAfter steps).step call).2 := by
  rw [bindingsAfter, List.filterMap_append]
  exact History.run_concat_state _ _ _ _

theorem bindingsAfter_concat_provide (steps : List (ProvisionStep ε)) (env : Environment)
    (existing : Option Formatter) :
    bindingsAfter (steps ++ [.provide env existing]) = bindingsAfter steps := by
  rw [bindingsAfter, List.filterMap_append]
  exact congrArg (fun calls => (History.run FlatRegistry.step .empty calls).2)
    (List.append_nil _)

namespace Follows

variable {provisioning : Provisioning ε} {options : Options} {converter : TypeConverter}
  {steps : List (ProvisionStep ε)} {answers : List (Option (Except ExchangeError Formatter))}

theorem seen_concat_lt (h : provisioning.Follows options converter steps answers)
    {last : ProvisionStep ε} {answer : Option (Except ExchangeError Formatter)} :
    ∀ formatter ∈ seen (steps ++ [last]) (answers ++ [answer]),
      formatter.identity <
        identityBeyond provisioning.unused (last.given ++ answered [answer]) := by
  intro formatter hmem
  rcases mem_seen_concat hmem with hmem | hmem
  · exact Nat.lt_of_lt_of_le (h.seen_lt formatter hmem) (le_identityBeyond _ _)
  · exact lt_identityBeyond hmem

/-- Binding and unbinding leave no formatter bound that was not brought along. -/
theorem bound_given_step (h : provisioning.Follows options converter steps answers)
    (call : RegistryCall (Bean ε)) :
    ∀ binding ∈ boundAfter (steps ++ [.update call]),
      binding.2 ∈ (steps ++ [ProvisionStep.update call]).flatMap given := by
  intro binding hmem
  rw [boundAfter, bindingsAfter_concat_update] at hmem
  rw [List.flatMap_append, List.mem_append]
  cases call with
  | unbind name =>
      rw [FlatRegistry.step, FlatRegistry.ofKind_unbind] at hmem
      exact .inl (h.bound_given binding (List.mem_filter.1 hmem).1)
  | bind kind name bean =>
      cases kind with
      | formatter =>
          rw [FlatRegistry.step, FlatRegistry.ofKind_bind_self h.represents.nodup_keys] at hmem
          rcases mem_bindName hmem with rfl | hmem
          · exact .inr (List.mem_singleton_self bean)
          · exact .inl (h.bound_given binding hmem)
      | _ =>
          rw [FlatRegistry.step, FlatRegistry.ofKind_bind_of_ne _ (by decide)] at hmem
          exact .inl (h.bound_given binding hmem)

theorem step (h : provisioning.Follows options converter steps answers)
    (last : ProvisionStep ε) :
    (provisioning.step last).2.Follows options converter (steps ++ [last])
      (answers ++ [(provisioning.step last).1]) := by
  cases last with
  | update call =>
      refine ⟨h.options_eq, h.converter_eq, ?_, ?_, h.seen_concat_lt⟩
      · rw [bindingsAfter_concat_update]
        exact (h.represents.step call).2
      · exact h.bound_given_step call
  | provide env existing =>
      refine ⟨h.options_eq, h.converter_eq, ?_, ?_, h.seen_concat_lt⟩
      · rw [bindingsAfter_concat_provide]
        exact h.represents
      · intro binding hmem
        rw [boundAfter, bindingsAfter_concat_provide] at hmem
        rw [List.flatMap_append]
        exact List.mem_append_left _ (h.bound_given binding hmem)

/-- No formatter that was seen has the unused identity, and so none that is bound has it. -/
theorem identity_ne (h : provisioning.Follows options converter steps answers)
    {formatter : Formatter} (hmem : formatter ∈ seen steps answers) :
    formatter.identity ≠ provisioning.unused :=
  Nat.ne_of_lt (h.seen_lt formatter hmem)

theorem bound_identity_ne (h : provisioning.Follows options converter steps answers)
    {binding : String × Formatter} (hmem : binding ∈ boundAfter steps) :
    binding.2.identity ≠ provisioning.unused :=
  h.identity_ne (List.mem_append_left _ (h.bound_given binding hmem))

theorem nodup_bound (h : provisioning.Follows options converter steps answers) :
    ((boundAfter steps).map Prod.fst).Nodup :=
  FlatRegistry.nodup_names_ofKind h.represents.nodup_keys BeanKind.formatter

/-- A call gives what the bindings and the option determine. -/
theorem provided_iff (h : provisioning.Follows options converter steps answers)
    (env : Environment) (existing : Option Formatter) (answer : Except ExchangeError Formatter) :
    Provided options env (boundAfter steps) provisioning.unused existing answer ↔
      (provisioning.step (.provide env existing)).1 = some answer := by
  rw [← h.options_eq]
  constructor
  · intro hprovided
    exact congrArg some (Context.provideFormatter_of_provided h.represents hprovided)
  · intro hanswer
    exact (Context.provided_iff h.represents).2 (Option.some.inj hanswer).symm

end Follows

theorem follows_history (options : Options) (converter : TypeConverter)
    (steps : List (ProvisionStep ε)) :
    (History.run step (start options converter) steps).2.Follows options converter steps
      (History.run step (start options converter) steps).1 := by
  induction steps using List.reverseRecOn with
  | nil => exact follows_start options converter
  | append_singleton steps last ih =>
      rw [History.run_concat_state, History.run_concat_answers]
      exact ih.step last

end Provisioning

/-! ## Every history -/

/-- After every history of binding, unbinding and asking for formatters, a call gives the formatter
that the bindings of that moment and the option determine.  Each name counts once among the
bindings.  A new formatter is none of those that were bound, given or answered before, and a call
leaves the context as it is. -/
theorem formatter_of_history (options : Options) (converter : TypeConverter)
    (steps : List (ProvisionStep ε)) :
    let run := History.run Provisioning.step (Provisioning.start options converter) steps
    let bound := ProvisionStep.boundAfter steps
    let fresh := run.2.unused
    (bound.map Prod.fst).Nodup ∧
      (∀ binding ∈ bound, binding.2.identity ≠ fresh) ∧
      (∀ formatter ∈ Provisioning.seen steps run.1, formatter.identity ≠ fresh) ∧
      ∀ env existing,
        let call := run.2.step (.provide env existing)
        (∀ answer, Provided options env bound fresh existing answer ↔ call.1 = some answer) ∧
          call.2.context = run.2.context := by
  intro run bound fresh
  have h := Provisioning.follows_history options converter steps
  exact ⟨h.nodup_bound, fun binding hmem => h.bound_identity_ne hmem,
    fun formatter hmem => h.identity_ne hmem,
    fun env existing => ⟨fun answer => h.provided_iff env existing answer, rfl⟩⟩

end MessageExchange
