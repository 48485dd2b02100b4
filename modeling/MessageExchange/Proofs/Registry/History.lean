import MessageExchange.Proofs.History
import MessageExchange.Proofs.Registry.Represents
import Mathlib.Data.Prod.Basic

/-!
# Histories of registries

A history of a registry binds beans of any kinds under any names and unbinds
names.  After every history that starts from nothing the registry represents the
flat list with the same history, and the calls have given the same answers
(`Represents.history`).  So everything that is seen of a registry is seen of a
list, and the laws of the list are laws of the registry (`Represents.lawful`).
-/

namespace MessageExchange

variable {κ : Type} [DecidableEq κ] {β : κ → Type}

/-! ## Calls -/

/-- A call that changes a registry. -/
inductive RegistryCall (β : κ → Type) where
  | bind (kind : κ) (name : String) (bean : β kind)
  | unbind (name : String)

/-- A call to a registry.  Unbinding answers whether there were beans of the name. -/
def Registry.step (registry : Registry β) : RegistryCall β → Option Bool × Registry β
  | .bind kind name bean => (none, registry.bind kind name bean)
  | .unbind name => (some (registry.hasThenUnbind name).1, (registry.hasThenUnbind name).2)

/-- A call to a flat list. -/
def FlatRegistry.step (flat : FlatRegistry β) : RegistryCall β → Option Bool × FlatRegistry β
  | .bind kind name bean => (none, flat.bind kind name bean)
  | .unbind name => (some (flat.hasName name), flat.unbind name)

namespace Registry

/-- Two registries show the same beans of a kind. -/
structure SameOf (kind : κ) (registry other : Registry β) : Prop where
  /-- Under each name. -/
  find? : ∀ name, registry.find? kind name = other.find? kind name
  /-- In the same order. -/
  findAll : registry.findAll kind = other.findAll kind
  /-- The same one, if there is only one. -/
  findSingle? : registry.findSingle? kind = other.findSingle? kind

/-- How binding and unbinding change what a registry shows. -/
structure Lawful (registry : Registry β) : Prop where
  /-- No pair of kind and name occurs twice in the buckets. -/
  nodup_keys : registry.keys.Nodup
  /-- Binding a bound name again keeps the place of the name and all the others. -/
  rebind : ∀ kind name bean, registry.find? kind name ≠ none →
    (registry.bind kind name bean).bindings kind =
      (registry.bindings kind).map fun binding =>
        if binding.1 = name then (name, bean) else binding
  /-- Unbinding a name and binding it moves it to the end. -/
  unbind_bind : ∀ kind name bean,
    ((registry.unbind name).bind kind name bean).bindings kind =
      ((registry.bindings kind).filter fun binding => binding.1 ≠ name) ++ [(name, bean)]
  /-- Binding a bean of one kind changes nothing that is seen of another kind. -/
  bind_other : ∀ kind other name bean, other ≠ kind →
    (registry.bind kind name bean).SameOf other registry
  /-- Unbinding a name keeps the beans of the other names, -/
  unbind_other : ∀ kind name other, other ≠ name →
    (registry.unbind name).find? kind other = registry.find? kind other
  /-- and their order. -/
  unbind_order : ∀ kind name,
    (registry.unbind name).bindings kind =
      (registry.bindings kind).filter fun binding => binding.1 ≠ name

theorem sameOf_of_bindings_eq {registry other : Registry β} {kind : κ}
    (h : registry.bindings kind = other.bindings kind) : registry.SameOf kind other where
  find? _ := by rw [find?, find?, h]
  findAll := by rw [findAll, findAll, h]
  findSingle? := by rw [findSingle?, findSingle?, findAll, findAll, h]

theorem lookup_unbindName {α : Type} {name other : String} (hne : other ≠ name)
    (bindings : List (String × α)) :
    (unbindName name bindings).lookup other = bindings.lookup other := by
  induction bindings with
  | nil => rfl
  | cons binding rest ih =>
      by_cases hn : binding.1 = name
      · have hother : (other == binding.1) = false := beq_false_of_ne (hn ▸ hne)
        rw [unbindName, List.filter_cons_of_neg (by simpa using hn), List.lookup_cons, hother]
        exact ih
      · rw [unbindName, List.filter_cons_of_pos (by simpa using hn), List.lookup_cons,
          List.lookup_cons, ← unbindName, ih]

namespace Represents

variable {registry : Registry β} {flat : FlatRegistry β}

/-! ## Answers -/

theorem step (h : registry.Represents flat) (call : RegistryCall β) :
    (registry.step call).1 = (flat.step call).1 ∧
      (registry.step call).2.Represents (flat.step call).2 := by
  cases call with
  | bind kind name bean => exact ⟨rfl, h.bind kind name bean⟩
  | unbind name => exact ⟨congrArg some (h.hasName_eq name), h.unbind name⟩

/-- Histories from a registry and from the list that it represents give the same answers. -/
theorem history (h : registry.Represents flat) (calls : List (RegistryCall β)) :
    (History.run Registry.step registry calls).1 = (History.run FlatRegistry.step flat calls).1 ∧
      (History.run Registry.step registry calls).2.Represents
        (History.run FlatRegistry.step flat calls).2 :=
  History.run_simulation (fun _ _ call hrep => hrep.step call) h calls

/-! ## Laws -/

theorem nodup_names (h : registry.Represents flat) (kind : κ) :
    ((registry.bindings kind).map Prod.fst).Nodup := by
  rw [h.bindings_eq]
  exact FlatRegistry.nodup_names_ofKind h.nodup_keys kind

/-- No pair of kind and name occurs twice in the buckets. -/
theorem nodup_registry_keys (h : registry.Represents flat) : registry.keys.Nodup := by
  rw [keys, List.nodup_flatMap]
  constructor
  · intro bucket hmem
    have hnames := h.nodup_names bucket.kind
    rw [bindings, bindingsOf_of_mem h.nodup_kinds hmem] at hnames
    have hpairs := hnames.map (Prod.mk_right_injective bucket.kind)
    rwa [List.map_map] at hpairs
  · have hkinds : registry.buckets.Pairwise fun a b => a.kind ≠ b.kind :=
      List.pairwise_map.1 h.nodup_kinds
    refine hkinds.imp fun {a b} hne key ha hb => ?_
    obtain ⟨x, -, rfl⟩ := List.mem_map.1 ha
    obtain ⟨y, -, hkey⟩ := List.mem_map.1 hb
    exact hne (congrArg Prod.fst hkey).symm

theorem name_mem_of_find? {kind : κ} {name : String}
    (hfind : registry.find? kind name ≠ none) :
    name ∈ (registry.bindings kind).map Prod.fst := by
  by_contra hnot
  apply hfind
  rw [find?, List.lookup_eq_none_iff]
  intro binding hmem
  have hne : name ≠ binding.1 := fun heq => hnot (heq ▸ List.mem_map_of_mem hmem)
  exact bne_iff_ne.2 hne

theorem lawful (h : registry.Represents flat) : registry.Lawful where
  nodup_keys := h.nodup_registry_keys
  rebind kind name bean hfind := by
    rw [bindings_bind_self, bindName_of_mem bean (h.nodup_names kind) (name_mem_of_find? hfind)]
    rfl
  unbind_bind kind name bean := by
    have hnot : name ∉ (unbindName name (registry.bindings kind)).map Prod.fst := by
      intro hmem
      obtain ⟨binding, hbinding, hname⟩ := List.mem_map.1 hmem
      exact of_decide_eq_true (List.mem_filter.1 hbinding).2 hname
    rw [bindings_bind_self, bindings_unbind, bindName_of_notMem bean hnot]
    rfl
  bind_other kind other name bean hne :=
    sameOf_of_bindings_eq (bindings_bind_of_ne registry hne name bean)
  unbind_other kind name other hne := by
    rw [find?, find?, bindings_unbind, lookup_unbindName hne]
  unbind_order kind name := bindings_unbind registry name kind

end Represents

example :
    let registry : Registry fun _ : Bool => Nat :=
      ((empty.bind true "a" 1).bind true "b" 2).bind false "a" 3
    (registry.bind true "a" 4).findAll true = [4, 2] ∧
      ((registry.unbind "a").bind true "a" 4).findAll true = [2, 4] ∧
      (registry.unbind "a").findAll false = [] := by decide

end Registry

/-! ## Every history -/

/-- After every history a registry shows what a flat list shows, its calls have answered what the
list's would have, and the laws of binding and unbinding hold.  Its empty buckets make no
difference to any later call. -/
theorem registry_history_shows_flat (calls : List (RegistryCall β)) :
    let real := History.run Registry.step .empty calls
    let flat := History.run FlatRegistry.step .empty calls
    real.1 = flat.1 ∧ real.2.ShowsAs flat.2 ∧ flat.2.keys.Nodup ∧ real.2.Lawful ∧
      ∀ more : List (RegistryCall β),
        let later := History.run Registry.step real.2 more
        let laterWithout := History.run Registry.step real.2.withoutEmpty more
        let laterFlat := History.run FlatRegistry.step flat.2 more
        (later.1 = laterFlat.1 ∧ later.2.ShowsAs laterFlat.2) ∧
          laterWithout.1 = laterFlat.1 ∧ laterWithout.2.ShowsAs laterFlat.2 := by
  intro real flat
  obtain ⟨hanswers, hrep⟩ := Registry.represents_empty.history calls
  refine ⟨hanswers, hrep.shows, hrep.nodup_keys, hrep.lawful, fun more => ?_⟩
  obtain ⟨hlater, hlaterRep⟩ := hrep.history more
  obtain ⟨hwithout, hwithoutRep⟩ := hrep.withoutEmpty.history more
  exact ⟨⟨hlater, hlaterRep.shows⟩, hwithout, hwithoutRep.shows⟩

end MessageExchange
