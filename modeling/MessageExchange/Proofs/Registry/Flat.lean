import MessageExchange.Registry
import Mathlib.Data.List.Nodup

/-!
# Registries as flat lists

A *flat registry* is one list of bindings of all kinds, oldest first.  Binding a
kind and a name that are in the list replaces the bean where it stands, and a new
pair goes to the end.  Unbinding a name filters the list.  There are no buckets,
so there is nothing that could be left behind.

`ofKind` restricts the list to one kind.  On the restriction the two operations
are `bindName` and `unbindName`, which is what they are in a bucket
(`ofKind_bind_self`, `ofKind_unbind`).  For binding this needs that no pair of
kind and name occurs twice, which both operations preserve (`nodup_bind`,
`nodup_unbind`).
-/

namespace MessageExchange

/-! ## Bindings of one kind -/

section

variable {α : Type} {name : String} {bindings : List (String × α)}

/-- Gives the binding of a name another bean. -/
def rebound (name : String) (bean : α) (binding : String × α) : String × α :=
  if binding.1 = name then (name, bean) else binding

theorem map_rebound_of_notMem (bean : α) (h : name ∉ bindings.map Prod.fst) :
    bindings.map (rebound name bean) = bindings := by
  have hsame : ∀ binding ∈ bindings, rebound name bean binding = binding := by
    intro binding hmem
    have hne : binding.1 ≠ name := fun heq => h (heq ▸ List.mem_map_of_mem hmem)
    exact if_neg hne
  rw [List.map_congr_left hsame, List.map_id']

/-- A name that is not bound yet goes to the end. -/
theorem bindName_of_notMem (bean : α) (h : name ∉ bindings.map Prod.fst) :
    bindName name bean bindings = bindings ++ [(name, bean)] := by
  induction bindings with
  | nil => rfl
  | cons binding rest ih =>
      simp only [List.map_cons, List.mem_cons, not_or] at h
      rw [bindName, if_neg (Ne.symm h.1), ih h.2, List.cons_append]

theorem mem_bindName {bean : α} {binding : String × α}
    (h : binding ∈ bindName name bean bindings) : binding = (name, bean) ∨ binding ∈ bindings := by
  induction bindings with
  | nil => exact .inl (List.mem_singleton.1 h)
  | cons first rest ih =>
      by_cases heq : first.1 = name
      · rw [bindName, if_pos heq] at h
        rcases List.mem_cons.1 h with h | h
        · exact .inl h
        · exact .inr (List.mem_cons_of_mem _ h)
      · rw [bindName, if_neg heq] at h
        rcases List.mem_cons.1 h with h | h
        · exact .inr (h ▸ List.mem_cons_self)
        · rcases ih h with h | h
          · exact .inl h
          · exact .inr (List.mem_cons_of_mem _ h)

/-- A name that is bound once keeps its place. -/
theorem bindName_of_mem (bean : α) (hnodup : (bindings.map Prod.fst).Nodup)
    (h : name ∈ bindings.map Prod.fst) :
    bindName name bean bindings = bindings.map (rebound name bean) := by
  induction bindings with
  | nil => cases h
  | cons binding rest ih =>
      rw [List.map_cons, List.nodup_cons] at hnodup
      by_cases heq : binding.1 = name
      · have hrest : name ∉ rest.map Prod.fst := heq ▸ hnodup.1
        rw [bindName, if_pos heq, List.map_cons, map_rebound_of_notMem bean hrest, rebound,
          if_pos heq]
      · have hrest : name ∈ rest.map Prod.fst := by
          rcases List.mem_cons.1 h with h | h
          · exact absurd h.symm heq
          · exact h
        rw [bindName, if_neg heq, List.map_cons, ih hnodup.2 hrest, rebound, if_neg heq]

end

section

variable {κ : Type} [DecidableEq κ] {β : κ → Type}

/-! ## The type -/

/-- A bean with the kind and the name that it is bound under. -/
structure Binding (β : κ → Type) where
  kind : κ
  name : String
  bean : β kind

namespace Binding

/-- What a binding is found by. -/
def key (binding : Binding β) : κ × String := (binding.kind, binding.name)

/-- The name and the bean of a binding that is of a kind. -/
def ofKind? (kind : κ) (binding : Binding β) : Option (String × β kind) :=
  if h : binding.kind = kind then some (binding.name, h ▸ binding.bean) else none

end Binding

/-- The bindings of all kinds in one list, oldest first. -/
structure FlatRegistry (β : κ → Type) where
  list : List (Binding β)

namespace FlatRegistry

/-- No bindings. -/
def empty : FlatRegistry β := ⟨[]⟩

/-- The kinds and names that are bound. -/
def keys (flat : FlatRegistry β) : List (κ × String) := flat.list.map Binding.key

/-- Binds a bean: in place if its kind and name are bound already, and otherwise at the end. -/
def bind (flat : FlatRegistry β) (kind : κ) (name : String) (bean : β kind) : FlatRegistry β :=
  if (kind, name) ∈ flat.keys then
    ⟨flat.list.map fun binding =>
      if binding.key = (kind, name) then ⟨kind, name, bean⟩ else binding⟩
  else ⟨flat.list ++ [⟨kind, name, bean⟩]⟩

/-- The bindings that are not of a name. -/
def unbind (flat : FlatRegistry β) (name : String) : FlatRegistry β :=
  ⟨flat.list.filter fun binding => binding.name ≠ name⟩

/-- Is there a binding of a name? -/
def hasName (flat : FlatRegistry β) (name : String) : Bool :=
  flat.list.any fun binding => binding.name = name

/-- The names and beans of a kind. -/
def ofKind (flat : FlatRegistry β) (kind : κ) : List (String × β kind) :=
  flat.list.filterMap (Binding.ofKind? kind)

/-- The bean that is bound under a kind and a name. -/
def find? (flat : FlatRegistry β) (kind : κ) (name : String) : Option (β kind) :=
  ((flat.ofKind kind).find? fun binding => binding.1 = name).map Prod.snd

/-- The beans of a kind. -/
def findAll (flat : FlatRegistry β) (kind : κ) : List (β kind) := (flat.ofKind kind).map Prod.snd

/-- The bean of a kind, if there is exactly one. -/
def findSingle? (flat : FlatRegistry β) (kind : κ) : Option (β kind) :=
  if (flat.findAll kind).length = 1 then (flat.findAll kind).head? else none

/-- The number of bindings. -/
def size (flat : FlatRegistry β) : Nat := flat.list.length

/-- Are there no bindings? -/
def isEmpty (flat : FlatRegistry β) : Bool := flat.list.isEmpty

/-! ## The restriction to a kind -/

theorem ofKind?_self (kind : κ) (name : String) (bean : β kind) :
    Binding.ofKind? kind ⟨kind, name, bean⟩ = some (name, bean) := by
  simp [Binding.ofKind?]

theorem ofKind?_of_ne {kind : κ} {binding : Binding β} (h : binding.kind ≠ kind) :
    binding.ofKind? kind = none := by
  simp [Binding.ofKind?, h]

theorem mem_names_ofKind {flat : FlatRegistry β} {kind : κ} {name : String} :
    name ∈ (flat.ofKind kind).map Prod.fst ↔ (kind, name) ∈ flat.keys := by
  simp only [ofKind, keys, List.mem_map, List.mem_filterMap]
  constructor
  · rintro ⟨_, ⟨binding, hmem, hof⟩, rfl⟩
    by_cases h : binding.kind = kind
    · subst h
      simp only [Binding.ofKind?, dite_true, Option.some.injEq] at hof
      exact ⟨binding, hmem, by rw [← hof]; rfl⟩
    · rw [ofKind?_of_ne h] at hof
      cases hof
  · rintro ⟨binding, hmem, hkey⟩
    cases hkey
    exact ⟨_, ⟨binding, hmem, ofKind?_self _ _ _⟩, rfl⟩

/-- No name of a kind occurs twice if no pair of kind and name does. -/
theorem nodup_names_ofKind {flat : FlatRegistry β} (h : flat.keys.Nodup) (kind : κ) :
    ((flat.ofKind kind).map Prod.fst).Nodup := by
  have hnames : (flat.ofKind kind).map Prod.fst =
      flat.keys.filterMap fun key => if key.1 = kind then some key.2 else none := by
    rw [ofKind, keys, List.map_filterMap, List.filterMap_map]
    apply List.filterMap_congr
    intro binding _
    by_cases hk : binding.kind = kind
    · subst hk
      simp [Binding.ofKind?, Binding.key]
    · simp [Binding.ofKind?, Binding.key, hk]
  rw [hnames]
  -- Two keys that give one name are of the kind, so they are the same key.
  refine List.Nodup.filterMap (fun key key' name hname hname' => ?_) h
  rw [Option.mem_ite_none_right] at hname hname'
  obtain ⟨hk, hn⟩ := hname
  obtain ⟨hk', hn'⟩ := hname'
  exact Prod.ext (hk.trans hk'.symm) (Option.some.inj (hn.trans hn'.symm))

theorem ofKind_bind_self {flat : FlatRegistry β} (h : flat.keys.Nodup) (kind : κ) (name : String)
    (bean : β kind) :
    (flat.bind kind name bean).ofKind kind = bindName name bean (flat.ofKind kind) := by
  by_cases hmem : (kind, name) ∈ flat.keys
  · rw [bindName_of_mem bean (nodup_names_ofKind h kind) (mem_names_ofKind.2 hmem), bind,
      if_pos hmem, ofKind, ofKind, List.filterMap_map, List.map_filterMap]
    apply List.filterMap_congr
    intro binding _
    by_cases hkey : binding.key = (kind, name)
    · obtain ⟨rfl, rfl⟩ := Prod.mk.inj hkey
      rw [Function.comp_apply, if_pos hkey, ofKind?_self, Binding.ofKind?, dif_pos rfl,
        Option.map_some, rebound, if_pos rfl]
    · rw [Function.comp_apply, if_neg hkey]
      -- A binding with another key has another name or is not of the kind.
      by_cases hk : binding.kind = kind
      · subst hk
        have hn : binding.name ≠ name := fun hn => hkey (by rw [← hn]; rfl)
        rw [Binding.ofKind?, dif_pos rfl, Option.map_some, rebound, if_neg hn]
      · rw [ofKind?_of_ne hk, Option.map_none]
  · rw [bindName_of_notMem bean (mt mem_names_ofKind.1 hmem), bind, if_neg hmem, ofKind,
      List.filterMap_append, List.filterMap_cons, ofKind?_self]
    rfl

theorem ofKind_bind_of_ne (flat : FlatRegistry β) {kind other : κ} (hne : other ≠ kind)
    (name : String) (bean : β kind) :
    (flat.bind kind name bean).ofKind other = flat.ofKind other := by
  by_cases hmem : (kind, name) ∈ flat.keys
  · rw [bind, if_pos hmem, ofKind, ofKind, List.filterMap_map]
    apply List.filterMap_congr
    intro binding _
    by_cases hkey : binding.key = (kind, name)
    · have hk : binding.kind = kind := congrArg Prod.fst hkey
      have hbinding : binding.kind ≠ other := fun hk' => hne (hk'.symm.trans hk)
      rw [Function.comp_apply, if_pos hkey, ofKind?_of_ne (Ne.symm hne), ofKind?_of_ne hbinding]
    · rw [Function.comp_apply, if_neg hkey]
  · rw [bind, if_neg hmem, ofKind, List.filterMap_append, List.filterMap_cons,
      ofKind?_of_ne (Ne.symm hne), List.filterMap_nil, List.append_nil]
    rfl

theorem ofKind_unbind (flat : FlatRegistry β) (name : String) (kind : κ) :
    (flat.unbind name).ofKind kind = unbindName name (flat.ofKind kind) := by
  rw [unbind, ofKind, ofKind, unbindName, List.filterMap_filter, List.filter_filterMap]
  apply List.filterMap_congr
  intro binding _
  by_cases hk : binding.kind = kind
  · subst hk
    by_cases hn : binding.name = name <;> simp [Binding.ofKind?, Option.filter, hn]
  · simp [ofKind?_of_ne hk]

/-! ## No pair of kind and name occurs twice -/

theorem keys_bind (flat : FlatRegistry β) (kind : κ) (name : String) (bean : β kind) :
    (flat.bind kind name bean).keys =
      if (kind, name) ∈ flat.keys then flat.keys else flat.keys ++ [(kind, name)] := by
  by_cases hmem : (kind, name) ∈ flat.keys
  · rw [bind, if_pos hmem, if_pos hmem, keys, keys, List.map_map]
    apply List.map_congr_left
    intro binding _
    by_cases hkey : binding.key = (kind, name)
    · rw [Function.comp_apply, if_pos hkey, hkey]
      rfl
    · rw [Function.comp_apply, if_neg hkey]
  · rw [bind, if_neg hmem, if_neg hmem, keys, List.map_append]
    rfl

theorem nodup_bind {flat : FlatRegistry β} (h : flat.keys.Nodup) (kind : κ) (name : String)
    (bean : β kind) : (flat.bind kind name bean).keys.Nodup := by
  rw [keys_bind]
  split
  · exact h
  · next hmem =>
    rw [← List.concat_eq_append]
    exact h.concat hmem

omit [DecidableEq κ] in
theorem nodup_unbind {flat : FlatRegistry β} (h : flat.keys.Nodup) (name : String) :
    (flat.unbind name).keys.Nodup :=
  h.sublist (List.filter_sublist.map Binding.key)

/-! ## Counting by kinds -/

theorem length_ofKind (flat : FlatRegistry β) (kind : κ) :
    (flat.ofKind kind).length = flat.list.countP fun binding => binding.kind = kind := by
  rw [ofKind, List.length_filterMap_eq_countP]
  apply List.countP_congr
  intro binding _
  by_cases hk : binding.kind = kind <;> simp [Binding.ofKind?, hk]

omit [DecidableEq κ] in
theorem countP_add_of_disjoint {p q : Binding β → Bool} (list : List (Binding β))
    (hdisjoint : ∀ binding, p binding = true → q binding = false) :
    list.countP p + list.countP q = list.countP fun binding => p binding || q binding := by
  induction list with
  | nil => rfl
  | cons binding rest ih =>
      rw [List.countP_cons, List.countP_cons, List.countP_cons, ← ih]
      cases hp : p binding with
      | true =>
          rw [hdisjoint binding hp]
          simp only [Bool.true_or, if_true, Bool.false_eq_true, if_false]
          omega
      | false =>
          simp only [Bool.false_or, Bool.false_eq_true, if_false]
          omega

/-- Counting kind by kind counts the bindings of the listed kinds. -/
theorem foldr_length_ofKind {kinds : List κ} (hkinds : kinds.Nodup) (flat : FlatRegistry β) :
    kinds.foldr (fun kind total => (flat.ofKind kind).length + total) 0 =
      flat.list.countP fun binding => binding.kind ∈ kinds := by
  induction kinds with
  | nil => simp
  | cons kind rest ih =>
      obtain ⟨hnot, hrest⟩ := List.nodup_cons.1 hkinds
      rw [List.foldr_cons, ih hrest, length_ofKind, countP_add_of_disjoint]
      · simp only [List.mem_cons, Bool.decide_or]
      · intro binding hkind
        rw [of_decide_eq_true hkind]
        exact decide_eq_false hnot

/-- The bindings are counted by counting those of each kind. -/
theorem foldr_length_ofKind_eq_size {kinds : List κ} (hkinds : kinds.Nodup)
    (flat : FlatRegistry β) (hcover : ∀ binding ∈ flat.list, binding.kind ∈ kinds) :
    kinds.foldr (fun kind total => (flat.ofKind kind).length + total) 0 = flat.size := by
  rw [foldr_length_ofKind hkinds, size, List.countP_eq_length]
  intro binding hmem
  exact decide_eq_true (hcover binding hmem)

end FlatRegistry

end

end MessageExchange
