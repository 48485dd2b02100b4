import MessageExchange.Proofs.Registry.Flat

/-!
# Buckets and flat lists

`Registry.Represents` relates a registry to a flat list: the buckets have
different kinds, each kind has the bindings of the list that are of that kind, in
their order, and every binding of the list has a bucket.  Binding and unbinding
preserve the relation (`Represents.bind`, `Represents.unbind`).

A registry that represents a list cannot be told from it (`Represents.shows`).
Neither can one without its empty buckets, because it represents the same list
(`Represents.withoutEmpty`).
-/

namespace MessageExchange

variable {κ : Type} [DecidableEq κ] {β : κ → Type}

/-! ## What is seen of a registry -/

namespace Registry

/-- Everything that can be asked of a registry has the answer of a flat list. -/
structure ShowsAs (registry : Registry β) (flat : FlatRegistry β) : Prop where
  /-- The bean of a kind and a name. -/
  find? : ∀ kind name, registry.find? kind name = flat.find? kind name
  /-- The beans of a kind, in order. -/
  findAll : ∀ kind, registry.findAll kind = flat.findAll kind
  /-- The only bean of a kind. -/
  findSingle? : ∀ kind, registry.findSingle? kind = flat.findSingle? kind
  /-- The number of beans. -/
  size : registry.size = flat.size
  /-- Whether there are beans. -/
  isEmpty : registry.isEmpty = flat.isEmpty

/-- The kinds and names in all buckets. -/
def keys (registry : Registry β) : List (κ × String) :=
  registry.buckets.flatMap fun bucket =>
    bucket.bindings.map fun binding => (bucket.kind, binding.1)

/-- The registry without the buckets that hold nothing. -/
def withoutEmpty (registry : Registry β) : Registry β :=
  ⟨registry.buckets.filter fun bucket => !bucket.bindings.isEmpty⟩

/-! ## Representing a flat list -/

/-- The kinds of the buckets. -/
def kinds (registry : Registry β) : List κ := registry.buckets.map Bucket.kind

/-- The buckets hold the bindings of a flat list, kind by kind. -/
structure Represents (registry : Registry β) (flat : FlatRegistry β) : Prop where
  /-- Each kind has one bucket at most. -/
  nodup_kinds : registry.kinds.Nodup
  /-- The flat list binds no pair of kind and name twice. -/
  nodup_keys : flat.keys.Nodup
  /-- A kind has the bindings of the list that are of the kind. -/
  bindings_eq : ∀ kind, registry.bindings kind = flat.ofKind kind
  /-- There is a bucket for every binding of the list. -/
  covers : ∀ key ∈ flat.keys, key.1 ∈ registry.kinds

theorem represents_empty : (empty : Registry β).Represents .empty where
  nodup_kinds := List.nodup_nil
  nodup_keys := List.nodup_nil
  bindings_eq _ := rfl
  covers _ h := nomatch h

theorem kinds_updateBucket (kind : κ)
    (change : List (String × β kind) → List (String × β kind)) (buckets : List (Bucket β)) :
    (updateBucket kind change buckets).map Bucket.kind =
      if kind ∈ buckets.map Bucket.kind then buckets.map Bucket.kind
      else buckets.map Bucket.kind ++ [kind] := by
  induction buckets with
  | nil => rfl
  | cons bucket rest ih =>
      by_cases h : bucket.kind = kind
      · subst h
        simp [updateBucket]
      · rw [updateBucket, dif_neg h, List.map_cons, ih]
        by_cases hmem : kind ∈ rest.map Bucket.kind
        · have hcons : kind ∈ (bucket :: rest).map Bucket.kind := List.mem_cons_of_mem _ hmem
          rw [if_pos hmem, if_pos hcons, List.map_cons]
        · have hcons : kind ∉ (bucket :: rest).map Bucket.kind := by
            rw [List.map_cons, List.mem_cons, not_or]
            exact ⟨Ne.symm h, hmem⟩
          rw [if_neg hmem, if_neg hcons, List.map_cons, List.cons_append]

theorem kinds_bind (registry : Registry β) (kind : κ) (name : String) (bean : β kind) :
    (registry.bind kind name bean).kinds =
      if kind ∈ registry.kinds then registry.kinds else registry.kinds ++ [kind] :=
  kinds_updateBucket kind (bindName name bean) registry.buckets

omit [DecidableEq κ] in
theorem kinds_unbind (registry : Registry β) (name : String) :
    (registry.unbind name).kinds = registry.kinds := by
  rw [kinds, kinds, unbind, List.map_map]
  rfl

theorem mem_kinds_bind {registry : Registry β} {kind other : κ} {name : String} {bean : β kind} :
    other ∈ (registry.bind kind name bean).kinds ↔ other ∈ registry.kinds ∨ other = kind := by
  rw [kinds_bind]
  split
  · next hmem =>
    constructor
    · exact .inl
    · rintro (h | rfl)
      · exact h
      · exact hmem
  · rw [List.mem_append, List.mem_singleton]

/-- A bucket holds the bindings of its kind. -/
theorem bindingsOf_of_mem {buckets : List (Bucket β)} (h : (buckets.map Bucket.kind).Nodup)
    {bucket : Bucket β} (hmem : bucket ∈ buckets) :
    bindingsOf bucket.kind buckets = bucket.bindings := by
  induction buckets with
  | nil => cases hmem
  | cons first rest ih =>
      rw [List.map_cons, List.nodup_cons] at h
      rcases List.mem_cons.1 hmem with rfl | hmem
      · simp [bindingsOf]
      · have hne : first.kind ≠ bucket.kind := fun he =>
          h.1 (he ▸ List.mem_map_of_mem hmem)
        rw [bindingsOf, dif_neg hne, ih h.2 hmem]

theorem bindingsOf_of_notMem {kind : κ} {buckets : List (Bucket β)}
    (h : kind ∉ buckets.map Bucket.kind) : bindingsOf kind buckets = [] := by
  induction buckets with
  | nil => rfl
  | cons bucket rest ih =>
      rw [List.map_cons, List.mem_cons, not_or] at h
      rw [bindingsOf, dif_neg (Ne.symm h.1), ih h.2]

theorem bindingsOf_withoutEmpty {buckets : List (Bucket β)} (h : (buckets.map Bucket.kind).Nodup)
    (kind : κ) :
    bindingsOf kind (buckets.filter fun bucket => !bucket.bindings.isEmpty) =
      bindingsOf kind buckets := by
  induction buckets with
  | nil => rfl
  | cons bucket rest ih =>
      rw [List.map_cons, List.nodup_cons] at h
      have hrest := ih h.2
      by_cases hempty : bucket.bindings = []
      · rw [List.filter_cons_of_neg (by simp [hempty]), hrest]
        by_cases hk : bucket.kind = kind
        · -- The kind of a bucket that was dropped has no other bucket.
          subst hk
          rw [bindingsOf_of_notMem h.1, bindingsOf, dif_pos rfl, hempty]
        · rw [bindingsOf, dif_neg hk]
      · rw [List.filter_cons_of_pos (by simp [hempty]), bindingsOf, bindingsOf, hrest]

namespace Represents

variable {registry : Registry β} {flat : FlatRegistry β}

/-! ## Steps -/

theorem bind (h : registry.Represents flat) (kind : κ) (name : String) (bean : β kind) :
    (registry.bind kind name bean).Represents (flat.bind kind name bean) where
  nodup_kinds := by
    rw [kinds_bind]
    split
    · exact h.nodup_kinds
    · next hmem =>
      rw [← List.concat_eq_append]
      exact h.nodup_kinds.concat hmem
  nodup_keys := FlatRegistry.nodup_bind h.nodup_keys kind name bean
  bindings_eq other := by
    by_cases hk : other = kind
    · subst hk
      rw [bindings_bind_self, FlatRegistry.ofKind_bind_self h.nodup_keys, h.bindings_eq]
    · rw [bindings_bind_of_ne registry hk, FlatRegistry.ofKind_bind_of_ne flat hk, h.bindings_eq]
  covers key hmem := by
    rw [mem_kinds_bind]
    rw [FlatRegistry.keys_bind] at hmem
    split at hmem
    · exact .inl (h.covers key hmem)
    · rcases List.mem_append.1 hmem with hmem | hmem
      · exact .inl (h.covers key hmem)
      · rw [List.mem_singleton.1 hmem]
        exact .inr rfl

theorem unbind (h : registry.Represents flat) (name : String) :
    (registry.unbind name).Represents (flat.unbind name) where
  nodup_kinds := by
    rw [kinds_unbind]
    exact h.nodup_kinds
  nodup_keys := FlatRegistry.nodup_unbind h.nodup_keys name
  bindings_eq kind := by rw [bindings_unbind, FlatRegistry.ofKind_unbind, h.bindings_eq]
  covers key hmem := by
    rw [kinds_unbind]
    exact h.covers key ((List.filter_sublist.map Binding.key).mem hmem)

/-- Some binding of the list has a name if some bucket has one. -/
theorem hasName_eq (h : registry.Represents flat) (name : String) :
    registry.hasName name = flat.hasName name := by
  rw [Bool.eq_iff_iff, hasName, FlatRegistry.hasName, List.any_eq_true, List.any_eq_true]
  constructor
  · rintro ⟨bucket, hbucket, hany⟩
    obtain ⟨binding, hbinding, hname⟩ := List.any_eq_true.1 hany
    have hmem : name ∈ (flat.ofKind bucket.kind).map Prod.fst := by
      rw [← h.bindings_eq, bindings, bindingsOf_of_mem h.nodup_kinds hbucket]
      exact List.mem_map.2 ⟨binding, hbinding, of_decide_eq_true hname⟩
    obtain ⟨found, hfound, hkey⟩ := List.mem_map.1 (FlatRegistry.mem_names_ofKind.1 hmem)
    exact ⟨found, hfound, decide_eq_true (congrArg Prod.snd hkey)⟩
  · rintro ⟨binding, hbinding, hname⟩
    have hkey : (binding.kind, binding.name) ∈ flat.keys := List.mem_map_of_mem hbinding
    obtain ⟨bucket, hbucket, hkind⟩ := List.mem_map.1 (h.covers _ hkey)
    have hmem : binding.name ∈ bucket.bindings.map Prod.fst := by
      rw [← bindingsOf_of_mem h.nodup_kinds hbucket, ← bindings, h.bindings_eq, hkind]
      exact FlatRegistry.mem_names_ofKind.2 hkey
    obtain ⟨found, hfound, hfst⟩ := List.mem_map.1 hmem
    refine ⟨bucket, hbucket, List.any_eq_true.2 ⟨found, hfound, ?_⟩⟩
    rw [hfst]
    exact hname

/-! ## Observations -/

theorem find?_eq (h : registry.Represents flat) (kind : κ) (name : String) :
    registry.find? kind name = flat.find? kind name := by
  rw [find?, FlatRegistry.find?, h.bindings_eq]
  induction flat.ofKind kind with
  | nil => rfl
  | cons binding rest ih =>
      by_cases hn : binding.1 = name
      · rw [List.lookup_cons, beq_of_eq hn.symm, List.find?_cons_of_pos (by simpa using hn)]
        rfl
      · have hne : (name == binding.1) = false := beq_false_of_ne (Ne.symm hn)
        rw [List.lookup_cons, hne, ih, List.find?_cons_of_neg (by simpa using hn)]

theorem findAll_eq (h : registry.Represents flat) (kind : κ) :
    registry.findAll kind = flat.findAll kind := by
  rw [findAll, FlatRegistry.findAll, h.bindings_eq]

theorem findSingle?_eq (h : registry.Represents flat) (kind : κ) :
    registry.findSingle? kind = flat.findSingle? kind := by
  rw [findSingle?, FlatRegistry.findSingle?, h.findAll_eq]
  match flat.findAll kind with
  | [] => rfl
  | [_] => rfl
  | _ :: _ :: _ => simp

theorem size_eq (h : registry.Represents flat) : registry.size = flat.size := by
  have hcover : ∀ binding ∈ flat.list, binding.kind ∈ registry.kinds := fun _ hmem =>
    h.covers _ (List.mem_map_of_mem hmem)
  rw [← FlatRegistry.foldr_length_ofKind_eq_size h.nodup_kinds flat hcover, size, kinds,
    List.foldr_map]
  apply List.foldr_ext
  intro bucket hmem total
  rw [← h.bindings_eq, bindings, bindingsOf_of_mem h.nodup_kinds hmem]

theorem shows (h : registry.Represents flat) : registry.ShowsAs flat where
  find? := h.find?_eq
  findAll := h.findAll_eq
  findSingle? := h.findSingle?_eq
  size := h.size_eq
  isEmpty := by
    rw [isEmpty, h.size_eq, FlatRegistry.isEmpty, FlatRegistry.size]
    cases flat.list <;> rfl

/-! ## Empty buckets -/

omit [DecidableEq κ] in
theorem kinds_withoutEmpty_sublist (registry : Registry β) :
    registry.withoutEmpty.kinds.Sublist registry.kinds :=
  List.filter_sublist.map Bucket.kind

/-- A registry without its empty buckets represents the same list. -/
theorem withoutEmpty (h : registry.Represents flat) : registry.withoutEmpty.Represents flat := by
  have hbindings : ∀ kind, registry.withoutEmpty.bindings kind = flat.ofKind kind := fun kind => by
    rw [← h.bindings_eq kind]
    exact bindingsOf_withoutEmpty h.nodup_kinds kind
  refine ⟨h.nodup_kinds.sublist (kinds_withoutEmpty_sublist registry), h.nodup_keys, hbindings, ?_⟩
  -- A binding of the list has a bucket that is not empty, and such a bucket was kept.
  intro key hkey
  by_contra hnot
  have hnone : registry.withoutEmpty.bindings key.1 = [] := bindingsOf_of_notMem hnot
  have hname : key.2 ∈ (flat.ofKind key.1).map Prod.fst := FlatRegistry.mem_names_ofKind.2 hkey
  rw [← hbindings, hnone] at hname
  cases hname

end Represents

end Registry

end MessageExchange
