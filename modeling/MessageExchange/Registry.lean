/-!
# The registry

A registry holds shared beans.  A bean has a kind, which determines its type, and
a name that is unique within the kind.  Binding a name again replaces the bean
where it stands; a new name goes to the end.  So the beans of a kind are found in
the order in which their names were bound.

There is one *bucket* for each kind that was ever bound.  Unbinding a name
removes it from every bucket and may leave a bucket empty, which cannot be told
from no bucket.
-/

namespace MessageExchange

/-! ## Bindings of one kind -/

/-- Binds a name: in place if it is bound already, and otherwise at the end. -/
def bindName {α : Type} (name : String) (bean : α) : List (String × α) → List (String × α)
  | [] => [(name, bean)]
  | (n, b) :: rest =>
      if n = name then (name, bean) :: rest else (n, b) :: bindName name bean rest

/-- The bindings without those of a name. -/
def unbindName {α : Type} (name : String) (bindings : List (String × α)) : List (String × α) :=
  bindings.filter fun binding => binding.1 ≠ name

section

variable {κ : Type} [DecidableEq κ] {β : κ → Type}

/-! ## Buckets -/

/-- The beans of one kind, in bind order. -/
structure Bucket (β : κ → Type) where
  kind : κ
  bindings : List (String × β kind)

/-- The bindings of a kind among the buckets. -/
def bindingsOf (kind : κ) : List (Bucket β) → List (String × β kind)
  | [] => []
  | bucket :: rest =>
      if h : bucket.kind = kind then h ▸ bucket.bindings else bindingsOf kind rest

/-- Changes the bindings of a kind.  A kind without a bucket gets one at the end. -/
def updateBucket (kind : κ) (change : List (String × β kind) → List (String × β kind)) :
    List (Bucket β) → List (Bucket β)
  | [] => [⟨kind, change []⟩]
  | bucket :: rest =>
      if h : bucket.kind = kind then ⟨kind, change (h ▸ bucket.bindings)⟩ :: rest
      else bucket :: updateBucket kind change rest

theorem bindingsOf_updateBucket_self (kind : κ)
    (change : List (String × β kind) → List (String × β kind)) (buckets : List (Bucket β)) :
    bindingsOf kind (updateBucket kind change buckets) = change (bindingsOf kind buckets) := by
  induction buckets with
  | nil => simp [updateBucket, bindingsOf]
  | cons bucket rest ih =>
      by_cases h : bucket.kind = kind
      · simp [updateBucket, bindingsOf, h]
      · simp [updateBucket, bindingsOf, h, ih]

theorem bindingsOf_updateBucket_of_ne {kind other : κ} (hne : other ≠ kind)
    (change : List (String × β kind) → List (String × β kind)) (buckets : List (Bucket β)) :
    bindingsOf other (updateBucket kind change buckets) = bindingsOf other buckets := by
  induction buckets with
  | nil => simp [updateBucket, bindingsOf, Ne.symm hne]
  | cons bucket rest ih =>
      by_cases h : bucket.kind = kind
      · subst h
        simp [updateBucket, bindingsOf, Ne.symm hne]
      · by_cases ho : bucket.kind = other
        · subst ho
          simp [updateBucket, bindingsOf, h]
        · simp [updateBucket, bindingsOf, h, ho, ih]

theorem bindingsOf_unbindName (kind : κ) (name : String) (buckets : List (Bucket β)) :
    bindingsOf kind (buckets.map fun bucket => ⟨bucket.kind, unbindName name bucket.bindings⟩) =
      unbindName name (bindingsOf kind buckets) := by
  induction buckets with
  | nil => rfl
  | cons bucket rest ih =>
      by_cases h : bucket.kind = kind
      · subst h
        simp [bindingsOf]
      · simp [bindingsOf, h, ih]

/-! ## The type -/

/-- Beans by kind and name. -/
structure Registry (β : κ → Type) where
  /-- The buckets, in the order in which their kinds were first bound. -/
  buckets : List (Bucket β)

namespace Registry

/-- The registry without beans. -/
def empty : Registry β := ⟨[]⟩

instance : Inhabited (Registry β) := ⟨empty⟩

/-- Binds a bean of a kind under a name. -/
def bind (registry : Registry β) (kind : κ) (name : String) (bean : β kind) : Registry β :=
  ⟨updateBucket kind (bindName name bean) registry.buckets⟩

/-- Removes the beans of every kind that are bound under a name. -/
def unbind (registry : Registry β) (name : String) : Registry β :=
  ⟨registry.buckets.map fun bucket => ⟨bucket.kind, unbindName name bucket.bindings⟩⟩

/-- Is a bean of any kind bound under the name? -/
def hasName (registry : Registry β) (name : String) : Bool :=
  registry.buckets.any fun bucket => bucket.bindings.any fun binding => binding.1 = name

/-- Removes the beans of a name and says whether there were any. -/
def hasThenUnbind (registry : Registry β) (name : String) : Bool × Registry β :=
  (registry.hasName name, registry.unbind name)

/-- The names and beans of a kind, in bind order. -/
def bindings (registry : Registry β) (kind : κ) : List (String × β kind) :=
  bindingsOf kind registry.buckets

/-- The bean of a kind that is bound under a name. -/
def find? (registry : Registry β) (kind : κ) (name : String) : Option (β kind) :=
  (registry.bindings kind).lookup name

/-- The beans of a kind, in bind order. -/
def findAll (registry : Registry β) (kind : κ) : List (β kind) :=
  (registry.bindings kind).map Prod.snd

/-- The bean of a kind, if exactly one name is bound. -/
def findSingle? (registry : Registry β) (kind : κ) : Option (β kind) :=
  match registry.findAll kind with
  | [bean] => some bean
  | _ => none

/-- The number of beans of all kinds. -/
def size (registry : Registry β) : Nat :=
  registry.buckets.foldr (fun bucket total => bucket.bindings.length + total) 0

/-- Are there no beans? -/
def isEmpty (registry : Registry β) : Bool := registry.size == 0

@[simp] theorem bindings_empty (kind : κ) : (empty : Registry β).bindings kind = [] := rfl

@[simp] theorem bindings_bind_self (registry : Registry β) (kind : κ) (name : String)
    (bean : β kind) :
    (registry.bind kind name bean).bindings kind = bindName name bean (registry.bindings kind) :=
  bindingsOf_updateBucket_self kind (bindName name bean) registry.buckets

/-- Binding a bean of one kind changes nothing for another kind. -/
theorem bindings_bind_of_ne (registry : Registry β) {kind other : κ} (hne : other ≠ kind)
    (name : String) (bean : β kind) :
    (registry.bind kind name bean).bindings other = registry.bindings other :=
  bindingsOf_updateBucket_of_ne hne (bindName name bean) registry.buckets

@[simp] theorem bindings_unbind (registry : Registry β) (name : String) (kind : κ) :
    (registry.unbind name).bindings kind = unbindName name (registry.bindings kind) :=
  bindingsOf_unbindName kind name registry.buckets

omit [DecidableEq κ] in
@[simp] theorem size_empty : (empty : Registry β).size = 0 := rfl

end Registry

end

end MessageExchange
