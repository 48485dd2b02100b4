/-!
# Maps with text keys

A `KeyMap` is a list of entries whose keys strictly increase in the order of code
points.  The order is part of the type, so a key occurs at most once and two maps
with the same entries are equal values, whatever built them.

`find?` is the view.  The lemmas say what each operation does to it, and `ext`
says that a map is determined by it.
-/

namespace MessageExchange

variable {α : Type}

/-! ## Lists of entries -/

namespace KeyMap

/-- The order of the entries: by key. -/
abbrev Sorted (entries : List (String × α)) : Prop :=
  entries.Pairwise fun a b => a.1 < b.1

/-- The value of a key in a list of entries. -/
def lookup (key : String) : List (String × α) → Option α
  | [] => none
  | (k, v) :: rest => if k = key then some v else lookup key rest

/-- Puts an entry in its place and replaces the entry of the same key. -/
def insertEntry (key : String) (value : α) : List (String × α) → List (String × α)
  | [] => [(key, value)]
  | (k, v) :: rest =>
      if key < k then (key, value) :: (k, v) :: rest
      else if key = k then (key, value) :: rest
      else (k, v) :: insertEntry key value rest

/-- Takes the entry of a key out. -/
def eraseEntry (key : String) (entries : List (String × α)) : List (String × α) :=
  entries.filter fun entry => entry.1 ≠ key

theorem mem_insertEntry {key : String} {value : α} {entry : String × α} :
    ∀ {entries : List (String × α)}, entry ∈ insertEntry key value entries →
      entry = (key, value) ∨ entry ∈ entries
  | [], h => by simpa [insertEntry] using h
  | (k, v) :: rest, h => by
      simp only [insertEntry] at h
      split at h
      · simpa using h
      · split at h
        · rcases List.mem_cons.1 h with h | h
          · exact .inl h
          · exact .inr (List.mem_cons_of_mem _ h)
        · rcases List.mem_cons.1 h with h | h
          · exact .inr (h ▸ List.mem_cons_self)
          · rcases mem_insertEntry h with h | h
            · exact .inl h
            · exact .inr (List.mem_cons_of_mem _ h)

theorem lt_of_not_lt_of_ne {s t : String} (h : ¬s < t) (hne : s ≠ t) : t < s := by
  have hle : t ≤ s := String.not_lt.1 h
  exact Std.lt_of_le_of_ne hle (Ne.symm hne)

theorem sorted_insertEntry (key : String) (value : α) :
    ∀ {entries : List (String × α)}, Sorted entries → Sorted (insertEntry key value entries)
  | [], _ => by simp [insertEntry]
  | (k, v) :: rest, h => by
      have hk : ∀ e ∈ rest, k < e.1 := fun e he => List.rel_of_pairwise_cons h he
      have hrest : Sorted rest := List.Pairwise.of_cons h
      simp only [insertEntry]
      split
      · next hlt =>
        refine List.Pairwise.cons (fun e he => ?_) h
        rcases List.mem_cons.1 he with rfl | he
        · exact hlt
        · exact String.lt_trans hlt (hk e he)
      · next hnlt =>
        split
        · next heq =>
          subst heq
          exact List.Pairwise.cons hk hrest
        · next hne =>
          refine List.Pairwise.cons (fun e he => ?_) (sorted_insertEntry key value hrest)
          rcases mem_insertEntry he with rfl | he
          · exact lt_of_not_lt_of_ne hnlt hne
          · exact hk e he

theorem sorted_eraseEntry (key : String) {entries : List (String × α)} (h : Sorted entries) :
    Sorted (eraseEntry key entries) :=
  List.Pairwise.sublist List.filter_sublist h

theorem lookup_insertEntry (key other : String) (value : α) :
    ∀ entries : List (String × α),
      lookup other (insertEntry key value entries) =
        if key = other then some value else lookup other entries
  | [] => by simp [insertEntry, lookup]
  | (k, v) :: rest => by
      simp only [insertEntry]
      split
      · simp [lookup]
      · split
        · next heq =>
          subst heq
          by_cases h : key = other <;> simp [lookup, h]
        · next hne =>
          simp only [lookup, lookup_insertEntry key other value rest]
          by_cases h : k = other
          · have : key ≠ other := fun h' => hne (h'.trans h.symm)
            simp [h, this]
          · simp [h]

theorem lookup_eraseEntry (key other : String) :
    ∀ entries : List (String × α),
      lookup other (eraseEntry key entries) = if key = other then none else lookup other entries
  | [] => by simp [eraseEntry, lookup]
  | (k, v) :: rest => by
      have ih := lookup_eraseEntry key other rest
      simp only [eraseEntry] at ih ⊢
      by_cases hk : k = key
      · by_cases h : key = other
        · simpa [hk, h] using ih
        · simpa [List.filter_cons, lookup, hk, h] using ih
      · by_cases h : k = other
        · have : key ≠ other := fun h' => hk (h.trans h'.symm)
          simp [lookup, h, this, Ne.symm this]
        · simpa [List.filter_cons, lookup, hk, h] using ih

theorem mem_of_lookup {key : String} {value : α} :
    ∀ {entries : List (String × α)}, lookup key entries = some value → (key, value) ∈ entries
  | [], h => by simp [lookup] at h
  | (k, v) :: rest, h => by
      simp only [lookup] at h
      split at h
      · next heq =>
        cases h
        exact heq ▸ List.mem_cons_self
      · exact List.mem_cons_of_mem _ (mem_of_lookup h)

theorem lookup_eq_none_of_lt {key : String} :
    ∀ {entries : List (String × α)}, (∀ e ∈ entries, key < e.1) → lookup key entries = none
  | [], _ => rfl
  | (k, v) :: rest, h => by
      have hk : key < k := h (k, v) List.mem_cons_self
      have hne : k ≠ key := fun e => String.lt_irrefl key (e ▸ hk)
      simp only [lookup, hne, if_false]
      exact lookup_eq_none_of_lt fun e he => h e (List.mem_cons_of_mem _ he)

theorem lookup_of_mem {key : String} {value : α} :
    ∀ {entries : List (String × α)}, Sorted entries → (key, value) ∈ entries →
      lookup key entries = some value
  | (k, v) :: rest, h, hmem => by
      rcases List.mem_cons.1 hmem with heq | hmem
      · cases heq
        rw [lookup, if_pos rfl]
      · have hlt : k < key := List.rel_of_pairwise_cons h hmem
        have hne : k ≠ key := fun e => String.lt_irrefl key (e ▸ hlt)
        rw [lookup, if_neg hne]
        exact lookup_of_mem (List.Pairwise.of_cons h) hmem

/-- The entries of the other keys stay as they are and where they are. -/
theorem filter_insertEntry (key : String) (value : α) :
    ∀ entries : List (String × α),
      (insertEntry key value entries).filter (fun entry => entry.1 ≠ key) =
        entries.filter fun entry => entry.1 ≠ key
  | [] => by simp [insertEntry]
  | (k, v) :: rest => by
      simp only [insertEntry]
      split
      · simp
      · split
        · next heq => simp [heq]
        · rw [List.filter_cons, List.filter_cons, filter_insertEntry key value rest]

/-- In a sorted list a key has one entry at most. -/
theorem filter_eq_lookup (key : String) :
    ∀ {entries : List (String × α)}, Sorted entries →
      entries.filter (fun entry => entry.1 = key) =
        ((lookup key entries).map fun value => (key, value)).toList
  | [], _ => rfl
  | (k, v) :: rest, h => by
      have ih := filter_eq_lookup key (List.Pairwise.of_cons h)
      by_cases hk : k = key
      · have hlt : ∀ e ∈ rest, key < e.1 := fun e he => hk ▸ List.rel_of_pairwise_cons h he
        rw [lookup_eq_none_of_lt hlt] at ih
        rw [List.filter_cons_of_pos (by simpa using hk), ih, lookup, if_pos hk, hk]
        rfl
      · rw [List.filter_cons_of_neg (by simpa using hk), ih, lookup, if_neg hk]

/-- Sorted lists that agree on every key are equal. -/
theorem eq_of_lookup_eq :
    ∀ {xs ys : List (String × α)}, Sorted xs → Sorted ys →
      (∀ key, lookup key xs = lookup key ys) → xs = ys
  | [], [], _, _, _ => rfl
  | [], (k, v) :: ys, _, _, h => by simpa [lookup] using h k
  | (k, v) :: xs, [], _, _, h => by simpa [lookup] using h k
  | (k, v) :: xs, (l, w) :: ys, hx, hy, h => by
      have hxs : ∀ e ∈ xs, k < e.1 := fun e he => List.rel_of_pairwise_cons hx he
      have hys : ∀ e ∈ ys, l < e.1 := fun e he => List.rel_of_pairwise_cons hy he
      have hkl : k = l := by
        rcases Decidable.em (k = l) with e | hne
        · exact e
        · exfalso
          rcases Decidable.em (k < l) with hlt | hnlt
          · have hn : lookup k ys = none :=
              lookup_eq_none_of_lt fun e he => String.lt_trans hlt (hys e he)
            have := h k
            simp [lookup, Ne.symm hne, hn] at this
          · have hlt := lt_of_not_lt_of_ne hnlt hne
            have hn : lookup l xs = none :=
              lookup_eq_none_of_lt fun e he => String.lt_trans hlt (hxs e he)
            have := h l
            simp [lookup, hne, hn] at this
      subst hkl
      have hv : v = w := by simpa [lookup] using h k
      subst hv
      have hrest : ∀ key, lookup key xs = lookup key ys := by
        intro key
        rcases Decidable.em (k = key) with e | hne
        · subst e
          rw [lookup_eq_none_of_lt hxs, lookup_eq_none_of_lt hys]
        · simpa [lookup, hne] using h key
      rw [eq_of_lookup_eq (List.Pairwise.of_cons hx) (List.Pairwise.of_cons hy) hrest]

end KeyMap

/-! ## The type -/

/-- A map from texts, with its entries in the order of the keys. -/
structure KeyMap (α : Type) where
  entries : List (String × α)
  /-- The keys strictly increase. -/
  sorted : KeyMap.Sorted entries

namespace KeyMap

/-- The map without entries. -/
def empty : KeyMap α := ⟨[], List.Pairwise.nil⟩

instance : Inhabited (KeyMap α) := ⟨empty⟩

/-- Two maps are equal if their entries are, position by position. -/
instance [BEq α] : BEq (KeyMap α) := ⟨fun m n => m.entries == n.entries⟩

/-- The value of a key. -/
def find? (map : KeyMap α) (key : String) : Option α := lookup key map.entries

/-- Is there an entry with the key? -/
def contains (map : KeyMap α) (key : String) : Bool := (map.find? key).isSome

/-- Sets the value of a key. -/
def insert (map : KeyMap α) (key : String) (value : α) : KeyMap α :=
  ⟨insertEntry key value map.entries, sorted_insertEntry key value map.sorted⟩

/-- Removes a key and its value. -/
def erase (map : KeyMap α) (key : String) : KeyMap α :=
  ⟨eraseEntry key map.entries, sorted_eraseEntry key map.sorted⟩

/-- The map of a list of entries.  Of several entries with one key the last counts. -/
def ofList (entries : List (String × α)) : KeyMap α :=
  entries.foldl (fun map entry => map.insert entry.1 entry.2) empty

/-- The entries in the order of the keys. -/
def toList (map : KeyMap α) : List (String × α) := map.entries

/-- The number of entries. -/
def size (map : KeyMap α) : Nat := map.entries.length

/-- Is there no entry? -/
def isEmpty (map : KeyMap α) : Bool := map.entries.isEmpty

/-! ## The view -/

@[simp] theorem find?_empty (key : String) : (empty : KeyMap α).find? key = none := rfl

@[simp] theorem find?_insert (map : KeyMap α) (key other : String) (value : α) :
    (map.insert key value).find? other = if key = other then some value else map.find? other :=
  lookup_insertEntry key other value map.entries

@[simp] theorem find?_erase (map : KeyMap α) (key other : String) :
    (map.erase key).find? other = if key = other then none else map.find? other :=
  lookup_eraseEntry key other map.entries

theorem mem_toList_iff {map : KeyMap α} {key : String} {value : α} :
    (key, value) ∈ map.toList ↔ map.find? key = some value :=
  ⟨lookup_of_mem map.sorted, mem_of_lookup⟩

theorem filter_toList_eq (map : KeyMap α) (key : String) :
    map.toList.filter (fun entry => entry.1 = key) =
      ((map.find? key).map fun value => (key, value)).toList :=
  filter_eq_lookup key map.sorted

theorem filter_toList_insert (map : KeyMap α) (key : String) (value : α) :
    (map.insert key value).toList.filter (fun entry => entry.1 ≠ key) =
      map.toList.filter fun entry => entry.1 ≠ key :=
  filter_insertEntry key value map.entries

theorem filter_toList_erase (map : KeyMap α) (key : String) :
    (map.erase key).toList = map.toList.filter fun entry => entry.1 ≠ key := rfl

theorem mem_toList_insert {map : KeyMap α} {key : String} {value : α} {entry : String × α}
    (h : entry ∈ (map.insert key value).toList) : entry = (key, value) ∨ entry ∈ map.toList :=
  mem_insertEntry h

theorem mem_toList_of_mem_erase {map : KeyMap α} {key : String} {entry : String × α}
    (h : entry ∈ (map.erase key).toList) : entry ∈ map.toList :=
  (List.mem_filter.1 h).1

/-- A map is determined by the values of its keys. -/
theorem ext {m n : KeyMap α} (h : ∀ key, m.find? key = n.find? key) : m = n := by
  have he := eq_of_lookup_eq m.sorted n.sorted h
  cases m; cases n
  cases he
  rfl

end KeyMap

end MessageExchange
