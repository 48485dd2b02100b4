import MessageExchange.KeyMap

/-!
# Maps without an order

A `Dictionary` is a list of entries with different keys.  Unlike in a `KeyMap` the
order of the entries is not part of what a dictionary says: two dictionaries with
the same entries may list them differently.  An entry that is set goes to the
front, so the order tells when entries were set, and whoever lists the entries has
to sort them.

`find?` is the view.  The lemmas say what each operation does to it, and
`mem_toList_iff` says that the list holds what is found.
-/

namespace MessageExchange

/-- A map from texts, with its entries in any order. -/
structure Dictionary (α : Type) where
  entries : List (String × α)
  /-- A key has one entry at most. -/
  distinct : entries.Pairwise fun a b => a.1 ≠ b.1

namespace Dictionary

variable {α : Type}

/-- The map without entries. -/
def empty : Dictionary α := ⟨[], List.Pairwise.nil⟩

instance : Inhabited (Dictionary α) := ⟨empty⟩

/-- The value of a key. -/
def find? (map : Dictionary α) (key : String) : Option α := KeyMap.lookup key map.entries

/-- Removes a key and its value. -/
def erase (map : Dictionary α) (key : String) : Dictionary α :=
  ⟨KeyMap.eraseEntry key map.entries, map.distinct.sublist List.filter_sublist⟩

/-- Sets the value of a key. -/
def insert (map : Dictionary α) (key : String) (value : α) : Dictionary α :=
  { entries := (key, value) :: (map.erase key).entries
    distinct := by
      refine List.Pairwise.cons (fun entry h => ?_) (map.erase key).distinct
      have hkey := (List.mem_filter.1 h).2
      exact Ne.symm (by simpa using hkey) }

/-- The entries, in any order. -/
def toList (map : Dictionary α) : List (String × α) := map.entries

/-- The number of entries. -/
def size (map : Dictionary α) : Nat := map.entries.length

/-! ## The view -/

@[simp] theorem find?_empty (key : String) : (empty : Dictionary α).find? key = none := rfl

@[simp] theorem find?_erase (map : Dictionary α) (key other : String) :
    (map.erase key).find? other = if key = other then none else map.find? other :=
  KeyMap.lookup_eraseEntry key other map.entries

@[simp] theorem find?_insert (map : Dictionary α) (key other : String) (value : α) :
    (map.insert key value).find? other = if key = other then some value else map.find? other := by
  by_cases h : key = other
  · rw [find?, insert, KeyMap.lookup, if_pos h, if_pos h]
  · have herase := map.find?_erase key other
    rw [if_neg h] at herase ⊢
    rw [← herase, find?, insert, KeyMap.lookup, if_neg h]
    rfl

theorem mem_toList_iff {map : Dictionary α} {key : String} {value : α} :
    (key, value) ∈ map.toList ↔ map.find? key = some value := by
  obtain ⟨entries, hdistinct⟩ := map
  simp only [toList, find?]
  induction entries with
  | nil => simp [KeyMap.lookup]
  | cons first rest ih =>
      obtain ⟨hfirst, hrest⟩ := List.pairwise_cons.1 hdistinct
      have ih := ih hrest
      obtain ⟨k, v⟩ := first
      by_cases hkey : k = key
      · subst hkey
        have hnot : (k, value) ∉ rest := fun hmem => hfirst _ hmem rfl
        simp [KeyMap.lookup, hnot, eq_comm]
      · simp [KeyMap.lookup, hkey, Ne.symm hkey, ih]

end Dictionary

end MessageExchange
