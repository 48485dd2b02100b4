import MessageExchange.Dictionary
import MessageExchange.Proofs.Options.Decoding
import Mathlib.Data.List.Nodup

/-!
# Properties in the order of their keys

The properties of an exchange are in no order, and a dump sorts them.  `Sorted` says
that a list holds the entries of a dictionary in the order of the keys.  There is one
such list (`sorted_iff`), so dictionaries that say the same are sorted into the same
list, however they list their entries (`ofList_toList_congr`).
-/

namespace MessageExchange

variable {α : Type}

theorem lastValue_iff_mem_of_nodup {entries : List (String × α)}
    (hnodup : (entries.map Prod.fst).Nodup) {key : String} {value : α} :
    LastValue entries key value ↔ (key, value) ∈ entries := by
  constructor
  · rintro ⟨before, after, rfl, -⟩
    exact List.mem_append_right before List.mem_cons_self
  · intro hmem
    obtain ⟨before, after, rfl⟩ := List.append_of_mem hmem
    rw [List.map_append, List.map_cons] at hnodup
    exact ⟨before, after, rfl, (List.nodup_cons.1 (List.nodup_append.1 hnodup).2.1).1⟩

namespace Dictionary

/-- The entries of a dictionary in the order of the keys. -/
structure Sorted (map : Dictionary α) (entries : List (String × α)) : Prop where
  /-- A key is listed once. -/
  increasing : (entries.map Prod.fst).Pairwise (· < ·)
  mem_iff : ∀ key value, (key, value) ∈ entries ↔ map.find? key = some value

/-- Sorting the entries loses none of them. -/
theorem find?_ofList_toList (map : Dictionary α) (key : String) :
    (KeyMap.ofList map.toList).find? key = map.find? key := by
  have hnodup : (map.toList.map Prod.fst).Nodup := List.pairwise_map.2 map.distinct
  apply Option.ext
  intro value
  rw [KeyMap.find?_ofList_eq_some_iff, lastValue_iff_mem_of_nodup hnodup, mem_toList_iff]

theorem sorted_ofList_toList (map : Dictionary α) :
    map.Sorted (KeyMap.ofList map.toList).toList where
  increasing := List.pairwise_map.2 (KeyMap.ofList map.toList).sorted
  mem_iff key value := by rw [KeyMap.mem_toList_iff, find?_ofList_toList]

/-- Sorting the entries gives the one list that is in order. -/
theorem sorted_iff {map : Dictionary α} {entries : List (String × α)} :
    map.Sorted entries ↔ entries = (KeyMap.ofList map.toList).toList := by
  constructor
  · intro h
    let sorted : KeyMap α := ⟨entries, List.pairwise_map.1 h.increasing⟩
    have heq : sorted = KeyMap.ofList map.toList := by
      apply KeyMap.ext
      intro key
      apply Option.ext
      intro value
      rw [find?_ofList_toList, ← h.mem_iff]
      exact KeyMap.mem_toList_iff.symm
    exact congrArg KeyMap.toList heq
  · rintro rfl
    exact map.sorted_ofList_toList

/-- Dictionaries that say the same are sorted into the same list. -/
theorem ofList_toList_congr {map other : Dictionary α}
    (h : ∀ key, map.find? key = other.find? key) :
    KeyMap.ofList map.toList = KeyMap.ofList other.toList := by
  apply KeyMap.ext
  intro key
  rw [find?_ofList_toList, find?_ofList_toList, h]

/-- Dictionaries with the same entries say the same, in whatever order the entries are listed. -/
theorem find?_congr_of_perm {map other : Dictionary α} (h : map.toList.Perm other.toList)
    (key : String) : map.find? key = other.find? key := by
  apply Option.ext
  intro value
  rw [← mem_toList_iff, ← mem_toList_iff, h.mem_iff]

end Dictionary

end MessageExchange
