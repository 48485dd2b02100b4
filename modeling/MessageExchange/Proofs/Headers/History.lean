import MessageExchange.Headers
import MessageExchange.Proofs.History
import Mathlib.Data.List.DropRight

/-!
# Histories of headers

A history of headers sets them under any names and removes them.  What is left of
it for one header are its *settings*: the names and values that the header was
set to since it was last removed, oldest first.  If there are none the header is
absent.  Otherwise it has the spelling of the first setting and the value of the
last one (`spelling?_history`, `find?_history`).

A list of headers holds one entry for each header that is present, in the order
of the keys (`filter_toList`, `sorted_keys`).  So a history determines the list.
-/

namespace MessageExchange

/-! ## Calls -/

/-- A call that changes headers. -/
inductive HeaderCall where
  | insert (name : String) (value : Value)
  | erase (name : String)

namespace HeaderCall

/-- The name that a call uses. -/
def name : HeaderCall → String
  | insert name _ => name
  | erase name => name

/-- Does the call remove the header of a name? -/
def erases (name : String) : HeaderCall → Bool
  | insert _ _ => false
  | erase other => Headers.key other = Headers.key name

/-- The name and the value that the call sets the header of a name to. -/
def sets? (name : String) : HeaderCall → Option (String × Value)
  | insert other value => if Headers.key other = Headers.key name then some (other, value) else none
  | erase _ => none

end HeaderCall

namespace Headers

/-- A call to headers.  It answers the value that it replaced or removed. -/
def step (headers : Headers) : HeaderCall → Option Value × Headers
  | .insert name value => headers.getThenInsert name value
  | .erase name => headers.getThenErase name

/-- The names and values that a header was set to since it was last removed. -/
def settings (name : String) (calls : List HeaderCall) : List (String × Value) :=
  (calls.rtakeWhile fun call => !call.erases name).filterMap (HeaderCall.sets? name)

/-- The spelling of the first setting and the value of the last one. -/
def settled? (name : String) (calls : List HeaderCall) : Option (String × Value) :=
  (settings name calls).head?.bind fun first =>
    (settings name calls).getLast?.map fun last => (first.1, last.2)

/-! ## Settings -/

theorem settings_insert (name other : String) (value : Value) (calls : List HeaderCall) :
    settings name (calls ++ [.insert other value]) =
      if key other = key name then settings name calls ++ [(other, value)]
      else settings name calls := by
  have hkeep : (!(HeaderCall.insert other value).erases name) = true := rfl
  rw [settings, List.rtakeWhile_concat, if_pos hkeep, List.filterMap_append, ← settings]
  by_cases h : key other = key name
  · simp [HeaderCall.sets?, h]
  · simp [HeaderCall.sets?, h]

theorem settings_erase (name other : String) (calls : List HeaderCall) :
    settings name (calls ++ [.erase other]) =
      if key other = key name then [] else settings name calls := by
  rw [settings, List.rtakeWhile_concat]
  by_cases h : key other = key name
  · simp [HeaderCall.erases, h]
  · simp [HeaderCall.erases, HeaderCall.sets?, settings, h]

/-- Names of one header have the same settings. -/
theorem settings_congr {name other : String} (h : key name = key other)
    (calls : List HeaderCall) : settings name calls = settings other calls := by
  have herases : HeaderCall.erases name = HeaderCall.erases other := by
    funext call
    cases call <;> simp [HeaderCall.erases, h]
  have hsets : HeaderCall.sets? name = HeaderCall.sets? other := by
    funext call
    cases call <;> simp [HeaderCall.sets?, h]
  rw [settings, settings, herases, hsets]

/-! ## The value and the spelling -/

/-- The headers that a history leads to. -/
def ofHistory (calls : List HeaderCall) : Headers := (History.run step .empty calls).2

theorem ofHistory_concat (calls : List HeaderCall) (call : HeaderCall) :
    ofHistory (calls ++ [call]) = ((ofHistory calls).step call).2 :=
  History.run_concat_state step .empty calls call

/-- A header has the value of its last setting. -/
theorem find?_history (name : String) (calls : List HeaderCall) :
    (ofHistory calls).find? name = (settings name calls).getLast?.map Prod.snd := by
  induction calls using List.reverseRecOn with
  | nil => exact find?_empty name
  | append_singleton calls call ih =>
      rw [ofHistory_concat]
      cases call with
      | insert other value =>
          rw [step, getThenInsert, find?_insert, settings_insert, ih]
          by_cases h : key other = key name
          · rw [if_pos h, if_pos h, List.getLast?_concat]
            rfl
          · rw [if_neg h, if_neg h]
      | erase other =>
          rw [step, getThenErase, find?_erase, settings_erase, ih]
          by_cases h : key other = key name
          · rw [if_pos h, if_pos h]
            rfl
          · rw [if_neg h, if_neg h]

/-- A header has the spelling of its first setting. -/
theorem spelling?_history (name : String) (calls : List HeaderCall) :
    (ofHistory calls).spelling? name = (settings name calls).head?.map Prod.fst := by
  -- Setting a header keeps the spelling that is found under the other name, so the induction is
  -- for every name.
  induction calls using List.reverseRecOn generalizing name with
  | nil => exact spelling?_empty name
  | append_singleton calls call ih =>
      rw [ofHistory_concat]
      cases call with
      | insert other value =>
          rw [step, getThenInsert, spelling?_insert, settings_insert, ih, ih]
          by_cases h : key other = key name
          · rw [if_pos h, if_pos h, settings_congr h]
            -- The first of the settings is the new one only if there were none.
            cases settings name calls <;> rfl
          · rw [if_neg h, if_neg h]
      | erase other =>
          rw [step, getThenErase, spelling?_erase, settings_erase, ih]
          by_cases h : key other = key name
          · rw [if_pos h, if_pos h]
            rfl
          · rw [if_neg h, if_neg h]

/-- The entry of a header is what its settings come to. -/
theorem entry_history (name : String) (calls : List HeaderCall) :
    (ofHistory calls).entries.find? (key name) = settled? name calls := by
  have hspelling := spelling?_history name calls
  have hvalue := find?_history name calls
  rw [spelling?] at hspelling
  rw [find?] at hvalue
  rw [settled?]
  cases hsettings : settings name calls with
  | nil =>
      rw [hsettings] at hspelling
      exact Option.map_eq_none_iff.1 hspelling
  | cons first rest =>
      rw [hsettings] at hspelling hvalue
      obtain ⟨entry, hentry, hfst⟩ := Option.map_eq_some_iff.1 hspelling
      rw [hentry, List.getLast?_cons] at hvalue
      have hsnd : entry.2 = (rest.getLast?.getD first).2 := Option.some.inj hvalue
      rw [hentry, List.getLast?_cons]
      exact congrArg some (Prod.ext hfst hsnd)

/-! ## The list of headers -/

/-- Every key is the lower case of the spelling that it stands beside. -/
theorem map_key_toList (headers : Headers) :
    (headers.toList.map fun header => key header.1) = headers.entries.toList.map Prod.fst := by
  rw [toList, List.map_map]
  apply List.map_congr_left
  intro entry hmem
  exact headers.keyed entry hmem

theorem sorted_keys (headers : Headers) :
    (headers.toList.map fun header => key header.1).Pairwise (· < ·) := by
  rw [map_key_toList, List.pairwise_map]
  exact headers.entries.sorted

theorem filter_entries (headers : Headers) (holds : String → Bool) :
    (headers.toList.filter fun header => holds (key header.1)) =
      (headers.entries.toList.filter fun entry => holds entry.1).map Prod.snd := by
  rw [toList, List.filter_map]
  congr 1
  apply List.filter_congr
  intro entry hmem
  rw [Function.comp_apply, key, headers.keyed entry hmem]

/-- The list holds one entry of a header that is there and none of one that is not. -/
theorem filter_toList (headers : Headers) (name : String) :
    (headers.toList.filter fun header => key header.1 = key name) =
      (headers.entries.find? (key name)).toList := by
  rw [filter_entries headers fun k => decide (k = key name), KeyMap.filter_toList_eq]
  cases headers.entries.find? (key name) <;> rfl

theorem contains_iff {headers : Headers} {name : String} :
    headers.contains name = true ↔ ∃ header ∈ headers.toList, key header.1 = key name := by
  rw [contains, KeyMap.contains, Option.isSome_iff_exists]
  constructor
  · rintro ⟨entry, hentry⟩
    have hmem : entry ∈ headers.toList.filter fun header => key header.1 = key name := by
      rw [filter_toList, hentry]
      exact List.mem_singleton_self entry
    obtain ⟨hlist, hkey⟩ := List.mem_filter.1 hmem
    exact ⟨entry, hlist, of_decide_eq_true hkey⟩
  · rintro ⟨header, hlist, hkey⟩
    have hmem : header ∈ headers.toList.filter fun header => key header.1 = key name :=
      List.mem_filter.2 ⟨hlist, decide_eq_true hkey⟩
    rw [filter_toList, Option.mem_toList] at hmem
    exact ⟨header, hmem⟩

/-- A call leaves the other headers as they are and where they are. -/
theorem filter_toList_step (headers : Headers) (call : HeaderCall) :
    ((headers.step call).2.toList.filter fun header => key header.1 ≠ key call.name) =
      headers.toList.filter fun header => key header.1 ≠ key call.name := by
  rw [filter_entries _ fun k => decide (k ≠ key call.name),
    filter_entries _ fun k => decide (k ≠ key call.name)]
  cases call with
  | insert name value =>
      exact congrArg _ (KeyMap.filter_toList_insert headers.entries (key name) _)
  | erase name =>
      have herase := KeyMap.filter_toList_erase headers.entries (key name)
      rw [step, getThenErase, erase, herase, List.filter_filter]
      congr 1
      apply List.filter_congr
      intro entry _
      exact Bool.and_self _

/-! ## Every history -/

/-- What every history of headers leads to, said by the settings that it leaves.  The answers of
the calls, the value of a header, its spelling and its entry in the list are read off them.  The
list is in the order of the keys, and its length is the size.  A further call touches no other
header. -/
theorem headers_history (calls : List HeaderCall) :
    let headers := (History.run step .empty calls).2
    ((History.run step .empty calls).1 = calls.mapIdx fun i call =>
        (settings call.name (calls.take i)).getLast?.map Prod.snd) ∧
      (∀ name, headers.find? name = (settings name calls).getLast?.map Prod.snd) ∧
      (∀ name, (headers.toList.filter fun header => key header.1 = key name) =
        (settled? name calls).toList) ∧
      (headers.toList.map fun header => key header.1).Pairwise (· < ·) ∧
      headers.size = headers.toList.length ∧
      headers.isEmpty = headers.toList.isEmpty ∧
      (∀ name, headers.contains name = true ↔
        ∃ header ∈ headers.toList, key header.1 = key name) ∧
      ∀ call, ((headers.step call).2.toList.filter fun header => key header.1 ≠ key call.name) =
        headers.toList.filter fun header => key header.1 ≠ key call.name := by
  intro headers
  refine ⟨?_, fun name => find?_history name calls, fun name => ?_, sorted_keys headers,
    ?_, ?_, fun name => contains_iff, filter_toList_step headers⟩
  · rw [History.answers_eq_mapIdx]
    congr 1
    funext i call
    rw [← find?_history call.name (calls.take i)]
    cases call <;> rfl
  · rw [filter_toList]
    exact congrArg Option.toList (entry_history name calls)
  · rw [toList, List.length_map]
    rfl
  · rw [toList, List.isEmpty_map]
    rfl

end Headers

end MessageExchange
