import MessageExchange.Exchange.Basic
import MessageExchange.Proofs.Headers.History
import Mathlib.Data.List.Nodup

/-!
# Histories of an exchange

An exchange is updated while it flows through a pipeline: its body, headers,
properties, failure and time of creation are set, and headers and properties are
removed.  What a history of updates comes to is read off the history itself.  The
last update of a part decides what the part is, and a header has the spelling of
its first setting since it was last removed.  Histories with the `SameOutcome`
lead to exchanges that differ in the time of creation at most
(`updateAll_of_outcome`).

Headers are kept in the order of their keys, so the order in which they are set leaves
no trace (`updateAll_headers_perm`).  Properties are in no order, and setting them in
another order leaves the same values (`updateAll_properties_perm`), perhaps listed in
another way.
-/

namespace MessageExchange

open MessageExchange.Time (Instant)

/-! ## Updates -/

/-- A change of an exchange. -/
inductive ExchangeUpdate where
  | setBody (body : Value)
  /-- Sets or removes a header. -/
  | header (call : HeaderCall)
  | setProperty (key : String) (value : Value)
  | removeProperty (key : String)
  | setException (exception : Option Failure)
  | setCreated (created : Instant)

namespace Exchange

def update (x : Exchange) : ExchangeUpdate → Exchange
  | .setBody body => x.setBody body
  | .header (.insert name value) => x.setHeader name value
  | .header (.erase name) => x.removeHeader name
  | .setProperty key value => x.setProperty key value
  | .removeProperty key => x.removeProperty key
  | .setException exception => x.setException exception
  | .setCreated created => x.setCreated created

/-- The exchange after updates, in order. -/
def updateAll (x : Exchange) (updates : List ExchangeUpdate) : Exchange :=
  updates.foldl update x

theorem updateAll_concat (x : Exchange) (updates : List ExchangeUpdate) (last : ExchangeUpdate) :
    x.updateAll (updates ++ [last]) = (x.updateAll updates).update last :=
  List.foldl_concat ..

end Exchange

/-! ## What a history comes to -/

namespace ExchangeUpdate

/-- The body that an update sets. -/
def body? : ExchangeUpdate → Option Value
  | setBody body => some body
  | _ => none

/-- The failure, or none, that an update sets. -/
def exception? : ExchangeUpdate → Option (Option Failure)
  | setException exception => some exception
  | _ => none

/-- The value, or none, that an update gives to the property of a key. -/
def property? (key : String) : ExchangeUpdate → Option (Option Value)
  | setProperty other value => if other = key then some (some value) else none
  | removeProperty other => if other = key then some none else none
  | _ => none

def headerCall? : ExchangeUpdate → Option HeaderCall
  | header call => some call
  | _ => none

/-- The body that updates leave. -/
def settledBody (updates : List ExchangeUpdate) : Value :=
  (updates.filterMap body?).getLast?.getD .null

/-- The failure that updates leave. -/
def settledException (updates : List ExchangeUpdate) : Option Failure :=
  (updates.filterMap exception?).getLast?.getD none

/-- The value that updates leave the property of a key with. -/
def settledProperty? (key : String) (updates : List ExchangeUpdate) : Option Value :=
  (updates.filterMap (property? key)).getLast?.getD none

/-- The calls to the headers among updates. -/
def headerCalls (updates : List ExchangeUpdate) : List HeaderCall :=
  updates.filterMap headerCall?

/-- Two histories that come to the same, but for the time of creation. -/
structure SameOutcome (updates others : List ExchangeUpdate) : Prop where
  body_eq : settledBody updates = settledBody others
  exception_eq : settledException updates = settledException others
  property_eq : ∀ key, settledProperty? key updates = settledProperty? key others
  /-- Every header has the same spelling and the same value. -/
  header_eq : ∀ name, Headers.settled? name (headerCalls updates) =
    Headers.settled? name (headerCalls others)

end ExchangeUpdate

namespace Exchange

open ExchangeUpdate

/-- A part that every update sets or leaves as it is has the value that it was set to last. -/
theorem updateAll_part {β : Type} (part : Exchange → β) {sets? : ExchangeUpdate → Option β}
    (h : ∀ x update, part (x.update update) = (sets? update).getD (part x)) (x : Exchange)
    (updates : List ExchangeUpdate) :
    part (x.updateAll updates) = (updates.filterMap sets?).getLast?.getD (part x) := by
  induction updates generalizing x with
  | nil => rfl
  | cons first rest ih =>
      have hrest := ih (x.update first)
      rw [h] at hrest
      rw [updateAll, List.foldl_cons, ← updateAll, hrest]
      cases hfirst : sets? first with
      | none => rw [List.filterMap_cons_none hfirst, Option.getD_none]
      | some value =>
          rw [List.filterMap_cons_some hfirst, List.getLast?_cons, Option.getD_some,
            Option.getD_some]

/-- An update sets the property of a key or leaves it as it is. -/
theorem property?_update (x : Exchange) (update : ExchangeUpdate) (key : String) :
    (x.update update).property? key = (update.property? key).getD (x.property? key) := by
  cases update with
  | header call => cases call <;> rfl
  | setProperty other value =>
      refine (Dictionary.find?_insert x.properties other key value).trans ?_
      by_cases h : other = key <;> simp [ExchangeUpdate.property?, h, Exchange.property?]
  | removeProperty other =>
      refine (Dictionary.find?_erase x.properties other key).trans ?_
      by_cases h : other = key <;> simp [ExchangeUpdate.property?, h, Exchange.property?]
  | _ => rfl

variable (id : ExchangeId) (created : Instant) (updates : List ExchangeUpdate)

theorem id_updateAll (x : Exchange) : (x.updateAll updates).id = x.id := by
  induction updates using List.reverseRecOn with
  | nil => rfl
  | append_singleton updates last ih =>
      rw [updateAll_concat, ← ih]
      cases last with
      | header call => cases call <;> rfl
      | _ => rfl

theorem body_updateAll :
    ((new id created).updateAll updates).message.body = settledBody updates := by
  refine updateAll_part (fun x => x.message.body) (fun x update => ?_) _ updates
  cases update with
  | header call => cases call <;> rfl
  | _ => rfl

theorem exception_updateAll :
    ((new id created).updateAll updates).exception = settledException updates := by
  refine updateAll_part Exchange.exception (fun x update => ?_) _ updates
  cases update with
  | header call => cases call <;> rfl
  | _ => rfl

theorem property?_updateAll (key : String) :
    ((new id created).updateAll updates).property? key = settledProperty? key updates :=
  updateAll_part (fun x => x.property? key) (fun x update => x.property?_update update key) _
    updates

theorem headers_updateAll :
    ((new id created).updateAll updates).message.headers =
      Headers.ofHistory (headerCalls updates) := by
  induction updates using List.reverseRecOn with
  | nil => rfl
  | append_singleton updates last ih =>
      rw [updateAll_concat, headerCalls, List.filterMap_append]
      cases last with
      | header call =>
          have hcalls : headerCalls updates ++ [call] =
              updates.filterMap headerCall? ++ [.header call].filterMap headerCall? := rfl
          rw [← hcalls, Headers.ofHistory_concat, ← ih]
          cases call <;> rfl
      | _ =>
          refine Eq.trans ?_ (congrArg Headers.ofHistory (List.append_nil _).symm)
          exact ih

end Exchange

/-! ## Headers are determined by what they are set to -/

theorem Headers.ext_entries {headers others : Headers} (h : headers.entries = others.entries) :
    headers = others := by
  cases headers; cases others
  cases h
  rfl

/-- Every key is the key of a spelling. -/
theorem Headers.key_eq_of_find? {headers : Headers} {k : String} {entry : String × Value}
    (h : headers.entries.find? k = some entry) : key entry.1 = k :=
  headers.keyed (k, entry) (KeyMap.mem_toList_iff.2 h)

/-- Headers are determined by what is found under names. -/
theorem Headers.ext_name {headers others : Headers}
    (h : ∀ name, headers.entries.find? (key name) = others.entries.find? (key name)) :
    headers = others := by
  apply ext_entries
  apply KeyMap.ext
  intro k
  cases hleft : headers.entries.find? k with
  | some entry => rw [← hleft, ← key_eq_of_find? hleft, h]
  | none =>
      cases hright : others.entries.find? k with
      | none => rfl
      | some entry =>
          rw [← hright, ← key_eq_of_find? hright, ← h, key_eq_of_find? hright, hleft]

/-- Histories of the same outcome lead to exchanges that differ in the time of creation at most. -/
theorem Exchange.updateAll_of_outcome {updates others : List ExchangeUpdate}
    (h : ExchangeUpdate.SameOutcome updates others) (id : ExchangeId) (created created' : Instant) :
    let x := (Exchange.new id created).updateAll updates
    let y := (Exchange.new id created').updateAll others
    x.id = y.id ∧ x.message = y.message ∧ (∀ key, x.property? key = y.property? key) ∧
      x.exception = y.exception := by
  intro x y
  have hbody : x.message.body = y.message.body := by
    rw [body_updateAll, body_updateAll, h.body_eq]
  have hheaders : x.message.headers = y.message.headers := by
    rw [headers_updateAll, headers_updateAll]
    apply Headers.ext_name
    intro name
    rw [Headers.entry_history, Headers.entry_history, h.header_eq]
  refine ⟨?_, ?_, ?_, ?_⟩
  · rw [id_updateAll, id_updateAll]
    rfl
  · exact congrArg₂ Message.mk hbody hheaders
  · intro key
    rw [property?_updateAll, property?_updateAll, h.property_eq]
  · rw [exception_updateAll, exception_updateAll, h.exception_eq]

/-! ## Changing the order -/

/-- Steps that commute if their keys differ may be taken in any order if all of their keys do. -/
theorem foldl_eq_of_perm_of_nodup {σ α κ : Type} {step : σ → α → σ} {key : α → κ}
    (hcomm : ∀ s a b, key a ≠ key b → step (step s a) b = step (step s b) a) {l l' : List α}
    (hperm : l.Perm l') (hnodup : (l.map key).Nodup) (s : σ) :
    l.foldl step s = l'.foldl step s := by
  refine hperm.foldl_eq' (fun a ha b hb s => ?_) s
  by_cases h : key a = key b
  · rw [List.inj_on_of_nodup_map hnodup ha hb h]
  · exact hcomm s a b h

theorem KeyMap.insert_comm {α : Type} (map : KeyMap α) {key other : String} (h : key ≠ other)
    (v w : α) : (map.insert key v).insert other w = (map.insert other w).insert key v := by
  apply KeyMap.ext
  intro name
  rw [find?_insert, find?_insert, find?_insert, find?_insert]
  by_cases hkey : key = name
  · have hother : other ≠ name := fun heq => h (hkey.trans heq.symm)
    rw [if_pos hkey, if_pos hkey, if_neg hother]
  · rw [if_neg hkey, if_neg hkey]

theorem Headers.entries_insert (headers : Headers) (name : String) (value : Value) :
    (headers.insert name value).entries =
      headers.entries.insert (key name) ((headers.spelling? name).getD name, value) := rfl

theorem Headers.insert_comm (headers : Headers) {name other : String} (h : key name ≠ key other)
    (v w : Value) :
    (headers.insert name v).insert other w = (headers.insert other w).insert name v := by
  have hname : (headers.insert other w).spelling? name = headers.spelling? name := by
    rw [spelling?_insert, if_neg (Ne.symm h)]
  have hother : (headers.insert name v).spelling? other = headers.spelling? other := by
    rw [spelling?_insert, if_neg h]
  apply ext_entries
  rw [entries_insert, hother, entries_insert, entries_insert, hname, entries_insert]
  exact KeyMap.insert_comm headers.entries h _ _

namespace Exchange

/-- Headers with different keys may be set in any order. -/
theorem updateAll_headers_perm (x : Exchange) {headers others : List (String × Value)}
    (hperm : headers.Perm others)
    (hnodup : (headers.map fun header => Headers.key header.1).Nodup) :
    x.updateAll (headers.map fun header => .header (.insert header.1 header.2)) =
      x.updateAll (others.map fun header => .header (.insert header.1 header.2)) := by
  rw [updateAll, updateAll, List.foldl_map, List.foldl_map]
  refine foldl_eq_of_perm_of_nodup (fun x first second h => ?_) hperm hnodup x
  exact congrArg x.setHeaders (Headers.insert_comm x.message.headers h first.2 second.2)

/-- Setting properties changes nothing but the properties. -/
theorem updateAll_setProperty (x : Exchange) (properties : List (String × Value)) :
    let y := x.updateAll (properties.map fun property => .setProperty property.1 property.2)
    y = { x with properties := y.properties } := by
  induction properties generalizing x with
  | nil => rfl
  | cons first rest ih => exact ih (x.setProperty first.1 first.2)

/-- The property of a key is set by each of the pairs that have the key, one after the other. -/
theorem property?_updateAll_setProperty (x : Exchange) (properties : List (String × Value))
    (key : String) :
    (x.updateAll (properties.map fun property =>
        .setProperty property.1 property.2)).property? key =
      properties.foldl (fun value property => if property.1 = key then some property.2 else value)
        (x.property? key) := by
  induction properties generalizing x with
  | nil => rfl
  | cons first rest ih =>
      refine (ih (x.setProperty first.1 first.2)).trans ?_
      exact congrArg (rest.foldl _) (Dictionary.find?_insert x.properties first.1 key first.2)

/-- Properties with different keys may be set in any order.  The same values are found after it. -/
theorem updateAll_properties_perm (x : Exchange) {properties others : List (String × Value)}
    (hperm : properties.Perm others) (hnodup : (properties.map Prod.fst).Nodup) :
    let y := x.updateAll (properties.map fun property => .setProperty property.1 property.2)
    let z := x.updateAll (others.map fun property => .setProperty property.1 property.2)
    y = { z with properties := y.properties } ∧ ∀ key, y.property? key = z.property? key := by
  intro y z
  have hy : y = { x with properties := y.properties } := x.updateAll_setProperty properties
  have hz : z = { x with properties := z.properties } := x.updateAll_setProperty others
  refine ⟨by rw [hz]; exact hy, fun key => ?_⟩
  rw [property?_updateAll_setProperty, property?_updateAll_setProperty]
  refine foldl_eq_of_perm_of_nodup (fun value first second h => ?_) hperm hnodup _
  -- Not both of the keys are the one that is looked up.
  by_cases hfirst : first.1 = key
  · have hsecond : second.1 ≠ key := fun heq => h (hfirst.trans heq.symm)
    rw [if_neg hsecond, if_neg hsecond]
  · rw [if_neg hfirst, if_neg hfirst]

end Exchange

end MessageExchange
