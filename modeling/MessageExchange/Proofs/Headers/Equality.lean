import MessageExchange.Proofs.Binary64.Equality
import MessageExchange.Proofs.Exchange.Updates
import Mathlib.Data.List.Forall2
import Mathlib.Data.List.Sort

/-!
# Equality of headers

Headers are compared entry by entry, with the keys.  Since every key is the lower case
of its spelling, headers are equal exactly if their lists are, position by position
(`beq_iff_shown`), or if the same is found under every name (`beq_iff_rel`).

Values are compared by the equality of their kind (`Value.Same`).  It is symmetric and
transitive, but a NaN differs from itself, and so do headers that hold one.
-/

namespace MessageExchange

/-! ## Values -/

/-- Two values of one kind that are equal as that kind has it.  Doubles are equal as numbers, and
failures if they are the same capture. -/
inductive Value.Same : Value → Value → Prop where
  | null : Same .null .null
  | bool (b : Bool) : Same (.bool b) (.bool b)
  | int (n : Int64) : Same (.int n) (.int n)
  | double {x y : Binary64} : x.SameNumber y → Same (.double x) (.double y)
  | text (s : String) : Same (.text s) (.text s)
  | bytes (b : ByteArray) : Same (.bytes b) (.bytes b)
  | instant (t : Time.Instant) : Same (.instant t) (.instant t)
  | failure {f g : Failure} : f.identity = g.identity → Same (.failure f) (.failure g)

namespace Value

/-- The one value that does not equal itself. -/
inductive NotANumber : Value → Prop where
  | double {x : Binary64} : x.decode = .nan → NotANumber (.double x)

theorem bytes_beq_iff {a b : ByteArray} : (a == b) = true ↔ a = b := by
  change (a.data == b.data) = true ↔ _
  rw [beq_iff_eq, ByteArray.ext_iff]

/-- The equality of values is the kind's own. -/
theorem beq_iff {v w : Value} : (v == w) = true ↔ v.Same w := by
  change equal v w = true ↔ _
  constructor
  · intro h
    fun_cases equal v w with
    | case1 => exact .null
    | case2 a b =>
        rw [equal, beq_iff_eq] at h
        exact h ▸ .bool a
    | case3 m n =>
        rw [equal, beq_iff_eq] at h
        exact h ▸ .int m
    | case4 x y => exact .double (Binary64.beq_iff.1 h)
    | case5 s t =>
        rw [equal, beq_iff_eq] at h
        exact h ▸ .text s
    | case6 a b => exact bytes_beq_iff.1 h ▸ .bytes a
    | case7 s t => exact of_decide_eq_true h ▸ .instant s
    | case8 f g => exact .failure (Failure.beq_iff.1 h)
    | case9 =>
        have hkinds : equal v w = false := by rw [equal] <;> assumption
        rw [hkinds] at h
        cases h
  · intro h
    cases h with
    | double h => exact Binary64.beq_iff.2 h
    | failure h => exact Failure.beq_iff.2 h
    | bytes b => exact bytes_beq_iff.2 rfl
    | _ => simp [equal]

namespace Same

theorem symm {v w : Value} (h : v.Same w) : w.Same v := by
  cases h with
  | double h => exact .double h.symm
  | failure h => exact .failure h.symm
  | null => exact .null
  | bool b => exact .bool b
  | int n => exact .int n
  | text s => exact .text s
  | bytes b => exact .bytes b
  | instant t => exact .instant t

theorem trans {u v w : Value} (h : u.Same v) (h' : v.Same w) : u.Same w := by
  cases h with
  | double h =>
      cases h' with
      | double h' => exact .double (h.trans h')
  | failure h =>
      cases h' with
      | failure h' => exact .failure (h.trans h')
  | null => exact h'
  | bool b => exact h'
  | int n => exact h'
  | text s => exact h'
  | bytes b => exact h'
  | instant t => exact h'

end Same

theorem same_self_iff {v : Value} : v.Same v ↔ ¬v.NotANumber := by
  constructor
  · intro h hnan
    cases hnan with
    | double hnan =>
        cases h with
        | double h => exact Binary64.sameNumber_self_iff.1 h hnan
  · intro h
    cases v with
    | double x => exact .double (Binary64.sameNumber_self_iff.2 fun hnan => h (.double hnan))
    | failure f => exact .failure rfl
    | null => exact .null
    | bool b => exact .bool b
    | int n => exact .int n
    | text s => exact .text s
    | bytes b => exact .bytes b
    | instant t => exact .instant t

end Value

/-! ## Related maps -/

theorem list_beq_iff {α : Type} [BEq α] {xs ys : List α} :
    (xs == ys) = true ↔ List.Forall₂ (fun x y => (x == y) = true) xs ys := by
  induction xs generalizing ys with
  | nil => cases ys <;> simp
  | cons x xs ih => cases ys <;> simp [ih]

theorem forall₂_imp_mem {α β : Type} {P Q : α → β → Prop} {xs : List α} {ys : List β}
    (h : List.Forall₂ P xs ys) (himp : ∀ x ∈ xs, ∀ y ∈ ys, P x y → Q x y) :
    List.Forall₂ Q xs ys := by
  rw [List.forall₂_iff_zip] at h ⊢
  refine ⟨h.1, fun hmem => ?_⟩
  obtain ⟨hx, hy⟩ := List.of_mem_zip hmem
  exact himp _ hx _ hy (h.2 hmem)

namespace KeyMap

variable {α : Type} {R : α → α → Prop} {map other : KeyMap α}

theorem rel_find?_of_forall₂ {xs ys : List (String × α)}
    (h : List.Forall₂ (fun x y => x.1 = y.1 ∧ R x.2 y.2) xs ys) (key : String) :
    Option.Rel R (lookup key xs) (lookup key ys) := by
  induction h with
  | nil => exact .none
  | @cons x y _ _ hfirst _ ih =>
      obtain ⟨hkey, hvalue⟩ := hfirst
      rw [lookup, lookup, hkey]
      split
      · exact .some hvalue
      · exact ih

theorem isSome_eq_of_rel {value value' : Option α} (h : Option.Rel R value value') :
    value.isSome = value'.isSome := by
  cases h <;> rfl

theorem mem_keys_iff {key : String} :
    key ∈ map.toList.map Prod.fst ↔ (map.find? key).isSome = true := by
  rw [List.mem_map, Option.isSome_iff_exists]
  constructor
  · rintro ⟨⟨_, value⟩, hentry, rfl⟩
    exact ⟨value, mem_toList_iff.1 hentry⟩
  · rintro ⟨value, hvalue⟩
    exact ⟨(key, value), mem_toList_iff.2 hvalue, rfl⟩

/-- Maps with related values under every key have the same keys. -/
theorem keys_eq_of_rel (h : ∀ key, Option.Rel R (map.find? key) (other.find? key)) :
    map.toList.map Prod.fst = other.toList.map Prod.fst := by
  refine List.Pairwise.eq_of_mem_iff (List.pairwise_map.2 map.sorted)
    (List.pairwise_map.2 other.sorted) fun key => ?_
  rw [mem_keys_iff, mem_keys_iff, isSome_eq_of_rel (h key)]

/-- Entries are related position by position exactly if the values under each key are. -/
theorem forall₂_iff_rel_find? :
    List.Forall₂ (fun x y => x.1 = y.1 ∧ R x.2 y.2) map.toList other.toList ↔
      ∀ key, Option.Rel R (map.find? key) (other.find? key) := by
  constructor
  · exact rel_find?_of_forall₂
  · intro h
    have hkeys : List.Forall₂ (fun x y => x.1 = y.1) map.toList other.toList := by
      have hmap := keys_eq_of_rel h
      rwa [← List.forall₂_eq_eq_eq, List.forall₂_map_left_iff, List.forall₂_map_right_iff] at hmap
    refine forall₂_imp_mem hkeys fun x hx y hy hkey => ?_
    have hvalues := h x.1
    rw [mem_toList_iff.1 hx, hkey, mem_toList_iff.1 hy] at hvalues
    cases hvalues with
    | some hvalue => exact ⟨hkey, hvalue⟩

end KeyMap

/-! ## Headers -/

namespace Headers

/-- Two headers of one spelling and with the same value. -/
def SameHeader (header other : String × Value) : Prop :=
  header.1 = other.1 ∧ header.2.Same other.2

namespace SameHeader

variable {first second third : String × Value}

theorem symm (h : SameHeader first second) : SameHeader second first := ⟨h.1.symm, h.2.symm⟩

theorem trans (h : SameHeader first second) (h' : SameHeader second third) :
    SameHeader first third :=
  ⟨h.1.trans h'.1, h.2.trans h'.2⟩

theorem trans_list {list list' list'' : List (String × Value)}
    (h : List.Forall₂ SameHeader list list') (h' : List.Forall₂ SameHeader list' list'') :
    List.Forall₂ SameHeader list list'' := by
  induction h generalizing list'' with
  | nil => exact h'
  | cons hfirst _ ih =>
      cases h' with
      | cons hfirst' hrest => exact .cons (hfirst.trans hfirst') (ih hrest)

theorem self_iff : SameHeader first first ↔ ¬first.2.NotANumber :=
  (and_iff_right rfl).trans Value.same_self_iff

end SameHeader

variable {headers others : Headers}

theorem beq_iff_forall₂_entries :
    (headers == others) = true ↔ List.Forall₂ (fun x y => x.1 = y.1 ∧ SameHeader x.2 y.2)
      headers.entries.toList others.entries.toList := by
  change (headers.entries.toList == others.entries.toList) = true ↔ _
  have hentry (x y : String × String × Value) :
      (x == y) = true ↔ x.1 = y.1 ∧ SameHeader x.2 y.2 := by
    change (x.1 == y.1 && (x.2.1 == y.2.1 && x.2.2 == y.2.2)) = true ↔ _
    rw [Bool.and_eq_true, Bool.and_eq_true, beq_iff_eq, beq_iff_eq, Value.beq_iff]
    rfl
  simp only [list_beq_iff, hentry]

/-- Headers are equal if under every name there are the same headers, or none. -/
theorem beq_iff_rel : (headers == others) = true ↔
    ∀ name, Option.Rel SameHeader (headers.entries.find? (key name))
      (others.entries.find? (key name)) := by
  rw [beq_iff_forall₂_entries, KeyMap.forall₂_iff_rel_find?]
  constructor
  · exact fun h name => h (key name)
  · intro h k
    -- Every key is the lower case of a spelling, so nothing is found under another text.
    cases hleft : headers.entries.find? k with
    | some entry =>
        have hentry := h entry.1
        rwa [key_eq_of_find? hleft, hleft] at hentry
    | none =>
        cases hright : others.entries.find? k with
        | none => exact .none
        | some entry =>
            have hentry := h entry.1
            rwa [key_eq_of_find? hright, hleft, hright] at hentry

/-- The keys are equal if the spellings are, so it makes no difference that they are compared. -/
theorem beq_iff_shown : (headers == others) = true ↔
    List.Forall₂ SameHeader headers.toList others.toList := by
  rw [beq_iff_forall₂_entries, toList, toList, List.forall₂_map_left_iff,
    List.forall₂_map_right_iff]
  constructor
  · exact fun h => h.imp fun _ _ hentry => hentry.2
  · refine fun h => forall₂_imp_mem h fun x hx y hy hsame => ⟨?_, hsame⟩
    rw [← headers.keyed x hx, hsame.1, others.keyed y hy]

/-! ## Further calls -/

theorem spelling?_eq_of_beq (h : (headers == others) = true) (name : String) :
    headers.spelling? name = others.spelling? name := by
  have hentry := beq_iff_rel.1 h name
  rw [spelling?, spelling?]
  generalize headers.entries.find? (key name) = entry at hentry ⊢
  generalize others.entries.find? (key name) = entry' at hentry ⊢
  cases hentry with
  | some hsame => exact congrArg some hsame.1
  | none => rfl

/-- Equal headers are equal after the same call, if it does not set a value that differs from
itself. -/
theorem step_beq (h : (headers == others) = true) {call : HeaderCall}
    (hcall : ∀ name value, call = .insert name value → (value == value) = true) :
    ((headers.step call).2 == (others.step call).2) = true := by
  rw [beq_iff_rel] at h ⊢
  intro other
  cases call with
  | insert name value =>
      have hvalue : value.Same value := Value.beq_iff.1 (hcall name value rfl)
      rw [step, step, getThenInsert, getThenInsert, entries_insert, entries_insert,
        KeyMap.find?_insert, KeyMap.find?_insert, spelling?_eq_of_beq (beq_iff_rel.2 h)]
      split
      · exact .some ⟨rfl, hvalue⟩
      · exact h other
  | erase name =>
      have herase (m : Headers) : (m.erase name).entries = m.entries.erase (key name) := rfl
      rw [step, step, getThenErase, getThenErase, herase, herase, KeyMap.find?_erase,
        KeyMap.find?_erase]
      split
      · exact .none
      · exact h other

theorem run_beq (h : (headers == others) = true) {calls : List HeaderCall}
    (hcalls : ∀ name value, HeaderCall.insert name value ∈ calls → (value == value) = true) :
    ((History.run step headers calls).2 == (History.run step others calls).2) = true := by
  induction calls generalizing headers others with
  | nil => exact h
  | cons first rest ih =>
      refine ih (step_beq h fun name value heq => ?_) fun name value hmem => ?_
      · exact hcalls name value (heq ▸ List.mem_cons_self)
      · exact hcalls name value (List.mem_cons_of_mem first hmem)

/-! ## Every pair of headers -/

/-- Headers are equal exactly if the same spellings with the same values are shown in the same
places.  This is symmetric and transitive, and all headers equal themselves but those that hold a
NaN.  Headers after histories are equal if the histories leave every name the same spelling and
the same value, or none, whatever was overwritten or removed before.  Equal headers stay equal
under the same calls, if these set only values that equal themselves. -/
theorem headers_equal_as_shown :
    (∀ v w : Value, (v == w) = true ↔ v.Same w) ∧
    (∀ headers others : Headers, (headers == others) = true ↔
      List.Forall₂ SameHeader headers.toList others.toList) ∧
    (∀ headers others : Headers, (headers == others) = true → (others == headers) = true) ∧
    (∀ first second third : Headers, (first == second) = true → (second == third) = true →
      (first == third) = true) ∧
    (∀ headers : Headers, (headers == headers) = true ↔
      ∀ header ∈ headers.toList, ¬header.2.NotANumber) ∧
    (∀ calls calls' : List HeaderCall, (ofHistory calls == ofHistory calls') = true ↔
      ∀ name, Option.Rel SameHeader (settled? name calls) (settled? name calls')) ∧
    ∀ (headers others : Headers) (calls : List HeaderCall), (headers == others) = true →
      (∀ name value, HeaderCall.insert name value ∈ calls → (value == value) = true) →
        ((History.run step headers calls).2 == (History.run step others calls).2) = true := by
  refine ⟨fun v w => Value.beq_iff, fun headers others => beq_iff_shown, ?_, ?_, ?_, ?_,
    fun headers others calls h => run_beq h⟩
  · intro headers others h
    rw [beq_iff_shown] at h ⊢
    exact List.Forall₂.flip (h.imp fun _ _ hsame => hsame.symm)
  · intro first second third h h'
    rw [beq_iff_shown] at h h' ⊢
    exact SameHeader.trans_list h h'
  · intro headers
    rw [beq_iff_shown, List.forall₂_same]
    exact forall₂_congr fun header _ => SameHeader.self_iff
  · intro calls calls'
    rw [beq_iff_rel]
    exact forall_congr' fun name => by rw [entry_history, entry_history]

/-- The zeros are equal, and the null that was there before and the header that was removed do not
count.  With a NaN in place of the zero the headers differ from themselves. -/
theorem headers_equal_as_shown_of_zeros :
    let headers := ofHistory [.insert "A" .null, .insert "b" (.bool true),
      .insert "a" (.double ⟨0⟩), .erase "B"]
    let others := ofHistory [.insert "A" (.double ⟨0x8000000000000000⟩)]
    let undefined := ofHistory [.insert "A" (.double ⟨0x7FF8000000000000⟩)]
    let calls := [HeaderCall.insert "c" (.text "x"), .erase "A"]
    ((headers == others) = true ∧
        List.Forall₂ SameHeader headers.toList others.toList ∧ (others == headers) = true) ∧
      ((∀ name value, HeaderCall.insert name value ∈ calls → (value == value) = true) ∧
        ((History.run step headers calls).2 == (History.run step others calls).2) = true) ∧
      ¬∀ header ∈ undefined.toList, ¬header.2.NotANumber := by
  intro headers others undefined calls
  obtain ⟨hvalue, hshown, hsymm, -, hself, -, hcalls⟩ := headers_equal_as_shown
  have hequal : (headers == others) = true := by decide +kernel
  have hset (name : String) (value : Value) (hmem : HeaderCall.insert name value ∈ calls) :
      (value == value) = true := by
    have hcall : name = "c" ∧ value = .text "x" := by simpa [calls] using hmem
    exact hcall.2 ▸ (hvalue _ _).2 (.text "x")
  have hundefined : (undefined == undefined) = false := by decide +kernel
  refine ⟨⟨hequal, (hshown _ _).1 hequal, hsymm _ _ hequal⟩,
    ⟨hset, hcalls headers others calls hequal hset⟩, fun h => ?_⟩
  rw [(hself undefined).2 h] at hundefined
  cases hundefined

end Headers

end MessageExchange
