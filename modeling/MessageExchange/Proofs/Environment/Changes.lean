import MessageExchange.Environment
import MessageExchange.Proofs.Text.Encoding

/-!
# Changes of the environment

The environment changes one variable at a time.  What a variable holds after
changes is said by the last change of it alone, or by the environment before if
there is none (`Holds`, `holds_iff`).  So changes of other variables can be left out
(`find?_after_filter`).

A variable is *usable* with a text if a variable can have its name and it holds the
bytes of the text (`Usable`).  Then it is read as that text (`read?_after_iff`).
-/

namespace MessageExchange

/-! ## Changes -/

/-- A change of one variable. -/
inductive EnvironmentChange where
  | set (name : String) (value : ByteArray)
  | unset (name : String)

namespace EnvironmentChange

/-- The variable that is changed. -/
def name : EnvironmentChange → String
  | set name _ => name
  | unset name => name

/-- What the variable holds after the change. -/
def value? : EnvironmentChange → Option ByteArray
  | set _ value => some value
  | unset _ => none

end EnvironmentChange

namespace Environment

/-- The environment after a change. -/
def change (env : Environment) : EnvironmentChange → Environment
  | .set name value => env.set name value
  | .unset name => env.unset name

/-- The environment after changes in order. -/
def after (env : Environment) (changes : List EnvironmentChange) : Environment :=
  changes.foldl change env

/-- What a variable holds after changes: what the last change of it set, or what it held before if
none of the changes is of it. -/
inductive Holds (env : Environment) (changes : List EnvironmentChange) (name : String)
    (value : ByteArray) : Prop where
  | kept : (∀ change ∈ changes, change.name ≠ name) → env.values.find? name = some value →
      Holds env changes name value
  | set {before after : List EnvironmentChange} :
      changes = before ++ .set name value :: after → (∀ change ∈ after, change.name ≠ name) →
      Holds env changes name value

/-- A variable that can have its name and holds the bytes of a text after changes. -/
structure Usable (env : Environment) (changes : List EnvironmentChange) (name text : String) :
    Prop where
  ne_empty : name ≠ ""
  equals_notMem : '=' ∉ name.toList
  nul_notMem : '\x00' ∉ name.toList
  holds : env.Holds changes name text.toUTF8

variable {env : Environment} {name : String}

/-! ## What a variable holds -/

theorem find?_change (env : Environment) (change : EnvironmentChange) (name : String) :
    (env.change change).values.find? name =
      if change.name = name then change.value? else env.values.find? name := by
  cases change with
  | set other value => exact KeyMap.find?_insert env.values other name value
  | unset other => exact KeyMap.find?_erase env.values other name

/-- The first change is a change of the environment before the others. -/
theorem holds_cons_iff {change : EnvironmentChange} {changes : List EnvironmentChange}
    {value : ByteArray} :
    env.Holds (change :: changes) name value ↔ (env.change change).Holds changes name value := by
  constructor
  · intro h
    cases h with
    | kept hnames hvalue =>
        rw [List.forall_mem_cons] at hnames
        refine .kept hnames.2 ?_
        rw [find?_change, if_neg hnames.1, hvalue]
    | @set before after hchanges hafter =>
        cases before with
        | nil =>
            obtain ⟨rfl, rfl⟩ := List.cons.inj hchanges
            refine .kept hafter ?_
            rw [find?_change]
            exact if_pos rfl
        | cons first before => exact .set (List.cons.inj hchanges).2 hafter
  · intro h
    cases h with
    | kept hnames hvalue =>
        rw [find?_change] at hvalue
        split at hvalue
        · next hname =>
          cases change with
          | set other new =>
              cases hname
              cases hvalue
              exact .set (List.nil_append _).symm hnames
          | unset other => cases hvalue
        · next hname => exact .kept (List.forall_mem_cons.2 ⟨hname, hnames⟩) hvalue
    | @set before _ hchanges hafter =>
        have hsplit : change :: changes = (change :: before) ++ .set name value :: _ :=
          congrArg (change :: ·) hchanges
        exact .set hsplit hafter

theorem holds_nil_iff {value : ByteArray} :
    env.Holds [] name value ↔ env.values.find? name = some value := by
  constructor
  · intro h
    cases h with
    | kept _ hvalue => exact hvalue
    | set hchanges _ => exact absurd hchanges.symm (List.append_ne_nil_of_right_ne_nil _ nofun)
  · exact .kept nofun

/-- A variable holds what the environment after the changes has for it. -/
theorem holds_iff {changes : List EnvironmentChange} {value : ByteArray} :
    env.Holds changes name value ↔ (env.after changes).values.find? name = some value := by
  induction changes generalizing env with
  | nil => exact holds_nil_iff
  | cons change changes ih => exact holds_cons_iff.trans ih

/-- Only the changes of a variable matter to what it holds. -/
theorem find?_after_filter {keep : EnvironmentChange → Bool}
    (hkeep : ∀ change, change.name = name → keep change = true) {env' : Environment}
    (henv : env.values.find? name = env'.values.find? name) (changes : List EnvironmentChange) :
    (env.after (changes.filter keep)).values.find? name =
      (env'.after changes).values.find? name := by
  induction changes generalizing env env' with
  | nil => exact henv
  | cons change changes ih =>
      by_cases hchange : keep change = true
      · rw [List.filter_cons_of_pos hchange]
        apply ih
        rw [find?_change, find?_change, henv]
      · rw [List.filter_cons_of_neg hchange]
        apply ih
        rw [find?_change, if_neg (mt (hkeep change) hchange), henv]

/-! ## Reading a variable -/

theorem isName_iff : isName name = true ↔ name ≠ "" ∧ '=' ∉ name.toList ∧ '\x00' ∉ name.toList := by
  have hall : (name.toList.all fun c => c ≠ '=' && c ≠ '\x00') = true ↔
      '=' ∉ name.toList ∧ '\x00' ∉ name.toList := by
    simp only [List.all_eq_true, Bool.and_eq_true, decide_eq_true_eq, forall_and,
      List.forall_mem_ne']
  rw [isName, Bool.and_eq_true, hall, Bool.not_eq_true', String.isEmpty_eq_false_iff]

theorem read?_eq_some_iff {text : String} :
    env.read? name = some text ↔
      (name ≠ "" ∧ '=' ∉ name.toList ∧ '\x00' ∉ name.toList) ∧
        env.values.find? name = some text.toByteArray := by
  rw [read?, Option.ite_none_right_eq_some, isName_iff, Option.bind_eq_some_iff]
  simp only [Text.fromUTF8?_eq_some_iff, exists_eq_right]

/-- A variable is read as the text that it is usable with. -/
theorem read?_after_iff {changes : List EnvironmentChange} {text : String} :
    (env.after changes).read? name = some text ↔ env.Usable changes name text := by
  rw [read?_eq_some_iff, ← holds_iff]
  constructor
  · rintro ⟨⟨hempty, hequals, hnul⟩, hholds⟩
    exact ⟨hempty, hequals, hnul, hholds⟩
  · rintro ⟨hempty, hequals, hnul, hholds⟩
    exact ⟨⟨hempty, hequals, hnul⟩, hholds⟩

theorem read?_after_eq_none_iff {changes : List EnvironmentChange} :
    (env.after changes).read? name = none ↔ ∀ text, ¬env.Usable changes name text := by
  simp only [Option.eq_none_iff_forall_ne_some, ne_eq, read?_after_iff]

theorem read?_congr {env' : Environment} (h : env.values.find? name = env'.values.find? name) :
    env.read? name = env'.read? name := by
  rw [read?, read?, h]

end Environment

end MessageExchange
