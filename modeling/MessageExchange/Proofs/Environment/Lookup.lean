import MessageExchange.Proofs.Environment.Changes
import MessageExchange.Proofs.Text.Case

/-!
# Names of variables

A name stands for two variables: its upper case and, for want of that one, its upper
case with underscores for the dashes (`lookup?_eq`).  They are the same variable if
the upper case has no dash.  What the name finds after changes follows from what the
two hold (`lookup_after_changes`).

Names share their answer if they share their two variables, as they do if one is the
upper case of the other.  If no variable with a dash is usable it is enough that
they share the second one.
-/

namespace MessageExchange.Environment

/-! ## Dashes -/

/-- A name in which some dashes of another name became underscores, and some did not. -/
structure PartlyUndashed (name other : String) : Prop where
  replaced : List.Forall₂ (fun c d => d = c ∨ c = '-' ∧ d = '_') name.toList other.toList
  some_replaced : other ≠ name
  some_kept : '-' ∈ other.toList

theorem toList_undashed (name : String) :
    (undashed name).toList = name.toList.map fun c => if c = '-' then '_' else c :=
  String.toList_ofList

theorem dash_notMem_undashed (name : String) : '-' ∉ (undashed name).toList := by
  rw [toList_undashed, List.mem_map]
  rintro ⟨c, -, hc⟩
  split at hc
  · exact absurd hc (by decide)
  · contradiction

theorem undashed_eq_self {name : String} (h : '-' ∉ name.toList) : undashed name = name := by
  rw [← String.toList_inj, toList_undashed]
  have hkept : ∀ c ∈ name.toList, (if c = '-' then '_' else c) = c :=
    fun c hc => if_neg (ne_of_mem_of_not_mem hc h)
  rw [List.map_congr_left hkept, List.map_id']

theorem PartlyUndashed.ne_undashed {name other : String} (h : PartlyUndashed name other) :
    other ≠ undashed name := by
  rintro rfl
  exact dash_notMem_undashed name h.some_kept

/-! ## The two variables of a name -/

/-- Is a change of one of the two variables that a name stands for? -/
def concerns (name : String) (change : EnvironmentChange) : Bool :=
  change.name = Text.toUpper name ∨ change.name = undashed (Text.toUpper name)

theorem lookup?_eq (env : Environment) (name : String) :
    env.lookup? name =
      (env.read? (Text.toUpper name)).or (env.read? (undashed (Text.toUpper name))) := by
  rw [lookup?]
  split
  · next hsame => rw [hsame, Option.or_none, Option.or_self]
  · rfl

/-- The two variables of a name decide what it finds. -/
theorem lookup?_congr {env env' : Environment} {name : String}
    (hexact : env.values.find? (Text.toUpper name) = env'.values.find? (Text.toUpper name))
    (hplain : env.values.find? (undashed (Text.toUpper name)) =
      env'.values.find? (undashed (Text.toUpper name))) :
    env.lookup? name = env'.lookup? name := by
  rw [lookup?_eq, lookup?_eq, read?_congr hexact, read?_congr hplain]

/-- Changes that do not concern a name can be left out. -/
theorem lookup?_after_filter (env : Environment) (changes : List EnvironmentChange)
    (name : String) :
    (env.after (changes.filter (concerns name))).lookup? name =
      (env.after changes).lookup? name := by
  apply lookup?_congr
  · exact find?_after_filter (fun _ h => decide_eq_true (.inl h)) rfl changes
  · exact find?_after_filter (fun _ h => decide_eq_true (.inr h)) rfl changes

theorem lookup?_toUpper (env : Environment) (name : String) :
    env.lookup? (Text.toUpper name) = env.lookup? name := by
  rw [lookup?_eq, lookup?_eq, Text.toUpper_toUpper]

/-- A name finds its second variable if its first one has a dash and cannot be read, or no dash. -/
theorem lookup?_eq_read?_undashed {env : Environment} {name : String}
    (h : '-' ∈ (Text.toUpper name).toList → env.read? (Text.toUpper name) = none) :
    env.lookup? name = env.read? (undashed (Text.toUpper name)) := by
  rw [lookup?_eq]
  by_cases hdash : '-' ∈ (Text.toUpper name).toList
  · rw [h hdash, Option.none_or]
  · rw [undashed_eq_self hdash, Option.or_self]

/-! ## Lookups after changes -/

variable {env : Environment} {changes : List EnvironmentChange} {name : String}

theorem lookup?_after_eq_some_iff {text : String} :
    (env.after changes).lookup? name = some text ↔
      env.Usable changes (Text.toUpper name) text ∨
        (∀ other, ¬env.Usable changes (Text.toUpper name) other) ∧
          env.Usable changes (undashed (Text.toUpper name)) text := by
  rw [lookup?_eq, Option.or_eq_some_iff, read?_after_iff, read?_after_eq_none_iff, read?_after_iff]

/-- Without usable variables that have a dash, names that differ in dashes for underscores find the
same variable. -/
theorem lookup?_after_of_undashed_eq
    (husable : ∀ var text, env.Usable changes var text → '-' ∉ var.toList) {other : String}
    (h : undashed (Text.toUpper other) = undashed (Text.toUpper name)) :
    (env.after changes).lookup? other = (env.after changes).lookup? name := by
  have hread (n : String) (hdash : '-' ∈ (Text.toUpper n).toList) :
      (env.after changes).read? (Text.toUpper n) = none :=
    read?_after_eq_none_iff.2 fun text hn => husable _ text hn hdash
  rw [lookup?_eq_read?_undashed (hread other), lookup?_eq_read?_undashed (hread name), h]

/-- A name finds what its upper case is usable with, else what its upper case with underscores for
the dashes is usable with.  Only changes of these two variables matter to it.  Names in any case of
ASCII letters find the same as it, and so does its upper case.  Without usable variables that have a
dash, so do the names that have the same upper case with underscores for the dashes.  A variable
with underscores for some of the dashes only is never read. -/
theorem lookup_after_changes (env : Environment) (changes : List EnvironmentChange)
    (name : String) :
    (∀ text, (env.after changes).lookup? name = some text ↔
      env.Usable changes (Text.toUpper name) text ∨
        (∀ other, ¬env.Usable changes (Text.toUpper name) other) ∧
          env.Usable changes (undashed (Text.toUpper name)) text) ∧
    (∀ changes', changes'.filter (concerns name) = changes.filter (concerns name) →
      (env.after changes').lookup? name = (env.after changes).lookup? name) ∧
    (∀ other : String, other.toList.map Char.toUpper = name.toList.map Char.toUpper →
      (env.after changes).lookup? other = (env.after changes).lookup? name) ∧
    (env.after changes).lookup? (Text.toUpper name) = (env.after changes).lookup? name ∧
    ((∀ var text, env.Usable changes var text → '-' ∉ var.toList) →
      ∀ other, undashed (Text.toUpper other) = undashed (Text.toUpper name) →
        (env.after changes).lookup? other = (env.after changes).lookup? name) ∧
    ∀ before change after, changes = before ++ change :: after →
      PartlyUndashed (Text.toUpper name) change.name →
        (env.after (before ++ after)).lookup? name = (env.after changes).lookup? name := by
  have hframe (changes' : List EnvironmentChange)
      (h : changes'.filter (concerns name) = changes.filter (concerns name)) :
      (env.after changes').lookup? name = (env.after changes).lookup? name := by
    rw [← lookup?_after_filter, h, lookup?_after_filter]
  refine ⟨fun _ => lookup?_after_eq_some_iff, hframe, ?_, lookup?_toUpper _ name,
    fun husable _ => lookup?_after_of_undashed_eq husable, ?_⟩
  · intro other hcase
    rw [lookup?_eq, lookup?_eq, Text.toUpper_eq_of_ascii hcase]
  · rintro before change after rfl hpartly
    have hother : ¬concerns name change = true := by
      rw [concerns, decide_eq_true_eq]
      exact not_or.2 ⟨hpartly.some_replaced, hpartly.ne_undashed⟩
    apply hframe
    rw [List.filter_append, List.filter_append, List.filter_cons_of_neg hother]

/-- A name with two dashes finds the variable with two underscores.  One with a dash and an underscore
is not read, and nor is another one. -/
theorem lookup_after_changes_of_dashes :
    let changes := [.set "MY_VAR_X" "42".toUTF8, .unset "MY-VAR_X"]
    (empty.after changes).lookup? "my-var-x" = some "42" ∧
    (empty.after (.set "OTHER" "1".toUTF8 :: changes)).lookup? "my-var-x" = some "42" ∧
    (empty.after changes).lookup? "My-vAR-x" = some "42" ∧
    (empty.after changes).lookup? "my-var_x" = some "42" ∧
    (empty.after [.set "MY_VAR_X" "42".toUTF8]).lookup? "my-var-x" = some "42" := by
  intro changes
  have hupper : Text.toUpper "my-var-x" = "MY-VAR-X" := by decide +kernel
  have hplain : undashed "MY-VAR-X" = "MY_VAR_X" := by decide +kernel
  have hnames (var text : String) (h : empty.Usable changes var text) : var = "MY_VAR_X" := by
    rcases h.holds with ⟨-, hempty⟩ | ⟨hchanges, -⟩
    · cases hempty
    · have hmem : .set var text.toUTF8 ∈ changes :=
        hchanges ▸ List.mem_append_right _ List.mem_cons_self
      simp only [changes, List.mem_cons, EnvironmentChange.set.injEq, reduceCtorEq, or_false,
        List.not_mem_nil] at hmem
      exact hmem.1
  have husable : empty.Usable changes "MY_VAR_X" "42" :=
    ⟨by decide, by decide, by decide, .set (List.nil_append _).symm (by decide)⟩
  obtain ⟨hfinds, hframe, hcase, -, hdashes, hpartly⟩ :=
    lookup_after_changes empty changes "my-var-x"
  rw [hupper, hplain] at hfinds
  have hfound := (hfinds "42").2 (.inr ⟨fun _ h => absurd (hnames _ _ h) (by decide), husable⟩)
  refine ⟨hfound, ?_, ?_, ?_, ?_⟩
  · have hother : ¬concerns "my-var-x" (.set "OTHER" "1".toUTF8) = true := by decide +kernel
    rw [hframe _ (List.filter_cons_of_neg hother), hfound]
  · rw [hcase _ (by decide), hfound]
  · rw [hdashes (fun var text h => by rw [hnames var text h]; decide) _ (by decide +kernel), hfound]
  · rw [← hfound]
    refine hpartly [.set "MY_VAR_X" "42".toUTF8] (.unset "MY-VAR_X") [] rfl ?_
    rw [hupper]
    exact ⟨by decide, by decide, by decide⟩

end MessageExchange.Environment
