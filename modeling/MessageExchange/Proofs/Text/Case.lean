import MessageExchange.Text.Case
import Mathlib.Data.List.Basic

/-!
# Upper case of upper case

A mapping of characters is *settled* if it leaves the characters that it gives
untouched.  Whether a table is settled is checked run by run (`settled`).  The
characters that a run gives lie between the image of its first member and that of
its last, so only the runs that meet this stretch count.  A run of every second code
point may cross another such run without meeting it.

The table of upper case is settled (`settled_upper`), so the upper case of a text is
its own upper case (`toUpper_toUpper`).  Letters of ASCII have the upper case of
their ASCII counterparts, so texts that differ in the case of these only have one
upper case (`toUpper_eq_of_ascii`).
-/

namespace MessageExchange.Text

/-! ## Images of runs -/

namespace CaseRun

/-- What the last code point of a run is mapped to. -/
def lastImage (run : CaseRun) : Nat := run.target + (run.last - run.first)

/-- Does no image of a run belong to another run, for a reason other than that this one starts too
late?  Two runs of every second code point miss each other if they start at an odd distance. -/
def misses (run other : CaseRun) : Bool :=
  other.last.blt run.target ||
    ((run.step.beq 2 || run.first.beq run.last) && other.step.beq 2 &&
      !(run.target % 2).beq (other.first % 2))

/-- Does no image of a run belong to a run of a table, up to the first one that starts too late? -/
def missesAll (run : CaseRun) : List CaseRun → Bool
  | [] => true
  | other :: others =>
      run.lastImage.blt other.first || run.misses other && run.missesAll others

theorem covers_iff {run : CaseRun} {n : Nat} :
    run.covers n = true ↔ run.first ≤ n ∧ n ≤ run.last ∧ (n - run.first) % run.step = 0 := by
  simp [covers, and_assoc]

theorem exists_run_of_image? {runs : List CaseRun} {n m : Nat} (h : image? runs n = some m) :
    ∃ run ∈ runs, run.covers n = true ∧ m = run.target + (n - run.first) := by
  induction runs with
  | nil => cases h
  | cons run runs ih =>
      rw [image?] at h
      split at h
      · cases h
      · split at h
        · next hcovers => exact ⟨run, List.mem_cons_self, hcovers, (Option.some.inj h).symm⟩
        · obtain ⟨other, hmem, hother⟩ := ih h
          exact ⟨other, List.mem_cons_of_mem _ hmem, hother⟩

/-- An image of a run that misses another one is not covered by it. -/
theorem not_covers_of_misses {run other : CaseRun} (h : run.misses other = true) {n : Nat}
    (hn : run.covers n = true) : other.covers (run.target + (n - run.first)) = false := by
  rw [covers_iff] at hn
  rw [Bool.eq_false_iff, ne_eq, covers_iff]
  simp only [misses, Bool.or_eq_true, Bool.and_eq_true, Nat.blt_eq, Nat.beq_eq,
    Bool.not_eq_true', Bool.eq_false_iff, ne_eq] at h
  rintro ⟨hfirst, hlast, hstep⟩
  rcases h with hlate | ⟨⟨hrun, hother⟩, hodd⟩
  · omega
  · -- Both distances are even, so the images are at an odd distance from the members.
    have heven : (n - run.first) % 2 = 0 := by
      rcases hrun with htwo | hone
      · rw [← htwo]
        exact hn.2.2
      · omega
    rw [hother] at hstep
    omega

theorem image?_eq_none_of_missesAll {run : CaseRun} {n : Nat} (hn : run.covers n = true)
    {others : List CaseRun} (h : run.missesAll others = true) :
    image? others (run.target + (n - run.first)) = none := by
  induction others with
  | nil => rfl
  | cons other others ih =>
      rw [missesAll, Bool.or_eq_true, Nat.blt_eq, Bool.and_eq_true] at h
      rw [image?]
      rcases h with hlate | ⟨hmisses, hothers⟩
      · have hlast := (covers_iff.1 hn).2.1
        rw [lastImage] at hlate
        exact if_pos (by omega)
      · rw [not_covers_of_misses hmisses hn, if_neg Bool.false_ne_true, ih hothers, ite_self]

end CaseRun

/-! ## Settled tables -/

/-- A table leaves a code point as it is. -/
def Untouched (runs : List CaseRun) (expansions : List (Nat × List Nat)) (n : Nat) : Prop :=
  CaseRun.image? runs n = none ∧ expansions.lookup n = none

/-- Does a table leave as they are zero, the images of its runs, and the members of its
expansions? -/
def settled (runs : List CaseRun) (expansions : List (Nat × List Nat)) : Bool :=
  let untouched (n : Nat) := (CaseRun.image? runs n).isNone && (expansions.lookup n).isNone
  untouched 0 && (expansions.all fun entry => entry.2.all untouched) &&
    runs.all fun run => run.missesAll runs &&
      expansions.all fun entry => entry.1.blt run.target || run.lastImage.blt entry.1

variable {runs : List CaseRun} {expansions : List (Nat × List Nat)}

theorem untouched_zero (h : settled runs expansions = true) : Untouched runs expansions 0 := by
  simp only [settled, Bool.and_eq_true, Option.isNone_iff_eq_none] at h
  exact h.1.1

theorem untouched_of_expansion (h : settled runs expansions = true) {n m : Nat} {ns : List Nat}
    (hn : expansions.lookup n = some ns) (hm : m ∈ ns) : Untouched runs expansions m := by
  simp only [settled, Bool.and_eq_true, Option.isNone_iff_eq_none, List.all_eq_true] at h
  obtain ⟨before, after, rfl, -⟩ := List.lookup_eq_some_iff.1 hn
  exact h.1.2 (n, ns) (List.mem_append_right _ List.mem_cons_self) m hm

theorem untouched_of_image (h : settled runs expansions = true) {n m : Nat}
    (hn : CaseRun.image? runs n = some m) : Untouched runs expansions m := by
  simp only [settled, Bool.and_eq_true, List.all_eq_true, Bool.or_eq_true, Nat.blt_eq] at h
  obtain ⟨run, hrun, hcovers, rfl⟩ := CaseRun.exists_run_of_image? hn
  obtain ⟨hmisses, hkeys⟩ := h.2 run hrun
  refine ⟨CaseRun.image?_eq_none_of_missesAll hcovers hmisses, List.lookup_eq_none_iff.2 ?_⟩
  intro entry hentry
  have hlast := (CaseRun.covers_iff.1 hcovers).2.1
  have hkey := hkeys entry hentry
  rw [CaseRun.lastImage] at hkey
  rw [bne_iff_ne, ne_eq]
  omega

theorem mapChar_ofNat_of_untouched (hzero : Untouched runs expansions 0) {n : Nat}
    (hn : Untouched runs expansions n) :
    mapChar runs expansions (Char.ofNat n) = [Char.ofNat n] := by
  have hchar : Untouched runs expansions (Char.ofNat n).toNat := by
    by_cases hvalid : n.isValidChar
    · rw [Char.ofNat, dif_pos hvalid]
      exact hn
    · rw [Char.ofNat, dif_neg hvalid]
      exact hzero
  rw [mapChar, hchar.1, hchar.2]

/-- A settled mapping leaves the characters that it gives as they are. -/
theorem mapChar_of_mem_mapChar (h : settled runs expansions = true) {c d : Char}
    (hd : d ∈ mapChar runs expansions c) : mapChar runs expansions d = [d] := by
  have hzero := untouched_zero h
  rw [mapChar] at hd
  cases himage : CaseRun.image? runs c.toNat with
  | some n =>
      rw [himage, List.mem_singleton] at hd
      rw [hd]
      exact mapChar_ofNat_of_untouched hzero (untouched_of_image h himage)
  | none =>
      rw [himage] at hd
      cases hlookup : expansions.lookup c.toNat with
      | some ns =>
          rw [hlookup] at hd
          obtain ⟨n, hn, rfl⟩ := List.mem_map.1 hd
          exact mapChar_ofNat_of_untouched hzero (untouched_of_expansion h hlookup hn)
      | none =>
          rw [hlookup, List.mem_singleton] at hd
          rw [hd, mapChar, himage, hlookup]

/-! ## Upper case -/

theorem settled_upper : settled upperRuns upperExpansions = true := by decide +kernel

/-- The upper case of a text is its own upper case. -/
theorem toUpper_toUpper (text : String) : toUpper (toUpper text) = toUpper text := by
  rw [← String.toList_inj, toList_toUpper, toList_toUpper, List.flatMap_assoc]
  apply List.flatMap_congr
  intro c _
  have hself : ∀ d ∈ upperChar c, upperChar d = [d] := fun d hd =>
    mapChar_of_mem_mapChar settled_upper hd
  rw [List.flatMap_congr hself, List.flatMap_singleton']

/-- A letter of ASCII has the upper case of its ASCII counterpart. -/
theorem upperChar_toUpper (c : Char) : upperChar c.toUpper = upperChar c := by
  have hletters : ∀ i < 26, upperChar (Char.ofNat (97 + i)).toUpper =
      upperChar (Char.ofNat (97 + i)) := by decide +kernel
  by_cases hc : 97 ≤ c.toNat ∧ c.toNat ≤ 122
  · have hletter := hletters (c.toNat - 97) (by omega)
    rwa [Nat.add_sub_cancel' hc.1, Char.ofNat_toNat] at hletter
  · have hsame : c.toUpper = c := dif_neg hc
    rw [hsame]

/-- Texts that differ in the case of ASCII letters only have one upper case. -/
theorem toUpper_eq_of_ascii {s t : String}
    (h : s.toList.map Char.toUpper = t.toList.map Char.toUpper) : toUpper s = toUpper t := by
  have hmap (text : List Char) :
      (text.map Char.toUpper).flatMap upperChar = text.flatMap upperChar := by
    rw [List.flatMap_map]
    exact congrArg (text.flatMap ·) (funext upperChar_toUpper)
  rw [← String.toList_inj, toList_toUpper, toList_toUpper, ← hmap, h, hmap]

end MessageExchange.Text
