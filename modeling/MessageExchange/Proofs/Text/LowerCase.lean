import MessageExchange.Proofs.Text.Case
import MessageExchange.Proofs.Text.Words

/-!
# Lower case of lower case

The lower case of a text holds no capital sigma, and no other character that the
mapping moves, since its table is settled (`settled_lower`).  So it is its own lower
case (`toLower_toLower`).

Letters of ASCII are cased in both cases and case-ignorable in neither.  So a change
of their case does not move the end of a word, where a capital sigma becomes a final
one, and the lower case stays as it is (`toLower_eq_of_ascii`).

White space and the equals sign are their own lower case and that of nothing else.  So
a text holds the same of them as its lower case (`mem_toLower_iff`).

The small letters of ASCII but `i` and `k` are the lower case of themselves and of their
capitals only.  So only texts of ASCII have a lower case of such letters
(`toLower_eq_iff_of_plain`).
-/

namespace MessageExchange.Text

/-! ## Texts in lower case -/

theorem settled_lower : settled lowerRuns lowerExpansions = true := by decide +kernel

/-- The mapping leaves a character as it is, wherever it stands. -/
def IsLower (c : Char) : Prop := c ≠ 'Σ' ∧ lowerChar c = [c]

theorem isLower_of_mem_lowerChar {c d : Char} (hd : d ∈ lowerChar c) : IsLower d := by
  have hself : lowerChar d = [d] := mapChar_of_mem_mapChar settled_lower hd
  refine ⟨?_, hself⟩
  rintro rfl
  exact absurd hself (by decide +kernel)

theorem isLower_lowerSigma (before after : List Char) : IsLower (lowerSigma before after) := by
  have hsigmas : (lowerChar 'ς' = ['ς'] ∧ lowerChar 'σ' = ['σ']) := by decide +kernel
  rw [lowerSigma]
  split
  · exact ⟨by decide, hsigmas.1⟩
  · exact ⟨by decide, hsigmas.2⟩

theorem isLower_of_mem_lowerAfter {before text : List Char} {d : Char}
    (hd : d ∈ lowerAfter before text) : IsLower d := by
  induction text generalizing before with
  | nil => cases hd
  | cons c text ih =>
      rcases List.mem_append.1 hd with hd | hd
      · split at hd
        · rw [List.mem_singleton] at hd
          exact hd ▸ isLower_lowerSigma before text
        · exact isLower_of_mem_lowerChar hd
      · exact ih hd

theorem lowerAfter_eq_self {text : List Char} (h : ∀ c ∈ text, IsLower c) (before : List Char) :
    lowerAfter before text = text := by
  induction text generalizing before with
  | nil => rfl
  | cons c text ih =>
      obtain ⟨⟨hsigma, hself⟩, htext⟩ := List.forall_mem_cons.1 h
      rw [lowerAfter, if_neg hsigma, hself, ih htext, List.singleton_append]

/-- The lower case of a text is its own lower case. -/
theorem toLower_toLower (text : String) : toLower (toLower text) = toLower text := by
  rw [← String.toList_inj, toList_toLower, toList_toLower]
  exact lowerAfter_eq_self (fun _ => isLower_of_mem_lowerAfter) []

/-! ## Letters of ASCII -/

/-- What does not tell a capital letter of ASCII from its small one tells no character from its
ASCII lower case. -/
theorem eq_toLower_of_letters {β : Type} {f : Char → β}
    (h : ∀ i < 26, f (Char.ofNat (65 + i)).toLower = f (Char.ofNat (65 + i))) (c : Char) :
    f c.toLower = f c := by
  by_cases hc : 65 ≤ c.toNat ∧ c.toNat ≤ 90
  · have hletter := h (c.toNat - 65) (by omega)
    rwa [Nat.add_sub_cancel' hc.1, Char.ofNat_toNat] at hletter
  · have hsame : c.toLower = c := dif_neg hc
    rw [hsame]

theorem lowerChar_toLower (c : Char) : lowerChar c.toLower = lowerChar c :=
  eq_toLower_of_letters (by decide +kernel) c

theorem isCased_toLower (c : Char) : isCased c.toLower = isCased c :=
  eq_toLower_of_letters (by decide +kernel) c

theorem isCaseIgnorable_toLower (c : Char) : isCaseIgnorable c.toLower = isCaseIgnorable c :=
  eq_toLower_of_letters (by decide +kernel) c

/-- What is not a letter of ASCII is the ASCII lower case of itself only. -/
theorem toLower_eq_iff {d : Char}
    (h : ∀ i < 26, decide ((Char.ofNat (65 + i)).toLower = d) = decide (Char.ofNat (65 + i) = d))
    (c : Char) : c.toLower = d ↔ c = d := by
  simpa using eq_toLower_of_letters (f := fun c => decide (c = d)) h c

theorem toLower_eq_sigma_iff (c : Char) : c.toLower = 'Σ' ↔ c = 'Σ' :=
  toLower_eq_iff (by decide) c

theorem startsCased_cons (c : Char) (text : List Char) :
    startsCased (c :: text) = if isCaseIgnorable c then startsCased text else isCased c := by
  cases hc : isCaseIgnorable c <;> simp [startsCased, hc]

theorem startsCased_map_toLower (text : List Char) :
    startsCased (text.map Char.toLower) = startsCased text := by
  induction text with
  | nil => rfl
  | cons c text ih =>
      rw [List.map_cons, startsCased_cons, startsCased_cons, isCaseIgnorable_toLower,
        isCased_toLower, ih]

/-- The case of ASCII letters, in a text and before it, is of no account for the lower case. -/
theorem lowerAfter_map_toLower (before text : List Char) :
    lowerAfter (before.map Char.toLower) (text.map Char.toLower) = lowerAfter before text := by
  induction text generalizing before with
  | nil => rfl
  | cons c text ih =>
      have hsigma : lowerSigma (before.map Char.toLower) (text.map Char.toLower) =
          lowerSigma before text := by
        rw [lowerSigma, endsWord, startsCased_map_toLower, startsCased_map_toLower]
        rfl
      have hbefore := ih (c :: before)
      rw [List.map_cons] at hbefore
      rw [List.map_cons, lowerAfter, lowerAfter, hbefore, hsigma, lowerChar_toLower]
      simp only [toLower_eq_sigma_iff]

/-- Texts that differ in the case of ASCII letters only have one lower case. -/
theorem toLower_eq_of_ascii {s t : String}
    (h : s.toList.map Char.toLower = t.toList.map Char.toLower) : toLower s = toLower t := by
  rw [← String.toList_inj, toList_toLower, toList_toLower, ← lowerAfter_map_toLower, h,
    ← lowerAfter_map_toLower [] t.toList]

/-! ## White space and equals signs -/

/-- The code points of white space and of the equals sign, in closed ranges. -/
def separators : List (Nat × Nat) :=
  [(0x09, 0x0D), (0x20, 0x20), (0x85, 0x85), (0xA0, 0xA0), (0x1680, 0x1680), (0x2000, 0x200A),
    (0x2028, 0x2028), (0x2029, 0x2029), (0x202F, 0x202F), (0x205F, 0x205F), (0x3000, 0x3000),
    (0x3D, 0x3D)]

/-- White space or an equals sign: what the key of a declaration does not hold. -/
def Separates (c : Char) : Prop := isWhiteSpace c = true ∨ c = '='

theorem separates_iff {c : Char} :
    Separates c ↔ ∃ range ∈ separators, range.1 ≤ c.toNat ∧ c.toNat ≤ range.2 := by
  have hequals : c = '=' ↔ c.toNat = 0x3D := Char.toNat_inj.symm
  have hone (n : Nat) : (n ≤ c.toNat ∧ c.toNat ≤ n) ↔ c.toNat = n := by omega
  simp [Separates, isWhiteSpace, hequals, separators, hone, or_assoc]

/-- Does a table neither move a code point of a range nor give one? -/
def avoids (runs : List CaseRun) (expansions : List (Nat × List Nat)) (range : Nat × Nat) : Bool :=
  0 < range.1 &&
    (runs.all fun run => (run.last.blt range.1 || range.2.blt run.first) &&
      (run.lastImage.blt range.1 || range.2.blt run.target)) &&
    expansions.all fun entry => (entry.1.blt range.1 || range.2.blt entry.1) &&
      entry.2.all fun n => n.blt range.1 || range.2.blt n

theorem avoids_lower : ∀ range ∈ separators, avoids lowerRuns lowerExpansions range = true := by
  decide +kernel

section
variable {runs : List CaseRun} {expansions : List (Nat × List Nat)} {range : Nat × Nat}

/-- What `avoids` says of a run and of an expansion. -/
theorem of_avoids (h : avoids runs expansions range = true) :
    0 < range.1 ∧
      (∀ run ∈ runs, (run.last < range.1 ∨ range.2 < run.first) ∧
        (run.lastImage < range.1 ∨ range.2 < run.target)) ∧
      ∀ entry ∈ expansions, (entry.1 < range.1 ∨ range.2 < entry.1) ∧
        ∀ n ∈ entry.2, n < range.1 ∨ range.2 < n := by
  simpa [avoids, and_assoc] using h

theorem mapChar_of_avoids (h : avoids runs expansions range = true) {c : Char}
    (hc : range.1 ≤ c.toNat ∧ c.toNat ≤ range.2) : mapChar runs expansions c = [c] := by
  obtain ⟨-, hruns, hexpansions⟩ := of_avoids h
  have himage : CaseRun.image? runs c.toNat = none := by
    rw [Option.eq_none_iff_forall_ne_some]
    intro n hn
    obtain ⟨run, hmem, hcovers, -⟩ := CaseRun.exists_run_of_image? hn
    obtain ⟨hfirst, hlast, -⟩ := CaseRun.covers_iff.1 hcovers
    have hrun := (hruns run hmem).1
    omega
  have hlookup : expansions.lookup c.toNat = none := by
    rw [List.lookup_eq_none_iff]
    intro entry hmem
    have hentry := (hexpansions entry hmem).1
    rw [bne_iff_ne, ne_eq]
    omega
  rw [mapChar, himage, hlookup]

theorem toNat_ofNat_eq_or (n : Nat) : (Char.ofNat n).toNat = n ∨ (Char.ofNat n).toNat = 0 := by
  by_cases h : n.isValidChar
  · left
    rw [Char.ofNat, dif_pos h]
    rfl
  · right
    rw [Char.ofNat, dif_neg h]
    rfl

theorem eq_of_mem_mapChar_of_avoids (h : avoids runs expansions range = true) {c d : Char}
    (hd : d ∈ mapChar runs expansions c) (hrange : range.1 ≤ d.toNat ∧ d.toNat ≤ range.2) :
    d = c := by
  obtain ⟨hpos, hruns, hexpansions⟩ := of_avoids h
  have hgiven {n : Nat} (hn : n < range.1 ∨ range.2 < n) : d ≠ Char.ofNat n := by
    rintro rfl
    have := toNat_ofNat_eq_or n
    omega
  rw [mapChar] at hd
  cases himage : CaseRun.image? runs c.toNat with
  | some n =>
      rw [himage, List.mem_singleton] at hd
      obtain ⟨run, hmem, hcovers, rfl⟩ := CaseRun.exists_run_of_image? himage
      have hlast := (CaseRun.covers_iff.1 hcovers).2.1
      have hrun := (hruns run hmem).2
      rw [CaseRun.lastImage] at hrun
      exact absurd hd (hgiven (by omega))
  | none =>
      rw [himage] at hd
      cases hlookup : expansions.lookup c.toNat with
      | none =>
          rw [hlookup, List.mem_singleton] at hd
          exact hd
      | some ns =>
          rw [hlookup] at hd
          obtain ⟨n, hn, hd⟩ := List.mem_map.1 hd
          obtain ⟨before, after, rfl, -⟩ := List.lookup_eq_some_iff.1 hlookup
          have hentry := (hexpansions (c.toNat, ns) (List.mem_append_right _ List.mem_cons_self)).2
          exact absurd hd.symm (hgiven (hentry n hn))

end

/-- A separator is the lower case of itself and of nothing else. -/
theorem mem_lowerChar_iff {c d : Char} (hc : Separates c) : c ∈ lowerChar d ↔ c = d := by
  obtain ⟨range, hmem, hrange⟩ := separates_iff.1 hc
  have havoids := avoids_lower range hmem
  constructor
  · intro h
    exact eq_of_mem_mapChar_of_avoids havoids h hrange
  · rintro rfl
    rw [lowerChar, mapChar_of_avoids havoids hrange]
    exact List.mem_singleton_self c

theorem not_separates_lowerSigma (before after : List Char) :
    ¬Separates (lowerSigma before after) := by
  rw [lowerSigma, Separates]
  split <;> decide

theorem mem_lowerAfter_iff {c : Char} (hc : Separates c) {before text : List Char} :
    c ∈ lowerAfter before text ↔ c ∈ text := by
  induction text generalizing before with
  | nil => rfl
  | cons d text ih =>
      rw [lowerAfter, List.mem_append, ih, List.mem_cons]
      refine or_congr_left ?_
      split
      · next hsigma =>
        have hleft : c ≠ lowerSigma before text := fun h =>
          not_separates_lowerSigma before text (h ▸ hc)
        have hright : c ≠ d := by
          rintro rfl
          rw [hsigma, Separates] at hc
          exact absurd hc (by decide)
        simp [hleft, hright]
      · exact mem_lowerChar_iff hc

/-- A text holds the separators that its lower case holds. -/
theorem mem_toLower_iff {c : Char} (hc : Separates c) {s : String} :
    c ∈ (toLower s).toList ↔ c ∈ s.toList := by
  rw [toList_toLower]
  exact mem_lowerAfter_iff hc

/-! ## Small letters of ASCII -/

/-- The code points of the small letters that a table without the capitals of ASCII avoids.  The
letters `i` and `k` are not among them, since a dotted capital I and the Kelvin sign are mapped to
them. -/
def plainRanges : List (Nat × Nat) := [(0x61, 0x68), (0x6A, 0x6A), (0x6C, 0x7A)]

/-- Is the character a small letter of ASCII that is the lower case of itself and of its capital
only? -/
def isPlain (c : Char) : Bool := plainRanges.any fun range => range.1 ≤ c.toNat && c.toNat ≤ range.2

theorem isPlain_iff {c : Char} :
    isPlain c = true ↔ ∃ range ∈ plainRanges, range.1 ≤ c.toNat ∧ c.toNat ≤ range.2 := by
  simp [isPlain]

theorem avoids_lower_tail :
    ∀ range ∈ plainRanges, avoids lowerRuns.tail lowerExpansions range = true := by
  decide +kernel

/-- But for the capitals of ASCII, the first run of the table does not count. -/
theorem lowerChar_eq_mapChar_tail {c : Char} (hc : ¬(0x41 ≤ c.toNat ∧ c.toNat ≤ 0x5A)) :
    lowerChar c = mapChar lowerRuns.tail lowerExpansions c := by
  have hfirst (run : CaseRun) (runs : List CaseRun) (h : c.toNat < run.first) :
      CaseRun.image? (run :: runs) c.toNat = none := if_pos h
  have himage : CaseRun.image? lowerRuns c.toNat = CaseRun.image? lowerRuns.tail c.toNat := by
    by_cases hlow : c.toNat < 0x41
    · exact (hfirst _ _ hlow).trans (hfirst _ _ (Nat.lt_trans hlow (by decide))).symm
    · have hcovers : ¬(CaseRun.covers ⟨0x41, 0x5A, 1, 0x61⟩ c.toNat = true) := by
        rw [CaseRun.covers_iff]
        exact fun h => hc ⟨h.1, h.2.1⟩
      exact (if_neg hlow).trans (if_neg hcovers)
  rw [lowerChar, mapChar, himage, mapChar]

theorem lowerChar_of_capital {c : Char} (hc : 0x41 ≤ c.toNat ∧ c.toNat ≤ 0x5A) :
    lowerChar c = [c.toLower] := by
  have hletters : ∀ i < 26, lowerChar (Char.ofNat (65 + i)) = [(Char.ofNat (65 + i)).toLower] := by
    decide +kernel
  have hletter := hletters (c.toNat - 65) (by omega)
  rwa [Nat.add_sub_cancel' hc.1, Char.ofNat_toNat] at hletter

theorem not_capital_of_isPlain {c : Char} (h : isPlain c = true) :
    ¬(0x41 ≤ c.toNat ∧ c.toNat ≤ 0x5A) := by
  obtain ⟨range, hmem, hrange⟩ := isPlain_iff.1 h
  have habove : ∀ range ∈ plainRanges, 0x5A < range.1 := by decide
  have hlt := habove range hmem
  omega

theorem toLower_of_isPlain {c : Char} (h : isPlain c = true) : c.toLower = c :=
  dif_neg (not_capital_of_isPlain h)

theorem lowerChar_of_isPlain {c : Char} (h : isPlain c = true) : lowerChar c = [c] := by
  have hcapital := not_capital_of_isPlain h
  obtain ⟨range, hmem, hrange⟩ := isPlain_iff.1 h
  rw [lowerChar_eq_mapChar_tail hcapital, mapChar_of_avoids (avoids_lower_tail range hmem) hrange]

theorem isLower_of_isPlain {c : Char} (h : isPlain c = true) : IsLower c := by
  refine ⟨?_, lowerChar_of_isPlain h⟩
  rintro rfl
  exact absurd h (by decide)

/-- A character that has a plain letter in its lower case is the letter or its capital. -/
theorem lowerChar_of_plain_mem {c d : Char} (hplain : isPlain d = true) (hd : d ∈ lowerChar c) :
    lowerChar c = [c.toLower] := by
  by_cases hc : 0x41 ≤ c.toNat ∧ c.toNat ≤ 0x5A
  · exact lowerChar_of_capital hc
  · have hself := lowerChar_of_isPlain hplain
    have hsmall := toLower_of_isPlain hplain
    obtain ⟨range, hmem, hrange⟩ := isPlain_iff.1 hplain
    rw [lowerChar_eq_mapChar_tail hc] at hd
    obtain rfl := eq_of_mem_mapChar_of_avoids (avoids_lower_tail range hmem) hd hrange
    rw [hself, hsmall]

theorem lowerChar_ne_nil (c : Char) : lowerChar c ≠ [] := by
  have hexpansions : ∀ entry ∈ lowerExpansions, entry.2 ≠ [] := by decide
  rw [lowerChar, mapChar]
  cases CaseRun.image? lowerRuns c.toNat with
  | some n => exact List.cons_ne_nil _ _
  | none =>
      cases hlookup : lowerExpansions.lookup c.toNat with
      | none => exact List.cons_ne_nil _ _
      | some ns =>
          obtain ⟨before, after, hentries, -⟩ := List.lookup_eq_some_iff.1 hlookup
          have hmem : (c.toNat, ns) ∈ lowerExpansions :=
            hentries ▸ List.mem_append_right _ List.mem_cons_self
          simpa using hexpansions _ hmem

theorem not_isPlain_lowerSigma (before after : List Char) :
    ¬isPlain (lowerSigma before after) = true := by
  rw [lowerSigma]
  split <;> decide

theorem lowerAfter_of_plain {before text : List Char}
    (h : ∀ d ∈ lowerAfter before text, isPlain d = true) :
    lowerAfter before text = text.map Char.toLower := by
  induction text generalizing before with
  | nil => rfl
  | cons c text ih =>
      rw [lowerAfter] at h ⊢
      obtain ⟨hfirst, hrest⟩ := List.forall_mem_append.1 h
      rw [ih hrest, List.map_cons]
      split at hfirst
      · exact absurd (hfirst _ (List.mem_singleton_self _)) (not_isPlain_lowerSigma before text)
      · next hsigma =>
        obtain ⟨d, others, hd⟩ := List.exists_cons_of_ne_nil (lowerChar_ne_nil c)
        have hmem : d ∈ lowerChar c := hd ▸ List.mem_cons_self
        rw [if_neg hsigma, lowerChar_of_plain_mem (hfirst d hmem) hmem, List.singleton_append]

/-- A text of plain letters is the lower case of the texts of ASCII that differ from it in case, and
of no other texts. -/
theorem toLower_eq_iff_of_plain {s t : String} (ht : ∀ c ∈ t.toList, isPlain c = true) :
    toLower s = t ↔ s.toList.map Char.toLower = t.toList := by
  constructor
  · rintro rfl
    rw [toList_toLower] at ht ⊢
    exact (lowerAfter_of_plain ht).symm
  · intro h
    have hsmall : t.toList.map Char.toLower = t.toList := by
      refine (List.map_congr_left fun c hc => ?_).trans (List.map_id _)
      exact toLower_of_isPlain (ht c hc)
    have hself : toLower t = t := by
      rw [← String.toList_inj, toList_toLower]
      exact lowerAfter_eq_self (fun c hc => isLower_of_isPlain (ht c hc)) []
    rw [toLower_eq_of_ascii (h.trans hsmall.symm), hself]

end MessageExchange.Text
