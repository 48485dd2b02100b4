import MessageExchange.Proofs.Text.Words

/-!
# White space around a text

`Framed core text` says that a text is `core` with white space around it, where
`core` itself neither starts nor ends with white space.  A text is framed around
exactly one core, and `trim` finds it (`framed_iff`).
-/

namespace MessageExchange.Text

/-- A text that neither starts nor ends with white space. -/
def Tight (text : List Char) : Prop :=
  (∀ c ∈ text.head?, isWhiteSpace c = false) ∧ ∀ c ∈ text.getLast?, isWhiteSpace c = false

/-- A core, and the text that it is with white space around it. -/
inductive Framed : List Char → List Char → Prop where
  | around {before core after : List Char} :
      Blank before → Tight core → Blank after → Framed core (before ++ core ++ after)

/-- Around the core there is nothing but white space. -/
theorem Framed.mem_core {core text : List Char} (h : Framed core text) {c : Char} (hc : c ∈ text)
    (hwhite : isWhiteSpace c = false) : c ∈ core := by
  obtain @⟨before, core, after, hbefore, -, hafter⟩ := h
  have hother {gap : List Char} (hgap : Blank gap) : c ∉ gap := fun hmem =>
    Bool.false_ne_true (hwhite.symm.trans (hgap c hmem))
  rcases List.mem_append.1 hc with hc | hc
  · exact (List.mem_append.1 hc).resolve_left (hother hbefore)
  · exact absurd hc (hother hafter)

/-- A text that starts and ends with characters other than white space. -/
theorem tight_append {front back : List Char} (hfront : Solid front) (hne : front ≠ [])
    (hback : Solid back) (hne' : back ≠ []) (middle : List Char) :
    Tight (front ++ middle ++ back) := by
  obtain ⟨c, rest, rfl⟩ := List.exists_cons_of_ne_nil hne
  constructor
  · intro d hd
    rw [← Option.some.inj hd]
    exact hfront c List.mem_cons_self
  · intro d hd
    rw [List.getLast?_append, List.getLast?_eq_some_getLast hne', Option.some_or] at hd
    rw [← Option.some.inj hd]
    exact hback _ (List.getLast_mem hne')

theorem Solid.tight {text : List Char} (h : Solid text) : Tight text :=
  ⟨fun c hc => h c (List.mem_of_mem_head? hc), fun c hc => h c (List.mem_of_getLast? hc)⟩

/-! ## Trimming one end -/

theorem Blank.reverse {text : List Char} (h : Blank text) : Blank text.reverse := fun c hc =>
  h c (List.mem_reverse.1 hc)

theorem trimStart_blank {text : List Char} (h : Blank text) : trimStart text = [] := by
  have htrim := trimStart_blank_append h []
  rwa [List.append_nil] at htrim

theorem trimStart_eq_self {text : List Char} (h : ∀ c ∈ text.head?, isWhiteSpace c = false) :
    trimStart text = text := by
  cases text with
  | nil => rfl
  | cons c rest => exact trimStart_cons (h c rfl) rest

theorem trimEnd_eq_self {text : List Char} (h : ∀ c ∈ text.getLast?, isWhiteSpace c = false) :
    trimEnd text = text := by
  have hreverse : trimStart text.reverse = text.reverse :=
    trimStart_eq_self fun c hc => h c (List.head?_reverse ▸ hc)
  rw [trimEnd_eq_reverse, hreverse, List.reverse_reverse]

theorem trimEnd_append_blank {gap : List Char} (h : Blank gap) (text : List Char) :
    trimEnd (text ++ gap) = trimEnd text := by
  rw [trimEnd_eq_reverse, List.reverse_append, trimStart_blank_append h.reverse,
    ← trimEnd_eq_reverse]

theorem exists_trimEnd_append_blank (text : List Char) :
    ∃ gap, Blank gap ∧ text = trimEnd text ++ gap := by
  obtain ⟨gap, hgap, htext⟩ := exists_blank_append_trimStart text.reverse
  refine ⟨gap.reverse, hgap.reverse, ?_⟩
  rw [trimEnd_eq_reverse, ← List.reverse_append, ← htext, List.reverse_reverse]

theorem head?_trimStart {text : List Char} :
    ∀ c ∈ (trimStart text).head?, isWhiteSpace c = false := by
  intro c hc
  obtain ⟨rest, hrest⟩ := List.head?_eq_some_iff.1 hc
  exact head_trimStart hrest

theorem getLast?_trimEnd {text : List Char} :
    ∀ c ∈ (trimEnd text).getLast?, isWhiteSpace c = false := by
  intro c hc
  rw [trimEnd_eq_reverse, List.getLast?_reverse] at hc
  exact head?_trimStart c hc

/-! ## Trimming both ends -/

theorem trim_of_framed {core text : List Char} (h : Framed core text) : trim text = core := by
  obtain @⟨before, core, after, hbefore, hcore, hafter⟩ := h
  rw [trim, List.append_assoc, trimStart_blank_append hbefore]
  cases core with
  | nil => rw [List.nil_append, trimStart_blank hafter, trimEnd_nil]
  | cons c rest =>
      have hc : isWhiteSpace c = false := hcore.1 c rfl
      rw [List.cons_append, trimStart_cons hc, ← List.cons_append, trimEnd_append_blank hafter,
        trimEnd_eq_self hcore.2]

theorem trim_eq_self {text : List Char} (h : Tight text) : trim text = text := by
  have hframed : Framed text ([] ++ text ++ []) := .around .nil h .nil
  rw [List.nil_append, List.append_nil] at hframed
  exact trim_of_framed hframed

theorem tight_trim (text : List Char) : Tight (trim text) := by
  obtain ⟨gap, _, hstart⟩ := exists_trimEnd_append_blank (trimStart text)
  constructor
  · -- Whatever trimming leaves starts as `trimStart text` does.
    intro c hc
    have hhead : (trim text ++ gap).head? = some c := by
      rw [List.head?_append, Option.mem_def.1 hc, Option.some_or]
    rw [trim, ← hstart] at hhead
    exact head?_trimStart c hhead
  · exact getLast?_trimEnd

theorem framed_trim (text : List Char) : Framed (trim text) text := by
  obtain ⟨before, hbefore, htext⟩ := exists_blank_append_trimStart text
  obtain ⟨after, hafter, hstart⟩ := exists_trimEnd_append_blank (trimStart text)
  have hframed := Framed.around hbefore (tight_trim text) hafter
  rwa [List.append_assoc, trim, ← hstart, ← htext] at hframed

/-- What trimming leaves is the only core that a text is framed around. -/
theorem framed_iff {core text : List Char} : Framed core text ↔ trim text = core := by
  constructor
  · exact trim_of_framed
  · rintro rfl
    exact framed_trim text

end MessageExchange.Text
