import MessageExchange.Proofs.Text.Ascii
import Mathlib.Data.List.TakeWhile

/-!
# After the last separator

`afterLast d list` is what stands after the last `d` of a list, or the whole list if
there is none.  It is the longest end of the list without a `d` (`suffix_afterLast`).

If the separator is a character of ASCII, it makes no difference whether the last one
is looked for in a text or among its bytes (`afterLast_utf8`).  So a cut after it goes
through no character.
-/

namespace MessageExchange.Text

variable {α : Type} [DecidableEq α] {d : α}

/-- What stands after the last `d` of a list. -/
def afterLast (d : α) (list : List α) : List α := (list.reverse.takeWhile fun c => c ≠ d).reverse

theorem afterLast_append (before : List α) {list : List α} (h : d ∉ list) :
    afterLast d (before ++ list) = afterLast d before ++ list := by
  have hall : ∀ c ∈ list.reverse, decide (c ≠ d) = true := by
    intro c hc
    rw [decide_eq_true_eq]
    rintro rfl
    exact h (List.mem_reverse.1 hc)
  rw [afterLast, List.reverse_append, List.takeWhile_append_of_pos hall, List.reverse_append,
    List.reverse_reverse, afterLast]

theorem afterLast_concat (before : List α) : afterLast d (before ++ [d]) = [] := by
  simp [afterLast]

theorem afterLast_of_notMem {list : List α} (h : d ∉ list) : afterLast d list = list :=
  afterLast_append [] h

theorem afterLast_append_cons (before : List α) {list : List α} (h : d ∉ list) :
    afterLast d (before ++ d :: list) = list := by
  rw [List.append_cons, afterLast_append _ h, afterLast_concat, List.nil_append]

/-- A list has no `d`, or a last one. -/
theorem eq_afterLast_or (d : α) (list : List α) :
    d ∉ afterLast d list ∧
      (list = afterLast d list ∨ ∃ before, list = before ++ d :: afterLast d list) := by
  by_cases hmem : d ∈ list.reverse
  · obtain ⟨after, before, hreverse, hafter⟩ := List.eq_append_cons_of_mem hmem
    have hlist : list = before.reverse ++ d :: after.reverse := by
      rw [← List.reverse_inj, hreverse]
      simp
    have hnone : d ∉ after.reverse := fun h => hafter (List.mem_reverse.1 h)
    rw [hlist, afterLast_append_cons _ hnone]
    exact ⟨hnone, .inr ⟨_, rfl⟩⟩
  · rw [List.mem_reverse] at hmem
    rw [afterLast_of_notMem hmem]
    exact ⟨hmem, .inl rfl⟩

theorem afterLast_suffix (d : α) (list : List α) : afterLast d list <:+ list := by
  rcases (eq_afterLast_or d list).2 with hwhole | ⟨before, hlist⟩
  · exact hwhole ▸ List.suffix_refl _
  · refine ⟨before ++ [d], ?_⟩
    rw [List.append_assoc, List.singleton_append, ← hlist]

/-- No end of a list without a `d` is longer. -/
theorem suffix_afterLast {list part : List α} (h : part <:+ list) (hpart : d ∉ part) :
    part <:+ afterLast d list := by
  obtain ⟨before, rfl⟩ := h
  exact ⟨afterLast d before, (afterLast_append before hpart).symm⟩

/-- The last byte of a character of ASCII is that of the last such character. -/
theorem afterLast_utf8 {c : Char} {b : UInt8} (hascii : c.toNat < 0x80) (hb : b.toNat = c.toNat)
    (chars : List Char) : afterLast b (utf8 chars) = utf8 (afterLast c chars) := by
  obtain ⟨hnone, hchars⟩ := eq_afterLast_or c chars
  have hbytes : b ∉ utf8 (afterLast c chars) := fun h => hnone ((mem_utf8_iff hascii hb).1 h)
  rcases hchars with hwhole | ⟨before, hlast⟩
  · rw [← hwhole] at hbytes ⊢
    exact afterLast_of_notMem hbytes
  · have happend : utf8 chars = utf8 before ++ b :: utf8 (afterLast c chars) := by
      conv_lhs => rw [hlast]
      rw [utf8_append, utf8_cons, utf8EncodeChar_of_ascii hascii hb, List.singleton_append]
    rw [happend]
    exact afterLast_append_cons _ hbytes

end MessageExchange.Text
