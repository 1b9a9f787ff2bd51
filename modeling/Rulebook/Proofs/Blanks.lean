import Rulebook.Proofs.Numerals
import Rulebook.Text.Blank

/-!
# Blanks around texts

A text is trimmed at both ends, and what is left has no blank at either of them. It is the
only such text that the given one is with blanks in front and behind: so texts that are
trimmed to the same differ in the blanks around them and in nothing else.
-/

namespace Rulebook.Text

variable {cs ds front back : List Char}

/-- **Whether a text has no blanks around it.** -/
structure IsTrimmed (cs : List Char) : Prop where
  head : ∀ c ∈ cs.head?, isBlank c = false
  last : ∀ c ∈ cs.getLast?, isBlank c = false

/-- What stands at the end of a trimmed text has no blanks behind it. -/
theorem IsTrimmed.of_append (h : IsTrimmed (cs ++ ds)) (hhead : ∀ d ∈ ds.head?, isBlank d = false) :
    IsTrimmed ds := by
  refine ⟨hhead, fun d hd => h.last d ?_⟩
  rw [List.getLast?_append, Option.mem_def.1 hd]
  rfl

theorem head_trimStart (cs : List Char) : ∀ c ∈ (trimStart cs).head?, isBlank c = false :=
  head_dropWhile isBlank cs

/-- **Blanks around a trimmed text** are taken away. -/
theorem trimChars_append (h : IsTrimmed cs) (hfront : ∀ b ∈ front, isBlank b = true)
    (hback : ∀ b ∈ back, isBlank b = true) : trimChars (front ++ (cs ++ back)) = cs := by
  obtain rfl | hne := eq_or_ne cs []
  · have hstart : trimStart (front ++ ([] ++ back)) = [] :=
      List.dropWhile_eq_nil_iff.2 (List.forall_mem_append.2 ⟨hfront, hback⟩)
    rw [trimChars, hstart]
    rfl
  · obtain ⟨c, cs, rfl⟩ := List.exists_cons_of_ne_nil hne
    have hhead : ∀ d ∈ (c :: cs ++ back).head?, isBlank d = false := h.head
    have hstart : trimStart (front ++ (c :: cs ++ back)) = c :: cs ++ back :=
      (span_append hfront hhead).2
    have hend : trimStart (back.reverse ++ (c :: cs).reverse) = (c :: cs).reverse := by
      refine (span_append (fun b hb => hback b (List.mem_reverse.1 hb)) fun d hd => h.last d ?_).2
      rwa [List.head?_reverse] at hd
    rw [trimChars, hstart, trimEnd, List.reverse_append, hend, List.reverse_reverse]

/-- Only blanks are taken from the end. -/
theorem exists_blanks_trimStart (cs : List Char) : ∃ back, trimStart cs = trimChars cs ++ back ∧
    ∀ b ∈ back, isBlank b = true := by
  refine ⟨((trimStart cs).reverse.takeWhile isBlank).reverse, ?_,
    fun b hb => List.mem_takeWhile_imp (List.mem_reverse.1 hb)⟩
  rw [trimChars, trimEnd, ← List.reverse_append]
  exact ((congrArg List.reverse List.takeWhile_append_dropWhile).trans
    (List.reverse_reverse _)).symm

/-- A text is what is left when the blanks around it are taken away, with blanks
in front and behind. -/
theorem exists_blanks_trimChars (cs : List Char) : ∃ front back,
    cs = front ++ (trimChars cs ++ back) ∧ (∀ b ∈ front, isBlank b = true) ∧
      ∀ b ∈ back, isBlank b = true := by
  obtain ⟨back, hstart, hback⟩ := exists_blanks_trimStart cs
  refine ⟨cs.takeWhile isBlank, back, ?_, fun b hb => List.mem_takeWhile_imp hb, hback⟩
  rw [← hstart]
  exact List.takeWhile_append_dropWhile.symm

/-- **What is left has no blanks around it.** -/
theorem isTrimmed_trimChars (cs : List Char) : IsTrimmed (trimChars cs) := by
  constructor
  · intro c hc
    obtain ⟨back, hstart, -⟩ := exists_blanks_trimStart cs
    refine head_trimStart cs c ?_
    rw [hstart, List.head?_append, Option.mem_def.1 hc]
    rfl
  · intro c hc
    rw [trimChars, trimEnd, List.getLast?_reverse] at hc
    exact head_trimStart _ c hc

/-- **Which text is left**: the trimmed one that the given one is with blanks around it. -/
theorem trimChars_eq_iff : trimChars cs = ds ↔ IsTrimmed ds ∧ ∃ front back,
    cs = front ++ (ds ++ back) ∧ (∀ b ∈ front, isBlank b = true) ∧
      ∀ b ∈ back, isBlank b = true := by
  constructor
  · rintro rfl
    exact ⟨isTrimmed_trimChars cs, exists_blanks_trimChars cs⟩
  · rintro ⟨h, front, back, rfl, hfront, hback⟩
    exact trimChars_append h hfront hback

theorem trimChars_of_isTrimmed (h : IsTrimmed cs) : trimChars cs = cs :=
  trimChars_eq_iff.2 ⟨h, [], [], (List.append_nil cs).symm, nofun, nofun⟩

theorem mem_of_mem_trimChars {c : Char} (h : c ∈ trimChars cs) : c ∈ cs := by
  obtain ⟨front, back, hcs, -, -⟩ := exists_blanks_trimChars cs
  rw [hcs]
  exact List.mem_append_right _ (List.mem_append_left _ h)

/-- A blank behind a trimmed text is taken away. -/
theorem trimChars_concat {b : Char} (h : trimChars cs = cs) (hb : isBlank b = true) :
    trimChars (cs ++ [b]) = cs :=
  trimChars_eq_iff.2
    ⟨h ▸ isTrimmed_trimChars cs, [], [b], rfl, nofun, List.forall_mem_singleton.2 hb⟩

end Rulebook.Text
