import Rulebook.Proofs.CharacterSets

/-!
# Matching whatever the case

Two texts that differ only in the case of basic Latin letters can be cut at the same
places, and the pieces again differ only in case. So an expression whose characters and
sets ignore case, each by itself, matches in both or in neither: the conditions on places
ask for line ends and for characters of words, which is nothing that case has a part in.
-/

namespace Rulebook

variable {cs ds before after seg before' after' seg' : List Char} {c d : Char}

/-- **Characters that differ only in case**, one by one. -/
def SameLetters (cs ds : List Char) : Prop := cs.map Char.toLower = ds.map Char.toLower

theorem sameIgnoringCase_iff {s t : String} :
    Text.sameIgnoringCase s t = true ↔ SameLetters s.toList t.toList := by
  rw [Text.sameIgnoringCase, decide_eq_true_iff, Text.lowerBasic, Text.lowerBasic,
    String.ofList_inj]
  exact Iff.rfl

/-- What is no letter differs in case from nothing else. -/
theorem beq_eq_of_toLower_eq {e : Char} (he : e.isAlpha = false) (h : c.toLower = d.toLower) :
    (c == e) = (d == e) := by
  have himp : ∀ {c d : Char}, c.toLower = d.toLower → d = e → c = e := by
    rintro c d h rfl
    rwa [toLower_eq_toLower_iff, he, if_neg Bool.false_ne_true] at h
  rw [Bool.eq_iff_iff, beq_iff_eq, beq_iff_eq]
  exact ⟨himp h.symm, himp h⟩

namespace SameLetters

theorem symm (h : SameLetters cs ds) : SameLetters ds cs := Eq.symm h

theorem append (h : SameLetters before before') (h' : SameLetters after after') :
    SameLetters (before ++ after) (before' ++ after') := by
  rw [SameLetters, List.map_append, List.map_append, h, h']

/-- **Texts that differ only in case** are cut alike. -/
theorem of_append (h : SameLetters (before ++ after) cs) :
    ∃ before' after', cs = before' ++ after' ∧ SameLetters before before' ∧
      SameLetters after after' := by
  rw [SameLetters, List.map_append, eq_comm, List.map_eq_append_iff] at h
  obtain ⟨before', after', rfl, hbefore, hafter⟩ := h
  exact ⟨before', after', rfl, hbefore.symm, hafter.symm⟩

theorem of_singleton (h : SameLetters [c] cs) : ∃ d, cs = [d] ∧ c.toLower = d.toLower := by
  obtain ⟨d, rfl, hd⟩ := List.map_eq_singleton_iff.1 h.symm
  exact ⟨d, rfl, hd.symm⟩

theorem of_nil (h : SameLetters [] cs) : cs = [] := List.map_eq_nil_iff.1 h.symm

end SameLetters

/-! ## Conditions on places -/

theorem isWordChar_eq (h : c.toLower = d.toLower) : isWordChar c = isWordChar d :=
  CharSet.ignoresCase_wordChars h

/-- **Conditions do not look at case.** All they ask of the characters on both sides of a
place is whether there are any, whether they end lines, and whether they belong to words. -/
theorem Look.holds_eq (l : Look) (hbefore : SameLetters before before')
    (hafter : SameLetters after after') :
    l.holds ⟨before.getLast?, after⟩ = l.holds ⟨before'.getLast?, after'⟩ := by
  have hasked : ∀ {x y : Option Char}, x.map Char.toLower = y.map Char.toLower →
      x.isNone = y.isNone ∧ (x == some '\n') = (y == some '\n') ∧
        (x == some '\r') = (y == some '\r') ∧ x.any isWordChar = y.any isWordChar := by
    rintro (_ | c) (_ | d) h
    · exact ⟨rfl, rfl, rfl, rfl⟩
    · cases h
    · cases h
    · have hcd : c.toLower = d.toLower := Option.some.inj h
      exact ⟨rfl, beq_eq_of_toLower_eq (by decide) hcd, beq_eq_of_toLower_eq (by decide) hcd,
        isWordChar_eq hcd⟩
  obtain ⟨hstart, hline, hreturn, hword⟩ := hasked (show before.getLast?.map Char.toLower =
      before'.getLast?.map Char.toLower by rw [← List.getLast?_map, ← List.getLast?_map, hbefore])
  obtain ⟨-, hline', hreturn', hword'⟩ := hasked (show after.head?.map Char.toLower =
      after'.head?.map Char.toLower by rw [← List.head?_map, ← List.head?_map, hafter])
  have hend : after.isEmpty = after'.isEmpty := by
    rw [← List.isEmpty_map (f := Char.toLower), hafter, List.isEmpty_map]
  cases l <;> simp only [holds, bne, Place.afterWord, Place.beforeWord, Place.next, hstart, hline,
    hreturn, hword, hline', hreturn', hword', hend]

/-! ## Segments -/

namespace Regex

/-- **Segments that ignore case**: what is one stays one in whatever case it and what is
around it are written. -/
def Segments.IgnoresCase (P : Segments) : Prop :=
  ∀ ⦃before before' seg seg' after after' : List Char⦄, SameLetters before before' →
    SameLetters seg seg' → SameLetters after after' → P before seg after → P before' seg' after'

namespace Segments.IgnoresCase

variable {P Q : Segments}

theorem empty : Segments.IgnoresCase fun _ seg _ => seg = [] := by
  rintro before before' _ seg' after after' - hseg - rfl
  exact hseg.of_nil

theorem andThen (hP : P.IgnoresCase) (hQ : Q.IgnoresCase) : (P.andThen Q).IgnoresCase := by
  rintro before before' _ seg' after after' hbefore hseg hafter ⟨s, t, rfl, hs, ht⟩
  obtain ⟨s', t', rfl, hss, htt⟩ := hseg.of_append
  exact ⟨s', t', rfl, hP hbefore hss (htt.append hafter) hs, hQ (hbefore.append hss) htt hafter ht⟩

theorem times (hP : P.IgnoresCase) (n : Nat) : (P.times n).IgnoresCase := by
  induction n with
  | zero => exact empty
  | succ n ih => exact hP.andThen ih

end Segments.IgnoresCase

/-! ## Expressions -/

/-- **An expression ignores case** if each of its characters and sets does. -/
inductive IgnoresCase : Regex → Prop
  | char {c : Char} (h : c.isAlpha = false) : IgnoresCase (char c)
  | chars {s : CharSet} (h : s.IgnoresCase) : IgnoresCase (chars s)
  | look (l : Look) : IgnoresCase (look l)
  | sequence {rs : List Regex} (h : ∀ r ∈ rs, IgnoresCase r) : IgnoresCase (sequence rs)
  | anyOf {rs : List Regex} (h : ∀ r ∈ rs, IgnoresCase r) : IgnoresCase (anyOf rs)
  | group (g : Group) {r : Regex} (h : IgnoresCase r) : IgnoresCase (group g r)
  | repetition (least : Nat) (most : Option Nat) {r : Regex} (h : IgnoresCase r) :
    IgnoresCase (repetition least most r)

namespace IgnoresCase

variable {r : Regex} {rs : List Regex}

theorem matchesInTurn (h : ∀ r ∈ rs, r.Matches.IgnoresCase) :
    (MatchesInTurn rs).IgnoresCase := by
  induction rs with
  | nil => exact .empty
  | cons r rs ih =>
    obtain ⟨hr, hrs⟩ := List.forall_mem_cons.1 h
    exact hr.andThen (ih hrs)

theorem matchesAny (h : ∀ r ∈ rs, r.Matches.IgnoresCase) : (MatchesAny rs).IgnoresCase := by
  induction rs with
  | nil => exact fun _ _ _ _ _ _ _ _ _ hmatches => hmatches
  | cons r rs ih =>
    obtain ⟨hr, hrs⟩ := List.forall_mem_cons.1 h
    intro before before' seg seg' after after' hbefore hseg hafter
    exact Or.imp (hr hbefore hseg hafter) (ih hrs hbefore hseg hafter)

/-- **What an expression that ignores case matches**, it matches in any case. -/
theorem segments (h : r.IgnoresCase) : r.Matches.IgnoresCase := by
  induction h with
  | @char c hc =>
    rintro before before' _ seg' after after' - hseg - rfl
    obtain ⟨d, rfl, hd⟩ := hseg.of_singleton
    have hsame := beq_eq_of_toLower_eq hc hd
    rw [beq_self_eq_true, eq_comm, beq_iff_eq] at hsame
    rw [hsame]
    exact rfl
  | chars hs =>
    rintro before before' _ seg' after after' - hseg - ⟨c, rfl, hc⟩
    obtain ⟨d, rfl, hd⟩ := hseg.of_singleton
    exact ⟨d, rfl, hs hd ▸ hc⟩
  | look l =>
    rintro before before' _ seg' after after' hbefore hseg hafter ⟨rfl, hl⟩
    exact ⟨hseg.of_nil, l.holds_eq hbefore hafter ▸ hl⟩
  | sequence _ ih => exact matchesInTurn ih
  | anyOf _ ih => exact matchesAny ih
  | group g _ ih => exact ih
  | repetition least most _ ih =>
    rintro before before' seg seg' after after' hbefore hseg hafter ⟨n, hleast, hmost, htimes⟩
    exact ⟨n, hleast, hmost, ih.times n hbefore hseg hafter htimes⟩

/-- **An expression that ignores case** finds a match in both of two texts that differ only
in case, or in neither. -/
theorem isMatch_eq (h : r.IgnoresCase) {s t : String} (hst : Text.sameIgnoringCase s t = true) :
    r.isMatch s = r.isMatch t := by
  have himp : ∀ {s t : String}, SameLetters s.toList t.toList → r.isMatch s = true →
      r.isMatch t = true := by
    intro s t hst hs
    obtain ⟨before, seg, after, htext, hmatches⟩ := isMatch_iff.1 hs
    rw [htext] at hst
    obtain ⟨_, after', ht, hfront, hafter⟩ := hst.of_append
    obtain ⟨before', seg', rfl, hbefore, hseg⟩ := hfront.of_append
    exact isMatch_iff.2 ⟨before', seg', after', ht, h.segments hbefore hseg hafter hmatches⟩
  have hletters := sameIgnoringCase_iff.1 hst
  exact Bool.eq_iff_iff.2 ⟨himp hletters, himp hletters.symm⟩

end IgnoresCase

end Regex

end Rulebook
