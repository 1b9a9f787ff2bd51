import Mathlib.Data.Nat.Bitwise
import Mathlib.Logic.Function.Iterate
import Rulebook.Regex.Matching

/-!
# What a match is

The matcher computes with sets of places and never looks at the texts between
them. What it computes has a simple description all the same. An expression
matches certain segments of a text, which may depend on what stands before and
after them, and the matcher finds a match exactly if there is such a segment.

The description follows the constructors. A sequence cuts its segment into
pieces, one for each part, and so does a repetition, one for each round. What
the matcher adds to this are two limits: it stops trying rounds when no new
place is found, and it never tries more of them than the text has characters.
Neither loses anything, since a round that takes no character can be left out.
-/

namespace Rulebook

namespace Regex

/-- **Segments of texts**, given with what stands before and after them. -/
abbrev Segments := List Char → List Char → List Char → Prop

/-- A segment of one sort and one of another behind it. -/
def Segments.andThen (P Q : Segments) : Segments := fun before seg after =>
  ∃ s t, seg = s ++ t ∧ P before s (t ++ after) ∧ Q (before ++ s) t after

/-- So many segments of one sort, one behind the other. -/
def Segments.times (P : Segments) : Nat → Segments
  | 0 => fun _ seg _ => seg = []
  | n + 1 => P.andThen (P.times n)

mutual

/-- **The segments that an expression matches.** -/
def Matches : Regex → Segments
  | char c => fun _ seg _ => seg = [c]
  | chars s => fun _ seg _ => ∃ c, seg = [c] ∧ s.contains c = true
  | look l => fun before seg after => seg = [] ∧ l.holds ⟨before.getLast?, after⟩ = true
  | sequence rs => MatchesInTurn rs
  | anyOf rs => MatchesAny rs
  | group _ r => Matches r
  | repetition least most r => fun before seg after =>
    ∃ n, least ≤ n ∧ (∀ m ∈ most, n ≤ max least m) ∧ (Matches r).times n before seg after

/-- The segments that some expressions match one after the other. -/
def MatchesInTurn : List Regex → Segments
  | [] => fun _ seg _ => seg = []
  | r :: rs => (Matches r).andThen (MatchesInTurn rs)

/-- The segments that one of some expressions matches. -/
def MatchesAny : List Regex → Segments
  | [] => fun _ _ _ => False
  | r :: rs => fun before seg after => Matches r before seg after ∨ MatchesAny rs before seg after

end

variable {P Q R : Segments} {before seg after cs : List Char} {n : Nat}

/-! ## Rounds -/

theorem andThen_assoc : ((P.andThen Q).andThen R) before seg after ↔
    (P.andThen (Q.andThen R)) before seg after := by
  constructor
  · rintro ⟨_, t, rfl, ⟨s, u, rfl, hP, hQ⟩, hR⟩
    refine ⟨s, u ++ t, List.append_assoc .., ?_, u, t, rfl, hQ, ?_⟩
    · rwa [List.append_assoc]
    · rwa [List.append_assoc]
  · rintro ⟨s, _, rfl, hP, u, t, rfl, hQ, hR⟩
    refine ⟨s ++ u, t, (List.append_assoc ..).symm, ⟨s, u, rfl, ?_, hQ⟩, ?_⟩
    · rwa [← List.append_assoc]
    · rwa [← List.append_assoc]

theorem andThen_congr_right (h : ∀ before seg after, Q before seg after ↔ R before seg after) :
    (P.andThen Q) before seg after ↔ (P.andThen R) before seg after :=
  exists_congr fun _ => exists_congr fun _ => and_congr_right fun _ => and_congr_right fun _ =>
    h ..

theorem nil_andThen : Segments.andThen (fun _ seg _ => seg = []) P before seg after ↔
    P before seg after := by
  constructor
  · rintro ⟨_, t, rfl, rfl, hP⟩
    rwa [List.append_nil] at hP
  · intro hP
    exact ⟨[], seg, rfl, rfl, by rwa [List.append_nil]⟩

theorem times_add {m : Nat} : P.times (m + n) before seg after ↔
    ((P.times m).andThen (P.times n)) before seg after := by
  induction m generalizing before seg after with
  | zero =>
    rw [Nat.zero_add]
    exact nil_andThen.symm
  | succ m ih =>
    rw [Nat.succ_add]
    exact (andThen_congr_right (fun _ _ _ => ih)).trans andThen_assoc.symm

/-- **Rounds that take no character can be left out.** -/
theorem exists_times_le_length (h : P.times n before seg after) :
    ∃ m ≤ n, m ≤ seg.length ∧ P.times m before seg after := by
  induction n generalizing before seg with
  | zero => exact ⟨0, le_rfl, Nat.zero_le _, h⟩
  | succ n ih =>
    obtain ⟨s, t, rfl, hP, hrest⟩ := h
    obtain ⟨m, hmn, hmt, htimes⟩ := ih hrest
    cases s with
    | nil =>
      rw [List.append_nil] at htimes
      exact ⟨m, hmn.trans (Nat.le_succ n), hmt, htimes⟩
    | cons c s =>
      refine ⟨m + 1, Nat.succ_le_succ hmn, ?_, c :: s, t, rfl, hP, htimes⟩
      rw [List.length_append, List.length_cons]
      omega

end Regex

/-! ## Sets of places -/

namespace PlaceSet

variable {α : Type} {test : α → Bool} {items : List α} {ps : PlaceSet} {i : Nat}

theorem testBit_ofTest : (ofTest test items).testBit i = items[i]?.any test := by
  induction items generalizing i with
  | nil => exact Nat.zero_testBit i
  | cons a items ih =>
    show (2 * ofTest test items + (test a).toNat).testBit i = _
    cases i with
    | zero =>
      rw [Nat.testBit_zero, List.getElem?_cons_zero, Option.any_some]
      cases test a <;> simp
    | succ i =>
      have hhalf : (2 * ofTest test items + (test a).toNat) / 2 = ofTest test items := by
        cases test a
        · exact Nat.mul_div_cancel_left _ Nat.two_pos
        · exact Nat.mul_add_div Nat.two_pos ..
      rw [Nat.testBit_succ, List.getElem?_cons_succ, ← ih, hhalf]

/-- Whether all places of a set are places of a text of some length. -/
def Within (ps : PlaceSet) (length : Nat) : Prop := ∀ i, ps.testBit i = true → i ≤ length

end PlaceSet

namespace Place

theorem length_allFrom {previous : Option Char} {cs : List Char} :
    (allFrom previous cs).length = cs.length + 1 := by
  induction cs generalizing previous with
  | nil => rfl
  | cons c cs ih => exact congrArg Nat.succ ih

theorem getElem?_allFrom {previous : Option Char} {before after : List Char} :
    (allFrom previous (before ++ after))[before.length]? =
      some ⟨(previous.toList ++ before).getLast?, after⟩ := by
  induction before generalizing previous with
  | nil =>
    rw [List.append_nil]
    cases previous <;> cases after <;> rfl
  | cons c before ih =>
    have hlast : (previous.toList ++ c :: before).getLast? = (c :: before).getLast? := by
      rw [List.getLast?_append, List.getLast?_cons, Option.some_or]
    rw [hlast]
    exact ih

end Place

/-! ## Steps from places to places -/

open Regex

/-- **Whether a step goes along segments** of a text: it ends at a place exactly
if such a segment ends there and begins at a place where the step started. -/
def Follows (cs : List Char) (step : PlaceSet → PlaceSet) (P : Segments) : Prop :=
  ∀ ps : PlaceSet, ps.Within cs.length → ∀ i, (step ps).testBit i = true ↔
    ∃ before seg after, cs = before ++ seg ++ after ∧ (before ++ seg).length = i ∧
      ps.testBit before.length = true ∧ P before seg after

namespace Follows

variable {cs : List Char} {f g step : PlaceSet → PlaceSet} {P Q : Segments} {ps : PlaceSet}

theorem within (h : Follows cs f P) (hps : ps.Within cs.length) : (f ps).Within cs.length := by
  intro i hi
  obtain ⟨before, seg, after, rfl, rfl, -, -⟩ := (h ps hps i).1 hi
  exact (List.prefix_append ..).length_le

theorem congr (h : Follows cs f P)
    (hPQ : ∀ before seg after, cs = before ++ seg ++ after →
      (P before seg after ↔ Q before seg after)) : Follows cs f Q := by
  intro ps hps i
  rw [h ps hps i]
  exact exists_congr fun _ => exists_congr fun _ => exists_congr fun _ =>
    and_congr_right fun hcs => and_congr_right fun _ => and_congr_right fun _ => hPQ _ _ _ hcs

/-- A step that stays where it is. -/
theorem refl : Follows cs id fun _ seg _ => seg = [] := by
  intro ps hps i
  constructor
  · intro hi
    refine ⟨cs.take i, [], cs.drop i, ?_, ?_, ?_, rfl⟩
    · rw [List.append_nil, List.take_append_drop]
    · rw [List.append_nil, List.length_take_of_le (hps i hi)]
    · rwa [List.length_take_of_le (hps i hi)]
  · rintro ⟨before, _, after, -, rfl, hps, rfl⟩
    rwa [List.append_nil]

/-- **Two steps in a row.** -/
theorem comp (hf : Follows cs f P) (hg : Follows cs g Q) :
    Follows cs (fun ps => g (f ps)) (P.andThen Q) := by
  intro ps hps i
  rw [hg (f ps) (hf.within hps) i]
  constructor
  · rintro ⟨before, t, after, hcs, rfl, hbefore, hQ⟩
    obtain ⟨before', s, after', hcs', hlength, hps, hP⟩ := (hf ps hps before.length).1 hbefore
    -- the first segment ends where the second begins
    have hsame : (before' ++ s) ++ after' = before ++ (t ++ after) := by
      rw [← hcs', hcs, List.append_assoc]
    obtain ⟨rfl, rfl⟩ := List.append_inj hsame hlength
    refine ⟨before', s ++ t, after, ?_, ?_, hps, s, t, rfl, hP, hQ⟩
    · rw [hcs, List.append_assoc before']
    · rw [List.append_assoc before']
  · rintro ⟨before, _, after, hcs, rfl, hbefore, s, t, rfl, hP, hQ⟩
    refine ⟨before ++ s, t, after, ?_, ?_, (hf ps hps _).2 ⟨before, s, t ++ after, ?_, rfl,
      hbefore, hP⟩, hQ⟩
    · rw [hcs, List.append_assoc before s]
    · rw [List.append_assoc before s]
    · rw [hcs]
      simp only [List.append_assoc]

/-- **One of two steps.** -/
theorem or (hf : Follows cs f P) (hg : Follows cs g Q) : Follows cs (fun ps => f ps ||| g ps)
    fun before seg after => P before seg after ∨ Q before seg after := by
  intro ps hps i
  rw [Nat.testBit_or, Bool.or_eq_true, hf ps hps i, hg ps hps i]
  simp only [and_or_left, exists_or]

/-- No step. -/
theorem none : Follows cs (fun _ => 0) fun _ _ _ => False := by
  intro ps hps i
  rw [Nat.zero_testBit]
  simp only [and_false, exists_false, Bool.false_eq_true]

/-- There is no need to go on from no place. -/
theorem unless_zero (h : Follows cs f P) :
    Follows cs (fun ps => if ps = 0 then 0 else f ps) P := by
  intro ps hps i
  dsimp only
  split
  · next hzero =>
    subst hzero
    simp only [Nat.zero_testBit, Bool.false_eq_true, false_and, and_false, exists_false]
  · exact h ps hps i

/-- One character further. -/
theorem forward (test : Char → Bool) : Follows cs (fun ps => 2 * (ps &&& .ofTest test cs))
    fun _ seg _ => ∃ c, seg = [c] ∧ test c = true := by
  intro ps hps i
  cases i with
  | zero =>
    rw [Nat.testBit_zero]
    constructor
    · intro hodd
      simp at hodd
    · rintro ⟨before, _, after, -, hlength, -, c, rfl, -⟩
      simp at hlength
  | succ i =>
    rw [Nat.testBit_succ, Nat.mul_div_cancel_left _ Nat.two_pos, Nat.testBit_and,
      Bool.and_eq_true, PlaceSet.testBit_ofTest]
    constructor
    · rintro ⟨hi, htest⟩
      obtain ⟨c, hc, htest⟩ := (Option.any_eq_true ..).1 htest
      obtain ⟨hlt, rfl⟩ := List.getElem?_eq_some_iff.1 hc
      refine ⟨cs.take i, [cs[i]], cs.drop (i + 1), ?_, ?_, ?_, _, rfl, htest⟩
      · rw [List.append_assoc, List.singleton_append, ← List.drop_eq_getElem_cons hlt,
          List.take_append_drop]
      · rw [List.length_append, List.length_take_of_le hlt.le, List.length_singleton]
      · rwa [List.length_take_of_le hlt.le]
    · rintro ⟨before, _, after, rfl, hlength, hbefore, c, rfl, htest⟩
      rw [List.length_append, List.length_singleton] at hlength
      obtain rfl : before.length = i := Nat.succ.inj hlength
      refine ⟨hbefore, ?_⟩
      rw [List.append_assoc, List.getElem?_append_right le_rfl, Nat.sub_self]
      exact htest

/-- On the spot. -/
theorem stay (l : Look) : Follows cs (fun ps => ps &&& .ofTest l.holds (Place.all cs))
    fun before seg after => seg = [] ∧ l.holds ⟨before.getLast?, after⟩ = true := by
  intro ps hps i
  rw [Nat.testBit_and, Bool.and_eq_true, PlaceSet.testBit_ofTest]
  constructor
  · rintro ⟨hi, hlook⟩
    have hlength : (cs.take i).length = i := List.length_take_of_le (hps i hi)
    have hplace := @Place.getElem?_allFrom Option.none (cs.take i) (cs.drop i)
    rw [List.take_append_drop, hlength] at hplace
    rw [Place.all, hplace] at hlook
    refine ⟨cs.take i, [], cs.drop i, ?_, ?_, ?_, rfl, hlook⟩
    · rw [List.append_nil, List.take_append_drop]
    · rw [List.append_nil, hlength]
    · rwa [hlength]
  · rintro ⟨before, _, after, rfl, rfl, hbefore, rfl, hlook⟩
    rw [List.append_nil, Place.all, Place.getElem?_allFrom]
    exact ⟨hbefore, hlook⟩

/-! ## Rounds of steps -/

theorem iterate_eq (n : Nat) (ps : PlaceSet) : Walk.iterate step n ps = step^[n] ps := by
  induction n generalizing ps with
  | zero => rfl
  | succ n ih =>
    rw [Walk.iterate, Function.iterate_succ_apply]
    split
    · next hfixed => rw [hfixed, Function.iterate_fixed hfixed]
    · exact ih _

theorem iterate (h : Follows cs step P) (n : Nat) : Follows cs step^[n] (P.times n) := by
  induction n with
  | zero => exact refl
  | succ n ih => exact h.comp ih

/-- **At most so many rounds.** -/
theorem iterate_or (h : Follows cs step P) (n : Nat) : Follows cs (fun ps => ps ||| step ps)^[n]
    fun before seg after => ∃ m ≤ n, P.times m before seg after := by
  induction n with
  | zero =>
    refine refl.congr (fun before seg after _ => ?_)
    constructor
    · exact fun hseg => ⟨0, le_rfl, hseg⟩
    · rintro ⟨m, hm, htimes⟩
      obtain rfl := Nat.le_zero.1 hm
      exact htimes
  | succ n ih =>
    refine ((refl.or h).comp ih).congr (fun before seg after _ => ?_)
    constructor
    · rintro ⟨s, t, rfl, rfl | hP, m, hm, htimes⟩
      · rw [List.append_nil] at htimes
        exact ⟨m, hm.trans (Nat.le_succ n), htimes⟩
      · exact ⟨m + 1, Nat.succ_le_succ hm, s, t, rfl, hP, htimes⟩
    · rintro ⟨m, hm, htimes⟩
      cases m with
      | zero =>
        refine ⟨[], seg, rfl, .inl rfl, 0, Nat.zero_le _, ?_⟩
        exact htimes
      | succ m =>
        obtain ⟨s, t, rfl, hP, htimes⟩ := htimes
        exact ⟨s, t, rfl, .inr hP, m, Nat.le_of_succ_le_succ hm, htimes⟩

/-- **A repetition.** It need not go on for more rounds than there are
characters. -/
theorem repetition (h : Follows cs step P) (least : Nat) (most : Option Nat) :
    Follows cs
      (fun ps => Walk.iterate (fun ps => ps ||| step ps) (extraRounds least most cs.length)
        (Walk.iterate step least ps))
      fun before seg after =>
        ∃ n, least ≤ n ∧ (∀ m ∈ most, n ≤ max least m) ∧ P.times n before seg after := by
  have hrounds := (h.iterate least).comp (h.iterate_or (extraRounds least most cs.length))
  simp only [iterate_eq]
  refine hrounds.congr (fun before seg after hcs => ?_)
  constructor
  · rintro ⟨s, t, rfl, hleast, extra, hextra, htimes⟩
    refine ⟨least + extra, Nat.le_add_right .., ?_, times_add.2 ⟨s, t, rfl, hleast, htimes⟩⟩
    rintro m rfl
    have hmost : extra ≤ m - least := hextra.trans (Nat.min_le_left ..)
    omega
  · rintro ⟨n, hn, hmost, htimes⟩
    obtain ⟨extra, rfl⟩ := Nat.exists_eq_add_of_le hn
    obtain ⟨s, t, rfl, hleast, hrest⟩ := times_add.1 htimes
    obtain ⟨m, hmn, hmt, htimes⟩ := exists_times_le_length hrest
    refine ⟨s, t, rfl, hleast, m, ?_, htimes⟩
    have hlength : m ≤ cs.length := by
      rw [hcs]
      simp only [List.length_append]
      omega
    cases most with
    | none => exact hlength
    | some most =>
      have := hmost most rfl
      exact le_min (by omega) hlength

end Follows

/-! ## The matcher -/

namespace Regex

mutual

/-- **A walk goes along the segments that its expression matches.** -/
theorem follows_walk (cs : List Char) :
    ∀ r : Regex, Follows cs (r.walk cs (Place.all cs)).ends r.Matches
  | char c => by
    refine (Follows.forward (· == c)).congr (fun _ seg _ _ => ?_)
    show (∃ d, seg = [d] ∧ (d == c) = true) ↔ seg = [c]
    constructor
    · rintro ⟨d, rfl, hd⟩
      rw [beq_iff_eq.1 hd]
    · rintro rfl
      exact ⟨c, rfl, beq_iff_eq.2 rfl⟩
  | chars s => Follows.forward s.contains
  | look l => Follows.stay l
  | sequence rs => (follows_walkAll cs rs).1
  | anyOf rs => (follows_walkAll cs rs).2
  | group _ r => follows_walk cs r
  | repetition least most r => (follows_walk cs r).repetition least most

/-- So do walks one after the other, and so does one of several. -/
theorem follows_walkAll (cs : List Char) : ∀ rs : List Regex,
    Follows cs (Walk.endsInTurn (walkAll cs (Place.all cs) rs)) (MatchesInTurn rs) ∧
      Follows cs (Walk.endsOfAny (walkAll cs (Place.all cs) rs)) (MatchesAny rs)
  | [] => ⟨Follows.refl, Follows.none⟩
  | r :: rs =>
    have hr := follows_walk cs r
    have hrs := follows_walkAll cs rs
    ⟨(hr.comp hrs.1).unless_zero, hr.or hrs.2⟩

end

/-- **The matcher finds a match** exactly if there is a segment of the text that
the expression matches. -/
theorem isMatch_iff {r : Regex} {text : String} : r.isMatch text = true ↔
    ∃ before seg after, text.toList = before ++ seg ++ after ∧ r.Matches before seg after := by
  have hlength : (Place.all text.toList).length = text.toList.length + 1 := Place.length_allFrom
  have htestBit : ∀ i, (PlaceSet.ofTest (fun _ => true) (Place.all text.toList)).testBit i = true ↔
      i ≤ text.toList.length := by
    intro i
    rw [PlaceSet.testBit_ofTest, ← Nat.lt_succ_iff, Nat.succ_eq_add_one, ← hlength]
    cases hplace : (Place.all text.toList)[i]? with
    | none => exact iff_of_false nofun (Nat.not_lt_of_le (List.getElem?_eq_none_iff.1 hplace))
    | some place => exact iff_of_true rfl (List.getElem?_eq_some_iff.1 hplace).1
  have hfollows := follows_walk text.toList r _ (fun i => (htestBit i).1)
  unfold isMatch
  rw [bne_iff_ne]
  constructor
  · intro hne
    obtain ⟨i, hi⟩ := Nat.exists_testBit_of_ne_zero hne
    obtain ⟨before, seg, after, hcs, -, -, hmatches⟩ := (hfollows i).1 hi
    exact ⟨before, seg, after, hcs, hmatches⟩
  · rintro ⟨before, seg, after, hcs, hmatches⟩ hzero
    have hbefore : before.length ≤ text.toList.length := by
      rw [hcs, List.append_assoc, List.length_append]
      exact Nat.le_add_right ..
    have hbit := (hfollows (before ++ seg).length).2
      ⟨before, seg, after, hcs, rfl, (htestBit _).2 hbefore, hmatches⟩
    rw [hzero, Nat.zero_testBit] at hbit
    cases hbit

end Regex

end Rulebook
