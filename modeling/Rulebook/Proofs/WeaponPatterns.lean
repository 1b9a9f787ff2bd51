import Rulebook.BonusPattern
import Rulebook.Proofs.RegexMatches

/-!
# What the pattern of a weapon matches

The pattern of a weapon is written out as an expression. A match of it is cut
here into its pieces: what opens it, the bonus and the name in either order, what
closes it, and the blanks between them. The name counts as the same in either
case of its letters.
-/

namespace Rulebook

open Regex

variable {cs seg before after name : List Char} {c : Char}

/-! ## Letter case -/

theorem isUpper_iff : c.isUpper = true ↔ 65 ≤ c.toNat ∧ c.toNat ≤ 90 := by
  unfold Char.isUpper
  simp only [decide_eq_true_eq, UInt32.le_iff_toNat_le, ge_iff_le]
  exact Iff.rfl

theorem isLower_iff : c.isLower = true ↔ 97 ≤ c.toNat ∧ c.toNat ≤ 122 := by
  unfold Char.isLower
  simp only [Bool.and_eq_true, decide_eq_true_eq, UInt32.le_iff_toNat_le, ge_iff_le]
  exact Iff.rfl

theorem isAlpha_iff : c.isAlpha = true ↔
    (65 ≤ c.toNat ∧ c.toNat ≤ 90) ∨ (97 ≤ c.toNat ∧ c.toNat ≤ 122) := by
  unfold Char.isAlpha
  rw [Bool.or_eq_true, isUpper_iff, isLower_iff]

theorem toNat_toLower {c : Char} : c.toLower.toNat =
    if 65 ≤ c.toNat ∧ c.toNat ≤ 90 then c.toNat + 32 else c.toNat := by
  unfold Char.toLower
  simp only [ge_iff_le, UInt32.le_iff_toNat_le]
  split
  · next h =>
    have hcode : 65 ≤ c.toNat ∧ c.toNat ≤ 90 := h
    rw [if_pos hcode]
    show (c.val + 32).toNat = _
    rw [UInt32.toNat_add]
    exact Nat.mod_eq_of_lt (by show c.toNat + 32 < _; omega)
  · next h => exact (if_neg h).symm

theorem toNat_toUpper {c : Char} : c.toUpper.toNat =
    if 97 ≤ c.toNat ∧ c.toNat ≤ 122 then c.toNat - 32 else c.toNat := by
  unfold Char.toUpper
  simp only [UInt32.le_iff_toNat_le]
  split
  · next h =>
    have hcode : 97 ≤ c.toNat ∧ c.toNat ≤ 122 := h
    rw [if_pos hcode]
    show (c.val + 4294967264).toNat = _
    rw [UInt32.toNat_add]
    show (c.toNat + 4294967264) % 4294967296 = c.toNat - 32
    omega
  · next h => exact (if_neg h).symm

theorem toNat_swapCase {c : Char} : (CharSet.swapCase c).toNat =
    if 65 ≤ c.toNat ∧ c.toNat ≤ 90 then c.toNat + 32
    else if 97 ≤ c.toNat ∧ c.toNat ≤ 122 then c.toNat - 32 else c.toNat := by
  unfold CharSet.swapCase
  simp only [isUpper_iff]
  split
  · next h => rw [toNat_toLower, if_pos h]
  · exact toNat_toUpper

/-- Characters that are the same in lower case are the same, or the two cases of
a letter. -/
theorem toLower_eq_toLower_iff {d : Char} :
    d.toLower = c.toLower ↔ if c.isAlpha then d = c ∨ d = CharSet.swapCase c else d = c := by
  simp only [← Char.toNat_inj, toNat_toLower, toNat_swapCase, isAlpha_iff]
  split_ifs <;> omega

/-! ## The parts of a pattern -/

namespace Regex

theorem matchesInTurn_append {rs ss : List Regex} : MatchesInTurn (rs ++ ss) before seg after ↔
    ((MatchesInTurn rs).andThen (MatchesInTurn ss)) before seg after := by
  induction rs generalizing before seg after with
  | nil => exact nil_andThen.symm
  | cons r rs ih => exact (andThen_congr_right (fun _ _ _ => ih)).trans andThen_assoc.symm

theorem matchesInTurn_singleton {r : Regex} : MatchesInTurn [r] before seg after ↔
    r.Matches before seg after := by
  constructor
  · rintro ⟨s, _, rfl, hr, rfl⟩
    rwa [List.append_nil]
  · intro hr
    exact ⟨seg, [], (List.append_nil seg).symm, hr, rfl⟩

theorem times_chars {s : CharSet} {n : Nat} : (Matches (chars s)).times n before seg after ↔
    seg.length = n ∧ ∀ c ∈ seg, s.contains c = true := by
  induction n generalizing before seg with
  | zero =>
    constructor
    · rintro rfl
      exact ⟨rfl, nofun⟩
    · exact fun h => List.length_eq_zero_iff.1 h.1
  | succ n ih =>
    constructor
    · rintro ⟨_, t, rfl, ⟨c, rfl, hc⟩, ht⟩
      obtain ⟨hlength, ht⟩ := ih.1 ht
      exact ⟨congrArg Nat.succ hlength, List.forall_mem_cons.2 ⟨hc, ht⟩⟩
    · rintro ⟨hlength, hseg⟩
      obtain ⟨c, t, rfl⟩ := List.exists_cons_of_length_eq_add_one hlength
      obtain ⟨hc, ht⟩ := List.forall_mem_cons.1 hseg
      exact ⟨[c], t, rfl, ⟨c, rfl, hc⟩, ih.2 ⟨Nat.succ.inj hlength, ht⟩⟩

/-- A run of characters of a set. -/
theorem matches_run {s : CharSet} {least : Nat} :
    (repetition least none (chars s)).Matches before seg after ↔
      least ≤ seg.length ∧ ∀ c ∈ seg, s.contains c = true := by
  constructor
  · rintro ⟨n, hn, -, htimes⟩
    obtain ⟨rfl, hseg⟩ := times_chars.1 htimes
    exact ⟨hn, hseg⟩
  · rintro ⟨hlength, hseg⟩
    exact ⟨seg.length, hlength, nofun, times_chars.2 ⟨rfl, hseg⟩⟩

/-- A character in either case. -/
theorem matches_eitherCase : (eitherCase c).Matches before seg after ↔
    ∃ d, seg = [d] ∧ d.toLower = c.toLower := by
  simp only [toLower_eq_toLower_iff]
  unfold eitherCase
  split
  · show (∃ d, seg = [d] ∧ (CharSet.ofChars [c, CharSet.swapCase c]).contains d = true) ↔ _
    simp only [CharSet.contains_ofChars, List.mem_cons, List.not_mem_nil, or_false]
  · show seg = [c] ↔ _
    exact (exists_eq_right (p := fun d => seg = [d])).symm

/-- A name in any case. -/
theorem matches_item : MatchesInTurn (name.map eitherCase) before seg after ↔
    seg.map Char.toLower = name.map Char.toLower := by
  induction name generalizing before seg with
  | nil => exact List.map_eq_nil_iff.symm
  | cons c name ih =>
    constructor
    · rintro ⟨_, t, rfl, hc, ht⟩
      obtain ⟨d, rfl, hd⟩ := matches_eitherCase.1 hc
      exact List.cons_eq_cons.2 ⟨hd, ih.1 ht⟩
    · intro h
      cases seg with
      | nil => cases h
      | cons d t =>
        obtain ⟨hd, ht⟩ := List.cons_eq_cons.1 h
        exact ⟨[d], t, rfl, matches_eitherCase.2 ⟨d, rfl, hd⟩, ih.2 ht⟩

end Regex

/-- **A bonus**: a sign and digits. -/
def IsBonus (cs : List Char) : Prop :=
  ∃ sign digits, cs = sign :: digits ∧ (sign = '+' ∨ sign = '-') ∧ digits ≠ [] ∧
    ∀ d ∈ digits, d.isDigit = true

/-- Whether all characters are blanks of basic Latin text. -/
def IsBlankRun (cs : List Char) : Prop := ∀ c ∈ cs, CharSet.blanks.contains c = true

/-- A bonus and the name of an item, in either order. -/
inductive Credit (name : List Char) : List Char → Prop where
  | inFront {bonus gap item : List Char} (hbonus : IsBonus bonus) (hgap : IsBlankRun gap)
      (hne : gap ≠ []) (hitem : item.map Char.toLower = name.map Char.toLower) :
      Credit name (bonus ++ (gap ++ item))
  | behind {item gap bonus : List Char} (hitem : item.map Char.toLower = name.map Char.toLower)
      (hgap : IsBlankRun gap) (hne : gap ≠ []) (hbonus : IsBonus bonus) :
      Credit name (item ++ (gap ++ bonus))

/-- Whether a line begins after a text. -/
def EndsLine (cs : List Char) : Prop := ∀ c ∈ cs.getLast?, c = '\n'

/-- Whether a line ends before a text. -/
def StartsLine (cs : List Char) : Prop := ∀ c ∈ cs.head?, c = '\n'

instance : Decidable (EndsLine cs) :=
  decidable_of_iff (cs.getLast?.all (· = '\n') = true) (by simp [EndsLine, Option.all_eq_true])

instance : Decidable (StartsLine cs) :=
  decidable_of_iff (cs.head?.all (· = '\n') = true) (by simp [StartsLine, Option.all_eq_true])

/-- **A match of the pattern of a weapon** in a text, cut into its pieces. -/
structure Mention (name text : List Char) where
  before : List Char
  opening : List Char
  margin : List Char
  credit : List Char
  margin' : List Char
  closing : List Char
  after : List Char
  text_eq : text =
    before ++ (opening ++ (margin ++ (credit ++ (margin' ++ closing)))) ++ after
  opens : opening = [] ∧ EndsLine before ∨ opening = ['(']
  blank : IsBlankRun margin
  credits : Credit name credit
  blank' : IsBlankRun margin'
  closes : closing = [] ∧ StartsLine after ∨ closing = [')']

theorem contains_digits : CharSet.digits.contains c = true ↔ c.isDigit = true := by
  unfold CharSet.contains CharSet.digits Text.inRanges
  simp only [List.any_cons, List.any_nil, Bool.or_false, Char.isDigit, Bool.and_eq_true,
    decide_eq_true_eq, UInt32.le_iff_toNat_le, ge_iff_le]
  exact Iff.rfl

namespace BonusPattern

theorem matches_signedNumber {group : Nat} :
    (signedNumber group).Matches before seg after ↔ IsBonus seg := by
  constructor
  · rintro ⟨_, digits, rfl, ⟨sign, rfl, hsign⟩, hdigits⟩
    obtain ⟨hlength, hdigits⟩ := matches_run.1 (matchesInTurn_singleton.1 hdigits)
    refine ⟨sign, digits, rfl, ?_, List.length_pos_iff.1 hlength,
      fun d hd => contains_digits.1 (hdigits d hd)⟩
    simpa [CharSet.contains_ofChars, or_comm] using hsign
  · rintro ⟨sign, digits, rfl, hsign, hne, hdigits⟩
    refine ⟨[sign], digits, rfl, ⟨sign, rfl, ?_⟩, matchesInTurn_singleton.2 (matches_run.2
      ⟨List.length_pos_iff.2 hne, fun d hd => contains_digits.2 (hdigits d hd)⟩)⟩
    simpa [CharSet.contains_ofChars, or_comm] using hsign

theorem matches_credit : MatchesAny [
      .sequence (signedNumber 1 :: .repetition 1 none space :: name.map eitherCase),
      .sequence (name.map eitherCase ++ [.repetition 1 none space, signedNumber 2])]
    before seg after ↔ Credit name seg := by
  constructor
  · rintro (⟨bonus, _, rfl, hbonus, gap, item, rfl, hgap, hitem⟩ | hbehind | hno)
    · obtain ⟨hlength, hgap⟩ := matches_run.1 hgap
      exact .inFront (matches_signedNumber.1 hbonus) hgap (List.length_pos_iff.1 hlength)
        (matches_item.1 hitem)
    · obtain ⟨item, _, rfl, hitem, gap, bonus, rfl, hgap, hbonus⟩ := matchesInTurn_append.1 hbehind
      obtain ⟨hlength, hgap⟩ := matches_run.1 hgap
      exact .behind (matches_item.1 hitem) hgap (List.length_pos_iff.1 hlength)
        (matches_signedNumber.1 (matchesInTurn_singleton.1 hbonus))
    · exact hno.elim
  · rintro (⟨hbonus, hgap, hne, hitem⟩ | ⟨hitem, hgap, hne, hbonus⟩)
    · exact .inl ⟨_, _, rfl, matches_signedNumber.2 hbonus, _, _, rfl,
        matches_run.2 ⟨List.length_pos_iff.2 hne, hgap⟩, matches_item.2 hitem⟩
    · exact .inr (.inl (matchesInTurn_append.2 ⟨_, _, rfl, matches_item.2 hitem, _, _, rfl,
        matches_run.2 ⟨List.length_pos_iff.2 hne, hgap⟩,
        matchesInTurn_singleton.2 (matches_signedNumber.2 hbonus)⟩))

theorem holds_lineStart {rest : List Char} :
    Look.holds .lineStart ⟨before.getLast?, rest⟩ = true ↔ EndsLine before := by
  unfold Look.holds EndsLine
  cases before.getLast? with
  | none => exact iff_of_true rfl nofun
  | some c => simp

theorem holds_lineEnd {previous : Option Char} :
    Look.holds .lineEnd ⟨previous, after⟩ = true ↔ StartsLine after := by
  unfold Look.holds StartsLine
  cases after with
  | nil => exact iff_of_true rfl nofun
  | cons c cs => simp [Place.next]

/-- **The pattern of a weapon matches** where there is a mention. -/
theorem isMatch_weaponRegex {text : String} :
    (weaponRegex name).isMatch text = true ↔ Nonempty (Mention name text.toList) := by
  rw [isMatch_iff]
  constructor
  · rintro ⟨before, _, after, htext, opening, _, rfl, hopen, margin, _, rfl, hmargin, credit, _,
      rfl, hcredit, margin', _, rfl, hmargin', closing, _, rfl, hclose, rfl⟩
    rw [List.append_nil] at htext
    refine ⟨⟨before, opening, margin, credit, margin', closing, after, htext, ?_,
      (matches_run.1 hmargin).2, matches_credit.1 hcredit, (matches_run.1 hmargin').2, ?_⟩⟩
    · obtain ⟨hnil, hstart⟩ | hparen | hno := hopen
      · exact .inl ⟨hnil, holds_lineStart.1 hstart⟩
      · exact .inr hparen
      · exact hno.elim
    · obtain ⟨hnil, hend⟩ | hparen | hno := hclose
      · exact .inl ⟨hnil, holds_lineEnd.1 hend⟩
      · exact .inr hparen
      · exact hno.elim
  · rintro ⟨before, opening, margin, credit, margin', closing, after, htext, hopen, hmargin,
      hcredit, hmargin', hclose⟩
    refine ⟨before, _, after, htext, opening, _, rfl, ?_, margin, _, rfl,
      matches_run.2 ⟨Nat.zero_le _, hmargin⟩, credit, _, rfl, matches_credit.2 hcredit, margin', _,
      rfl, matches_run.2 ⟨Nat.zero_le _, hmargin'⟩, closing, [], (List.append_nil _).symm, ?_, rfl⟩
    · obtain ⟨hnil, hstart⟩ | hparen := hopen
      · exact .inl ⟨hnil, holds_lineStart.2 hstart⟩
      · exact .inr (.inl hparen)
    · obtain ⟨hnil, hend⟩ | hparen := hclose
      · exact .inl ⟨hnil, holds_lineEnd.2 hend⟩
      · exact .inr (.inl hparen)

end BonusPattern

end Rulebook
