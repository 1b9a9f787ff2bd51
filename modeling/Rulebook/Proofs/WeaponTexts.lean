import Mathlib.Tactic.FinCases
import Rulebook.BonusPattern

/-!
# The text of a weapon's pattern

A weapon's pattern is kept twice: as a text, which rules show and which the host
program is given, and as the expression that the checks match with. The expression
is put together without reading the text. Here it is shown to be what the text
reads as, for every name, so that a weapon's pattern is a read text as much as one
that comes from a record.

The text is a frame of signs that are always the same, with the escaped name in it
twice. In the frame the reader can just be run. Where the name stands, it goes on
character by character: an escaped sign stands for itself, and any other character
does so without a backslash. The fuel of the reader is enough if it is more than the
length of what is left, and each step keeps it so.
-/

namespace Rulebook

namespace Regex

variable {depth : Nat} {f : Flags} {cap cap' : Captures} {branches parts : List Regex}
  {c : Char} {cs rest name : List Char} {r : Regex} {result : Branches}

/-! ## Steps of the reader -/

theorem skip_of_not_freeSpacing (hf : f.freeSpacing = false) (cs : List Char) : f.skip cs = cs := by
  rw [Flags.skip, hf, if_neg Bool.false_ne_true]

/-- A sign that is escaped stands for itself. -/
theorem readEscape_of_isMeta (hc : isMeta c = true) :
    readEscape f (c :: cs) = some (.char c, cs) := by
  unfold isMeta at hc
  have hmem := List.contains_iff_mem.1 hc
  fin_cases hmem <;> rfl

theorem readBranches_escaped (hf : f.freeSpacing = false) (hc : isMeta c = true) (fuel : Nat) :
    readBranches (fuel + 1) depth f cap branches parts ('\\' :: c :: rest) =
      readBranches fuel depth f cap branches (f.char c :: parts) rest := by
  rw [readBranches, skip_of_not_freeSpacing hf]
  show (readEscape f (c :: rest)).bind _ = _
  rw [readEscape_of_isMeta hc]
  rfl

theorem readBranches_char (hf : f.freeSpacing = false) (hc : isMeta c = false) (fuel : Nat) :
    readBranches (fuel + 1) depth f cap branches parts (c :: rest) =
      readBranches fuel depth f cap branches (f.char c :: parts) rest := by
  rw [readBranches, skip_of_not_freeSpacing hf]
  split
  case h_1 heq => cases heq
  case h_14 heq =>
    cases heq
    rfl
  -- in all other cases the character is a sign
  all_goals
    next heq =>
      cases heq
      exact absurd hc (by decide)

theorem readBranches_plain (hf : f.freeSpacing = false) (fuel : Nat) :
    readBranches (fuel + 1) depth f cap branches parts ('(' :: '?' :: ':' :: cs) =
      if deepest ≤ depth then none
      else
        match readBranches fuel (depth + 1) f cap [] [] cs with
        | some (r, cap, ')' :: rest) => readBranches fuel depth f cap branches (r :: parts) rest
        | _ => none := by
  have hopening : readOpening f ('?' :: ':' :: cs) = some (.plain f, cs) := by
    unfold readOpening
    rw [skip_of_not_freeSpacing hf]
    rfl
  rw [readBranches, skip_of_not_freeSpacing hf]
  split
  case h_2 heq =>
    cases heq
    rw [hopening]
    rfl
  case h_14 hparen _ _ _ _ _ _ _ _ _ _ _ heq => exact absurd (List.cons.inj heq).1.symm hparen
  all_goals
    next heq => cases heq

/-! ## Reading with enough fuel -/

/-- **What reading comes to**, with any fuel that is more than the length of the
text. -/
def ReadsTo (depth : Nat) (f : Flags) (cap : Captures) (branches parts : List Regex)
    (cs : List Char) (result : Branches) : Prop :=
  ∀ fuel, cs.length < fuel → readBranches fuel depth f cap branches parts cs = result

/-- The reader may be run to its end. -/
theorem ReadsTo.of_result {rounds : Nat} (hrounds : rounds ≤ cs.length + 1)
    (hrun : ∀ fuel, readBranches (fuel + rounds) depth f cap branches parts cs = result) :
    ReadsTo depth f cap branches parts cs result := by
  intro fuel hfuel
  obtain ⟨n, rfl⟩ := Nat.exists_eq_add_of_le' (Nat.le_trans hrounds hfuel)
  exact hrun n

/-- The reader may be run for a while, if it leaves a character less for every
round that it takes. -/
theorem ReadsTo.of_run {rounds left depth' : Nat} {f' : Flags} {branches' parts' : List Regex}
    (hrun : ∀ fuel, readBranches (fuel + rounds) depth f cap branches parts cs =
      readBranches (fuel + left) depth' f' cap' branches' parts' rest)
    (hrounds : rounds ≤ cs.length + 1) (hleft : rest.length + rounds ≤ cs.length + left)
    (h : ReadsTo depth' f' cap' branches' parts' rest result) :
    ReadsTo depth f cap branches parts cs result := by
  intro fuel hfuel
  obtain ⟨n, rfl⟩ := Nat.exists_eq_add_of_le' (Nat.le_trans hrounds hfuel)
  rw [hrun]
  exact h _ (by omega)

/-- One round of the reader. -/
theorem ReadsTo.of_round {depth' : Nat} {f' : Flags} {branches' parts' : List Regex}
    (hrun : ∀ fuel, readBranches (fuel + 1) depth f cap branches parts cs =
      readBranches fuel depth' f' cap' branches' parts' rest)
    (hlength : rest.length < cs.length)
    (h : ReadsTo depth' f' cap' branches' parts' rest result) :
    ReadsTo depth f cap branches parts cs result :=
  .of_run (fun fuel => (hrun fuel).trans (by rw [Nat.add_zero])) (Nat.le_add_left ..) hlength h

/-- **An escaped text** reads as its characters. -/
theorem ReadsTo.escape (hf : f.freeSpacing = false)
    (h : ReadsTo depth f cap branches ((name.map f.char).reverse ++ parts) rest result) :
    ReadsTo depth f cap branches parts (BonusPattern.escape name ++ rest) result := by
  induction name generalizing parts with
  | nil => exact h
  | cons c name ih =>
    rw [List.map_cons, List.reverse_cons, List.append_assoc] at h
    have hrest := ih h
    have hescape : BonusPattern.escape (c :: name) ++ rest =
        (if isMeta c then ['\\', c] else [c]) ++ (BonusPattern.escape name ++ rest) := by
      rw [BonusPattern.escape, List.flatMap_cons, List.append_assoc]
      rfl
    rw [hescape]
    split
    · next hc =>
      exact .of_round (readBranches_escaped hf hc) (Nat.lt_add_of_pos_right Nat.two_pos) hrest
    · next hc =>
      exact .of_round (readBranches_char hf (Bool.eq_false_iff.2 hc)) (Nat.lt_succ_self _) hrest

/-- **A group that captures nothing** reads as what is in it. -/
theorem ReadsTo.plain (hf : f.freeSpacing = false) (hdepth : depth < deepest)
    (hinside : ReadsTo (depth + 1) f cap [] [] cs (some (r, cap', ')' :: rest)))
    (hlength : rest.length ≤ cs.length)
    (h : ReadsTo depth f cap' branches (r :: parts) rest result) :
    ReadsTo depth f cap branches parts ('(' :: '?' :: ':' :: cs) result := by
  intro fuel hfuel
  obtain ⟨n, rfl⟩ := Nat.exists_eq_add_of_le' (Nat.zero_lt_of_lt hfuel)
  have hlong : cs.length + 2 < n := by
    simp only [List.length_cons] at hfuel
    omega
  rw [readBranches_plain hf, if_neg (Nat.not_le.2 hdepth), hinside n (by omega)]
  exact h n (by omega)

theorem heightAll_append (rs ss : List Regex) :
    heightAll (rs ++ ss) = max (heightAll rs) (heightAll ss) := by
  induction rs with
  | nil => exact (Nat.zero_max _).symm
  | cons r rs ih => rw [List.cons_append, heightAll, heightAll, ih, Nat.max_assoc]

/-- Characters do not nest. -/
theorem heightAll_map_eitherCase (name : List Char) : heightAll (name.map eitherCase) = 0 := by
  induction name with
  | nil => rfl
  | cons c name ih =>
    rw [List.map_cons, heightAll, ih, eitherCase]
    split <;> rfl

/-- A sequence that is not empty nests deeper than its parts. -/
theorem height_sequence_append_cons (rs : List Regex) (r : Regex) (ss : List Regex) :
    height (.sequence (rs ++ r :: ss)) = heightAll (rs ++ r :: ss) + 1 := by
  cases rs <;> rfl

/-- Parts in front of two others stand in a sequence. -/
theorem ofParts_append_pair (rs : List Regex) (r s : Regex) :
    ofParts (rs ++ [r, s]) = .sequence (rs ++ [r, s]) := by
  match rs with
  | [] => rfl
  | [_] => rfl
  | _ :: _ :: _ => rfl

end Regex

namespace BonusPattern

open Regex

variable {name tail : List Char}

/-- The flags that all patterns begin with. -/
def lineFlags : Flags := ⟨true, true, false, false, false, false⟩

/-- An escaped text does not begin with the sign that asks for short matches. -/
theorem dropLazy_escape : dropLazy (escape name ++ '|' :: tail) = escape name ++ '|' :: tail := by
  cases name with
  | nil => rfl
  | cons c name =>
    have hescape : escape (c :: name) = (if isMeta c then ['\\', c] else [c]) ++ escape name :=
      List.flatMap_cons
    rw [hescape]
    split
    · rfl
    · next hc =>
      unfold dropLazy
      split
      · next heq =>
        cases heq
        exact absurd rfl hc
      · rfl

/-- The part of the text with the name in it. -/
def creditChars (name tail : List Char) : List Char :=
  "([-+]\\d+)\\s".toList ++ '+' :: (escape name ++ '|' ::
    (escape name ++ ("\\s+([-+]\\d+))".toList ++ tail)))

theorem suffix_creditChars : tail <:+ creditChars name tail := by
  unfold creditChars
  have hback : tail <:+ escape name ++ ("\\s+([-+]\\d+))".toList ++ tail) :=
    (List.suffix_append _ _).trans (List.suffix_append _ _)
  have hbar := (hback.trans (List.suffix_cons '|' _)).trans (List.suffix_append (escape name) _)
  exact (hbar.trans (List.suffix_cons '+' _)).trans (List.suffix_append _ _)

theorem toList_weaponText (name : List Char) : (weaponText name).toList =
    "(?im)(?:^|\\()\\s*".toList ++
      '(' :: '?' :: ':' :: creditChars name "\\s*(?:$|\\))".toList := by
  have htext : (weaponText name).toList =
      (flagsText.toList ++ "(?:^|\\()\\s*(?:([-+]\\d+)\\s+".toList) ++ (escape name ++
        ("|".toList ++ (escape name ++ "\\s+([-+]\\d+))\\s*(?:$|\\))".toList))) := by
    unfold weaponText
    dsimp only
    simp only [String.toList_append, String.toList_ofList, List.append_assoc]
  have hfront : flagsText.toList ++ "(?:^|\\()\\s*(?:([-+]\\d+)\\s+".toList =
      "(?im)(?:^|\\()\\s*".toList ++ '(' :: '?' :: ':' :: ("([-+]\\d+)\\s".toList ++ ['+']) := by
    decide
  have hbar : "|".toList = ['|'] := by decide
  have hback : "\\s+([-+]\\d+))\\s*(?:$|\\))".toList =
      "\\s+([-+]\\d+))".toList ++ "\\s*(?:$|\\))".toList := by decide
  rw [htext, hfront, hbar, hback]
  unfold creditChars
  simp only [List.append_assoc, List.cons_append, List.nil_append]

/-- **A bonus and the name**, in either order. -/
theorem readsTo_creditChars : ReadsTo 1 lineFlags ⟨0, []⟩ [] [] (creditChars name tail)
    (some (.anyOf [
      .sequence (signedNumber 1 :: .repetition 1 none space :: name.map eitherCase),
      .sequence (name.map eitherCase ++ [.repetition 1 none space, signedNumber 2])],
      ⟨2, []⟩, ')' :: tail)) := by
  have hfront : ∀ cs fuel, readBranches (fuel + 10) 1 lineFlags ⟨0, []⟩ [] []
      ("([-+]\\d+)\\s".toList ++ '+' :: cs) =
      readBranches (fuel + 7) 1 lineFlags ⟨1, []⟩ []
        [.repetition 1 none space, signedNumber 1] (dropLazy cs) := fun _ _ => rfl
  have hbar : ∀ branches parts cs fuel,
      readBranches (fuel + 1) 1 lineFlags ⟨1, []⟩ branches parts ('|' :: cs) =
      readBranches fuel 1 lineFlags ⟨1, []⟩ (ofParts parts.reverse :: branches) [] cs :=
    fun _ _ _ _ => rfl
  have hback : ∀ branches parts fuel,
      readBranches (fuel + 10) 1 lineFlags ⟨1, []⟩ branches parts
        ("\\s+([-+]\\d+))".toList ++ tail) =
      some (finish branches (signedNumber 2 :: .repetition 1 none space :: parts), ⟨2, []⟩,
        ')' :: tail) := fun _ _ _ => rfl
  unfold creditChars
  refine .of_run (hfront _) ?_ ?_ ?_
  · simp
  · rw [dropLazy_escape]
    simp
  rw [dropLazy_escape]
  refine .escape rfl (.of_round (hbar _ _ _) (Nat.lt_succ_self _) (.escape rfl ?_))
  refine .of_result ?_ (fun fuel => (hback _ _ fuel).trans ?_)
  · simp
  · have hchar : lineFlags.char = eitherCase := funext fun _ => if_pos rfl
    have hfirst : ofParts ((name.map eitherCase).reverse ++
        [.repetition 1 none space, signedNumber 1]).reverse =
        .sequence (signedNumber 1 :: .repetition 1 none space :: name.map eitherCase) := by
      rw [List.reverse_append, List.reverse_reverse]
      rfl
    have hsecond : ofParts (signedNumber 2 :: .repetition 1 none space ::
        (name.map eitherCase).reverse).reverse =
        .sequence (name.map eitherCase ++ [.repetition 1 none space, signedNumber 2]) := by
      rw [List.reverse_cons, List.reverse_cons, List.reverse_reverse, List.append_assoc,
        List.singleton_append, ofParts_append_pair]
    rw [hchar, List.append_nil, finish, hfirst, hsecond]
    rfl

/-- **The text of a weapon's pattern** is read to its end, as the expression. -/
theorem readsTo_weaponText (name : List Char) : ReadsTo 0 .none ⟨0, []⟩ [] []
    (weaponText name).toList (some (weaponRegex name, ⟨2, []⟩, [])) := by
  have hfront : ∀ cs fuel, readBranches (fuel + 10) 0 .none ⟨0, []⟩ [] []
      ("(?im)(?:^|\\()\\s*".toList ++ '(' :: cs) =
      readBranches (fuel + 6) 0 lineFlags ⟨0, []⟩ []
        [.repetition 0 none space, .anyOf [.look .lineStart, .char '(']] ('(' :: cs) :=
    fun _ _ => rfl
  have hback : ∀ parts fuel, readBranches (fuel + 10) 0 lineFlags ⟨2, []⟩ [] parts
      "\\s*(?:$|\\))".toList =
      some (finish [] (.anyOf [.look .lineEnd, .char ')'] :: .repetition 0 none space :: parts),
        ⟨2, []⟩, []) := fun _ _ => rfl
  have hlength : "(?im)(?:^|\\()\\s*".toList.length = 16 := by decide
  have hbody : ReadsTo 0 lineFlags ⟨0, []⟩ []
      [.repetition 0 none space, .anyOf [.look .lineStart, .char '(']]
      ('(' :: '?' :: ':' :: creditChars name "\\s*(?:$|\\))".toList)
      (some (weaponRegex name, ⟨2, []⟩, [])) := by
    refine .plain rfl (by decide) readsTo_creditChars ?_ ?_
    · exact suffix_creditChars.length_le
    · exact .of_result (by decide) (hback _)
  rw [toList_weaponText]
  generalize creditChars name _ = cs at hbody ⊢
  refine .of_run (hfront _) ?_ ?_ hbody
  · rw [List.length_append, hlength]
    omega
  · rw [List.length_append, hlength]
    omega

/-- A weapon's expression nests no deeper than allowed, whatever the name. -/
theorem height_weaponRegex (name : List Char) : (weaponRegex name).height ≤ deepest := by
  have hheight : (weaponRegex name).height = 6 := by
    simp only [weaponRegex, signedNumber, space, height, height_sequence_append_cons, heightAll,
      heightAll_append, heightAll_map_eitherCase]
    rfl
  rw [hheight]
  decide

/-- **The text of a weapon's pattern reads as its expression**, for every name,
unless that takes more room than allowed. -/
theorem read_weaponText (name : List Char) : Regex.read (weaponText name) =
    if (weaponRegex name).wholeRoom ≤ mostRoom then some (weaponRegex name) else none := by
  unfold Regex.read
  dsimp only
  rw [readsTo_weaponText name _ (Nat.lt_succ_self _)]
  dsimp only
  rw [decide_eq_true (height_weaponRegex name), Bool.true_and]
  simp only [decide_eq_true_eq]

/-- **A weapon's pattern is read from its text**, as one that a record gives. -/
theorem weapon_eq (name : String) : weapon name =
    let name := (Text.lower (Text.trim name)).toList
    if name = [] then malformed .emptyEquipmentName
    else
      match Regex.read (weaponText name) with
      | some regex => .ok ⟨weaponText name, regex⟩
      | none => malformed .invalidPattern := by
  unfold weapon
  dsimp only
  split
  · rfl
  · rw [read_weaponText]
    split
    · next hroom => rw [if_neg (Nat.not_le.2 hroom)]
    · next hroom => rw [if_pos (Nat.not_lt.1 hroom)]

end BonusPattern

end Rulebook
