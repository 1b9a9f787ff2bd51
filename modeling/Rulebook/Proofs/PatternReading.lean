import Rulebook.Proofs.CharacterSets

/-!
# What the reader of expressions leaves

Each reader takes something off the front of a text and leaves the rest, so what it leaves
is an end of what it was given. With this, what holds of all ends of a text holds wherever
a reader gets to. The lemmas of this module say it of one reader after the other, and along
with it what is known of the things that are read: the sets that escapes stand for ignore
case, and the ranges in classes are the right way round.
-/

namespace Rulebook.Regex

open CharSet

variable {α β : Type} {P : α → Prop} {Q : β → Prop} {f : Flags} {c : Char}
  {cs ds rest : List Char} {fuel n : Nat}

/-- **A reader that gives good things**, and leaves an end of the text. -/
def Reads (P : α → Prop) (cs : List Char) (r : Option (α × List Char)) : Prop :=
  ∀ ⦃a : α⦄ ⦃rest : List Char⦄, r = some (a, rest) → P a ∧ rest <:+ cs

namespace Reads

variable {r : Option (α × List Char)} {a : α}

theorem none : Reads P cs Option.none := nofun

theorem some (ha : P a) (h : rest <:+ cs) : Reads P cs (Option.some (a, rest)) := by
  rintro _ _ ⟨⟩
  exact ⟨ha, h⟩

/-- What is left of an end of a text is left of the text. -/
theorem of_suffix (h : Reads P cs r) (hcs : cs <:+ ds) : Reads P ds r :=
  fun _ _ hr => ⟨(h hr).1, (h hr).2.trans hcs⟩

theorem bind {g : α × List Char → Option (β × List Char)} (h : Reads P cs r)
    (hg : ∀ a rest, P a → Reads Q rest (g (a, rest))) : Reads Q cs (r.bind g) := by
  intro b after hb
  obtain ⟨⟨a, rest⟩, hr, hb⟩ := Option.bind_eq_some_iff.1 hb
  obtain ⟨ha, hrest⟩ := h hr
  exact ((hg a rest ha).of_suffix hrest) hb

theorem map {g : α → β} (h : Reads P cs r) (hg : ∀ a, P a → Q (g a)) :
    Reads Q cs (r.map fun x => (g x.1, x.2)) := by
  intro b after hb
  obtain ⟨⟨a, rest⟩, hr, hb⟩ := Option.map_eq_some_iff.1 hb
  cases hb
  exact ⟨hg a (h hr).1, (h hr).2⟩

end Reads

/-! ## Blanks -/

theorem suffix_cons (h : rest <:+ cs) : rest <:+ c :: cs := h.trans (List.suffix_cons c cs)

theorem dropFree_suffix (fuel : Nat) (cs : List Char) : dropFree fuel cs <:+ cs := by
  induction fuel generalizing cs with
  | zero => exact List.suffix_rfl
  | succ fuel ih =>
    cases cs with
    | nil => exact List.suffix_rfl
    | cons c rest =>
      rw [dropFree]
      split
      · exact suffix_cons (ih rest)
      · split
        · refine suffix_cons ((ih _).trans ?_)
          exact (List.drop_suffix ..).trans (List.dropWhile_suffix ..)
        · exact List.suffix_rfl

theorem skip_suffix (f : Flags) (cs : List Char) : f.skip cs <:+ cs := by
  unfold Flags.skip
  split
  · exact dropFree_suffix ..
  · exact List.suffix_rfl

theorem suffix_of_skip_eq (h : f.skip cs = c :: rest) : rest <:+ cs :=
  (List.suffix_cons c rest).trans (h ▸ skip_suffix f cs)

theorem trimStart_suffix (cs : List Char) : Text.trimStart cs <:+ cs := List.dropWhile_suffix ..

/-! ## Escapes -/

theorem readHexDigits_reads : Reads (fun _ => True) cs (readHexDigits f n cs) := by
  induction n generalizing cs with
  | zero => exact .some trivial List.suffix_rfl
  | succ n ih =>
    cases cs with
    | nil => exact .none
    | cons c cs =>
      rw [readHexDigits]
      split
      · exact (ih.of_suffix (suffix_cons (skip_suffix f cs))).map fun _ _ => trivial
      · exact .none

theorem readHexBraced_reads : Reads (fun _ => True) cs (readHexBraced f fuel cs) := by
  induction fuel generalizing cs with
  | zero => exact .none
  | succ fuel ih =>
    rw [readHexBraced]
    split
    · next rest hskip => exact .some trivial ((skip_suffix f rest).trans (suffix_of_skip_eq hskip))
    · next c rest _ hskip =>
      split
      · exact (ih.of_suffix (suffix_of_skip_eq hskip)).map fun _ _ => trivial
      · exact .none
    · exact .none

/-- **What is known of an item**: a set of characters ignores case. -/
def Item.Fine : Item → Prop
  | .char _ | .look _ => True
  | .chars s => s.IgnoresCase ∧ Ordered s.ranges

theorem readHex_reads : Reads Item.Fine cs (readHex f n cs) := by
  have hchar (ds rest : List Char) :
      Reads Item.Fine rest ((charOfHex ds).bind fun c => some (.char c, rest)) := by
    cases charOfHex ds with
    | none => exact .none
    | some c => exact .some trivial List.suffix_rfl
  rw [readHex]
  split
  · next rest hskip =>
    refine .of_suffix (.bind readHexBraced_reads fun ds rest _ => ?_) (suffix_of_skip_eq hskip)
    dsimp only
    split
    · exact .none
    · exact hchar ds rest
  · exact .none
  · exact .of_suffix (.bind readHexDigits_reads fun ds rest _ => hchar ds rest) (skip_suffix f cs)

theorem readBoundaryName_suffix : (readBoundaryName f fuel cs).2 <:+ cs := by
  induction fuel generalizing cs with
  | zero => exact List.suffix_rfl
  | succ fuel ih =>
    cases cs with
    | nil => exact List.suffix_rfl
    | cons c rest =>
      rw [readBoundaryName]
      split
      · exact ih.trans (suffix_cons (skip_suffix f rest))
      · exact List.suffix_rfl

theorem readBoundary_reads : Reads Item.Fine cs (readBoundary f cs) := by
  unfold readBoundary
  split
  · next rest =>
    split
    · exact .none
    · next c rest' hskip =>
      split
      · exact .some trivial List.suffix_rfl
      · split
        · next name rest'' hname =>
          have hsuffix : rest'' <:+ '\x7b' :: rest := by
            have hleft : (readBoundaryName f (rest'.length + 1) (c :: rest')).2 <:+ c :: rest' :=
              readBoundaryName_suffix
            rw [hname] at hleft
            have hname' : rest'' <:+ c :: rest' := (List.suffix_cons ..).trans hleft
            exact suffix_cons (hname'.trans (hskip ▸ skip_suffix f rest))
          split <;> first | exact .none | exact .some trivial hsuffix
        · exact .none
  · exact .some trivial List.suffix_rfl

theorem readEscape_reads : Reads Item.Fine cs (readEscape f cs) := by
  have hset {s : CharSet} (hs : s.IgnoresCase) (hranges : Ascending s.ranges) (rest : List Char) :
      Reads Item.Fine rest (some (.chars s, rest)) ∧
        Reads Item.Fine rest (some (.chars s.complement, rest)) :=
    ⟨.some ⟨hs, hranges.ordered⟩ List.suffix_rfl,
      .some ⟨hs.complement hranges, ordered_complement s⟩ List.suffix_rfl⟩
  have hdigits := hset ignoresCase_digits ⟨by decide, by decide⟩
  have hblanks := hset ignoresCase_blanks ⟨by decide, by decide⟩
  have hwords := hset ignoresCase_wordChars ⟨by decide, by decide⟩
  cases cs with
  | nil => exact .none
  | cons c rest =>
    refine .of_suffix ?_ (List.suffix_cons c rest)
    unfold readEscape
    dsimp only
    split
    case h_1 | h_2 | h_3 => exact readHex_reads
    case h_4 => exact (hdigits rest).1
    case h_5 => exact (hblanks rest).1
    case h_6 => exact (hwords rest).1
    case h_7 => exact (hdigits rest).2
    case h_8 => exact (hblanks rest).2
    case h_9 => exact (hwords rest).2
    case h_18 => exact readBoundary_reads
    case h_22 =>
      split
      · exact .some trivial List.suffix_rfl
      · exact .none
    all_goals exact .some trivial List.suffix_rfl

/-! ## Classes -/

theorem readItem_reads : Reads Item.Fine cs (readItem f cs) := by
  unfold readItem
  split
  · next rest =>
    have hescape : Reads Item.Fine rest (readEscape f rest) := readEscape_reads
    refine .of_suffix ?_ (List.suffix_cons _ rest)
    split
    · next c after hread =>
      have hafter : after <:+ rest := (hescape hread).2
      split
      · exact .some ⟨ignoresCase_pair c, (ascending_ofChars _).ordered⟩ hafter
      · exact .some trivial hafter
    · exact hescape
  · exact .some trivial (List.suffix_cons ..)
  · exact .none

theorem Item.Fine.ordered {i : Item} {ranges : List (Nat × Nat)} (h : i.Fine)
    (hranges : i.toRanges = some ranges) : Ordered ranges := by
  cases i <;> cases hranges
  case char => exact List.forall_mem_singleton.2 (Nat.le_refl _)
  case chars => exact h.2

theorem ordered_namedClass {name : String} {s : CharSet} (h : namedClass? name = some s) :
    Ordered s.ranges := by
  unfold namedClass? at h
  split at h <;> cases h <;> decide

/-- The name of a class up to its closing bracket, after the sign for its complement. -/
def readClassName (negated : Bool) (cs : List Char) : Option (List (Nat × Nat) × List Char) :=
  match cs.dropWhile (· ≠ ':') with
  | ':' :: ']' :: rest =>
    (namedClass? (String.ofList (cs.takeWhile (· ≠ ':')))).map fun set =>
      ((if negated then set.complement else set).ranges, rest)
  | _ => none

theorem readClassName_reads (negated : Bool) : Reads Ordered cs (readClassName negated cs) := by
  unfold readClassName
  split
  · next rest hdrop =>
    have hrest : ':' :: ']' :: rest <:+ cs := hdrop ▸ List.dropWhile_suffix _
    intro ranges after h
    obtain ⟨s, hs, heq⟩ := Option.map_eq_some_iff.1 h
    cases heq
    refine ⟨?_, (List.suffix_cons ..).trans ((List.suffix_cons ..).trans hrest)⟩
    cases negated
    · exact ordered_namedClass hs
    · exact ordered_complement s
  · exact .none

theorem readNamedClass_reads : Reads Ordered cs (readNamedClass cs) := by
  unfold readNamedClass
  split
  · next rest =>
    refine .of_suffix ?_ (List.suffix_cons _ rest)
    split
    next negated ds hsplit =>
      have hds : ds <:+ rest := by
        split at hsplit <;> cases hsplit
        · exact List.suffix_cons ..
        · exact List.suffix_rfl
      exact (readClassName_reads negated).of_suffix hds
  · exact .none

theorem readClassRange_reads : Reads Ordered cs (readClassRange f cs) := by
  have hranges {i : Item} (hi : i.Fine) (rest : List Char) :
      Reads Ordered rest (i.toRanges.bind fun ranges => some (ranges, rest)) := by
    intro ranges after h
    obtain ⟨ranges', hranges, heq⟩ := Option.bind_eq_some_iff.1 h
    cases heq
    exact ⟨hi.ordered hranges, List.suffix_rfl⟩
  refine .bind readItem_reads fun first rest hfirst => ?_
  dsimp only
  have hskip := skip_suffix f rest
  split
  · exact .none
  · next after heq =>
    rw [heq] at hskip
    split
    · exact (hranges hfirst _).of_suffix hskip
    · exact (hranges hfirst _).of_suffix hskip
    · refine .of_suffix (.bind readItem_reads fun second rest' hsecond => ?_)
        ((skip_suffix f after).trans ((List.suffix_cons ..).trans hskip))
      intro ranges after' h
      simp only [Option.bind_eq_bind, Option.bind_eq_some_iff] at h
      obtain ⟨low, -, high, -, h⟩ := h
      split at h
      · cases h
      · next hle =>
        cases h
        exact ⟨List.forall_mem_singleton.2 (Char.le_def.1 (Char.not_lt.1 hle)), List.suffix_rfl⟩
  · exact (hranges hfirst _).of_suffix hskip

theorem readClassItems_reads : Reads Ordered cs (readClassItems f fuel cs) := by
  induction fuel generalizing cs with
  | zero => exact .none
  | succ fuel ih =>
    have hmore {r : Option (List (Nat × Nat) × List Char)} {ds : List Char}
        (hr : Reads Ordered ds r) :
        Reads Ordered ds (r.bind fun r => (readClassItems f fuel r.2).map fun x =>
          (r.1 ++ x.1, x.2)) :=
      hr.bind fun first _ hfirst => ih.map fun _ hranges =>
        List.forall_mem_append.2 ⟨hfirst, hranges⟩
    have hskip := skip_suffix f cs
    rw [readClassItems]
    split
    · exact .none
    · next rest heq => exact .some nofun (suffix_of_skip_eq heq)
    · next rest heq => exact (hmore readNamedClass_reads).of_suffix (suffix_of_skip_eq heq)
    · exact .none
    · exact .none
    · exact .none
    · exact (hmore readClassRange_reads).of_suffix hskip

theorem readDashes_suffix : (readDashes f fuel cs).2 <:+ cs := by
  induction fuel generalizing cs with
  | zero => exact List.suffix_rfl
  | succ fuel ih =>
    unfold readDashes
    dsimp only
    split
    · next rest => exact ih.trans (suffix_cons (skip_suffix f rest))
    · exact List.suffix_rfl

/-- Whether a class is negated, and what follows the sign for that. -/
def readNegation (f : Flags) (cs : List Char) : Bool × List Char :=
  match f.skip cs with
  | '^' :: cs => (true, f.skip cs)
  | cs => (false, cs)

/-- What a class begins with that stands for itself there. -/
def readFirst (f : Flags) (cs : List Char) : List (Nat × Nat) × List Char :=
  let (dashes, cs) := readDashes f cs.length cs
  let first := if dashes = 0 then [] else [('-'.toNat, '-'.toNat)]
  match cs with
  | ']' :: rest => if dashes = 0 then ([(']'.toNat, ']'.toNat)], f.skip rest) else (first, cs)
  | cs => (first, cs)

/-- **A class as it is written**, after its opening bracket: whether it is negated, and
its set before it is folded. -/
def readSet (f : Flags) (cs : List Char) : Option ((Bool × CharSet) × List Char) :=
  let (negated, cs) := readNegation f cs
  let (first, cs) := readFirst f cs
  (readClassItems f (cs.length + 1) cs).map fun (ranges, rest) =>
    ((negated, CharSet.ofRanges (first ++ ranges)), rest)

/-- What a class stands for. -/
def classOf (f : Flags) (negated : Bool) (set : CharSet) : Regex :=
  let set := if f.ignoreCase then set.foldCase else set
  .chars (if negated then set.complement else set)

theorem readClass_eq (f : Flags) (cs : List Char) :
    readClass f cs = (readSet f cs).map fun x => (classOf f x.1.1 x.1.2, x.2) := by
  rw [readSet, Option.map_map]
  exact (Option.map_eq_bind ..).symm

theorem readNegation_suffix : (readNegation f cs).2 <:+ cs := by
  unfold readNegation
  split
  · next rest heq => exact (skip_suffix f rest).trans (suffix_of_skip_eq heq)
  · exact skip_suffix f cs

theorem readFirst_suffix : (readFirst f cs).2 <:+ cs := by
  have hdashes : (readDashes f cs.length cs).2 <:+ cs := readDashes_suffix
  unfold readFirst
  dsimp only
  split
  · next rest heq =>
    have hrest : rest <:+ cs := (List.suffix_cons ..).trans (heq ▸ hdashes)
    split
    · exact (skip_suffix f rest).trans hrest
    · exact hdashes
  · exact hdashes

theorem ordered_readFirst : Ordered (readFirst f cs).1 := by
  unfold readFirst
  dsimp only
  split <;> split <;> simp

theorem readSet_reads : Reads (fun x => Ascending x.2.ranges) cs (readSet f cs) := by
  intro x rest h
  obtain ⟨⟨ranges, rest⟩, hitems, heq⟩ := Option.map_eq_some_iff.1 h
  obtain ⟨hranges, hrest⟩ := readClassItems_reads hitems
  cases heq
  exact ⟨ascending_ofRanges (List.forall_mem_append.2 ⟨ordered_readFirst, hranges⟩),
    hrest.trans (readFirst_suffix.trans readNegation_suffix)⟩

/-! ## Counts -/

theorem dropLazy_suffix (cs : List Char) : dropLazy cs <:+ cs := by
  unfold dropLazy
  split
  · exact List.suffix_cons ..
  · exact List.suffix_rfl

theorem readCountDigits_suffix : (readCountDigits f fuel cs).2 <:+ cs := by
  induction fuel generalizing cs with
  | zero => exact List.suffix_rfl
  | succ fuel ih =>
    cases cs with
    | nil => exact List.suffix_rfl
    | cons c rest =>
      rw [readCountDigits]
      split
      · exact ih.trans (suffix_cons (skip_suffix f rest))
      · exact List.suffix_rfl

theorem readCount_reads : Reads (fun _ => True) cs (readCount f cs) := by
  intro n after h
  obtain ⟨m, -, heq⟩ := Option.map_eq_some_iff.1 h
  cases heq
  exact ⟨trivial, ((skip_suffix ..).trans (trimStart_suffix _)).trans
    (readCountDigits_suffix.trans (trimStart_suffix cs))⟩

/-- The closing brace after the counts of a repetition, and the sign that may follow it. -/
def readClosing (f : Flags) (least : Nat) (most : Option Nat) :
    List Char → Option ((Nat × Option Nat) × List Char)
  | '\x7d' :: rest =>
    if most.any (· < least) then none else some ((least, most), dropLazy (f.skip rest))
  | _ => none

theorem readClosing_reads (least : Nat) (most : Option Nat) :
    Reads (fun _ => True) cs (readClosing f least most cs) := by
  unfold readClosing
  split
  · next rest =>
    split
    · exact .none
    · exact .some trivial (suffix_cons ((dropLazy_suffix _).trans (skip_suffix f rest)))
  · exact .none

theorem readCounts_reads : Reads (fun _ => True) cs (readCounts f cs) := by
  refine .of_suffix (.bind readCount_reads fun least rest _ => ?_) (skip_suffix f cs)
  dsimp only
  split
  · next rest =>
    have hskip := suffix_cons (c := ',') (skip_suffix f rest)
    split
    · exact .none
    · next after heq => exact .of_suffix (readClosing_reads least none) (heq ▸ hskip)
    · refine .of_suffix (.bind readCount_reads fun most after _ => ?_) hskip
      exact readClosing_reads least (some most)
  · exact readClosing_reads least (some least)

/-! ## Openings of groups -/

theorem readFlags_suffix {f' : Flags} {negative seenLetter : Bool} {seen : List Char}
    (h : readFlags f negative seenLetter seen cs = some (f', rest)) : rest <:+ cs := by
  induction cs generalizing f negative seenLetter seen with
  | nil => cases h
  | cons c cs ih =>
    rw [readFlags] at h
    split at h
    · split at h <;> cases h
      exact List.suffix_rfl
    · split at h
      · split at h
        · cases h
        · exact suffix_cons (ih h)
      · split at h
        · cases h
        · obtain ⟨f'', -, h⟩ := Option.bind_eq_some_iff.1 h
          exact suffix_cons (ih h)

theorem readGroupName_reads : Reads (fun _ => True) cs (readGroupName cs) := by
  unfold readGroupName
  dsimp only
  split
  · next heq =>
    split
    · exact .some trivial ((List.suffix_cons ..).trans (heq ▸ List.dropWhile_suffix _))
    · exact .none
  · exact .none

end Rulebook.Regex
