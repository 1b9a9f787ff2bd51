import Mathlib.Data.List.Infix
import Rulebook.Proofs.CaseFolding
import Rulebook.Proofs.PatternReading

/-!
# Patterns from records and letter case

A pattern from a record is read behind the flags of all patterns, the first of which says
to ignore case. Read under this flag, characters, escapes and classes become expressions
that ignore case, and so does what is put together from them.

There are two things in a pattern that undo this. Flags of its own, other than those that
it begins with, can clear the flag again, for a group or for what follows. And there are
classes that folding does not complete. A pattern with neither of them ignores case.
-/

namespace Rulebook

namespace Regex

open CharSet

variable {f : Flags} {c : Char} {cs rest : List Char} {r : Regex} {parts branches : List Regex}

/-! ## What is read under ignored case -/

theorem ignoresCase_char (hf : f.ignoreCase = true) (c : Char) : (f.char c).IgnoresCase := by
  rw [Flags.char, if_pos hf, eitherCase]
  split
  · exact .chars (ignoresCase_pair c)
  · next halpha => exact .char (Bool.eq_false_iff.2 halpha)

theorem ignoresCase_dot (f : Flags) : f.dot.IgnoresCase := by
  refine .chars (.complement (ignoresCase_ofChars ?_) (ascending_ofChars _))
  split
  · nofun
  · split
    · exact List.forall_mem_cons.2 ⟨by decide, List.forall_mem_singleton.2 (by decide)⟩
    · exact List.forall_mem_singleton.2 (by decide)

theorem ignoresCase_classOf (hf : f.ignoreCase = true) (negated : Bool) {set : CharSet}
    (hset : set.FoldsFully) (hordered : Ordered set.ranges) :
    (classOf f negated set).IgnoresCase := by
  have hfolded := hset.ignoresCase hordered
  rw [classOf, if_pos hf]
  refine .chars ?_
  cases negated
  · exact hfolded
  · exact hfolded.complement (ascending_ofRanges (ordered_append_otherCase hordered))

theorem ignoresCase_ofParts (h : ∀ r ∈ parts, r.IgnoresCase) : (ofParts parts).IgnoresCase := by
  unfold ofParts
  split
  · exact h _ (List.mem_singleton_self _)
  · exact .sequence h

theorem ignoresCase_ofBranches (h : ∀ r ∈ branches, r.IgnoresCase) :
    (ofBranches branches).IgnoresCase := by
  unfold ofBranches
  split
  · exact h _ (List.mem_singleton_self _)
  · exact .anyOf h

theorem ignoresCase_finish (hbranches : ∀ r ∈ branches, r.IgnoresCase)
    (hparts : ∀ r ∈ parts, r.IgnoresCase) : (finish branches parts).IgnoresCase := by
  refine ignoresCase_ofBranches (List.forall_mem_append.2 ⟨?_, ?_⟩)
  · exact fun r hr => hbranches r (List.mem_reverse.1 hr)
  · exact List.forall_mem_singleton.2
      (ignoresCase_ofParts fun r hr => hparts r (List.mem_reverse.1 hr))

theorem ignoresCase_enclose (h : r.IgnoresCase) (opening : Opening) (number : Nat) :
    (opening.enclose number r).IgnoresCase := by
  cases opening with
  | flags f => exact h
  | plain f => exact h
  | capturing name => exact .group _ h

theorem ignoresCase_repeatLast {least : Nat} {most : Option Nat} {parts' : List Regex}
    (h : repeatLast least most parts = some parts') (hparts : ∀ r ∈ parts, r.IgnoresCase) :
    ∀ r ∈ parts', r.IgnoresCase := by
  cases parts with
  | nil => cases h
  | cons r rs =>
    obtain ⟨hr, hrs⟩ := List.forall_mem_cons.1 hparts
    rw [repeatLast] at h
    split at h
    · cases h
      exact List.forall_mem_cons.2 ⟨.sequence nofun, hrs⟩
    · split at h <;> cases h
      · exact hparts
      · exact List.forall_mem_cons.2 ⟨.repetition least most hr, hrs⟩

/-! ## Flags of a pattern -/

/-- Whether flags, as they are written, clear the one to ignore case: its letter stands
behind a dash. -/
def clearsCase (cs : List Char) : Bool :=
  ((cs.takeWhile fun c => c ≠ ':' && c ≠ ')').dropWhile (· ≠ '-')).contains 'i'

/-- **Whether a group stops ignoring case**, by what follows its parenthesis. Under free
spacing there may be blanks and comments before the flags. -/
def stopsIgnoring (cs : List Char) : Bool :=
  [cs, dropFree cs.length cs].any fun
    | '?' :: flags => clearsCase flags
    | _ => false

theorem ignoreCase_put {f' : Flags} {on : Bool} (h : f.put c on = some f')
    (hf : f.ignoreCase = true) (hc : on = true ∨ c ≠ 'i') : f'.ignoreCase = true := by
  unfold Flags.put at h
  split at h <;> cases h
  case h_1 => simpa using hc
  all_goals exact hf

theorem ignoreCase_readFlags {f' : Flags} {negative seenLetter : Bool} {seen : List Char}
    (h : readFlags f negative seenLetter seen cs = some (f', rest)) (hf : f.ignoreCase = true)
    (hcs : if negative then 'i' ∉ cs.takeWhile fun c => c ≠ ':' && c ≠ ')'
      else clearsCase cs = false) : f'.ignoreCase = true := by
  induction cs generalizing f negative seenLetter seen with
  | nil => cases h
  | cons c cs ih =>
    rw [readFlags] at h
    split at h
    · split at h <;> cases h
      exact hf
    · next hend =>
      have htake : (c :: cs).takeWhile (fun c => c ≠ ':' && c ≠ ')') =
          c :: cs.takeWhile fun c => c ≠ ':' && c ≠ ')' :=
        List.takeWhile_cons_of_pos (by simpa using hend)
      rw [clearsCase, htake] at hcs
      split at h
      · next hdash =>
        subst hdash
        cases negative with
        | true => cases h
        | false => exact ih h hf (by simpa using hcs)
      · next hdash =>
        split at h
        · cases h
        · obtain ⟨f'', hput, h⟩ := Option.bind_eq_some_iff.1 h
          cases negative with
          | true =>
            obtain ⟨hc, hcs⟩ := not_or.1 (mt List.mem_cons.2 hcs)
            exact ih h (ignoreCase_put hput hf (.inr (Ne.symm hc))) hcs
          | false =>
            refine ih h (ignoreCase_put hput hf (.inl rfl)) ?_
            rwa [if_neg Bool.false_ne_true, List.dropWhile_cons_of_pos (by simpa using hdash)]
              at hcs

theorem clearsCase_of_skip {flags : List Char} (h : stopsIgnoring cs = false)
    (hskip : f.skip cs = '?' :: flags) : clearsCase flags = false := by
  have hall := List.any_eq_false.1 h
  have hmem : f.skip cs ∈ [cs, dropFree cs.length cs] := by
    unfold Flags.skip
    split <;> simp
  have hnot := hall _ hmem
  rw [hskip] at hnot
  exact Bool.eq_false_iff.2 hnot

/-- **A group that does not stop ignoring case**, does not. -/
theorem readOpening_reads (hf : f.ignoreCase = true) (hcs : stopsIgnoring cs = false) :
    Reads (fun o => (o.inner f).ignoreCase = true) cs (readOpening f cs) := by
  have hskip := skip_suffix f cs
  have hname (names : List Char) : Reads (fun o => (Opening.inner f o).ignoreCase = true) names
      ((readGroupName names).map fun x => (.capturing (some x.1), x.2)) :=
    Reads.map (g := fun name => Opening.capturing (some name)) readGroupName_reads fun _ _ => hf
  unfold readOpening
  split
  · exact .none
  · exact .none
  · exact .none
  · exact .none
  · next names heq =>
    rw [heq] at hskip
    exact (hname names).of_suffix ((List.suffix_append ['?', 'P', '<'] names).trans hskip)
  · next names _ _ heq =>
    rw [heq] at hskip
    exact (hname names).of_suffix ((List.suffix_append ['?', '<'] names).trans hskip)
  · next flags _ _ _ _ _ _ heq =>
    have hflags : flags <:+ cs := suffix_of_skip_eq heq
    have hclears := clearsCase_of_skip hcs heq
    split
    · next f' after hread =>
      have hafter := (List.suffix_cons ..).trans (readFlags_suffix hread)
      exact .some (ignoreCase_readFlags hread hf hclears) (hafter.trans hflags)
    · next f' after hread =>
      have hafter := (List.suffix_cons ..).trans (readFlags_suffix hread)
      split
      · exact .none
      · exact .some (ignoreCase_readFlags hread hf hclears) (hafter.trans hflags)
    · exact .none
  · exact .some hf hskip

/-! ## Whole patterns -/

/-- **A pattern in which nothing makes case matter**: none of its groups stops ignoring case,
and each of its classes is one that folding completes. Every parenthesis and every bracket
counts as the beginning of a group or a class here, even one that stands for itself. -/
structure AsksNoCase (cs : List Char) : Prop where
  groups : ∀ rest, '(' :: rest <:+ cs → stopsIgnoring rest = false
  classes : ∀ (f : Flags) (rest : List Char) (negated : Bool) (set : CharSet)
    (after : List Char), f.ignoreCase = true → '[' :: rest <:+ cs →
    readSet f rest = some ((negated, set), after) → set.FoldsFully

theorem AsksNoCase.of_suffix (h : AsksNoCase cs) (hrest : rest <:+ cs) : AsksNoCase rest where
  groups _ hgroup := h.groups _ (hgroup.trans hrest)
  classes _ _ _ _ _ hf hclass := h.classes _ _ _ _ _ hf (hclass.trans hrest)

theorem readClass_reads (hf : f.ignoreCase = true) (hcs : AsksNoCase ('[' :: cs)) :
    Reads IgnoresCase cs (readClass f cs) := by
  rw [readClass_eq]
  intro r after h
  obtain ⟨⟨⟨negated, set⟩, after⟩, hread, heq⟩ := Option.map_eq_some_iff.1 h
  cases heq
  obtain ⟨hset, hafter⟩ := readSet_reads hread
  have hfolds := hcs.classes f cs negated set after hf List.suffix_rfl hread
  exact ⟨ignoresCase_classOf hf negated hfolds hset.ordered, hafter⟩

/-- What an escape stands for, as a part of an expression. -/
theorem ignoresCase_item (hf : f.ignoreCase = true) : ∀ i : Item, i.Fine →
    IgnoresCase (match i with
      | .char c => f.char c
      | .chars s => .chars s
      | .look l => .look l)
  | .char c, _ => ignoresCase_char hf c
  | .chars _, h => .chars h.1
  | .look l, _ => .look l

/-- **Branches that are read while case is ignored** ignore case, if nothing in them makes it
matter. -/
theorem ignoresCase_readBranches {fuel depth : Nat} {cap cap' : Captures}
    (h : readBranches fuel depth f cap branches parts cs = some (r, cap', rest))
    (hf : f.ignoreCase = true) (hcs : AsksNoCase cs) (hbranches : ∀ r ∈ branches, r.IgnoresCase)
    (hparts : ∀ r ∈ parts, r.IgnoresCase) : r.IgnoresCase ∧ rest <:+ cs := by
  induction fuel generalizing depth f cap branches parts cs r cap' rest with
  | zero => cases h
  | succ fuel ih =>
    -- one more part, and the rest of the text
    have hpart {f : Flags} {cap : Captures} {part : Regex} {after : List Char}
        (h : readBranches fuel depth f cap branches (part :: parts) after = some (r, cap', rest))
        (hf : f.ignoreCase = true) (hpart : part.IgnoresCase) (hafter : after <:+ cs) :
        r.IgnoresCase ∧ rest <:+ cs := by
      obtain ⟨hr, hrest⟩ := ih h hf (hcs.of_suffix hafter) hbranches
        (List.forall_mem_cons.2 ⟨hpart, hparts⟩)
      exact ⟨hr, hrest.trans hafter⟩
    -- the last part repeated, and the rest of the text
    have hrepeat {least : Nat} {most : Option Nat} {after : List Char}
        (h : ((repeatLast least most parts).bind fun parts =>
          readBranches fuel depth f cap branches parts after) = some (r, cap', rest))
        (hafter : after <:+ cs) : r.IgnoresCase ∧ rest <:+ cs := by
      obtain ⟨parts', hrepeat, h⟩ := Option.bind_eq_some_iff.1 h
      obtain ⟨hr, hrest⟩ := ih h hf (hcs.of_suffix hafter) hbranches
        (ignoresCase_repeatLast hrepeat hparts)
      exact ⟨hr, hrest.trans hafter⟩
    have hskip := skip_suffix f cs
    rw [readBranches] at h
    split at h
    · cases h
      exact ⟨ignoresCase_finish hbranches hparts, List.nil_suffix⟩
    · next inside heq =>
      have hinside := suffix_of_skip_eq heq
      rw [heq] at hskip
      have hopening := readOpening_reads hf (hcs.groups _ hskip)
      split at h
      · cases h
      · next f' after hread =>
        -- flags for the rest of the group around
        obtain ⟨hf', hafter⟩ := hopening hread
        have hafter := hafter.trans hinside
        obtain ⟨hr, hrest⟩ := ih h hf' (hcs.of_suffix hafter) hbranches hparts
        exact ⟨hr, hrest.trans hafter⟩
      · next opening after _ hread =>
        -- a group, and what follows its closing parenthesis
        obtain ⟨hf', hafter⟩ := hopening hread
        have hafter := hafter.trans hinside
        split at h
        · cases h
        · split at h
          · cases h
          · split at h
            · next part _ after' hgroup =>
              obtain ⟨hgroup, hafter'⟩ := ih hgroup hf' (hcs.of_suffix hafter) nofun nofun
              exact hpart h hf (ignoresCase_enclose hgroup opening _)
                (((List.suffix_cons ..).trans hafter').trans hafter)
            · cases h
    · next after heq =>
      split at h <;> cases h
      exact ⟨ignoresCase_finish hbranches hparts, heq ▸ hskip⟩
    · next after heq =>
      have hafter := suffix_of_skip_eq heq
      obtain ⟨hr, hrest⟩ := ih h hf (hcs.of_suffix hafter) (List.forall_mem_cons.2
        ⟨ignoresCase_ofParts fun r hr => hparts r (List.mem_reverse.1 hr), hbranches⟩) nofun
      exact ⟨hr, hrest.trans hafter⟩
    · next after heq =>
      have hafter := suffix_of_skip_eq heq
      rw [heq] at hskip
      obtain ⟨⟨part, after'⟩, hread, h⟩ := Option.bind_eq_some_iff.1 h
      obtain ⟨hclass, hafter'⟩ := readClass_reads hf (hcs.of_suffix hskip) hread
      exact hpart h hf hclass (hafter'.trans hafter)
    · next after heq => exact hrepeat h ((dropLazy_suffix _).trans (suffix_of_skip_eq heq))
    · next after heq => exact hrepeat h ((dropLazy_suffix _).trans (suffix_of_skip_eq heq))
    · next after heq => exact hrepeat h ((dropLazy_suffix _).trans (suffix_of_skip_eq heq))
    · next after heq =>
      obtain ⟨⟨⟨least, most⟩, after'⟩, hread, h⟩ := Option.bind_eq_some_iff.1 h
      exact hrepeat h ((readCounts_reads hread).2.trans (suffix_of_skip_eq heq))
    · next after heq =>
      obtain ⟨⟨item, after'⟩, hread, h⟩ := Option.bind_eq_some_iff.1 h
      obtain ⟨hitem, hafter'⟩ := readEscape_reads hread
      exact hpart h hf (ignoresCase_item hf item hitem) (hafter'.trans (suffix_of_skip_eq heq))
    · next after heq => exact hpart h hf (ignoresCase_dot f) (suffix_of_skip_eq heq)
    · next after heq => exact hpart h hf (.look _) (suffix_of_skip_eq heq)
    · next after heq => exact hpart h hf (.look _) (suffix_of_skip_eq heq)
    · next heq => exact hpart h hf (ignoresCase_char hf _) (suffix_of_skip_eq heq)

/-- What is read behind the flags of all patterns ignores case. -/
theorem ignoresCase_read {text : String} (h : read (BonusPattern.flagsText ++ text) = some r)
    (htext : AsksNoCase text.toList) : r.IgnoresCase := by
  have hflags (fuel : Nat) (body : List Char) :
      readBranches (fuel + 1) 0 .none ⟨0, []⟩ [] [] (BonusPattern.flagsText.toList ++ body) =
        readBranches fuel 0 ⟨true, true, false, false, false, false⟩ ⟨0, []⟩ [] [] body := rfl
  rw [read, String.toList_append, hflags] at h
  split at h
  · next hread =>
    split at h <;> cases h
    exact (ignoresCase_readBranches hread rfl htext nofun nofun).1
  · cases h

end Regex

namespace BonusPattern

/-- **A pattern from a record ignores case** if nothing in it makes case matter: of two texts
that differ only in the case of basic Latin letters, it matches both or neither. The flags
that the pattern begins with do not count, since they are dropped. -/
theorem isMatch_custom_eq {text : String} {p : BonusPattern} (h : custom text = .ok p)
    (htext : Regex.AsksNoCase (dropFlags (Text.trimChars text.toList))) {s t : String}
    (hst : Text.sameIgnoringCase s t = true) : p.isMatch s = p.isMatch t := by
  unfold custom at h
  dsimp only at h
  split at h
  · cases h
  · split at h
    · next regex hread =>
      cases h
      exact (Regex.ignoresCase_read hread (by rwa [String.toList_ofList])).isMatch_eq hst
    · cases h

/-- A pattern for rings. -/
def ringText : String := "ring of protection ([-+]\\d+)"

theorem asksNoCase_ring : Regex.AsksNoCase (dropFlags (Text.trimChars ringText.toList)) := by
  have hbody : dropFlags (Text.trimChars ringText.toList) = ringText.toList := by decide
  rw [hbody]
  constructor
  · intro rest h
    have hall : ∀ t ∈ ringText.toList.tails, t.head? = some '(' →
        Regex.stopsIgnoring t.tail = false := by decide
    exact hall _ ((List.mem_tails _ _).2 h) rfl
  · intro f rest negated set after hf h hread
    have hall : ∀ t ∈ ringText.toList.tails, t.head? = some '[' → t.tail = "-+]\\d+)".toList := by
      decide
    obtain rfl : rest = _ := hall _ ((List.mem_tails _ _).2 h) rfl
    obtain ⟨ignoreCase, multiLine, dotAll, swapGreed, returnLines, freeSpacing⟩ := f
    obtain rfl : ignoreCase = true := hf
    have hset : set = .ofRanges [(45, 45), (43, 43)] := by
      cases freeSpacing <;> cases hread <;> rfl
    subst hset
    decide

theorem isMatch_custom_ring : ∃ p, custom ringText = .ok p ∧
    p.isMatch "ring of protection +1" = p.isMatch "Ring Of Protection +1" := by
  have hcustom : custom ringText = .ok ⟨flagsText ++ ringText,
      .sequence ("ring of protection ".toList.map Regex.eitherCase ++ [signedNumber 1])⟩ := by
    with_unfolding_all rfl
  exact ⟨_, hcustom, isMatch_custom_eq hcustom asksNoCase_ring (by decide)⟩

/-- **Flags inside a pattern can make case matter.** -/
theorem isMatch_custom_cloak : ∃ p, custom "(?-i)cloak" = .ok p ∧
    Text.sameIgnoringCase "cloak" "Cloak" = true ∧ p.isMatch "cloak" = true ∧
      p.isMatch "Cloak" = false := by
  refine ⟨⟨"(?im)(?-i)cloak", .sequence ("cloak".toList.map .char)⟩, ?_, by decide, by decide,
    by decide⟩
  with_unfolding_all rfl

end BonusPattern

end Rulebook
