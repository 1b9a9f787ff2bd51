import Rulebook.Text.Ranges

/-!
# Sets of characters

Regular expressions describe single characters by sets. A set is kept as ranges
of code points in ascending order, with gaps between them, so that equal sets
are equal lists.

Letter case is that of basic Latin text, as in `regex-lite`. When a set is folded,
each of its ranges brings in the other case of its small letters; a range without
small letters brings in that of its capitals.
-/

namespace Rulebook

/-- **A set of characters**, given by ranges of code points. -/
structure CharSet where
  ranges : List (Nat × Nat)
  deriving DecidableEq, Repr

namespace CharSet

/-- **Whether a character is in a set.** -/
def contains (s : CharSet) (c : Char) : Bool := Text.inRanges s.ranges c

/-- Puts a range into ascending ranges and joins it with those that it touches. -/
def insertRange (first last : Nat) : List (Nat × Nat) → List (Nat × Nat)
  | [] => [(first, last)]
  | (low, high) :: rest =>
    if last + 1 < low then (first, last) :: (low, high) :: rest
    else if high + 1 < first then (low, high) :: insertRange first last rest
    else insertRange (min first low) (max last high) rest

/-- **The set of some ranges**, in any order. -/
def ofRanges (ranges : List (Nat × Nat)) : CharSet :=
  ⟨ranges.foldr (fun r rest => insertRange r.1 r.2 rest) []⟩

/-- The set of some characters. -/
def ofChars (cs : List Char) : CharSet := ofRanges (cs.map fun c => (c.toNat, c.toNat))

/-- Putting a range in adds its code points, if neither it nor any other range is
the wrong way round. -/
theorem inRanges_insertRange {first last : Nat} {ranges : List (Nat × Nat)} {c : Char}
    (h : first ≤ last) (hranges : ∀ r ∈ ranges, r.1 ≤ r.2) :
    Text.inRanges (insertRange first last ranges) c = true ↔
      (first ≤ c.toNat ∧ c.toNat ≤ last) ∨ Text.inRanges ranges c = true := by
  fun_induction insertRange first last ranges with
  | case1 first last => simp [Text.inRanges]
  | case2 first last low high rest hbefore => simp [Text.inRanges]
  | case3 first last low high rest _ hafter ih =>
    have hrest := List.forall_mem_cons.1 hranges
    simp only [Text.inRanges, List.any_cons, Bool.or_eq_true] at ih ⊢
    rw [ih h hrest.2]
    exact or_left_comm
  | case4 first last low high rest hbefore hafter ih =>
    have hrest := List.forall_mem_cons.1 hranges
    have hlow : low ≤ high := hrest.1
    simp only [Text.inRanges, List.any_cons, Bool.or_eq_true, Bool.and_eq_true, decide_eq_true_eq]
      at ih ⊢
    rw [ih (by omega) hrest.2, ← or_assoc]
    refine or_congr_left ?_
    omega

theorem le_of_mem_insertRange {first last : Nat} {ranges : List (Nat × Nat)}
    (h : first ≤ last) (hranges : ∀ r ∈ ranges, r.1 ≤ r.2) :
    ∀ r ∈ insertRange first last ranges, r.1 ≤ r.2 := by
  fun_induction insertRange first last ranges with
  | case1 first last => exact List.forall_mem_singleton.2 h
  | case2 first last low high rest hbefore => exact List.forall_mem_cons.2 ⟨h, hranges⟩
  | case3 first last low high rest _ hafter ih =>
    have hrest := List.forall_mem_cons.1 hranges
    exact List.forall_mem_cons.2 ⟨hrest.1, ih h hrest.2⟩
  | case4 first last low high rest hbefore hafter ih =>
    have hrest := List.forall_mem_cons.1 hranges
    have hlow : low ≤ high := hrest.1
    exact ih (by omega) hrest.2

/-- **A set of some ranges** has the characters of each. -/
theorem contains_ofRanges {ranges : List (Nat × Nat)} {c : Char}
    (h : ∀ r ∈ ranges, r.1 ≤ r.2) :
    (ofRanges ranges).contains c = true ↔ Text.inRanges ranges c = true := by
  have hboth : (∀ r ∈ (ofRanges ranges).ranges, r.1 ≤ r.2) ∧
      ((ofRanges ranges).contains c = true ↔ Text.inRanges ranges c = true) := by
    induction ranges with
    | nil => exact ⟨nofun, Iff.rfl⟩
    | cons r ranges ih =>
      obtain ⟨hr, h⟩ := List.forall_mem_cons.1 h
      obtain ⟨hordered, hcontains⟩ := ih h
      refine ⟨le_of_mem_insertRange hr hordered, ?_⟩
      refine (inRanges_insertRange hr hordered).trans ((or_congr_right hcontains).trans ?_)
      simp [Text.inRanges]
  exact hboth.2

/-- A set of some characters has just these. -/
theorem contains_ofChars {cs : List Char} {c : Char} :
    (ofChars cs).contains c = true ↔ c ∈ cs := by
  unfold ofChars
  rw [contains_ofRanges (by simp), Text.inRanges_iff]
  constructor
  · rintro ⟨r, hr, hle, hge⟩
    obtain ⟨d, hd, rfl⟩ := List.mem_map.1 hr
    have : c = d := Char.toNat_inj.1 (Nat.le_antisymm hge hle)
    exact this ▸ hd
  · intro hc
    exact ⟨_, List.mem_map_of_mem hc, Nat.le_refl _, Nat.le_refl _⟩

/-- The largest code point. -/
def lastCode : Nat := 0x10ffff

/-- What ascending ranges leave out from a code point on. -/
def gapsFrom : Nat → List (Nat × Nat) → List (Nat × Nat)
  | low, [] => if low ≤ lastCode then [(low, lastCode)] else []
  | low, (first, last) :: rest =>
    if low < first then (low, first - 1) :: gapsFrom (last + 1) rest else gapsFrom (last + 1) rest

/-- **The set of all other characters.** -/
def complement (s : CharSet) : CharSet := ⟨gapsFrom 0 s.ranges⟩

/-- A basic Latin letter in its other case; all else as it is. -/
def swapCase (c : Char) : Char := if c.isUpper then c.toLower else c.toUpper

/-- The small letters. -/
def small : Nat × Nat := (0x61, 0x7a)

/-- The capital letters. -/
def capital : Nat × Nat := (0x41, 0x5a)

/-- How far a small letter is from its capital. -/
def caseDistance : Nat := 0x20

/-- Whether two ranges have a code point in common. -/
def meet (r s : Nat × Nat) : Bool := max r.1 s.1 ≤ min r.2 s.2

/-- **What a range brings in when it is folded**: the capitals of its small
letters, or, if it has none, the small letters of its capitals. -/
def otherCase (r : Nat × Nat) : Option (Nat × Nat) :=
  if meet r small then some (max r.1 small.1 - caseDistance, min r.2 small.2 - caseDistance)
  else if meet r capital then
    some (max r.1 capital.1 + caseDistance, min r.2 capital.2 + caseDistance)
  else none

/-- **A set with the other case of its letters**, range by range. -/
def foldCase (s : CharSet) : CharSet := ofRanges (s.ranges ++ s.ranges.filterMap otherCase)

/-- The decimal digits. -/
def digits : CharSet := ⟨[(0x30, 0x39)]⟩

/-- The blanks of basic Latin text. -/
def blanks : CharSet := ⟨[(0x9, 0xd), (0x20, 0x20)]⟩

/-- The basic Latin letters, the digits and the underscore. -/
def wordChars : CharSet := ⟨[(0x30, 0x39), (0x41, 0x5a), (0x5f, 0x5f), (0x61, 0x7a)]⟩

end CharSet

end Rulebook
