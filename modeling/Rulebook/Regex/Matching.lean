import Rulebook.Regex.Basic

/-!
# Matching regular expressions

An expression that starts at some places of a text may end at several others,
and all of them are found at once. A set of places is a number: its binary digit
`i` says whether the place after the first `i` characters is in it. Seen from one
text, an expression is a walk, whose steps know the places where they are
possible.

This is not how `regex-lite` runs an expression, which is as a machine in steps; but
whether there is a match does not depend on that.

A repetition without a bound need not be tried more often than there are
characters, since a round that takes no character leads nowhere new.
-/

namespace Rulebook

/-- **A set of places of a text**, by binary digits. -/
abbrev PlaceSet := Nat

/-- **The numbers of the items that pass a test**, as binary digits. -/
def PlaceSet.ofTest {α : Type} (test : α → Bool) (items : List α) : PlaceSet :=
  items.foldr (fun a rest => 2 * rest + (test a).toNat) 0

/-- **An expression seen from one text.** Places are worked out when a walk first
gets there. -/
inductive Walk where
  /-- One character further, from some places. -/
  | forward (origins : Thunk PlaceSet)
  /-- On the spot, at some places. -/
  | stay (spots : Thunk PlaceSet)
  /-- One after the other. -/
  | inTurn (walks : List Walk)
  /-- One of several. -/
  | either (walks : List Walk)
  /-- So many rounds, and at most so many more. -/
  | rounds (required extra : Nat) (walk : Walk)

namespace Walk

/-- **Applies a step so many times**; there is no need to go on once it changes
nothing. -/
def iterate (step : PlaceSet → PlaceSet) : Nat → PlaceSet → PlaceSet
  | 0, ps => ps
  | n + 1, ps =>
    let next := step ps
    if next = ps then ps else iterate step n next

mutual

/-- **Where a walk that starts at some places may end.** -/
def ends : Walk → PlaceSet → PlaceSet
  | forward origins, ps => 2 * (ps &&& origins.get)
  | stay spots, ps => ps &&& spots.get
  | inTurn ws, ps => endsInTurn ws ps
  | either ws, ps => endsOfAny ws ps
  | rounds required extra w, ps =>
    iterate (fun ps => ps ||| ends w ps) extra (iterate (fun ps => ends w ps) required ps)

/-- Where some walks end, one after the other. -/
def endsInTurn : List Walk → PlaceSet → PlaceSet
  | [], ps => ps
  | w :: ws, ps => if ps = 0 then 0 else endsInTurn ws (ends w ps)

/-- Where one of some walks ends. -/
def endsOfAny : List Walk → PlaceSet → PlaceSet
  | [], _ => 0
  | w :: ws, ps => ends w ps ||| endsOfAny ws ps

end

end Walk

namespace Regex

/-- How many rounds beyond the required ones are worth trying in a text of some
length. -/
def extraRounds (least : Nat) (most : Option Nat) (length : Nat) : Nat :=
  match most with
  | none => length
  | some most => min (most - least) length

mutual

/-- **An expression as a walk through a text**, whose characters and places are
given. -/
def walk (cs : List Char) (places : List Place) : Regex → Walk
  | char c => .forward ⟨fun _ => .ofTest (· == c) cs⟩
  | chars s => .forward ⟨fun _ => .ofTest s.contains cs⟩
  | look l => .stay ⟨fun _ => .ofTest l.holds places⟩
  | sequence rs => .inTurn (walkAll cs places rs)
  | anyOf rs => .either (walkAll cs places rs)
  | group _ r => walk cs places r
  | repetition least most r =>
    .rounds least (extraRounds least most cs.length) (walk cs places r)

/-- Some expressions as walks. -/
def walkAll (cs : List Char) (places : List Place) : List Regex → List Walk
  | [] => []
  | r :: rs => walk cs places r :: walkAll cs places rs

end

/-- **Whether an expression matches somewhere in a text**: started at all places
at once, it ends at some place. -/
def isMatch (r : Regex) (text : String) : Bool :=
  let cs := text.toList
  let places := Place.all cs
  (r.walk cs places).ends (.ofTest (fun _ => true) places) != 0

end Regex

end Rulebook
