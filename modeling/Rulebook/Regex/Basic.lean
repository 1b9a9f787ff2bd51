import Rulebook.Regex.Place

/-!
# Regular expressions

A regular expression describes texts by sets of characters, by conditions on
the place where it stands, and by sequence, alternation and repetition. Which
of several ways to match is preferred, and what groups capture, does not matter
here; only whether there is a match does.

The modules on regular expressions stand for the library `regex-lite`, and follow
what it documents:

* its notation is the usual one without Unicode classes, references to groups and
  look-around, with the flags `i`, `m`, `s`, `R`, `U` and `x` (`Regex.Reader`);
* letter case, letter classes, blanks and word boundaries are those of basic Latin
  (`Regex.CharSet`, `Regex.Place`);
* expressions nest fifty levels at most and take ten mebibytes at most, which are
  its limits unless told otherwise (`Regex.Reader`, `Regex.Room`);
* a search finds a match wherever in a text it begins (`Regex.Matching`).
-/

namespace Rulebook

/-- **A group that captures what it matches**: its number, and its name if it
has one. -/
structure Group where
  number : Nat
  name : Option (List Char)
  deriving DecidableEq, Repr

/-- **A regular expression.** -/
inductive Regex where
  /-- One certain character. -/
  | char (c : Char)
  /-- One character of a set. -/
  | chars (set : CharSet)
  /-- Nothing, where a condition holds. -/
  | look (condition : Look)
  /-- One after the other. -/
  | sequence (parts : List Regex)
  /-- One of several. -/
  | anyOf (branches : List Regex)
  /-- What a group is around. -/
  | group (g : Group) (part : Regex)
  /-- At least `least` times, and at most `most` times if that is given. -/
  | repetition (least : Nat) (most : Option Nat) (part : Regex)
  deriving Repr

namespace Regex

/-- What matches nothing but the empty text. -/
def empty : Regex := sequence []

/-- A single part needs no sequence around it. -/
def ofParts : List Regex → Regex
  | [r] => r
  | rs => sequence rs

/-- A single branch needs no alternation around it. -/
def ofBranches : List Regex → Regex
  | [r] => r
  | rs => anyOf rs

/-- One character, in either case if it is a basic Latin letter. -/
def eitherCase (c : Char) : Regex :=
  if c.isAlpha then chars (.ofChars [c, CharSet.swapCase c]) else char c

mutual

/-- How deep an expression nests, less one. -/
def height : Regex → Nat
  | char _ | chars _ | look _ => 0
  | sequence [] => 0
  | sequence rs => heightAll rs + 1
  | anyOf rs => heightAll rs + 1
  | group _ r => height r + 1
  | repetition _ _ r => height r + 1

/-- How deep the deepest of some expressions nests, less one. -/
def heightAll : List Regex → Nat
  | [] => 0
  | r :: rs => max (height r) (heightAll rs)

end

end Regex

end Rulebook
