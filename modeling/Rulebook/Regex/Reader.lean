import Rulebook.Regex.Room
import Rulebook.Text.Alphabetic
import Rulebook.Text.Blank
import Rulebook.Text.Letters
import Rulebook.Text.Whole

/-!
# Reading regular expressions

The notation of `regex-lite`: characters stand for themselves, but for the signs of
alternation, grouping, repetition and classes. Letter classes, blanks and word
boundaries know basic Latin only. There are no references to groups, no
look-around and no Unicode classes, and a text that uses them is refused, as is
one that nests too deeply or would take too much room.

Flags such as `(?i)` hold from where they stand to the end of the group around
them.
-/

namespace Rulebook.Regex

/-- **The flags in force.** Preferring short matches is read but has no
bearing on whether there is one. -/
structure Flags where
  ignoreCase : Bool
  multiLine : Bool
  dotAll : Bool
  swapGreed : Bool
  returnLines : Bool
  freeSpacing : Bool
  deriving DecidableEq, Repr

/-- No flags. -/
def Flags.none : Flags := ⟨false, false, false, false, false, false⟩

/-- Sets or clears the flag of a letter. -/
def Flags.put (f : Flags) (c : Char) (on : Bool) : Option Flags :=
  match c with
  | 'i' => some { f with ignoreCase := on }
  | 'm' => some { f with multiLine := on }
  | 's' => some { f with dotAll := on }
  | 'U' => some { f with swapGreed := on }
  | 'R' => some { f with returnLines := on }
  | 'x' => some { f with freeSpacing := on }
  | 'u' => some f
  | _ => Option.none

/-- How deep groups and expressions may nest. -/
def deepest : Nat := 50

/-- A text without a comment and its line end. -/
def dropComment (cs : List Char) : List Char := (cs.dropWhile (· ≠ '\n')).drop 1

/-- A text without the blanks and comments at its start, which free spacing
allows. Every round takes a character, so the length is fuel enough. -/
def dropFree : Nat → List Char → List Char
  | 0, cs => cs
  | fuel + 1, cs =>
    match cs with
    | [] => []
    | c :: rest =>
      if Text.isBlank c then dropFree fuel rest
      else if c = '#' then dropFree fuel (dropComment rest)
      else cs

/-- A text without what free spacing passes over, if it is on. -/
def Flags.skip (f : Flags) (cs : List Char) : List Char :=
  if f.freeSpacing then dropFree cs.length cs else cs

/-- The part that stands for one character. -/
def Flags.char (f : Flags) (c : Char) : Regex := if f.ignoreCase then eitherCase c else .char c

/-- What the dot stands for. -/
def Flags.dot (f : Flags) : Regex :=
  .chars <| CharSet.complement <| .ofChars <|
    if f.dotAll then [] else if f.returnLines then ['\n', '\r'] else ['\n']

/-- What the circumflex stands for. -/
def Flags.lineStart (f : Flags) : Look :=
  if f.multiLine then if f.returnLines then .returnLineStart else .lineStart else .textStart

/-- What the dollar sign stands for. -/
def Flags.lineEnd (f : Flags) : Look :=
  if f.multiLine then if f.returnLines then .returnLineEnd else .lineEnd else .textEnd

/-- The characters with a meaning of their own. -/
def isMeta (c : Char) : Bool :=
  ['\\', '.', '+', '*', '?', '(', ')', '|', '[', ']', '\x7b', '\x7d', '^', '$', '#', '&', '-',
    '~'].contains c

/-- The characters that a backslash takes as they are. -/
def isEscapable (c : Char) : Bool :=
  isMeta c || (c.toNat < 128 && !c.isAlphanum && c ≠ '<' && c ≠ '>')

/-- **What an escape may stand for.** -/
inductive Item where
  /-- One character. -/
  | char (c : Char)
  /-- A class of characters. -/
  | chars (set : CharSet)
  /-- A condition. -/
  | look (l : Look)

/-- The character of a hexadecimal number; surrogates are none. -/
def charOfHex (digits : List Char) : Option Char :=
  let value := digits.foldl (fun n c =>
    16 * n + (if c.isDigit then c.toNat - 0x30 else c.toLower.toNat - 0x57)) 0
  if value.isValidChar then some (Char.ofNat value) else none

/-- Whether a character is a hexadecimal digit. -/
def isHex (c : Char) : Bool := c.isDigit || ('a' ≤ c.toLower && c.toLower ≤ 'f')

/-- A number of hexadecimal digits, possibly with free spacing between. -/
def readHexDigits (f : Flags) : Nat → List Char → Option (List Char × List Char)
  | 0, cs => some ([], cs)
  | n + 1, c :: cs =>
    if isHex c then (readHexDigits f n (f.skip cs)).map fun (ds, rest) => (c :: ds, rest)
    else none
  | _ + 1, [] => none

/-- Hexadecimal digits up to a closing brace. -/
def readHexBraced (f : Flags) : Nat → List Char → Option (List Char × List Char)
  | 0, _ => none
  | fuel + 1, cs =>
    match f.skip cs with
    | '\x7d' :: rest => some ([], f.skip rest)
    | c :: rest =>
      if isHex c then (readHexBraced f fuel rest).map fun (ds, rest) => (c :: ds, rest) else none
    | [] => none

/-- A character by its number, after the letter that says how many digits it
has. -/
def readHex (f : Flags) (digits : Nat) (cs : List Char) : Option (Item × List Char) :=
  match f.skip cs with
  | '\x7b' :: rest => do
    let (ds, rest) ← readHexBraced f (rest.length + 1) rest
    if ds.isEmpty then none
    else return (.char (← charOfHex ds), rest)
  | [] => none
  | cs => do
    let (ds, rest) ← readHexDigits f digits cs
    return (.char (← charOfHex ds), rest)

/-- Whether a character may stand in the name of a special boundary. -/
def isBoundaryPart (c : Char) : Bool := c.isAlpha || c = '-'

/-- The name of a special boundary and what follows it. -/
def readBoundaryName (f : Flags) : Nat → List Char → List Char × List Char
  | 0, cs => ([], cs)
  | fuel + 1, cs =>
    match cs with
    | c :: rest =>
      if isBoundaryPart c then
        let (name, rest) := readBoundaryName f fuel (f.skip rest)
        (c :: name, rest)
      else ([], cs)
    | [] => ([], [])

/-- **A word boundary**, after its letter. A brace with a letter in it names a
special one; any other brace begins a repetition. -/
def readBoundary (f : Flags) (cs : List Char) : Option (Item × List Char) :=
  match cs with
  | '\x7b' :: rest =>
    match f.skip rest with
    | [] => none
    | c :: rest' =>
      if !isBoundaryPart c then some (.look .boundary, cs)
      else
        match readBoundaryName f (rest'.length + 1) (c :: rest') with
        | (name, '\x7d' :: rest) =>
          match String.ofList name with
          | "start" => some (.look .wordStart, rest)
          | "end" => some (.look .wordEnd, rest)
          | "start-half" => some (.look .wordStartHalf, rest)
          | "end-half" => some (.look .wordEndHalf, rest)
          | _ => none
        | _ => none
  | cs => some (.look .boundary, cs)

/-- **What an escape stands for**, after its backslash. -/
def readEscape (f : Flags) : List Char → Option (Item × List Char)
  | [] => none
  | c :: cs =>
    match c with
    | 'x' => readHex f 2 cs
    | 'u' => readHex f 4 cs
    | 'U' => readHex f 8 cs
    | 'd' => some (.chars .digits, cs)
    | 's' => some (.chars .blanks, cs)
    | 'w' => some (.chars .wordChars, cs)
    | 'D' => some (.chars CharSet.digits.complement, cs)
    | 'S' => some (.chars CharSet.blanks.complement, cs)
    | 'W' => some (.chars CharSet.wordChars.complement, cs)
    | 'a' => some (.char '\x07', cs)
    | 'f' => some (.char '\x0c', cs)
    | 't' => some (.char '\t', cs)
    | 'n' => some (.char '\n', cs)
    | 'r' => some (.char '\r', cs)
    | 'v' => some (.char '\x0b', cs)
    | 'A' => some (.look .textStart, cs)
    | 'z' => some (.look .textEnd, cs)
    | 'b' => readBoundary f cs
    | 'B' => some (.look .noBoundary, cs)
    | '<' => some (.look .wordStart, cs)
    | '>' => some (.look .wordEnd, cs)
    | c => if isEscapable c then some (.char c, cs) else none

/-- The classes with names. -/
def namedClass? : String → Option CharSet
  | "alnum" => some ⟨[(0x30, 0x39), (0x41, 0x5a), (0x61, 0x7a)]⟩
  | "alpha" => some ⟨[(0x41, 0x5a), (0x61, 0x7a)]⟩
  | "ascii" => some ⟨[(0, 0x7f)]⟩
  | "blank" => some ⟨[(0x9, 0x9), (0x20, 0x20)]⟩
  | "cntrl" => some ⟨[(0, 0x1f), (0x7f, 0x7f)]⟩
  | "digit" => some .digits
  | "graph" => some ⟨[(0x21, 0x7e)]⟩
  | "lower" => some ⟨[(0x61, 0x7a)]⟩
  | "print" => some ⟨[(0x20, 0x7e)]⟩
  | "punct" => some ⟨[(0x21, 0x2f), (0x3a, 0x40), (0x5b, 0x60), (0x7b, 0x7e)]⟩
  | "space" => some .blanks
  | "upper" => some ⟨[(0x41, 0x5a)]⟩
  | "word" => some .wordChars
  | "xdigit" => some ⟨[(0x30, 0x39), (0x41, 0x46), (0x61, 0x66)]⟩
  | _ => none

/-- A class with a name, such as `[:alpha:]`, after its bracket. -/
def readNamedClass : List Char → Option (List (Nat × Nat) × List Char)
  | ':' :: cs =>
    let (negated, cs) := match cs with
      | '^' :: cs => (true, cs)
      | cs => (false, cs)
    let name := cs.takeWhile (· ≠ ':')
    match cs.dropWhile (· ≠ ':') with
    | ':' :: ']' :: rest =>
      (namedClass? (String.ofList name)).map fun set =>
        ((if negated then set.complement else set).ranges, rest)
    | _ => none
  | _ => none

/-- **An item of a class**: a character or an escape. Under ignored case an
escaped letter stands for both its cases and so is a class. -/
def readItem (f : Flags) : List Char → Option (Item × List Char)
  | '\\' :: cs =>
    match readEscape f cs with
    | some (.char c, rest) =>
      if f.ignoreCase && c.isAlpha then some (.chars (.ofChars [c, CharSet.swapCase c]), rest)
      else some (.char c, rest)
    | r => r
  | c :: cs => some (.char c, cs)
  | [] => none

/-- The ranges of an item; a condition has none. -/
def Item.toRanges : Item → Option (List (Nat × Nat))
  | char c => some [(c.toNat, c.toNat)]
  | chars s => some s.ranges
  | look _ => none

/-- The single character of an item. -/
def Item.toChar : Item → Option Char
  | char c => some c
  | _ => none

/-- What a dash in a class is taken to stand before. Free spacing passes over
blanks and the sign of a comment, but not over the comment itself. -/
def Flags.beyondDash (f : Flags) (cs : List Char) : Option Char :=
  if f.freeSpacing then
    match Text.trimStart cs with
    | '#' :: rest => (Text.trimStart rest).head?
    | cs => cs.head?
  else cs.head?

/-- One item of a class or a range of characters, and what follows it. A dash
before the end of the class or before another dash makes no range. -/
def readClassRange (f : Flags) (cs : List Char) : Option (List (Nat × Nat) × List Char) := do
  let (first, rest) ← readItem f cs
  match f.skip rest with
  | [] => none
  | '-' :: after =>
    match f.beyondDash after with
    | some ']' | some '-' => return (← first.toRanges, '-' :: after)
    | _ =>
      let (second, rest) ← readItem f (f.skip after)
      let low ← first.toChar
      let high ← second.toChar
      if high < low then none else return ([(low.toNat, high.toNat)], rest)
  | rest => return (← first.toRanges, rest)

/-- The items of a class up to its closing bracket. -/
def readClassItems (f : Flags) : Nat → List Char → Option (List (Nat × Nat) × List Char)
  | 0, _ => none
  | fuel + 1, cs =>
    let more (r : List (Nat × Nat) × List Char) :=
      (readClassItems f fuel r.2).map fun (ranges, rest) => (r.1 ++ ranges, rest)
    match f.skip cs with
    | [] => none
    | ']' :: rest => some ([], rest)
    | '[' :: rest => (readNamedClass rest).bind more
    | '&' :: '&' :: _ | '-' :: '-' :: _ | '~' :: '~' :: _ => none
    | cs => (readClassRange f cs).bind more

/-- The dashes that a class begins with. -/
def readDashes (f : Flags) : Nat → List Char → Nat × List Char
  | 0, cs => (0, cs)
  | fuel + 1, cs =>
    match cs with
    | '-' :: rest =>
      let (n, rest) := readDashes f fuel (f.skip rest)
      (n + 1, rest)
    | cs => (0, cs)

/-- **A class of characters**, after its opening bracket. Dashes at its start
stand for themselves, and so does a closing bracket. -/
def readClass (f : Flags) (cs : List Char) : Option (Regex × List Char) := do
  let cs := f.skip cs
  let (negated, cs) := match cs with
    | '^' :: cs => (true, f.skip cs)
    | cs => (false, cs)
  let (dashes, cs) := readDashes f cs.length cs
  let first := if dashes = 0 then [] else [('-'.toNat, '-'.toNat)]
  let (first, cs) := match cs with
    | ']' :: rest => if dashes = 0 then ([(']'.toNat, ']'.toNat)], f.skip rest) else (first, cs)
    | cs => (first, cs)
  let (ranges, rest) ← readClassItems f (cs.length + 1) cs
  let set := CharSet.ofRanges (first ++ ranges)
  let set := if f.ignoreCase then set.foldCase else set
  return (.chars (if negated then set.complement else set), rest)

/-- The sign after a repetition that says to prefer few rounds. -/
def dropLazy : List Char → List Char
  | '?' :: cs => cs
  | cs => cs

/-- The digits of a count, possibly with free spacing between. -/
def readCountDigits (f : Flags) : Nat → List Char → List Char × List Char
  | 0, cs => ([], cs)
  | fuel + 1, cs =>
    match cs with
    | c :: rest =>
      if c.isDigit then
        let (ds, rest) := readCountDigits f fuel (f.skip rest)
        (c :: ds, rest)
      else ([], cs)
    | [] => ([], [])

/-- A count of rounds, with blanks around it. -/
def readCount (f : Flags) (cs : List Char) : Option (Nat × List Char) :=
  let cs := Text.trimStart cs
  let (digits, rest) := readCountDigits f cs.length cs
  (Text.readBounded Text.wholeBound digits).map (·, f.skip (Text.trimStart rest))

/-- **The counts of a repetition**, after its opening brace, and what follows
it. -/
def readCounts (f : Flags) (cs : List Char) : Option ((Nat × Option Nat) × List Char) := do
  let (least, rest) ← readCount f (f.skip cs)
  let (most, rest) ← match rest with
    | ',' :: rest =>
      match f.skip rest with
      | [] => none
      | '\x7d' :: rest => some (none, '\x7d' :: rest)
      | rest => do
        let (most, rest) ← readCount f rest
        some (some most, rest)
    | rest => some (some least, rest)
  match rest with
  | '\x7d' :: rest =>
    if most.any (· < least) then none else return ((least, most), dropLazy (f.skip rest))
  | _ => none

/-- Applies a repetition to the last part, which the list begins with. -/
def repeatLast (least : Nat) (most : Option Nat) : List Regex → Option (List Regex)
  | [] => none
  | r :: rs =>
    if least = 0 && most = some 0 then some (empty :: rs)
    else if least = 1 && most = some 1 then some (r :: rs)
    else some (repetition least most r :: rs)

/-- **Flags**, up to the colon or parenthesis after them: letters, and at most
one dash, which the last letters stand behind. -/
def readFlags : Flags → (negative seenLetter : Bool) → (seen : List Char) → List Char →
    Option (Flags × List Char)
  | _, _, _, _, [] => none
  | f, negative, seenLetter, seen, c :: cs =>
    if c = ':' || c = ')' then
      if negative && !seenLetter then none else some (f, c :: cs)
    else if c = '-' then
      if negative then none else readFlags f true false seen cs
    else if seen.contains c then none
    else (f.put c (!negative)).bind fun f => readFlags f negative true (c :: seen) cs

/-- Whether a character may stand in the name of a group. -/
def isNameChar (first : Bool) (c : Char) : Bool :=
  if first then c = '_' || Text.isAlphabetic c
  else c = '_' || c = '.' || c = '[' || c = ']' || Text.isAlphanumeric c

/-- The name of a group, after its angle bracket. -/
def readGroupName (cs : List Char) : Option (List Char × List Char) :=
  let name := cs.takeWhile (· ≠ '>')
  match name, cs.dropWhile (· ≠ '>') with
  | c :: rest, _ :: after =>
    if isNameChar true c && rest.all (isNameChar false) then some (name, after) else none
  | _, _ => none

/-- **How a group begins**, after its parenthesis. -/
inductive Opening where
  /-- Flags for the rest of the group around. -/
  | flags (f : Flags)
  /-- A group that captures nothing, under some flags. -/
  | plain (f : Flags)
  /-- A group that captures, with a name if it has one. -/
  | capturing (name : Option (List Char))

/-- The flags inside a group, those around it being given. -/
def Opening.inner (f : Flags) : Opening → Flags
  | flags f' => f'
  | plain f' => f'
  | capturing _ => f

/-- The group as a part of what is around it. -/
def Opening.enclose (number : Nat) : Opening → Regex → Regex
  | capturing name, r => .group ⟨number, name⟩ r
  | _, r => r

/-- Reads how a group begins. -/
def readOpening (f : Flags) (cs : List Char) : Option (Opening × List Char) :=
  match f.skip cs with
  | '?' :: '=' :: _ | '?' :: '!' :: _ | '?' :: '<' :: '=' :: _ | '?' :: '<' :: '!' :: _ => none
  | '?' :: 'P' :: '<' :: rest | '?' :: '<' :: rest =>
    (readGroupName rest).map fun (name, rest) => (.capturing (some name), rest)
  | '?' :: rest =>
    match readFlags f false false [] rest with
    | some (f', ':' :: after) => some (.plain f', after)
    | some (f', ')' :: after) =>
      if rest.head? = some ')' then none else some (.flags f', after)
    | _ => none
  | rest => some (.capturing none, rest)

/-- **The groups that capture so far**: how many there are, and their names. -/
structure Captures where
  count : Nat
  names : List (List Char)

/-- The captures after a group has begun; fails if its name is in use. -/
def Captures.enter (cap : Captures) : Opening → Option Captures
  | .capturing none => some { cap with count := cap.count + 1 }
  | .capturing (some name) =>
    if cap.names.contains name then none else some ⟨cap.count + 1, name :: cap.names⟩
  | _ => some cap

/-- What reading a sequence of branches leaves: the expression, the groups so
far, and what follows. -/
abbrev Branches := Option (Regex × Captures × List Char)

/-- The branches read so far and the last one, put together. -/
def finish (branches : List Regex) (parts : List Regex) : Regex :=
  ofBranches (branches.reverse ++ [ofParts parts.reverse])

/-- **Reads branches** up to the end or to the parenthesis that closes them.
Both lists are in reverse. Every round takes a character and every group one
more, so the length of the text is fuel enough. -/
def readBranches : Nat → (depth : Nat) → Flags → Captures → List Regex → List Regex →
    List Char → Branches
  | 0, _, _, _, _, _, _ => none
  | fuel + 1, depth, f, cap, branches, parts, cs =>
    match f.skip cs with
    | [] => some (finish branches parts, cap, [])
    | '(' :: rest =>
      match readOpening f rest with
      | none => none
      | some (.flags f', rest) => readBranches fuel depth f' cap branches parts rest
      | some (opening, rest) =>
        if deepest ≤ depth then none
        else
          match cap.enter opening with
          | none => none
          | some inside =>
            match readBranches fuel (depth + 1) (opening.inner f) inside [] [] rest with
            | some (r, cap, ')' :: rest) =>
              readBranches fuel depth f cap branches
                (opening.enclose inside.count r :: parts) rest
            | _ => none
    | ')' :: rest => if depth = 0 then none else some (finish branches parts, cap, ')' :: rest)
    | '|' :: rest =>
      readBranches fuel depth f cap (ofParts parts.reverse :: branches) [] rest
    | '[' :: rest =>
      (readClass f rest).bind fun (r, rest) =>
        readBranches fuel depth f cap branches (r :: parts) rest
    | '?' :: rest =>
      (repeatLast 0 (some 1) parts).bind fun parts =>
        readBranches fuel depth f cap branches parts (dropLazy rest)
    | '*' :: rest =>
      (repeatLast 0 none parts).bind fun parts =>
        readBranches fuel depth f cap branches parts (dropLazy rest)
    | '+' :: rest =>
      (repeatLast 1 none parts).bind fun parts =>
        readBranches fuel depth f cap branches parts (dropLazy rest)
    | '\x7b' :: rest =>
      (readCounts f rest).bind fun ((least, most), rest) =>
        (repeatLast least most parts).bind fun parts =>
          readBranches fuel depth f cap branches parts rest
    | '\\' :: rest =>
      (readEscape f rest).bind fun (item, rest) =>
        let r := match item with
          | .char c => f.char c
          | .chars s => .chars s
          | .look l => .look l
        readBranches fuel depth f cap branches (r :: parts) rest
    | '.' :: rest => readBranches fuel depth f cap branches (f.dot :: parts) rest
    | '^' :: rest => readBranches fuel depth f cap branches (.look f.lineStart :: parts) rest
    | '$' :: rest => readBranches fuel depth f cap branches (.look f.lineEnd :: parts) rest
    | c :: rest => readBranches fuel depth f cap branches (f.char c :: parts) rest

/-- **Reads a regular expression.** -/
def read (text : String) : Option Regex :=
  let cs := text.toList
  match readBranches (cs.length + 1) 0 .none ⟨0, []⟩ [] [] cs with
  | some (r, _, []) => if r.height ≤ deepest && r.wholeRoom ≤ mostRoom then some r else none
  | _ => none

end Rulebook.Regex
