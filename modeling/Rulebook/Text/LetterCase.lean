import Rulebook.Text.CaseTables

/-!
# Letter case

Upper and lower case forms of single characters and of whole texts. A form may
have several characters. In a whole text a capital sigma at the end of a word
becomes the final sigma: one with a cased letter before it and none after it,
where marks that take no part in casing are looked past.
-/

namespace Rulebook.Text

/-- The character a run maps a code point to, if it covers it. -/
def runTarget (runs : List (Nat × Nat × Nat × Int)) (n : Nat) : Option Char :=
  (runs.find? fun (first, last, step, _) =>
      first ≤ n && n ≤ last && (n - first) % step = 0).map
    fun (_, _, _, shift) => Char.ofNat ((n : Int) + shift).toNat

/-- A code point's form by a table of sequences, then by a table of runs, and
else itself. -/
def caseForm (sequences : List (Nat × List Nat)) (runs : List (Nat × Nat × Nat × Int))
    (c : Char) : List Char :=
  match sequences.lookup c.toNat with
  | some cs => cs.map Char.ofNat
  | none => [(runTarget runs c.toNat).getD c]

/-- **The lower case form of a character.** -/
def lowerChar (c : Char) : List Char :=
  if c.toNat < 128 then [c.toLower] else caseForm lowerSequences lowerRuns c

/-- **The upper case form of a character.** -/
def upperChar (c : Char) : List Char :=
  if c.toNat < 128 then [c.toUpper] else caseForm upperSequences upperRuns c

/-- Whether the first character that takes part in casing is a cased one. -/
def startsCased (cs : List Char) : Bool :=
  match cs.dropWhile (inRanges caseIgnorableRanges) with
  | [] => false
  | c :: _ => inRanges casedRanges c

/-- The lower case form of a text, given what stands before it in reverse. -/
def lowerAfter (before : List Char) : List Char → List Char
  | [] => []
  | c :: cs =>
    let form :=
      if c = 'Σ' && startsCased before && !startsCased cs then ['ς'] else lowerChar c
    form ++ lowerAfter (c :: before) cs

/-- **The lower case form of a text.** -/
def lower (s : String) : String := String.ofList (lowerAfter [] s.toList)

/-- The lower case form of the basic Latin letters alone. -/
def lowerBasic (s : String) : String := String.ofList (s.toList.map Char.toLower)

/-- Whether two texts are equal but for the case of basic Latin letters. -/
def sameIgnoringCase (s t : String) : Bool := lowerBasic s = lowerBasic t

end Rulebook.Text
