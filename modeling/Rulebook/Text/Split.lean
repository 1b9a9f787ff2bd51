/-!
# Cutting texts at a character

A cut at the first or the last occurrence leaves the character out and keeps
everything else.
-/

namespace Rulebook.Text

/-- **Cuts at the first character that satisfies a test**: what stands before
it and what stands after it. -/
def cutFirst (p : Char → Bool) : List Char → Option (List Char × List Char)
  | [] => none
  | c :: cs => if p c then some ([], cs) else (cutFirst p cs).map fun (a, b) => (c :: a, b)

/-- **Cuts at the last character that satisfies a test.** -/
def cutLast (p : Char → Bool) (cs : List Char) : Option (List Char × List Char) :=
  (cutFirst p cs.reverse).map fun (a, b) => (b.reverse, a.reverse)

/-- **The pieces between the characters that satisfy a test**, empty ones
included; there is always at least one. -/
def pieces (p : Char → Bool) : List Char → List (List Char)
  | [] => [[]]
  | c :: cs =>
    if p c then [] :: pieces p cs
    else match pieces p cs with
      | [] => [[c]]
      | piece :: rest => (c :: piece) :: rest

/-- What a cut leaves: no earlier place to cut, and the character between. -/
theorem cutFirst_eq_some {p : Char → Bool} {cs a b : List Char} (h : cutFirst p cs = some (a, b)) :
    (∀ c ∈ a, p c = false) ∧ ∃ c, p c = true ∧ cs = a ++ c :: b := by
  induction cs generalizing a b with
  | nil => simp [cutFirst] at h
  | cons c cs ih =>
    by_cases hc : p c
    · simp [cutFirst, hc] at h
      exact ⟨by simp [h.1], c, hc, by simp [h.1, h.2]⟩
    · simp only [cutFirst, hc, Bool.false_eq_true, if_false, Option.map_eq_some_iff] at h
      obtain ⟨⟨a', b'⟩, hab, heq⟩ := h
      obtain ⟨rfl, rfl⟩ := Prod.mk.inj heq
      obtain ⟨ha, d, hd, hcs⟩ := ih hab
      exact ⟨by simpa [hc] using ha, d, hd, by simp [hcs]⟩

/-- A text with a first place to cut is cut there. -/
theorem cutFirst_append {p : Char → Bool} {a b : List Char} {c : Char}
    (ha : ∀ x ∈ a, p x = false) (hc : p c = true) :
    cutFirst p (a ++ c :: b) = some (a, b) := by
  induction a with
  | nil => simp [cutFirst, hc]
  | cons x a ih =>
    have hx : p x = false := ha x (by simp)
    simp [cutFirst, hx, ih fun y hy => ha y (by simp [hy])]

end Rulebook.Text
