import Mathlib.Data.List.Forall2
import Rulebook.Compile.Grants
import Rulebook.Proofs.FormulaValues
import Rulebook.Proofs.Outcomes

/-!
# When a requirement is not met

Requirements are joined to one condition from the left, and its negation is what a note
on unmet requirements depends on. A conjunction does not give a truth value but one of
its operands, and it does not look at its second operand if the first decides. What
comes of this is nevertheless what one would do by hand: look at the requirements one
after the other, up to the first that does not hold, and say so if there is one. A
requirement that has no value ends the looking too, with its error; one behind a
requirement that does not hold is never looked at, whatever it would give.

Whether a requirement holds is a matter of its value being truthy. Nothing, an empty
text, zero and what is no number are not.
-/

namespace Rulebook.Compile

open Formula

variable {scope : Scope Float} {f g : Formula Float} {fs conditions : List (Formula Float)}
  {texts : List String} {attrPrefix source : String}

/-- **Looks at conditions from left to right**, up to the first that does not hold or has
no value. The result says whether all of them hold. -/
def check (scope : Scope Float) : List (Formula Float) → Except EvalError Bool
  | [] => .ok true
  | f :: fs =>
    match f.eval scope with
    | .error e => .error e
    | .ok v => if v.isTruthy then check scope fs else .ok false

/-- Two conditions and their conjunction are looked at in the same way. -/
theorem check_and : check scope (.binary .and f g :: fs) = check scope (f :: g :: fs) := by
  cases hf : f.eval scope with
  | error e => simp [check, eval, hf, bind, Except.bind]
  | ok v =>
    cases hv : v.isTruthy <;> simp [check, eval, hf, hv, bind, Except.bind, pure, Except.pure]

/-- **A conjunction is truthy if all of its conditions hold**, and fails where one of them
fails before another does not hold. -/
theorem isTruthy_allOf (f : Formula Float) (fs : List (Formula Float)) :
    ((allOf (f :: fs)).eval scope).map Value.isTruthy = check scope (f :: fs) := by
  induction fs generalizing f with
  | nil =>
    show (f.eval scope).map Value.isTruthy = _
    cases hf : f.eval scope with
    | error e => simp [check, hf, Except.map]
    | ok v => cases hv : v.isTruthy <;> simp [check, hf, hv, Except.map]
  | cons g fs ih => exact (ih (.binary .and f g)).trans check_and

/-- **The formula of a violation** is one if some condition is found not to hold, and
nothing if all hold. -/
theorem eval_violation (hne : fs ≠ []) : (violation fs).eval scope =
    (check scope fs).map fun met => if met then .null else .number Quantity.one := by
  obtain ⟨f, fs, rfl⟩ := List.exists_cons_of_ne_nil hne
  rw [← isTruthy_allOf, violation]
  simp only [eval]
  cases (allOf (f :: fs)).eval scope with
  | error e => rfl
  | ok v =>
    show (if (Value.ofBool (!v.isTruthy) : Value Float).isTruthy = true
      then Except.ok (Value.number Quantity.one) else Except.ok Value.null) = _
    rw [isTruthy_ofBool]
    cases hv : v.isTruthy <;> simp [hv, Except.map]

theorem mapM_read (h : List.Forall₂ (fun text f => Formula.read text = .ok f) texts conditions) :
    (texts.mapM fun text => (Formula.read text).inField "Require") = .ok conditions := by
  induction h with
  | nil => rfl
  | cons hread _ ih =>
    rw [List.mapM_cons, Outcome.inField_eq_ok.2 hread, ih]
    rfl

/-- **The note on unmet requirements** is driven by one rule. If all requirements can be
read, its formula looks at them from left to right. It gives one if it comes to one that
does not hold, the error of one that has no value if it comes to that first, and nothing
if all of them hold. -/
theorem requirements_violation (hne : texts ≠ [])
    (hread : List.Forall₂ (fun text f => Formula.read text = .ok f) texts conditions) :
    ∃ out formula, requirements texts attrPrefix source = .ok out ∧
      out.rules =
        [.computed s!"validationNotes.{attrPrefix}Requirements" source .set formula] ∧
      ∀ scope, formula.eval scope =
        match check scope conditions with
        | .ok true => .ok .null
        | .ok false => .ok (.number Quantity.one)
        | .error e => .error e := by
  have hconditions : conditions ≠ [] := by
    rintro rfl
    exact hne (List.forall₂_nil_right_iff.1 hread)
  obtain ⟨out, hout, hrules⟩ : ∃ out, requirements texts attrPrefix source = .ok out ∧
      out.rules = [.computed s!"validationNotes.{attrPrefix}Requirements" source .set
        (violation conditions)] := by
    have hempty : texts.isEmpty = false := by simpa using hne
    rw [requirements, hempty, mapM_read hread]
    exact ⟨_, rfl, rfl⟩
  refine ⟨out, violation conditions, hout, hrules, fun scope => ?_⟩
  rw [eval_violation hconditions]
  rcases check scope conditions with e | ⟨_ | _⟩ <;> rfl

/-- Somebody of a race who has neither skill nor luck. -/
def unskilledScope (race : String) : Scope Float where
  source := .null
  attr a := if a = "race" then .text race else .null
  capture _ := .null

/-- An elf does not meet the first requirement, and the second, which has no value, is not
looked at. For a dwarf it is. -/
theorem requirements_violation_elf : ∃ out formula,
    requirements ["race != 'Elf'", "skill / luck"] "fighter" "levels.Fighter" = .ok out ∧
      out.rules =
        [.computed "validationNotes.fighterRequirements" "levels.Fighter" .set formula] ∧
      formula.eval (unskilledScope "Elf") = .ok (.number Quantity.one) ∧
      formula.eval (unskilledScope "Dwarf") = .error .divisionByZero := by
  have hread : List.Forall₂ (fun text f => Formula.read text = .ok f)
      ["race != 'Elf'", "skill / luck"]
      [.binary .ne (.attr "race") (.text "Elf"), .binary .div (.attr "skill") (.attr "luck")] :=
    .cons (by with_unfolding_all rfl) (.cons (by with_unfolding_all rfl) .nil)
  obtain ⟨out, formula, hout, hrules, hvalue⟩ :=
    @requirements_violation _ _ "fighter" "levels.Fighter" (List.cons_ne_nil _ _) hread
  refine ⟨out, formula, hout, hrules, ?elf, ?dwarf⟩
  case elf =>
    rw [hvalue]
    decide +kernel
  case dwarf =>
    rw [hvalue]
    decide +kernel

end Rulebook.Compile
