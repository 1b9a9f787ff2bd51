import Rulebook.Double
import Rulebook.Formula.Evaluation
import Rulebook.Progression.Basic

/-!
# Values of arithmetic formulas

Progressions build their formulas from the source attribute and number literals
by arithmetic, choices and function calls. Where the source is a number, such a
formula has a number as its value, and this number is put together from those of
its parts in the same way as the formula is. What is said here holds of any kind
of numbers.
-/

namespace Rulebook

variable {N : Type} [Quantity N]

theorem Value.toNumber_eq_ok {v : Value N} {x : N} (h : v.asNumber = some x) (context : String) :
    v.toNumber context = .ok x := by
  unfold Value.toNumber
  rw [h]

/-- Truth values that a machine computes with are truthy if they are true. -/
theorem isTruthy_ofBool (b : Bool) : (Value.ofBool b : Value Float).isTruthy = b := by
  cases b <;> decide

namespace Formula

variable {scope : Scope N} {f g c : Formula N} {x y : N}

/-! ## Operators -/

theorem eval_of_eq (hf : f.eval scope = .ok (.number x)) (hxy : x = y) :
    f.eval scope = .ok (.number y) := hxy ▸ hf

theorem eval_source {v : Value N} (h : scope.source = v) : source.eval scope = .ok v :=
  congrArg Except.ok h

/-- An operator other than the connectives combines the values of its operands. -/
theorem eval_binary {op : BinaryOp} {v w : Value N} (hand : op ≠ .and) (hor : op ≠ .or)
    (hf : f.eval scope = .ok v) (hg : g.eval scope = .ok w) :
    (binary op f g).eval scope = v.combine op w := by
  cases op with
  | and => exact absurd rfl hand
  | or => exact absurd rfl hor
  | _ =>
    simp only [eval, hf, hg]
    rfl

theorem eval_add (hf : f.eval scope = .ok (.number x)) (hg : g.eval scope = .ok (.number y)) :
    (f + g).eval scope = .ok (.number (x + y)) :=
  eval_binary (by decide) (by decide) hf hg

theorem eval_sub (hf : f.eval scope = .ok (.number x)) (hg : g.eval scope = .ok (.number y)) :
    (f - g).eval scope = .ok (.number (x - y)) :=
  eval_binary (by decide) (by decide) hf hg

theorem eval_mul (hf : f.eval scope = .ok (.number x)) (hg : g.eval scope = .ok (.number y)) :
    (f * g).eval scope = .ok (.number (x * y)) :=
  eval_binary (by decide) (by decide) hf hg

/-- A quotient, if the divisor is not zero. -/
theorem eval_div (hf : f.eval scope = .ok (.number x)) (hg : g.eval scope = .ok (.number y))
    (hy : Quantity.equals y Quantity.zero = false) :
    (f / g).eval scope = .ok (.number (x / y)) := by
  refine (eval_binary (by decide) (by decide) hf hg).trans ?_
  show (if Quantity.equals y Quantity.zero = true then Except.error EvalError.divisionByZero
    else Except.ok (Value.number (x / y))) = _
  rw [hy]
  rfl

theorem eval_gt (hf : f.eval scope = .ok (.number x)) (hg : g.eval scope = .ok (.number y)) :
    (binary .gt f g).eval scope = .ok (.ofBool (Quantity.less y x)) :=
  eval_binary (by decide) (by decide) hf hg

theorem eval_ge (hf : f.eval scope = .ok (.number x)) (hg : g.eval scope = .ok (.number y)) :
    (binary .ge f g).eval scope = .ok (.ofBool (Quantity.atMost y x)) :=
  eval_binary (by decide) (by decide) hf hg

/-- Multiplication by one is left out. -/
theorem eval_scaled (hf : f.eval scope = .ok (.number x)) (factor : N) :
    (f.scaled factor).eval scope =
      .ok (.number (if Quantity.equals factor Quantity.one then x else x * factor)) := by
  unfold scaled
  split
  · exact hf
  · exact eval_mul hf rfl

/-- **A choice gives the value of one of its branches.** -/
theorem eval_choose {b : Bool} (hc : c.eval scope = .ok (.ofBool b))
    (hb : (Value.ofBool b : Value N).isTruthy = b) :
    (choose c f g).eval scope = if b = true then f.eval scope else g.eval scope := by
  simp only [eval, hc]
  show (if (Value.ofBool b : Value N).isTruthy = true then _ else _) = _
  rw [hb]

/-! ## Function calls -/

/-- The values of number literals. -/
theorem evalNumbers_number (context : String) (xs : List N) :
    evalNumbers scope context (xs.map number) = .ok xs := by
  induction xs with
  | nil => rfl
  | cons x xs ih =>
    show Except.bind (evalNumbers scope context (xs.map number)) _ = _
    rw [ih]
    rfl

/-- **A call whose arguments but the first are number literals** applies its
function to what the first counts as, and to these numbers. -/
theorem eval_call {function : Function} {v : Value N} (xs : List N)
    (haccepts : function.accepts (xs.length + 1) = true) (hmatching : function ≠ .matching)
    (hf : f.eval scope = .ok v) (hv : v.asNumber = some x) :
    (call function (f :: xs.map number)).eval scope =
      .ok (.number (function.apply (x :: xs))) := by
  have hargs : evalNumbers scope function.name (f :: xs.map number) = .ok (x :: xs) := by
    simp only [evalNumbers, hf, evalNumbers_number, Value.toNumber_eq_ok hv, bind, Except.bind,
      pure, Except.pure]
  simp only [eval, List.length_cons, List.length_map, haccepts, if_neg hmatching, hargs]
  rfl

theorem eval_floor (hf : f.eval scope = .ok (.number x)) :
    f.floor.eval scope = .ok (.number (Quantity.floor x)) :=
  eval_call [] rfl (by decide) hf rfl

end Formula

end Rulebook
