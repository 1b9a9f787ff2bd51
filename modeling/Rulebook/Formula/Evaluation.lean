import Rulebook.Formula.Basic
import Rulebook.Text.Blank

/-!
# Values of formulas

A formula is evaluated in a *scope*, which knows the value of the source
attribute, of every other attribute and of every captured text. Values are
numbers, texts, or nothing at all.

Operators take texts as numbers where they can, and nothing as zero; only
comparisons treat nothing as unlike everything else. The connectives `&&` and
`||` give one of their operands. Matching a pattern in a list needs the host
program and is refused here.
-/

namespace Rulebook

/-- **The value of an attribute or of a part of a formula.** -/
inductive Value (N : Type) where
  | null
  | number (value : N)
  | text (value : String)
  deriving Repr, DecidableEq

/-- **What a formula can see.** -/
structure Scope (N : Type) where
  /-- The value of the source attribute. -/
  source : Value N
  /-- The value of a named attribute; `null` if there is none. -/
  attr : String → Value N
  /-- What a numbered group captured; `null` if there is none. -/
  capture : Nat → Value N

/-- A scope with nothing but a source value. -/
def Scope.ofSource {N : Type} (v : Value N) : Scope N := ⟨v, fun _ => .null, fun _ => .null⟩

/-- **Why a formula has no value.** -/
inductive EvalError where
  | divisionByZero
  | argumentCount (function : Function) (got : Nat)
  /-- A value that is no number, in an operator or a function. -/
  | notNumber (value context : String)
  | unsupported (function : Function)
  deriving DecidableEq, Repr

/-- **The text of an evaluation error.** -/
def EvalError.message : EvalError → String
  | divisionByZero => "Division by zero"
  | argumentCount f got => s!"Function {f.name} expected {f.arity} args, got {got}"
  | notNumber value context => s!"Type mismatch: '{value}' is not a number in {context}"
  | unsupported f => s!"Not supported by the reference evaluator: {f.name}"

variable {N : Type} [Quantity N]

namespace Value

/-- **Truth**: numbers other than zero, and texts that are not empty. -/
def isTruthy : Value N → Bool
  | null => false
  | number x => !Quantity.equals x Quantity.zero && Quantity.isNumber x
  | text s => s != ""

/-- **The number that a value counts as**; nothing counts as zero. -/
def asNumber : Value N → Option N
  | null => some Quantity.zero
  | number x => some x
  | text s => Quantity.read (Text.trimChars s.toList)

/-- The text that a value shows as. -/
def render : Value N → String
  | null => ""
  | number x => Quantity.text x
  | text s => s

/-- A truth value. -/
def ofBool (b : Bool) : Value N := number (Quantity.ofBool b)

/-- The number that a value counts as where one is needed. -/
def toNumber (v : Value N) (context : String) : Except EvalError N :=
  match v.asNumber with
  | some x => .ok x
  | none => .error (.notNumber v.render context)

/-- **Equality of values**: texts as texts, all else as numbers, and nothing
only equals nothing. -/
def looselyEquals : Value N → Value N → Bool
  | null, null => true
  | null, _ => false
  | _, null => false
  | text s, text t => s == t
  | v, w => match v.asNumber, w.asNumber with
    | some x, some y => Quantity.equals x y
    | _, _ => false

/-- **Order of values**: texts by their characters, all else as numbers; what
is nothing or no number stands in no order. -/
def compareBy (onTexts : String → String → Bool) (onNumbers : N → N → Bool) :
    Value N → Value N → Bool
  | null, _ => false
  | _, null => false
  | text s, text t => onTexts s t
  | v, w => match v.asNumber, w.asNumber with
    | some x, some y => onNumbers x y
    | _, _ => false

/-- The first value comes before the second. -/
def less : Value N → Value N → Bool :=
  compareBy (fun s t => s < t) Quantity.less

/-- The first value does not come after the second. -/
def atMost : Value N → Value N → Bool :=
  compareBy (fun s t => !(t < s)) Quantity.atMost

/-- **A sum of values**, which joins texts if there is one. -/
def add : Value N → Value N → Except EvalError (Value N)
  | text s, w => .ok (text (s ++ w.render))
  | v, text t => .ok (text (v.render ++ t))
  | v, w => do
    let x ← v.toNumber "+"
    let y ← w.toNumber "+"
    return number (x + y)

/-- **A quotient of values.** The divisor is looked at first. -/
def div (v w : Value N) : Except EvalError (Value N) := do
  let y ← w.toNumber "/"
  if Quantity.equals y Quantity.zero then throw .divisionByZero
  let x ← v.toNumber "/"
  return number (x / y)

/-- The value of an operator whose operands are both evaluated. The two
connectives are not among these; they give their second operand here. -/
def combine (op : BinaryOp) (v w : Value N) : Except EvalError (Value N) :=
  match op with
  | .add => v.add w
  | .sub => do return number ((← v.toNumber "-") - (← w.toNumber "-"))
  | .mul => do return number ((← v.toNumber "*") * (← w.toNumber "*"))
  | .div => v.div w
  | .lt => .ok (ofBool (v.less w))
  | .le => .ok (ofBool (v.atMost w))
  | .gt => .ok (ofBool (w.less v))
  | .ge => .ok (ofBool (w.atMost v))
  | .eq => .ok (ofBool (v.looselyEquals w))
  | .ne => .ok (ofBool (!v.looselyEquals w))
  | .and | .or => .ok w

end Value

/-- **The value a step function ends on**: each pair whose threshold the input
reaches takes over from what came before. -/
def stepValue (input : N) : N → List N → N
  | current, threshold :: value :: rest =>
    stepValue input (if Quantity.atMost threshold input then value else current) rest
  | current, _ => current

/-- The entry of a table at a position, or the fallback. -/
def tableValue (index fallback : N) (values : List N) : N :=
  match Quantity.index? index with
  | some i => values[i]?.getD fallback
  | none => fallback

/-- **The value of a function** of numbers. The number of arguments has been
checked before. -/
def Function.apply : Function → List N → N
  | .floor, x :: _ => Quantity.floor x
  | .ceil, x :: _ => Quantity.ceil x
  | .abs, x :: _ => Quantity.abs x
  | .min, xs => Quantity.least xs
  | .max, xs => Quantity.greatest xs
  | .steps, input :: below :: pairs => stepValue input below pairs
  | .table, index :: fallback :: values => tableValue index fallback values
  | _, _ => Quantity.zero

namespace Formula

mutual

/-- **The value of a formula in a scope.** -/
def eval (scope : Scope N) : Formula N → Except EvalError (Value N)
  | number x => .ok (.number x)
  | text s => .ok (.text s)
  | null => .ok .null
  | source => .ok scope.source
  | attr name => .ok (scope.attr name)
  | capture i => .ok (scope.capture i)
  | unary .not a => do
    let v ← eval scope a
    return .ofBool (!v.isTruthy)
  | unary .neg a => do
    let v ← eval scope a
    let x ← v.toNumber "-"
    return .number (-x)
  | binary .and a b => do
    let v ← eval scope a
    if v.isTruthy then eval scope b else return v
  | binary .or a b => do
    let v ← eval scope a
    if v.isTruthy then return v else eval scope b
  | binary op a b => do
    let v ← eval scope a
    let w ← eval scope b
    v.combine op w
  | whenever a b => do
    let v ← eval scope a
    if v.isTruthy then eval scope b else return .null
  | choose a b c => do
    let v ← eval scope a
    if v.isTruthy then eval scope b else eval scope c
  | call f args =>
    if !f.accepts args.length then throw (.argumentCount f args.length)
    else if f = .matching then throw (.unsupported f)
    else do
      let xs ← evalNumbers scope f.name args
      return .number (f.apply xs)

/-- The values of arguments as numbers, the first failure winning. -/
def evalNumbers (scope : Scope N) (context : String) :
    List (Formula N) → Except EvalError (List N)
  | [] => .ok []
  | a :: as => do
    let v ← eval scope a
    let x ← v.toNumber context
    let xs ← evalNumbers scope context as
    return x :: xs

end

end Formula

end Rulebook
