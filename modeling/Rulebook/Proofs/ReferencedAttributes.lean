import Rulebook.Double
import Rulebook.Formula.Evaluation
import Mathlib.Data.List.Induction
import Mathlib.Data.List.Nodup

/-!
# What a formula depends on

The host program orders its rules by the attributes that their formulas refer
to. Reading a formula from left to right gives its attribute names as they stand
there, with repetitions, and the list that the host program gets has each of
them once, where it stands first.

This list leaves nothing out: two scopes that agree on it, on the source and on
the captured texts give the formula the same value, or the same error. It lists
every name of the formula, whether or not an evaluation gets as far as this
name; a connective or a choice may skip some of them.
-/

namespace Rulebook

/-! ## First occurrences -/

section FirstOccurrences

variable {α : Type} [BEq α] [LawfulBEq α]

/-- An element at the end is a first occurrence if it is not there before. -/
theorem eraseDups_concat (xs : List α) (a : α) :
    (xs ++ [a]).eraseDups =
      if xs.contains a then xs.eraseDups else xs.eraseDups ++ [a] := by
  rw [List.eraseDups_append]
  by_cases h : a ∈ xs <;> simp [List.removeAll, h, List.eraseDups_cons]

theorem contains_eraseDups (xs : List α) (a : α) : xs.eraseDups.contains a = xs.contains a := by
  rw [Bool.eq_iff_iff, List.contains_iff_mem, List.contains_iff_mem, List.mem_eraseDups]

theorem nodup_eraseDups (xs : List α) : xs.eraseDups.Nodup := by
  induction xs using List.reverseRecOn with
  | nil => simp
  | append_singleton xs a ih =>
    rw [eraseDups_concat]
    split
    case isTrue => exact ih
    case isFalse h =>
      have ha : a ∉ xs.eraseDups :=
        fun ha => h (List.contains_iff_mem.2 (List.mem_eraseDups.1 ha))
      rw [← List.concat_eq_append]
      exact ih.concat ha

end FirstOccurrences

namespace Formula

variable {N : Type}

/-! ## The names in a formula -/

mutual

/-- **The attribute names of a formula as they stand**, from left to right. -/
def attributes : Formula N → List String
  | attr name => [name]
  | unary _ a => attributes a
  | binary _ a b => attributes a ++ attributes b
  | whenever a b => attributes a ++ attributes b
  | choose a b c => attributes a ++ attributes b ++ attributes c
  | call _ args => attributesList args
  | _ => []

/-- The attribute names of some formulas, one formula after the other. -/
def attributesList : List (Formula N) → List String
  | [] => []
  | a :: as => attributes a ++ attributesList as

end

theorem addName_eraseDups (names : List String) (name : String) :
    addName names.eraseDups name = (names ++ [name]).eraseDups := by
  rw [addName, contains_eraseDups, eraseDups_concat]

mutual

/-- Collecting goes on from the first occurrences of what was read before. -/
theorem collectAttributes_eraseDups : ∀ (f : Formula N) (names : List String),
    f.collectAttributes names.eraseDups = (names ++ f.attributes).eraseDups
  | attr name, names => addName_eraseDups names name
  | unary _ a, names => collectAttributes_eraseDups a names
  | binary _ a b, names => by
    rw [collectAttributes, collectAttributes_eraseDups a, collectAttributes_eraseDups b,
      attributes, List.append_assoc]
  | whenever a b, names => by
    rw [collectAttributes, collectAttributes_eraseDups a, collectAttributes_eraseDups b,
      attributes, List.append_assoc]
  | choose a b c, names => by
    rw [collectAttributes, collectAttributes_eraseDups a, collectAttributes_eraseDups b,
      collectAttributes_eraseDups c, attributes, List.append_assoc, List.append_assoc,
      List.append_assoc]
  | call _ args, names => collectAttributesList_eraseDups args names
  | number _, names | text _, names | null, names | source, names | capture _, names =>
    congrArg List.eraseDups (List.append_nil names).symm

theorem collectAttributesList_eraseDups : ∀ (fs : List (Formula N)) (names : List String),
    collectAttributesList fs names.eraseDups = (names ++ attributesList fs).eraseDups
  | [], names => by rw [collectAttributesList, attributesList, List.append_nil]
  | a :: as, names => by
    rw [collectAttributesList, collectAttributes_eraseDups a,
      collectAttributesList_eraseDups as, attributesList, List.append_assoc]

end

/-- **Each name once, where it stands first.** -/
theorem referencedAttributes_eq (f : Formula N) :
    f.referencedAttributes = f.attributes.eraseDups :=
  collectAttributes_eraseDups f []

theorem mem_referencedAttributes {f : Formula N} {name : String} :
    name ∈ f.referencedAttributes ↔ name ∈ f.attributes := by
  rw [referencedAttributes_eq, List.mem_eraseDups]

end Formula

/-! ## Scopes that a formula cannot tell apart -/

namespace Scope

variable {N : Type} {s t : Scope N} {names more : List String}

/-- **Agreement of two scopes** on the source, on all captured texts and on the
attributes of the given names. -/
structure AgreeOn (names : List String) (s t : Scope N) : Prop where
  source : s.source = t.source
  capture : ∀ i, s.capture i = t.capture i
  attr : ∀ a ∈ names, s.attr a = t.attr a

theorem AgreeOn.mono (h : s.AgreeOn more t) (hsub : ∀ a ∈ names, a ∈ more) :
    s.AgreeOn names t :=
  ⟨h.source, h.capture, fun a ha => h.attr a (hsub a ha)⟩

theorem AgreeOn.left (h : s.AgreeOn (names ++ more) t) : s.AgreeOn names t :=
  h.mono fun _ => List.mem_append_left more

theorem AgreeOn.right (h : s.AgreeOn (names ++ more) t) : s.AgreeOn more t :=
  h.mono fun _ => List.mem_append_right names

end Scope

namespace Formula

variable {N : Type} [Quantity N] {s t : Scope N}

mutual

/-- **A formula depends on nothing but the names that stand in it**, apart from
the source and the captured texts. -/
theorem eval_congr : ∀ {f : Formula N}, s.AgreeOn f.attributes t → f.eval s = f.eval t
  | number _, _ => rfl
  | text _, _ => rfl
  | null, _ => rfl
  | source, h => congrArg Except.ok h.source
  | attr name, h => congrArg Except.ok (h.attr name (List.mem_singleton_self name))
  | capture i, h => congrArg Except.ok (h.capture i)
  | unary op a, h => by
    have ha : a.eval s = a.eval t := eval_congr h
    cases op <;> rw [eval, eval, ha]
  | binary op a b, h => by
    have ha : a.eval s = a.eval t := eval_congr h.left
    have hb : b.eval s = b.eval t := eval_congr h.right
    cases op <;> simp only [eval, ha, hb]
  | whenever a b, h => by
    have ha : a.eval s = a.eval t := eval_congr h.left
    have hb : b.eval s = b.eval t := eval_congr h.right
    rw [eval, eval, ha, hb]
  | choose a b c, h => by
    have ha : a.eval s = a.eval t := eval_congr h.left.left
    have hb : b.eval s = b.eval t := eval_congr h.left.right
    have hc : c.eval s = c.eval t := eval_congr h.right
    rw [eval, eval, ha, hb, hc]
  | call f args, h => by
    have hargs : evalNumbers s f.name args = evalNumbers t f.name args := evalNumbers_congr h
    rw [eval, eval, hargs]

theorem evalNumbers_congr {context : String} : ∀ {fs : List (Formula N)},
    s.AgreeOn (attributesList fs) t → evalNumbers s context fs = evalNumbers t context fs
  | [], _ => rfl
  | a :: as, h => by
    have ha : a.eval s = a.eval t := eval_congr h.left
    have has : evalNumbers s context as = evalNumbers t context as := evalNumbers_congr h.right
    rw [evalNumbers, evalNumbers, ha, has]

end

/-- **The referenced attributes are what a formula depends on.** They are the
names that stand in the formula, each once and in the order in which they first
appear; and scopes that agree on them, on the source and on the captured texts
give the formula the same value or the same error. -/
theorem referencedAttributes_exact (f : Formula N) :
    f.referencedAttributes.Nodup ∧
      f.referencedAttributes = f.attributes.eraseDups ∧
      ∀ s t : Scope N, s.AgreeOn f.referencedAttributes t → f.eval s = f.eval t := by
  refine ⟨?nodup, referencedAttributes_eq f, ?agree⟩
  case nodup =>
    rw [referencedAttributes_eq]
    exact nodup_eraseDups f.attributes
  case agree =>
    intro s t h
    exact eval_congr (h.mono fun _ => mem_referencedAttributes.2)

/-- A choice between two skills, of which an evaluation looks at one only. -/
def favouredSkill : Formula Float :=
  choose (binary .and (attr "Training") source) (call .floor [attr "Ride", attr "Training"])
    (attr "Swim")

/-- A scope in which attributes show as their own names, apart from training and
from what is said about luck. -/
def untrainedScope (luck : Value Float) : Scope Float where
  source := .text "Skills"
  attr a := if a = "Training" then .null else if a = "Luck" then luck else .text a
  capture _ := .null

/-- Luck is not among what the choice refers to, and makes no difference to it. -/
theorem referencedAttributes_favouredSkill :
    favouredSkill.referencedAttributes = ["Training", "Ride", "Swim"] ∧
      (untrainedScope .null).attr "Luck" ≠ (untrainedScope (.text "much")).attr "Luck" ∧
      (untrainedScope .null).AgreeOn favouredSkill.referencedAttributes
        (untrainedScope (.text "much")) ∧
      favouredSkill.eval (untrainedScope .null) =
        favouredSkill.eval (untrainedScope (.text "much")) := by
  have hnames : favouredSkill.referencedAttributes = ["Training", "Ride", "Swim"] := by decide
  have hagree : (untrainedScope .null).AgreeOn favouredSkill.referencedAttributes
      (untrainedScope (.text "much")) := by
    refine ⟨rfl, fun _ => rfl, ?_⟩
    rw [hnames]
    simp [untrainedScope]
  exact ⟨hnames, by simp [untrainedScope], hagree,
    (referencedAttributes_exact favouredSkill).2.2 _ _ hagree⟩

end Formula

end Rulebook
