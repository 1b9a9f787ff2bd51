import Rulebook.Proofs.JsonText
import Rulebook.Stored.Rule

/-!
# Reading stored rules

A rule is stored as an object, and its formula as an object inside that, with objects and
arrays inside of it. Reading gives back what was stored: each part of a formula stores a
type that belongs to no other part, and the members of a part are looked up by names that
it stores once. Two parts have a member of the same name, which holds a number in one and
a text in the other; the type tells them apart. A choice without an alternative stores null
for it, which is no stored formula, and reads as a choice without an alternative.

Two things are asked of the formula. Its numbers have to be finite, for others are stored
as nothing. And it must not nest too deep, which is all that can be wrong otherwise: the
reader refuses what nests deeper than it is prepared for, before it looks at anything else.

The text in between adds one more thing. A number has to be one that the reader of texts
does not miss by its last bit.
-/

namespace Rulebook

namespace Formula

/-- **A formula that can be stored**: its numbers are finite, and captured groups have
numbers that fit. -/
inductive Storable : Formula Float → Prop
  | number {x : Float} (h : x.isFinite = true) : Storable (.number x)
  | text (s : String) : Storable (.text s)
  | null : Storable .null
  | source : Storable .source
  | attr (name : String) : Storable (.attr name)
  | capture {i : Nat} (h : i < Text.indexBound) : Storable (.capture i)
  | unary (op : UnaryOp) {f : Formula Float} (hf : Storable f) : Storable (.unary op f)
  | binary (op : BinaryOp) {f g : Formula Float} (hf : Storable f) (hg : Storable g) :
    Storable (.binary op f g)
  | whenever {f g : Formula Float} (hf : Storable f) (hg : Storable g) : Storable (.whenever f g)
  | choose {f g k : Formula Float} (hf : Storable f) (hg : Storable g) (hk : Storable k) :
    Storable (.choose f g k)
  | call (f : Function) {args : List (Formula Float)} (hargs : ∀ a ∈ args, Storable a) :
    Storable (.call f args)

variable {f g k : Formula Float} {fs : List (Formula Float)} {inner : Json → Option (Formula Float)}
  {levels : Nat}

/-! ## Operators and functions -/

@[simp] theorem ofName?_unaryOp (op : UnaryOp) : UnaryOp.ofName? op.name = some op := by
  cases op <;> decide

@[simp] theorem ofName?_binaryOp (op : BinaryOp) : BinaryOp.ofName? op.name = some op := by
  cases op <;> decide

@[simp] theorem ofName?_function (f : Function) : Function.ofName? f.name = some f := by
  cases f <;> decide

/-! ## One part -/

theorem toJsonList_eq_map (fs : List (Formula Float)) : toJsonList fs = fs.map toJson := by
  induction fs with
  | nil => rfl
  | cons f fs ih => rw [toJsonList, ih, List.map_cons]

theorem toJson_ne_null (f : Formula Float) : f.toJson ≠ .null := by
  cases f <;> simp [toJson]

/-- The type of a stored formula is a text, inside another formula and elsewhere. -/
theorem innerType_toJson (f : Formula Float) : innerType f.toJson = outerType f.toJson := by
  cases f <;> simp [toJson, innerType, outerType, typeMember, Json.atMostOnce, Json.valuesOf,
    Json.text?]

theorem mapM_toJson (h : ∀ f ∈ fs, inner f.toJson = some f) :
    (toJsonList fs).mapM inner = some fs := by
  induction fs with
  | nil => rfl
  | cons f fs ih =>
    obtain ⟨hf, hfs⟩ := List.forall_mem_cons.1 h
    rw [toJsonList, List.mapM_cons, hf, ih hfs]
    rfl

/-- The formulas directly inside a formula. -/
def parts : Formula Float → List (Formula Float)
  | unary _ f => [f]
  | binary _ f g | whenever f g => [f, g]
  | choose f g k => [f, g, k]
  | call _ args => args
  | _ => []

theorem Storable.of_mem_parts (hf : Storable f) (hg : g ∈ f.parts) : Storable g := by
  cases hf <;> simp only [parts, List.mem_cons, List.not_mem_nil, or_false] at hg
  case unary h => exact hg ▸ h
  case binary h h' => rcases hg with rfl | rfl <;> assumption
  case whenever h h' => rcases hg with rfl | rfl <;> assumption
  case choose h h' h'' => rcases hg with rfl | rfl | rfl <;> assumption
  case call hargs => exact hargs g hg

/-- **A stored part is read** if the formulas inside it are. -/
theorem readTyped_toJson (hf : Storable f) (h : ∀ g ∈ f.parts, inner g.toJson = some g) :
    (outerType f.toJson).bind (readTyped inner f.toJson) = some f := by
  cases hf <;> simp only [parts, List.forall_mem_cons] at h
  case call fn args hargs =>
    simp [toJson, outerType, typeMember, readTyped, members, Json.members, Json.atMostOnce,
      Json.valuesOf, Json.text?, Json.items?, operatorName, Json.name?, mapM_toJson h]
  case choose f g k hf hg hk =>
    simp [toJson, outerType, typeMember, readTyped, members, Json.members, Json.atMostOnce,
      Json.valuesOf, Json.text?, toJson_ne_null, h]
  all_goals
    simp_all [toJson, outerType, typeMember, readTyped, members, Json.members, Json.atMostOnce,
      Json.valuesOf, Json.text?, Json.float?, Json.natBelow?, operatorName, Json.name?]

/-! ## Depth -/

theorem le_depthAll {j : Json} {js : List Json} (h : j ∈ js) : j.depth ≤ Json.depthAll js := by
  induction js with
  | nil => cases h
  | cons i js ih =>
    rw [Json.depthAll]
    obtain rfl | h := List.mem_cons.1 h
    · exact Nat.le_max_left ..
    · exact Nat.le_trans (ih h) (Nat.le_max_right ..)

/-- What is inside a formula nests less deep. -/
theorem depth_lt_of_mem_parts (h : g ∈ f.parts) : g.toJson.depth < f.toJson.depth := by
  cases f <;> simp only [parts, List.mem_cons, List.not_mem_nil, or_false] at h
  case call fn args =>
    have hargs : g.toJson.depth ≤ Json.depthAll (toJsonList args) := by
      rw [toJsonList_eq_map]
      exact le_depthAll (List.mem_map_of_mem h)
    simp only [toJson, Json.depth, Json.depthFields]
    omega
  all_goals
    simp only [toJson, Json.depth, Json.depthFields]
    grind

theorem depth_pos (f : Formula Float) : 0 < f.toJson.depth := by
  cases f <;> exact Nat.succ_pos _

/-- **A reader of formulas inside others** that is prepared for their depth reads what was
stored. -/
theorem readInner_toJson (hf : Storable f) (h : f.toJson.depth ≤ levels) :
    readInner levels f.toJson = some f := by
  induction levels generalizing f with
  | zero => exact absurd h (Nat.not_le_of_lt (depth_pos f))
  | succ levels ih =>
    rw [readInner, innerType_toJson]
    refine readTyped_toJson hf fun g hg => ih (hf.of_mem_parts hg) ?_
    exact Nat.le_of_lt_succ (Nat.lt_of_lt_of_le (depth_lt_of_mem_parts hg) h)

theorem makesSense_toJson (hf : Storable f) : f.toJson.makesSense = true := by
  induction hf with
  | number h => simp [toJson, Json.makesSense, Json.fieldsMakeSense, h]
  | call fn hargs ih =>
    have hall : ∀ args : List (Formula Float), (∀ a ∈ args, a.toJson.makesSense = true) →
        Json.allMakeSense (toJsonList args) = true := by
      intro args h
      induction args with
      | nil => rfl
      | cons a args iha =>
        obtain ⟨ha, hargs⟩ := List.forall_mem_cons.1 h
        rw [toJsonList, Json.allMakeSense, ha, iha hargs]
        rfl
    simp [toJson, Json.makesSense, Json.fieldsMakeSense, hall _ ih]
  | _ => simp_all [toJson, Json.makesSense, Json.fieldsMakeSense]

/-- **A formula that was stored reads back**, unless it nests too deep. -/
theorem ofJson_toJson (hf : Storable f) :
    ofJson levels f.toJson = if f.toJson.depth ≤ levels then some f else none := by
  rw [ofJson, makesSense_toJson hf, Bool.true_and]
  by_cases h : f.toJson.depth ≤ levels
  · rw [if_pos (decide_eq_true h), if_pos h]
    refine readTyped_toJson hf fun g hg => readInner_toJson (hf.of_mem_parts hg) ?_
    exact Nat.le_of_lt (Nat.lt_of_lt_of_le (depth_lt_of_mem_parts hg) h)
  · rw [if_neg (by simpa using h), if_neg h]

/-! ## As text -/

mutual

/-- The numbers in a formula. -/
def numbers : Formula Float → List Float
  | number x => [x]
  | unary _ f => numbers f
  | binary _ f g | whenever f g => numbers f ++ numbers g
  | choose f g k => numbers f ++ numbers g ++ numbers k
  | call _ args => numbersOf args
  | _ => []

/-- The numbers in some formulas. -/
def numbersOf : List (Formula Float) → List Float
  | [] => []
  | f :: fs => numbers f ++ numbersOf fs

end

theorem numbersOf_eq_flatMap (fs : List (Formula Float)) : numbersOf fs = fs.flatMap numbers := by
  induction fs with
  | nil => rfl
  | cons f fs ih => rw [numbersOf, ih, List.flatMap_cons]

open Json (ReadsBack) in
/-- **A stored formula is read from its text** if its numbers are. -/
theorem readsBack_toJson (hf : Storable f) (h : ∀ x ∈ f.numbers, ReadsBack (.real x)) :
    ReadsBack f.toJson := by
  induction hf with
  | capture hi =>
    have hindex := ReadsBack.number (Json.readNumber_whole (Nat.lt_trans hi (by decide)))
    simp [toJson, ReadsBack.object, ReadsBack.string, hindex]
  | call fn hargs ih =>
    refine .object ?_
    simp only [List.forall_mem_cons, List.not_mem_nil, false_imp_iff, implies_true, and_true]
    refine ⟨.string _, .string _, .array fun j hj => ?_⟩
    rw [toJsonList_eq_map] at hj
    obtain ⟨g, hg, rfl⟩ := List.mem_map.1 hj
    refine ih g hg fun x hx => h x ?_
    rw [numbers, numbersOf_eq_flatMap]
    exact List.mem_flatMap_of_mem hg hx
  | _ => simp_all [toJson, numbers, ReadsBack.object, ReadsBack.string, ReadsBack.null, or_imp]

end Formula

namespace Rule

@[simp] theorem ofJson_mergeOp (op : MergeOp) : MergeOp.ofJson (.string op.name) = some op := by
  cases op <;> decide

/-- **A rule that can be stored**: its formula can, if it has one. -/
def Storable (r : Rule) : Prop := ∀ f ∈ r.formula, f.Storable

/-- **A rule that was stored reads back as it was** exactly if it does not nest deeper than
the reader is prepared for. -/
theorem ofJson_toJson_iff {r : Rule} (h : r.Storable) :
    Rule.ofJson Json.deepest r.toJson = some r ↔ r.toJson.depth ≤ Json.deepest := by
  obtain ⟨target, source, op, formula⟩ := r
  cases formula with
  | none =>
    refine iff_of_true ?_ ?_
    · simp [Rule.ofJson, toJson, Json.members, Json.atMostOnce, Json.valuesOf, Json.text?,
        Json.optional?]
    · simp [toJson, Json.depth, Json.depthFields, Json.deepest]
  | some f =>
    have hread : Rule.ofJson Json.deepest (toJson ⟨target, source, op, some f⟩) =
        (Formula.ofJson (Json.deepest - 1) f.toJson).map fun f => ⟨target, source, op, some f⟩ := by
      simp [Rule.ofJson, toJson, Json.members, Json.atMostOnce, Json.valuesOf, Json.text?,
        Json.optional?, Formula.toJson_ne_null]
      cases Formula.ofJson (Json.deepest - 1) f.toJson <;> rfl
    have hdepth : (toJson ⟨target, source, op, some f⟩).depth = f.toJson.depth + 1 := by
      simp [toJson, Json.depth, Json.depthFields]
    rw [hread, hdepth, Formula.ofJson_toJson (h f rfl)]
    by_cases hle : f.toJson.depth ≤ Json.deepest - 1
    · rw [if_pos hle]
      exact iff_of_true rfl (Nat.succ_le_succ hle)
    · rw [if_neg hle]
      exact iff_of_false nofun fun hlt => hle (Nat.le_sub_one_of_lt hlt)

/-- The reader of texts does not miss a number of the rule. -/
def NumbersRead (r : Rule) : Prop :=
  ∀ f ∈ r.formula, ∀ x ∈ f.numbers, Json.readNumber (Json.real x).chars = some (.real x, [])

open Json (ReadsBack) in
/-- The text of a stored rule says what was stored. -/
theorem read_write_toJson {r : Rule} (h : r.Storable) (hnumbers : r.NumbersRead) :
    Json.read r.toJson.write = some r.toJson := by
  obtain ⟨target, source, op, formula⟩ := r
  cases formula with
  | none =>
    have hobject : ReadsBack (toJson ⟨target, source, op, none⟩) := by
      simp [toJson, ReadsBack.object, ReadsBack.string]
    exact hobject.read_write
  | some f =>
    have hformula := Formula.readsBack_toJson (h f rfl)
      fun x hx => ReadsBack.number (hnumbers f rfl x hx)
    have hobject : ReadsBack (toJson ⟨target, source, op, some f⟩) := by
      simp [toJson, ReadsBack.object, ReadsBack.string, hformula]
    exact hobject.read_write

/-- **A rule that was written as text reads back as it was**, with its target, its source,
its operator and its formula, if it has one, exactly if the text does not nest deeper than
the reader is prepared for. -/
theorem ofJson_read_write {r : Rule} (h : r.Storable) (hnumbers : r.NumbersRead) :
    (Json.read r.toJson.write).bind (Rule.ofJson Json.deepest) = some r ↔
      r.toJson.depth ≤ Json.deepest := by
  rw [read_write_toJson h hnumbers, Option.bind_some]
  exact ofJson_toJson_iff h

/-- Half of a number if there is one, which is a choice without an alternative. -/
def halved : Rule :=
  .computed "armor" "dexterity" .add
    (.whenever (.binary .gt .source (.number 0)) (.binary .mul (.capture 1) (.number 0.5)))

theorem ofJson_read_write_halved :
    (Json.read halved.toJson.write).bind (Rule.ofJson Json.deepest) = some halved := by
  have hstorable : halved.Storable := by
    rintro _ ⟨⟩
    exact .whenever (.binary _ .source (.number (by decide)))
      (.binary _ (.capture (by decide)) (.number (by decide)))
  have hnumbers : halved.NumbersRead := by
    rintro _ ⟨⟩
    simp only [Formula.numbers, List.nil_append, List.forall_mem_append, List.forall_mem_singleton]
    constructor <;> with_unfolding_all rfl
  exact (ofJson_read_write hstorable hnumbers).2 (by decide)

/-- So many negations of the source value. -/
def negations : Nat → Formula Float
  | 0 => .source
  | n + 1 => .unary .not (negations n)

theorem depth_negations (n : Nat) : (negations n).toJson.depth = n + 1 := by
  induction n with
  | zero => rfl
  | succ n ih => simp [negations, Formula.toJson, Json.depth, Json.depthFields, ih]

/-- **What nests too deep is refused**, though nothing else is wrong with it. -/
theorem not_forall_ofJson_read_write : ¬ ∀ r : Rule, r.Storable → r.NumbersRead →
    (Json.read r.toJson.write).bind (Rule.ofJson Json.deepest) = some r := by
  intro hall
  have hnot (n : Nat) : (negations n).Storable ∧ (negations n).numbers = [] := by
    induction n with
    | zero => exact ⟨.source, rfl⟩
    | succ n ih => exact ⟨.unary .not ih.1, ih.2⟩
  have hstorable : (computed "t" "s" .set (negations 126)).Storable := by
    rintro _ ⟨⟩
    exact (hnot 126).1
  have hnumbers : (computed "t" "s" .set (negations 126)).NumbersRead := by
    rintro _ ⟨⟩
    rw [(hnot 126).2]
    nofun
  have hread := hall _ hstorable hnumbers
  rw [read_write_toJson hstorable hnumbers, Option.bind_some, ofJson_toJson_iff hstorable] at hread
  simp [computed, toJson, Json.depth, Json.depthFields, Json.deepest, depth_negations] at hread

end Rule

end Rulebook
