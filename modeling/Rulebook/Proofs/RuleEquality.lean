import Rulebook.Proofs.Doubles
import Rulebook.Rule
import Rulebook.Text.Whole

/-!
# Equality of rules

Whether two records produce the same rule is decided by `==`. It compares
everything but the numbers in formulas literally, and those as numbers, so that
the two zeros are one. It is therefore symmetric and transitive.

A rule equals itself as soon as the numbers in its formula do. Here this is
part of a stronger property: a formula is *proper* if it could have been read
from a text. What the compilers put out is proper throughout.
-/

namespace Rulebook

namespace Formula

/-! ## Symmetry and transitivity -/

mutual

theorem same_comm : ∀ f g : Formula Float, same f g = same g f
  | number x, g => by
    cases g with
    | number y => exact BEq.comm (a := x) (b := y)
    | _ => rfl
  | text s, g => by
    cases g with
    | text t => exact BEq.comm (a := s) (b := t)
    | _ => rfl
  | null, g => by cases g <;> rfl
  | source, g => by cases g <;> rfl
  | attr a, g => by
    cases g with
    | attr b => exact BEq.comm (a := a) (b := b)
    | _ => rfl
  | capture i, g => by
    cases g with
    | capture j => exact BEq.comm (a := i) (b := j)
    | _ => rfl
  | unary o a, g => by
    cases g with
    | unary p b => rw [same, same, BEq.comm (a := o), same_comm a b]
    | _ => rfl
  | binary o a b, g => by
    cases g with
    | binary p c d => rw [same, same, BEq.comm (a := o), same_comm a c, same_comm b d]
    | _ => rfl
  | whenever a b, g => by
    cases g with
    | whenever c d => rw [same, same, same_comm a c, same_comm b d]
    | _ => rfl
  | choose a b c, g => by
    cases g with
    | choose d e f => rw [same, same, same_comm a d, same_comm b e, same_comm c f]
    | _ => rfl
  | call f as, g => by
    cases g with
    | call g bs => rw [same, same, BEq.comm (a := f), sameList_comm as bs]
    | _ => rfl

theorem sameList_comm : ∀ fs gs : List (Formula Float), sameList fs gs = sameList gs fs
  | [], [] => rfl
  | [], _ :: _ => rfl
  | _ :: _, [] => rfl
  | f :: fs, g :: gs => by rw [sameList, sameList, same_comm f g, sameList_comm fs gs]

end

mutual

theorem same_trans : ∀ {f g h : Formula Float},
    same f g = true → same g h = true → same f h = true
  | number x, g, h, hfg, hgh => by
    cases g with
    | number y =>
      cases h with
      | number z => exact BEq.trans (a := x) (b := y) (c := z) hfg hgh
      | _ => cases hgh
    | _ => cases hfg
  | text s, g, h, hfg, hgh => by
    cases g with
    | text t => rwa [beq_iff_eq.1 (show (s == t) = true from hfg)]
    | _ => cases hfg
  | null, g, h, hfg, hgh => by
    cases g with
    | null => exact hgh
    | _ => cases hfg
  | source, g, h, hfg, hgh => by
    cases g with
    | source => exact hgh
    | _ => cases hfg
  | attr a, g, h, hfg, hgh => by
    cases g with
    | attr b => rwa [beq_iff_eq.1 (show (a == b) = true from hfg)]
    | _ => cases hfg
  | capture i, g, h, hfg, hgh => by
    cases g with
    | capture j => rwa [beq_iff_eq.1 (show (i == j) = true from hfg)]
    | _ => cases hfg
  | unary o a, g, h, hfg, hgh => by
    cases g with
    | unary p b =>
      cases h with
      | unary q c =>
        rw [same, Bool.and_eq_true, beq_iff_eq] at hfg hgh ⊢
        exact ⟨hfg.1.trans hgh.1, same_trans hfg.2 hgh.2⟩
      | _ => cases hgh
    | _ => cases hfg
  | binary o a b, g, h, hfg, hgh => by
    cases g with
    | binary p c d =>
      cases h with
      | binary q e f =>
        rw [same, Bool.and_eq_true, Bool.and_eq_true, beq_iff_eq] at hfg hgh ⊢
        exact ⟨⟨hfg.1.1.trans hgh.1.1, same_trans hfg.1.2 hgh.1.2⟩, same_trans hfg.2 hgh.2⟩
      | _ => cases hgh
    | _ => cases hfg
  | whenever a b, g, h, hfg, hgh => by
    cases g with
    | whenever c d =>
      cases h with
      | whenever e f =>
        rw [same, Bool.and_eq_true] at hfg hgh ⊢
        exact ⟨same_trans hfg.1 hgh.1, same_trans hfg.2 hgh.2⟩
      | _ => cases hgh
    | _ => cases hfg
  | choose a b c, g, h, hfg, hgh => by
    cases g with
    | choose a' b' c' =>
      cases h with
      | choose a'' b'' c'' =>
        rw [same, Bool.and_eq_true, Bool.and_eq_true] at hfg hgh ⊢
        exact ⟨⟨same_trans hfg.1.1 hgh.1.1, same_trans hfg.1.2 hgh.1.2⟩,
          same_trans hfg.2 hgh.2⟩
      | _ => cases hgh
    | _ => cases hfg
  | call f as, g, h, hfg, hgh => by
    cases g with
    | call f' as' =>
      cases h with
      | call f'' as'' =>
        rw [same, Bool.and_eq_true, beq_iff_eq] at hfg hgh ⊢
        exact ⟨hfg.1.trans hgh.1, sameList_trans hfg.2 hgh.2⟩
      | _ => cases hgh
    | _ => cases hfg

theorem sameList_trans : ∀ {fs gs hs : List (Formula Float)},
    sameList fs gs = true → sameList gs hs = true → sameList fs hs = true
  | [], [], _, _, h => h
  | _ :: _, [], _, h, _ => nomatch h
  | [], _ :: _, _, h, _ => nomatch h
  | _ :: _, _ :: _, [], _, h => nomatch h
  | f :: fs, g :: gs, h :: hs, hfg, hgh => by
    rw [sameList, Bool.and_eq_true] at hfg hgh ⊢
    exact ⟨same_trans hfg.1 hgh.1, sameList_trans hfg.2 hgh.2⟩

end

theorem sameList_self {fs : List (Formula Float)} (h : ∀ f ∈ fs, same f f = true) :
    sameList fs fs = true := by
  induction fs with
  | nil => rfl
  | cons f fs ih =>
    rw [sameList, h f (List.mem_cons_self ..), ih (fun g hg => h g (List.mem_cons_of_mem _ hg))]
    rfl

instance : PartialEquivBEq (Formula Float) where
  symm {f g} h := (same_comm g f).trans h
  trans h h' := same_trans h h'

/-! ## Proper formulas -/

/-- **A formula as it comes out of a text**: its numbers are numbers, the
attributes it names have names, the groups it refers to can be written, no
negation of a number is left undone, and functions have as many arguments as
they take. -/
inductive Proper : Formula Float → Prop
  | number {x : Float} (h : x.isNaN = false) : Proper (.number x)
  | text (s : String) : Proper (.text s)
  | null : Proper .null
  | source : Proper .source
  | attr {name : String} (h : name ≠ "") : Proper (.attr name)
  | capture {i : Nat} (h : i < Text.indexBound) : Proper (.capture i)
  | negation {f : Formula Float} (h : ∀ x, f ≠ .number x) (hf : Proper f) :
    Proper (.unary .neg f)
  | not {f : Formula Float} (hf : Proper f) : Proper (.unary .not f)
  | binary (op : BinaryOp) {f g : Formula Float} (hf : Proper f) (hg : Proper g) :
    Proper (.binary op f g)
  | whenever {f g : Formula Float} (hf : Proper f) (hg : Proper g) : Proper (.whenever f g)
  | choose {f g h : Formula Float} (hf : Proper f) (hg : Proper g) (hh : Proper h) :
    Proper (.choose f g h)
  | call {f : Function} {args : List (Formula Float)} (h : f.accepts args.length = true)
    (hargs : ∀ a ∈ args, Proper a) : Proper (.call f args)

namespace Proper

variable {f g : Formula Float}

/-- Negating folds into a number, and otherwise leaves an operator. -/
protected theorem neg (hf : f.Proper) : f.neg.Proper := by
  cases hf with
  | number h => exact .number (Double.isNaN_neg h)
  | text s => exact .negation nofun (.text s)
  | null => exact .negation nofun .null
  | source => exact .negation nofun .source
  | attr h => exact .negation nofun (.attr h)
  | capture h => exact .negation nofun (.capture h)
  | negation h hf => exact .negation nofun (.negation h hf)
  | not hf => exact .negation nofun (.not hf)
  | binary op hf hg => exact .negation nofun (.binary op hf hg)
  | whenever hf hg => exact .negation nofun (.whenever hf hg)
  | choose hf hg hh => exact .negation nofun (.choose hf hg hh)
  | call h hargs => exact .negation nofun (.call h hargs)

/-- **A proper formula equals itself.** -/
theorem beq_self (hf : f.Proper) : (f == f) = true := by
  show same f f = true
  induction hf with
  | number h => exact (Double.beq_self_iff _).2 h
  | text s => exact beq_self_eq_true s
  | null | source => rfl
  | attr h => exact beq_self_eq_true _
  | capture h => exact beq_self_eq_true _
  | negation _ _ ih | not _ ih => rw [same, ih]; rfl
  | binary op _ _ ihf ihg => rw [same, ihf, ihg, beq_self_eq_true]; rfl
  | whenever _ _ ihf ihg => rw [same, ihf, ihg]; rfl
  | choose _ _ _ ihf ihg ihh => rw [same, ihf, ihg, ihh]; rfl
  | call _ _ ih => rw [same, sameList_self ih, beq_self_eq_true]; rfl

end Proper

end Formula

namespace Rule

instance {α : Type} [BEq α] [PartialEquivBEq α] : PartialEquivBEq (Option α) where
  symm {a b} h := by
    match a, b, h with
    | none, none, _ => rfl
    | some a, some b, h =>
      have h : (a == b) = true := h
      exact (BEq.symm h : (b == a) = true)
  trans {a b c} h h' := by
    match a, b, c, h, h' with
    | none, none, none, _, _ => rfl
    | some a, some b, some c, h, h' =>
      have h : (a == b) = true := h
      have h' : (b == c) = true := h'
      exact (BEq.trans h h' : (a == c) = true)

instance : PartialEquivBEq Rule where
  symm {r s} h := by
    change same r s = true at h
    show same s r = true
    unfold same at h ⊢
    simp only [Bool.and_eq_true] at h ⊢
    exact ⟨⟨⟨BEq.symm h.1.1.1, BEq.symm h.1.1.2⟩, BEq.symm h.1.2⟩, BEq.symm h.2⟩
  trans {r s t} h h' := by
    change same r s = true at h
    change same s t = true at h'
    show same r t = true
    unfold same at h h' ⊢
    simp only [Bool.and_eq_true] at h h' ⊢
    exact ⟨⟨⟨BEq.trans h.1.1.1 h'.1.1.1, BEq.trans h.1.1.2 h'.1.1.2⟩,
      BEq.trans h.1.2 h'.1.2⟩, BEq.trans h.2 h'.2⟩

/-- A rule all of whose formula, if it has one, is proper. -/
def Proper (r : Rule) : Prop := ∀ f ∈ r.formula, f.Proper

/-- **A rule with a proper formula equals itself**, and so does one without a
formula. -/
theorem Proper.beq_self {r : Rule} (h : r.Proper) : (r == r) = true := by
  show same r r = true
  unfold same
  rw [beq_self_eq_true, beq_self_eq_true, beq_self_eq_true]
  cases hf : r.formula with
  | none => rfl
  | some f => exact (h f hf).beq_self

/-- Equal rules have one target. -/
theorem target_eq_of_beq {r s : Rule} (h : (r == s) = true) : r.target = s.target := by
  change same r s = true at h
  unfold same at h
  simp only [Bool.and_eq_true, beq_iff_eq] at h
  exact h.1.1.1

/-- Equal rules have one source. -/
theorem source_eq_of_beq {r s : Rule} (h : (r == s) = true) : r.source = s.source := by
  change same r s = true at h
  unfold same at h
  simp only [Bool.and_eq_true, beq_iff_eq] at h
  exact h.1.1.2

/-- Equal rules have one operator. -/
theorem op_eq_of_beq {r s : Rule} (h : (r == s) = true) : r.op = s.op := by
  change same r s = true at h
  unfold same at h
  simp only [Bool.and_eq_true, beq_iff_eq] at h
  exact h.1.2

end Rule

end Rulebook
