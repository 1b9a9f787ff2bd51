import Rulebook.Compiler
import Rulebook.Proofs.CompiledRules
import Rulebook.Proofs.RoundTrip

/-!
# The text of compiled rules

Hosts get formulas as canonical texts. What the compilers put out has numbers in
it that are computed, and an overflow gives an infinity: an experience table with
a threshold too large to be scaled, a literal of hundreds of digits. Infinity has
no literal. It is written as a word, and a word is read as the name of an
attribute.

So a compiled formula is always read back, but as the formula *spelled* with that
name in place of the infinities. It is the compiled formula exactly if all numbers
are finite.
-/

namespace Rulebook

namespace Formula

/-! ## Infinities spelled out -/

/-- The attribute that the word for infinity names. -/
def infinityName : String := "inf"

/-- A number with its infinity spelled out, if it is one. -/
def spelledNumber (x : Float) : Formula Float :=
  if x.isFinite then number x
  else if Double.isNegative x then unary .neg (attr infinityName)
  else attr infinityName

mutual

/-- **A formula with infinities spelled out**: an attribute, or its negation, in
place of each. -/
def spelled : Formula Float → Formula Float
  | number x => spelledNumber x
  | unary op f => unary op (spelled f)
  | binary op f g => binary op (spelled f) (spelled g)
  | whenever f g => whenever (spelled f) (spelled g)
  | choose f g k => choose (spelled f) (spelled g) (spelled k)
  | call fn args => call fn (spelledArgs args)
  | text s => text s
  | null => null
  | source => source
  | attr name => attr name
  | capture i => capture i

/-- Arguments with infinities spelled out. -/
def spelledArgs : List (Formula Float) → List (Formula Float)
  | [] => []
  | f :: fs => spelled f :: spelledArgs fs

end

mutual

/-- Whether all numbers of a formula are finite. -/
def numbersFinite : Formula Float → Bool
  | number x => x.isFinite
  | unary _ f => numbersFinite f
  | binary _ f g => numbersFinite f && numbersFinite g
  | whenever f g => numbersFinite f && numbersFinite g
  | choose f g k => numbersFinite f && numbersFinite g && numbersFinite k
  | call _ args => numbersFiniteArgs args
  | _ => true

/-- Whether all numbers of some arguments are finite. -/
def numbersFiniteArgs : List (Formula Float) → Bool
  | [] => true
  | f :: fs => numbersFinite f && numbersFiniteArgs fs

end

/-! ## The text of a spelled formula -/

/-- A number that is not finite is an infinity. -/
theorem magnitude_of_not_finite {x : Float} (hx : x.isNaN = false) (hinf : x.isFinite ≠ true) :
    Double.magnitude x = Double.infiniteBits := by
  have hle : ¬ Double.infiniteBits < Double.magnitude x := by
    rw [← Double.isNaN_iff_lt_magnitude, hx]
    exact Bool.false_ne_true
  have hge := mt Double.isFinite_iff.2 hinf
  omega

/-- **Infinity is written as a name**, with the sign before it as an operator
would be. -/
theorem spelledNumber_text {x : Float} (hx : x.isNaN = false) :
    (spelledNumber x).chars = (number x).chars ∧
      (spelledNumber x).precedence = (number x).precedence := by
  by_cases hfinite : x.isFinite = true
  · rw [spelledNumber, if_pos hfinite]
    exact ⟨rfl, rfl⟩
  have hbits := magnitude_of_not_finite hx hfinite
  have hzero : Double.magnitude x ≠ 0 := by
    rw [hbits]
    decide
  have hchars : (number x).chars =
      (if Double.isNegative x then ['-'] else []) ++ ['i', 'n', 'f'] := by
    show Double.chars x = _
    unfold Double.chars Layout.chars
    dsimp only
    rw [if_neg hzero, hbits, if_neg (Nat.lt_irrefl _), if_pos rfl]
  have hless : Quantity.less x Quantity.zero = Double.isNegative x := by
    rw [Bool.eq_iff_iff, Double.less_zero_iff hbits.le]
    exact and_iff_left hzero
  have hname : (attr infinityName : Formula Float).chars = ['i', 'n', 'f'] := by decide
  rw [spelledNumber, if_neg hfinite, hchars]
  cases hnegative : Double.isNegative x with
  | true =>
    refine ⟨?_, (if_pos (hless.trans hnegative)).symm⟩
    rw [if_pos rfl, if_pos rfl, chars, hname]
    rfl
  | false =>
    refine ⟨?_, (if_neg (by rw [hless, hnegative]; exact Bool.false_ne_true)).symm⟩
    rw [if_neg Bool.false_ne_true, if_neg Bool.false_ne_true, hname]
    rfl

theorem spelledArgs_eq_map (args : List (Formula Float)) : spelledArgs args = args.map spelled := by
  induction args with
  | nil => rfl
  | cons a args ih => exact congrArg (a.spelled :: ·) ih

theorem negatesNumberArgs_spelledArgs {args : List (Formula Float)}
    (h : ∀ a ∈ args, a.spelled.negatesNumber = false) :
    negatesNumberArgs (spelledArgs args) = false := by
  induction args with
  | nil => rfl
  | cons a args ih =>
    obtain ⟨ha, hargs⟩ := List.forall_mem_cons.1 h
    exact Bool.or_eq_false_iff.2 ⟨ha, ih hargs⟩

theorem sameList_spelledArgs {args : List (Formula Float)}
    (h : ∀ a ∈ args, same a.spelled a = a.numbersFinite) :
    sameList (spelledArgs args) args = numbersFiniteArgs args := by
  induction args with
  | nil => rfl
  | cons a args ih =>
    obtain ⟨ha, hargs⟩ := List.forall_mem_cons.1 h
    rw [spelledArgs, sameList, numbersFiniteArgs, ha, ih hargs]

theorem argumentChars_spelledArgs {args : List (Formula Float)}
    (h : ∀ a ∈ args, a.spelled.chars = a.chars) :
    argumentChars (spelledArgs args) = argumentChars args := by
  induction args with
  | nil => rfl
  | cons a args ih =>
    obtain ⟨ha, hargs⟩ := List.forall_mem_cons.1 h
    cases args with
    | nil => exact ha
    | cons b args =>
      have hrest := ih hargs
      rw [spelledArgs] at hrest ⊢
      rw [spelledArgs, argumentChars, argumentChars, ha, hrest]

theorem spelled_ne_number {f : Formula Float} (h : ∀ x, f ≠ number x) (x : Float) :
    f.spelled ≠ number x := by
  cases f with
  | number y => exact absurd rfl (h y)
  | _ => nofun

namespace Proper

variable {f : Formula Float}

theorem precedence_spelled (hf : f.Proper) : f.spelled.precedence = f.precedence := by
  cases hf with
  | number h => exact (spelledNumber_text h).2
  | _ => rfl

/-- **Spelling infinities out** does not change the text. -/
theorem chars_spelled (hf : f.Proper) : f.spelled.chars = f.chars := by
  induction hf with
  | number h => exact (spelledNumber_text h).1
  | text | null | source | attr | capture => rfl
  | negation _ hf ih => rw [spelled, chars, chars, hf.precedence_spelled, ih]
  | not hf ih => rw [spelled, chars, chars, hf.precedence_spelled, ih]
  | binary op hf hg ihf ihg =>
    rw [spelled, chars, chars, hf.precedence_spelled, hg.precedence_spelled, ihf, ihg]
  | whenever hf hg ihf ihg =>
    rw [spelled, chars, chars, hf.precedence_spelled, hg.precedence_spelled, ihf, ihg]
  | choose hf hg hk ihf ihg ihk =>
    rw [spelled, chars, chars, hf.precedence_spelled, hg.precedence_spelled, ihf, ihg, ihk]
  | call _ _ ih => rw [spelled, chars, chars, argumentChars_spelledArgs ih]

/-! ## What a compiled formula is read as -/

theorem writable_spelled (hf : f.Proper) : f.spelled.Writable := by
  induction hf with
  | @number x h =>
    show (spelledNumber x).Writable
    unfold spelledNumber
    split_ifs with hfinite
    · exact .number hfinite
    · exact .unary .neg (.attr (by decide))
    · exact .attr (by decide)
  | text s => exact .text s
  | null => exact .null
  | source => exact .source
  | attr h => exact .attr h
  | capture h => exact .capture h
  | negation _ _ ih => exact .unary .neg ih
  | not _ ih => exact .unary .not ih
  | binary op _ _ ihf ihg => exact .binary op ihf ihg
  | whenever _ _ ihf ihg => exact .whenever ihf ihg
  | choose _ _ _ ihf ihg ihk => exact .choose ihf ihg ihk
  | @call fn args harity _ ih =>
    rw [spelled, spelledArgs_eq_map]
    exact .call (by rwa [List.length_map]) (List.forall_mem_map.2 ih)

/-- Where no negation of a number was left, none comes in. -/
theorem negatesNumber_spelled (hf : f.Proper) : f.spelled.negatesNumber = false := by
  induction hf with
  | @number x h =>
    show (spelledNumber x).negatesNumber = false
    unfold spelledNumber
    split_ifs <;> rfl
  | text | null | source | attr | capture => rfl
  | negation h _ ih => rw [spelled, negatesNumber_neg (spelled_ne_number h), ih]
  | not _ ih => exact ih
  | binary op _ _ ihf ihg => exact Bool.or_eq_false_iff.2 ⟨ihf, ihg⟩
  | whenever _ _ ihf ihg => exact Bool.or_eq_false_iff.2 ⟨ihf, ihg⟩
  | choose _ _ _ ihf ihg ihk =>
    exact Bool.or_eq_false_iff.2 ⟨Bool.or_eq_false_iff.2 ⟨ihf, ihg⟩, ihk⟩
  | call _ _ ih => exact negatesNumberArgs_spelledArgs ih

/-- **A spelled formula is the formula** exactly if all its numbers are finite. -/
theorem same_spelled (hf : f.Proper) : same f.spelled f = f.numbersFinite := by
  induction hf with
  | @number x h =>
    show same (spelledNumber x) (Formula.number x) = x.isFinite
    unfold spelledNumber
    cases hfinite : x.isFinite with
    | true => exact (Double.beq_self_iff x).2 h
    | false => cases Double.isNegative x <;> rfl
  | text s => exact beq_self_eq_true s
  | null | source => rfl
  | attr h => exact beq_self_eq_true _
  | capture h => exact beq_self_eq_true _
  | negation _ _ ih => rw [spelled, same, ih, beq_self_eq_true, Bool.true_and, numbersFinite]
  | not _ ih => rw [spelled, same, ih, beq_self_eq_true, Bool.true_and, numbersFinite]
  | binary op _ _ ihf ihg =>
    rw [spelled, same, ihf, ihg, beq_self_eq_true, Bool.true_and, numbersFinite]
  | whenever _ _ ihf ihg => rw [spelled, same, ihf, ihg, numbersFinite]
  | choose _ _ _ ihf ihg ihk => rw [spelled, same, ihf, ihg, ihk, numbersFinite]
  | call _ _ ih =>
    rw [spelled, same, beq_self_eq_true, Bool.true_and, sameList_spelledArgs ih, numbersFinite]

/-- **A formula that compilers put out is read back** with infinities spelled out,
hence as itself exactly if all its numbers are finite. -/
theorem read_render_spelled (hf : f.Proper) :
    ∃ g, read f.render = .ok g ∧ (g == f.spelled) = true ∧
      ((g == f) = true ↔ f.numbersFinite = true) := by
  have hrender : String.ofList f.spelled.chars = f.render :=
    congrArg String.ofList hf.chars_spelled
  obtain ⟨g, hreads, hsame⟩ := reads_chars hf.writable_spelled
  rw [folded_eq_self hf.negatesNumber_spelled] at hsame
  have hspelled : (g == f.spelled) = true := hsame
  have hself : (f.spelled == f) = f.numbersFinite := hf.same_spelled
  refine ⟨g, hrender ▸ hreads.read_ofList, hspelled, ?_⟩
  rw [← hself]
  exact ⟨fun h => PartialEquivBEq.trans (PartialEquivBEq.symm hspelled) h,
    fun h => PartialEquivBEq.trans hspelled h⟩

end Proper

end Formula

namespace Compiler

/-- **What the compiler puts out** is proper, under settings that make sense. -/
theorem proper_of_compile {c : Compiler} (hs : c.settings.validate = .ok ()) {record : Record}
    {o : Output} (ho : c.compile record = .ok o) : o.Proper := by
  have hcompile : record.compile c.context = .ok o := Outcome.mapError_eq_ok.1 ho
  exact @Record.proper_compile c.context hs _ _ hcompile

/-- **The texts that hosts get are read back**, with infinities spelled out. What is
read is the compiled formula exactly if no number overflowed. -/
theorem read_render_of_compile {c : Compiler} (hs : c.settings.validate = .ok ())
    {record : Record} {o : Output} (ho : c.compile record = .ok o) {r : Rule} (hr : r ∈ o.rules)
    {f : Formula Float} (hf : r.formula = some f) :
    ∃ g, Formula.read f.render = .ok g ∧ (g == f.spelled) = true ∧
      ((g == f) = true ↔ f.numbersFinite = true) :=
  (proper_of_compile hs ho r hr f hf).read_render_spelled

/-- A class with a second level that no one reaches: its threshold, scaled, is beyond
the largest double. -/
def titan : Record where
  kind := .charClass
  name := "Titan"
  spec := "Experience=0,1e306 HitDie=d10,9,3 Attack=0,1,1,- Breath=17,1.5,2 " ++
    "Death=14,1.5,2 Petrification=15,1.5,2 Spell=17,1.5,2 Wand=16,1.5,2"

/-- Whether a number of a rule overflowed. -/
def overflows (r : Rule) : Bool := r.formula.any fun f => !f.numbersFinite

/-- The class compiles, and a rule of it has infinity as a threshold. -/
theorem exists_titan_overflow : ∃ o, (new .default []).compile titan = .ok o ∧
    ∃ r ∈ o.rules, ∃ f, r.formula = some f ∧ f.numbersFinite = false := by
  have hrules : (((new .default []).compile titan).map (·.rules.any overflows)).toOption =
      some true := by decide +kernel
  cases hcompile : (new .default []).compile titan with
  | error e =>
    rw [hcompile] at hrules
    cases hrules
  | ok o =>
    rw [hcompile] at hrules
    obtain ⟨r, hr, hoverflows⟩ := List.any_eq_true.1 (Option.some.inj hrules)
    obtain ⟨f, hf, hfinite⟩ := (Option.any_eq_true ..).1 hoverflows
    exact ⟨o, rfl, r, hr, f, hf, (Bool.not_eq_true' _).mp hfinite⟩

/-- What the text of that rule is read as is not its formula. -/
theorem read_render_of_compile_titan : ∃ o, (new .default []).compile titan = .ok o ∧
    ∃ r ∈ o.rules, ∃ f, r.formula = some f ∧
      ∃ g, Formula.read f.render = .ok g ∧ (g == f.spelled) = true ∧ (g == f) = false := by
  obtain ⟨o, ho, r, hr, f, hf, hfinite⟩ := exists_titan_overflow
  obtain ⟨g, hread, hspelled, hsame⟩ :=
    @read_render_of_compile (new .default []) rfl titan o ho r hr f hf
  refine ⟨o, ho, r, hr, f, hf, g, hread, hspelled, Bool.eq_false_iff.2 fun h => ?_⟩
  rw [hsame.1 h] at hfinite
  cases hfinite

/-- **The text of a compiled formula is not always the formula**: a threshold that
was computed is read as an attribute. -/
theorem titan_not_reread : ∃ settings records record o, settings.validate = .ok () ∧
    (new settings records).compile record = .ok o ∧ ∃ r ∈ o.rules, ∃ f, r.formula = some f ∧
      ¬ ∃ g, Formula.read f.render = .ok g ∧ (g == f) = true := by
  have hsettings : Settings.default.validate = .ok () := rfl
  obtain ⟨o, ho, r, hr, f, hf, hfinite⟩ := exists_titan_overflow
  refine ⟨.default, [], titan, o, hsettings, ho, r, hr, f, hf, ?_⟩
  rintro ⟨g, hread, hsame⟩
  obtain ⟨g', hread', -, hsame'⟩ :=
    (@proper_of_compile (new .default []) hsettings titan o ho r hr f hf).read_render_spelled
  cases hread.symm.trans hread'
  rw [hsame'.1 hsame] at hfinite
  cases hfinite

end Compiler

end Rulebook
