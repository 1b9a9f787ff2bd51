import Mathlib.Algebra.Group.Nat.Even
import Rulebook.Formula.Reader

/-!
# The grammar of expressions

Which formula a list of tokens stands for is a matter of grammar, and the grammar
knows nothing of reading from the left. It has one level for each precedence of
operators, and at each level a chain that groups to the left. What has to be said
with care is the choice: a colon belongs to the nearest question mark that has
none yet, and so what stands between a question mark and its colon must not end
in a choice that would take the colon for itself.

The grammar is spelled out on its own: which operators a level has, which names
are those of functions and how many arguments each takes, and what a minus sign in
front of a number makes of it. That the tables of the reader say the same is
proved right after it.

The reader works otherwise. It climbs: it asks for operators that bind at least
so tightly, raises what it asks for on the right of each, and never looks further
ahead than one token. This module proves that the two agree, hence that a list of
tokens stands for one formula at most.
-/

namespace Rulebook

/-! ## The grammar -/

namespace Grammar

/-- **The operators of each level**, those that bind the tightest last. A choice
is the level before them. -/
inductive Joins : Nat → BinaryOp → Prop
  | or : Joins 2 .or
  | and : Joins 3 .and
  | eq : Joins 4 .eq
  | ne : Joins 4 .ne
  | lt : Joins 5 .lt
  | le : Joins 5 .le
  | gt : Joins 5 .gt
  | ge : Joins 5 .ge
  | add : Joins 6 .add
  | sub : Joins 6 .sub
  | mul : Joins 7 .mul
  | div : Joins 7 .div

/-- **The functions**, with their names and how many arguments they take. -/
inductive Signature : String → Function → Nat → Prop
  | floor : Signature "floor" .floor 1
  | ceil : Signature "ceil" .ceil 1
  | abs : Signature "abs" .abs 1
  | min {n : Nat} (h : 2 ≤ n) : Signature "min" .min n
  | max {n : Nat} (h : 2 ≤ n) : Signature "max" .max n
  | steps {n : Nat} (h : 2 ≤ n) (heven : Even n) : Signature "steps" .steps n
  | table {n : Nat} (h : 2 ≤ n) : Signature "table" .table n
  | matching : Signature "matches" .matching 3

mutual

/-- **A choice**, or a formula without one. The flag says whether its last
question mark has no colon: it would take one that came next. -/
inductive Choice : Bool → List Token → Formula Float → Prop
  | level {ts : List Token} {f : Formula Float} (h : Level 2 ts f) : Choice false ts f
  | whenever {isOpen : Bool} {ts us : List Token} {f g : Formula Float}
    (hf : Level 2 ts f) (hg : Choice isOpen us g) :
    Choice true (ts ++ .question :: us) (.whenever f g)
  | choose {isOpen : Bool} {ts us vs : List Token} {f g k : Formula Float}
    (hf : Level 2 ts f) (hg : Choice false us g) (hk : Choice isOpen vs k) :
    Choice isOpen (ts ++ .question :: (us ++ .colon :: vs)) (.choose f g k)

/-- **A chain of the operators of one level**, which groups to the left. Its
operands are of the next level, and beyond the last level no operator is left. -/
inductive Level : Nat → List Token → Formula Float → Prop
  | operand {ts : List Token} {f : Formula Float} (h : Unary ts f) : Level 8 ts f
  | single {n : Nat} {ts : List Token} {f : Formula Float} (hn : n < 8)
    (h : Level (n + 1) ts f) : Level n ts f
  | chain {n : Nat} {op : BinaryOp} {ts us : List Token} {f g : Formula Float}
    (hop : Joins n op) (hf : Level n ts f) (hg : Level (n + 1) us g) :
    Level n (ts ++ .op op :: us) (.binary op f g)

/-- **An operand with the operators before it.** The negation of a number is a
number. -/
inductive Unary : List Token → Formula Float → Prop
  | primary {ts : List Token} {f : Formula Float} (h : Primary ts f) : Unary ts f
  | minusNumber {ts : List Token} {x : Float} (h : Unary ts (.number x)) :
    Unary (.op .sub :: ts) (.number (-x))
  | minus {ts : List Token} {f : Formula Float} (h : Unary ts f) (hf : ∀ x, f ≠ .number x) :
    Unary (.op .sub :: ts) (.unary .neg f)
  | not {ts : List Token} {f : Formula Float} (h : Unary ts f) :
    Unary (.bang :: ts) (.unary .not f)

/-- **What stands by itself.** -/
inductive Primary : List Token → Formula Float → Prop
  | number (x : Float) : Primary [.number x] (.number x)
  | text (s : String) : Primary [.text s] (.text s)
  | capture (i : Nat) : Primary [.capture i] (.capture i)
  | quotedName (name : String) : Primary [.quotedIdent name] (.attr name)
  | source : Primary [.ident "source"] .source
  | null : Primary [.ident "null"] .null
  | name {name : String} (hsource : name ≠ "source") (hnull : name ≠ "null") :
    Primary [.ident name] (.attr name)
  | paren {isOpen : Bool} {ts : List Token} {f : Formula Float} (h : Choice isOpen ts f) :
    Primary (.openParen :: (ts ++ [.closeParen])) f
  | call {name : String} {f : Function} {ts : List Token} {args : List (Formula Float)}
    (hf : Signature name f args.length) (h : Arguments ts args) :
    Primary (.ident name :: .openParen :: (ts ++ [.closeParen])) (.call f args)

/-- **Choices with commas between them.** There is at least one, as every function
takes at least one argument. -/
inductive Arguments : List Token → List (Formula Float) → Prop
  | last {isOpen : Bool} {ts : List Token} {f : Formula Float} (h : Choice isOpen ts f) :
    Arguments ts [f]
  | more {isOpen : Bool} {ts us : List Token} {f : Formula Float} {fs : List (Formula Float)}
    (h : Choice isOpen ts f) (hs : Arguments us fs) : Arguments (ts ++ .comma :: us) (f :: fs)

end

/-- **An expression**: a choice, whether or not it could take another colon. -/
def Expression (ts : List Token) (f : Formula Float) : Prop := ∃ isOpen, Choice isOpen ts f

/-! ### The tables of the reader -/

/-- **The levels are the precedences.** -/
theorem joins_iff {n : Nat} {op : BinaryOp} : Joins n op ↔ op.precedence = n := by
  constructor
  · intro h
    cases h <;> rfl
  · rintro rfl
    cases op <;> constructor

theorem joins_precedence (op : BinaryOp) : Joins op.precedence op := joins_iff.2 rfl

/-- **The signatures are those of the functions** with the numbers of arguments that
they accept. -/
theorem signature_iff {name : String} {f : Function} {n : Nat} :
    Signature name f n ↔ f.name = name ∧ f.accepts n = true := by
  constructor
  · intro h
    cases h with
    | floor | ceil | abs | matching => exact ⟨rfl, rfl⟩
    | min h | max h | table h => exact ⟨rfl, decide_eq_true h⟩
    | steps h heven => exact ⟨rfl, by simp [Function.accepts, h, Nat.even_iff.1 heven]⟩
  · rintro ⟨rfl, h⟩
    cases f with
    | floor | ceil | abs | matching =>
      obtain rfl := of_decide_eq_true h
      constructor
    | min => exact .min (of_decide_eq_true h)
    | max => exact .max (of_decide_eq_true h)
    | table => exact .table (of_decide_eq_true h)
    | steps =>
      simp only [Function.accepts, Bool.and_eq_true, decide_eq_true_eq] at h
      exact .steps h.1 (Nat.even_iff.2 h.2)

/-- **A minus sign negates**, as it does for the reader. -/
theorem Unary.neg {ts : List Token} {f : Formula Float} (h : Unary ts f) :
    Unary (.op .sub :: ts) f.neg := by
  cases f with
  | number x => exact .minusNumber h
  | _ => exact .minus h nofun

theorem neg_of_ne {f : Formula Float} (hf : ∀ x, f ≠ .number x) : f.neg = .unary .neg f := by
  cases f with
  | number x => exact absurd rfl (hf x)
  | _ => rfl

theorem lt_of_joins {n : Nat} {op : BinaryOp} (h : Joins n op) : n < 8 := by
  cases h <;> decide

theorem precedence_lt (op : BinaryOp) : op.precedence < 8 := lt_of_joins (joins_precedence op)

/-- There is no level beyond that of operands. -/
theorem Level.le {n : Nat} {ts : List Token} {f : Formula Float} (h : Level n ts f) : n ≤ 8 := by
  cases h with
  | operand => exact Nat.le_refl _
  | single hn => exact Nat.le_of_lt hn
  | chain hop => exact Nat.le_of_lt (lt_of_joins hop)

/-- What is of one level is of every looser one. -/
theorem Level.of_le {m n : Nat} {ts : List Token} {f : Formula Float} (h : Level n ts f)
    (hle : m ≤ n) : Level m ts f := by
  induction hle with
  | refl => exact h
  | step _ ih => exact ih (.single (Nat.lt_of_succ_le h.le) h)

/-- Only its own name names a function. -/
theorem ofName?_eq_some_iff {s : String} {f : Function} :
    Function.ofName? s = some f ↔ f.name = s := by
  constructor
  · intro h
    have hname := List.find?_some h
    exact beq_iff_eq.1 hname
  · rintro rfl
    cases f <;> rfl

/-- No function takes no arguments. -/
theorem accepts_zero (f : Function) : f.accepts 0 = false := by cases f <;> rfl

end Grammar

theorem Formula.ofIdent_of_ne {name : String} (hsource : name ≠ "source") (hnull : name ≠ "null") :
    ofIdent name = attr name := by
  unfold ofIdent
  rw [if_neg hsource, if_neg hnull]

/-- An identifier stands for an attribute unless it is one of two words. -/
theorem Grammar.primary_ofIdent (name : String) : Primary [.ident name] (Formula.ofIdent name) := by
  by_cases hsource : name = "source"
  · exact hsource ▸ .source
  · by_cases hnull : name = "null"
    · exact hnull ▸ .null
    · rw [Formula.ofIdent_of_ne hsource hnull]
      exact .name hsource hnull

/-! ## What is read is derived

Each reader splits the tokens into those it used up and the rest. A reader of
operators stops only where it has to, and that is part of the statement: the
climbing reader asks for it when it goes on with a looser operator, and the choice
when it finds no colon. -/

/-- Whether tokens begin with no operator that binds at least as tightly as the
given precedence. -/
def Token.Looser (n : Nat) (ts : List Token) : Prop :=
  ∀ op us, ts = .op op :: us → op.precedence < n

/-- Whether tokens do not begin with a colon that a choice would take. -/
def Token.NoColon (isOpen : Bool) (ts : List Token) : Prop :=
  isOpen = true → ∀ us, ts ≠ .colon :: us

namespace Formula

open Grammar Token

/-- What a reader gives, whatever its bound on what it leaves. -/
def Gives {α : Type} {p : α → Prop} (r : Compiled {a // p a}) (a : α) : Prop :=
  ∃ h, r = .ok ⟨a, h⟩

variable {input : String}

mutual

theorem choice_of_readChoice {ts : List Token} {f : Formula Float} {rest : List Token} :
    Gives (readChoice input ts) (f, rest) →
      ∃ isOpen us, ts = us ++ rest ∧ Choice isOpen us f ∧ NoColon isOpen rest := by
  fun_cases readChoice input ts with
  | case4 condition rest₁ _ consequent rest₂ _ alternative rest₃ _ h₃ _ h₁ _ h₂ =>
    rintro ⟨_, ⟨⟩⟩
    obtain ⟨us, hus, hcondition, -⟩ := level_of_readBinary (by decide) ⟨_, h₁⟩
    obtain ⟨isOpen, vs, hvs, hconsequent, hcolon⟩ := choice_of_readChoice ⟨_, h₂⟩
    obtain ⟨isOpen', ws, hws, halternative, hcolon'⟩ := choice_of_readChoice ⟨_, h₃⟩
    -- the consequent left the colon, so it would not have taken it
    obtain rfl : isOpen = false := Bool.eq_false_iff.2 (fun hopen => hcolon hopen _ rfl)
    refine ⟨isOpen', _, ?_, .choose hcondition hconsequent halternative, hcolon'⟩
    rw [hus, hvs, hws]
    simp
  | case5 condition rest₁ _ consequent rest₂ _ hnocolon _ h₁ _ h₂ =>
    rintro ⟨_, ⟨⟩⟩
    obtain ⟨us, hus, hcondition, -⟩ := level_of_readBinary (by decide) ⟨_, h₁⟩
    obtain ⟨isOpen, vs, hvs, hconsequent, -⟩ := choice_of_readChoice ⟨_, h₂⟩
    refine ⟨true, _, ?_, .whenever hcondition hconsequent, fun _ ws hws => ?_⟩
    · rw [hus, hvs]
      simp
    · subst hws
      exact hnocolon ws _ rfl .rfl
  | case6 f rest _ _ _ h =>
    rintro ⟨_, ⟨⟩⟩
    obtain ⟨us, hus, hf, -⟩ := level_of_readBinary (by decide) ⟨_, h⟩
    exact ⟨false, us, hus, .level hf, nofun⟩
  | _ => rintro ⟨_, ⟨⟩⟩
  termination_by 8 * ts.length + 3
  decreasing_by
    all_goals subst_vars
    all_goals try simp only [List.length_append, List.length_cons]
    all_goals omega

theorem level_of_readBinary {least : Nat} (hleast : least ≤ 8) {ts : List Token}
    {f : Formula Float} {rest : List Token} : Gives (readBinary input least ts) (f, rest) →
      ∃ us, ts = us ++ rest ∧ Level least us f ∧ Looser least rest := by
  fun_cases readBinary input least ts with
  | case3 left rest₁ _ h r _ h₁ =>
    rintro ⟨_, ⟨⟩⟩
    obtain ⟨us, hus, hleft⟩ := unary_of_readUnary ⟨_, h⟩
    obtain ⟨vs, hvs, hlevel, hlooser⟩ := level_of_readOperators (.operand hleft) hleast
      (fun op _ _ => Nat.lt_succ_of_lt (precedence_lt op)) ⟨_, h₁⟩
    exact ⟨us ++ vs, by rw [hus, hvs, List.append_assoc], hlevel, hlooser⟩
  | _ => rintro ⟨_, ⟨⟩⟩
  termination_by 8 * ts.length + 2
  decreasing_by
    all_goals subst_vars
    all_goals try simp only [List.length_append]
    all_goals omega

theorem level_of_readOperators {least n : Nat} {us : List Token} {left : Formula Float}
    (hleft : Level n us left) (hle : least ≤ n) {ts : List Token} (hts : Looser (n + 1) ts)
    {f : Formula Float} {rest : List Token} :
    Gives (readOperators input least left ts) (f, rest) →
      ∃ vs, ts = vs ++ rest ∧ Level least (us ++ vs) f ∧ Looser least rest := by
  fun_cases readOperators input least left ts with
  | case1 op rest hop =>
    simp only [readOperators, hop]
    rintro ⟨_, ⟨⟩⟩
    refine ⟨[], rfl, by rw [List.append_nil]; exact hleft.of_le hle, ?_⟩
    rintro _ _ ⟨⟩
    exact hop
  | case4 op rest hop right rest₁ _ h r _ h₁ =>
    simp only [readOperators, hop, h, h₁]
    rintro ⟨_, ⟨⟩⟩
    obtain ⟨ws, hws, hright, hlooser⟩ := level_of_readBinary
      (Nat.succ_le_of_lt (precedence_lt op)) ⟨_, h⟩
    obtain ⟨vs, hvs, hlevel, hlooser'⟩ := level_of_readOperators
      (.chain (joins_precedence op) (hleft.of_le (Nat.le_of_lt_succ (hts op rest rfl))) hright)
      (Nat.not_lt.1 hop) hlooser ⟨_, h₁⟩
    refine ⟨.op op :: (ws ++ vs), ?_, ?_, hlooser'⟩
    · rw [hws, hvs]
      simp
    · simpa using hlevel
  | case5 _ hop =>
    rw [readOperators]
    rintro ⟨_, ⟨⟩⟩
    exact ⟨[], rfl, by rw [List.append_nil]; exact hleft.of_le hle,
      fun op us h => absurd h (hop op us)⟩
    exact hop
  | _ => simp_all only [readOperators]; rintro ⟨_, ⟨⟩⟩
  termination_by 8 * ts.length
  decreasing_by
    all_goals subst_vars
    all_goals try simp only [List.length_append, List.length_cons]
    all_goals omega

theorem unary_of_readUnary {ts : List Token} {f : Formula Float} {rest : List Token} :
    Gives (readUnary input ts) (f, rest) → ∃ us, ts = us ++ rest ∧ Unary us f := by
  fun_cases readUnary input ts with
  | case2 rest₁ f rest₂ _ h =>
    simp only [readUnary, h]
    rintro ⟨_, ⟨⟩⟩
    obtain ⟨us, rfl, hf⟩ := unary_of_readUnary ⟨_, h⟩
    exact ⟨.op .sub :: us, rfl, hf.neg⟩
  | case4 rest₁ f rest₂ _ h =>
    simp only [readUnary, h]
    rintro ⟨_, ⟨⟩⟩
    obtain ⟨us, rfl, hf⟩ := unary_of_readUnary ⟨_, h⟩
    exact ⟨.bang :: us, rfl, .not hf⟩
  | case5 _ hminus hbang =>
    rw [readUnary]
    · intro h
      obtain ⟨us, hus, hf⟩ := primary_of_readPrimary h
      exact ⟨us, hus, .primary hf⟩
    · exact hminus
    · exact hbang
  | case1 rest e h => simp only [readUnary, h]; rintro ⟨_, ⟨⟩⟩
  | case3 rest e h => simp only [readUnary, h]; rintro ⟨_, ⟨⟩⟩
  termination_by 8 * ts.length + 1
  decreasing_by
    all_goals subst_vars
    all_goals try simp only [List.length_cons]
    all_goals omega

theorem primary_of_readPrimary {ts : List Token} {f : Formula Float} {rest : List Token} :
    Gives (readPrimary input ts) (f, rest) → ∃ us, ts = us ++ rest ∧ Primary us f := by
  fun_cases readPrimary input ts with
  | case2 x rest =>
    simp only [readPrimary]
    rintro ⟨_, ⟨⟩⟩
    exact ⟨[.number x], rfl, .number x⟩
  | case3 s rest =>
    simp only [readPrimary]
    rintro ⟨_, ⟨⟩⟩
    exact ⟨[.text s], rfl, .text s⟩
  | case4 i rest =>
    simp only [readPrimary]
    rintro ⟨_, ⟨⟩⟩
    exact ⟨[.capture i], rfl, .capture i⟩
  | case5 name rest =>
    simp only [readPrimary]
    rintro ⟨_, ⟨⟩⟩
    exact ⟨[.quotedIdent name], rfl, .quotedName name⟩
  | case7 rest₁ f rest₂ _ _ h =>
    simp only [readPrimary, h]
    rintro ⟨_, ⟨⟩⟩
    obtain ⟨isOpen, us, hus, hf, -⟩ := choice_of_readChoice ⟨_, h⟩
    refine ⟨.openParen :: (us ++ [.closeParen]), ?_, .paren hf⟩
    rw [hus]
    simp
  | case11 name rest₁ f hname args rest₂ _ h harity =>
    simp only [readPrimary, hname, h, harity]
    rintro ⟨_, ⟨⟩⟩
    obtain ⟨us, hus, hargs⟩ := arguments_of_readArguments harity ⟨_, h⟩
    have hsignature := signature_iff.2 ⟨ofName?_eq_some_iff.1 hname, harity⟩
    refine ⟨.ident name :: .openParen :: (us ++ [.closeParen]), ?_, .call hsignature hargs⟩
    rw [hus]
    simp
  | case13 name rest₁ hcall =>
    rw [readPrimary]
    · rintro ⟨_, ⟨⟩⟩
      exact ⟨[.ident name], rfl, primary_ofIdent name⟩
    · exact hcall
  | case14 =>
    rw [readPrimary] <;> first | assumption | rintro ⟨_, ⟨⟩⟩
  | _ => intro h; simp_all only [readPrimary]; obtain ⟨_, ⟨⟩⟩ := h
  termination_by 8 * ts.length
  decreasing_by
    all_goals subst_vars
    all_goals try simp only [List.length_cons]
    all_goals omega

theorem arguments_of_readArguments {fn : Function} {ts : List Token}
    {args : List (Formula Float)} {rest : List Token} (harity : fn.accepts args.length = true) :
    Gives (readArguments input ts) (args, rest) →
      ∃ us, ts = us ++ .closeParen :: rest ∧ Arguments us args := by
  fun_cases readArguments input ts with
  | case1 rest =>
    simp only [readArguments]
    rintro ⟨_, ⟨⟩⟩
    exact absurd harity (by rw [List.length_nil, accepts_zero]; exact Bool.false_ne_true)
  | case2 _ hclose =>
    rw [readArguments]
    exact arguments_of_readMoreArguments
    exact hclose
  termination_by 8 * ts.length + 5
  decreasing_by omega

theorem arguments_of_readMoreArguments {ts : List Token} {args : List (Formula Float)}
    {rest : List Token} : Gives (readMoreArguments input ts) (args, rest) →
      ∃ us, ts = us ++ .closeParen :: rest ∧ Arguments us args := by
  fun_cases readMoreArguments input ts with
  | case2 f rest₁ _ _ h =>
    rintro ⟨_, ⟨⟩⟩
    obtain ⟨isOpen, us, hus, hf, -⟩ := choice_of_readChoice ⟨_, h⟩
    exact ⟨us, hus, .last hf⟩
  | case4 f rest₁ _ args rest₂ _ h₁ _ h =>
    rintro ⟨_, ⟨⟩⟩
    obtain ⟨isOpen, us, hus, hf, -⟩ := choice_of_readChoice ⟨_, h⟩
    obtain ⟨vs, hvs, hargs⟩ := arguments_of_readMoreArguments ⟨_, h₁⟩
    refine ⟨us ++ .comma :: vs, ?_, .more hf hargs⟩
    rw [hus, hvs]
    simp
  | _ => rintro ⟨_, ⟨⟩⟩
  termination_by 8 * ts.length + 4
  decreasing_by
    all_goals subst_vars
    all_goals try simp only [List.length_append, List.length_cons]
    all_goals omega

end

/-! ## What is derived is read

The other direction needs to know what follows. After a primary there must be no
parenthesis, which would make a call of a name; after operands no operator that
would be taken; and after a choice nothing that would go on with it.

For a chain the statement is not that it is read to its end. The climbing reader
may be asked for looser operators than those of the chain and then reads on, so
what is said is that after the chain it goes on as if the chain were one operand. -/

section Rules

variable {ts us vs rest : List Token} {f g k : Formula Float} {r : Formula Float × List Token}

theorem gives_level (h : Gives (readBinary input loosest ts) (f, rest))
    (hrest : ∀ us, rest ≠ .question :: us) : Gives (readChoice input ts) (f, rest) := by
  obtain ⟨hlt, h⟩ := h
  rw [readChoice, h]
  dsimp only
  split
  · exact absurd rfl (hrest _)
  · exact ⟨hlt, rfl⟩

theorem gives_whenever (h : Gives (readBinary input loosest ts) (f, .question :: us))
    (h₁ : Gives (readChoice input us) (g, rest)) (hrest : ∀ vs, rest ≠ .colon :: vs) :
    Gives (readChoice input ts) (.whenever f g, rest) := by
  obtain ⟨hlt, h⟩ := h
  obtain ⟨hlt₁, h₁⟩ := h₁
  rw [readChoice, h]
  dsimp only
  rw [h₁]
  dsimp only
  split
  · exact absurd rfl (hrest _)
  · exact ⟨_, rfl⟩

theorem gives_choose (h : Gives (readBinary input loosest ts) (f, .question :: us))
    (h₁ : Gives (readChoice input us) (g, .colon :: vs))
    (h₂ : Gives (readChoice input vs) (k, rest)) :
    Gives (readChoice input ts) (.choose f g k, rest) := by
  obtain ⟨hlt, h⟩ := h
  obtain ⟨hlt₁, h₁⟩ := h₁
  obtain ⟨hlt₂, h₂⟩ := h₂
  rw [readChoice, h]
  dsimp only
  rw [h₁]
  dsimp only
  rw [h₂]
  exact ⟨_, rfl⟩

theorem gives_binary {least : Nat} (h : Gives (readUnary input ts) (f, rest))
    (h₁ : Gives (readOperators input least f rest) r) : Gives (readBinary input least ts) r := by
  obtain ⟨hlt, h⟩ := h
  obtain ⟨hle, h₁⟩ := h₁
  rw [readBinary, h]
  dsimp only
  rw [h₁]
  exact ⟨_, rfl⟩

theorem gives_operators_op {least : Nat} {op : BinaryOp} (hop : least ≤ op.precedence)
    (h : Gives (readBinary input (op.precedence + 1) ts) (g, rest))
    (h₁ : Gives (readOperators input least (.binary op f g) rest) r) :
    Gives (readOperators input least f (.op op :: ts)) r := by
  obtain ⟨hlt, h⟩ := h
  obtain ⟨hle, h₁⟩ := h₁
  rw [readOperators, if_neg (Nat.not_lt.2 hop), h]
  dsimp only
  rw [h₁]
  exact ⟨_, rfl⟩

theorem gives_operators_nil {least : Nat} (hrest : Looser least rest) :
    Gives (readOperators input least f rest) (f, rest) := by
  fun_cases readOperators input least f rest with
  | case1 op us hop =>
    rw [readOperators, if_pos hop]
    exact ⟨_, rfl⟩
  | case5 _ hop =>
    rw [readOperators]
    · exact ⟨_, rfl⟩
    · exact hop
  | _ op us hop => exact absurd (hrest op us rfl) hop

theorem gives_minus (h : Gives (readUnary input ts) (f, rest)) :
    Gives (readUnary input (.op .sub :: ts)) (f.neg, rest) := by
  obtain ⟨hlt, h⟩ := h
  rw [readUnary, h]
  exact ⟨_, rfl⟩

theorem gives_not (h : Gives (readUnary input ts) (f, rest)) :
    Gives (readUnary input (.bang :: ts)) (.unary .not f, rest) := by
  obtain ⟨hlt, h⟩ := h
  rw [readUnary, h]
  exact ⟨_, rfl⟩

/-- A primary begins with no operator. -/
theorem gives_unary (hts : Primary us g) (h : Gives (readPrimary input (us ++ rest)) (f, rest)) :
    Gives (readUnary input (us ++ rest)) (f, rest) := by
  cases hts <;> (rw [readUnary]; exact h; nofun; nofun)

theorem gives_ofIdent {name : String} (hrest : ∀ us, rest ≠ .openParen :: us) :
    Gives (readPrimary input ([.ident name] ++ rest)) (ofIdent name, rest) := by
  rw [List.singleton_append, readPrimary]
  · exact ⟨_, rfl⟩
  · exact hrest

theorem gives_paren (h : Gives (readChoice input ts) (f, .closeParen :: rest)) :
    Gives (readPrimary input (.openParen :: ts)) (f, rest) := by
  obtain ⟨hlt, h⟩ := h
  rw [readPrimary, h]
  exact ⟨_, rfl⟩

/-- Nothing that can be read begins with a closing parenthesis. -/
theorem not_gives_arguments_close {args : List (Formula Float)} :
    ¬ Gives (readMoreArguments input (.closeParen :: us)) (args, rest) := by
  rintro ⟨hlt, h⟩
  simp only [readMoreArguments, readChoice, readBinary, readUnary, readPrimary, malformed] at h
  cases h

theorem gives_call {fn : Function} {args : List (Formula Float)}
    (h : Gives (readMoreArguments input ts) (args, rest)) (harity : fn.accepts args.length = true) :
    Gives (readPrimary input (.ident fn.name :: .openParen :: ts)) (.call fn args, rest) := by
  have harguments : Gives (readArguments input ts) (args, rest) := by
    rw [readArguments]
    · exact h
    · rintro us rfl
      exact not_gives_arguments_close h
  obtain ⟨hlt, h⟩ := harguments
  rw [readPrimary, ofName?_eq_some_iff.2 rfl]
  dsimp only
  rw [h]
  dsimp only
  rw [if_pos harity]
  exact ⟨_, rfl⟩

theorem gives_last (h : Gives (readChoice input ts) (f, .closeParen :: rest)) :
    Gives (readMoreArguments input ts) ([f], rest) := by
  obtain ⟨hlt, h⟩ := h
  rw [readMoreArguments, h]
  exact ⟨_, rfl⟩

theorem gives_more {fs : List (Formula Float)} (h : Gives (readChoice input ts) (f, .comma :: us))
    (h₁ : Gives (readMoreArguments input us) (fs, rest)) :
    Gives (readMoreArguments input ts) (f :: fs, rest) := by
  obtain ⟨hlt, h⟩ := h
  obtain ⟨hlt₁, h₁⟩ := h₁
  rw [readMoreArguments, h]
  dsimp only
  rw [h₁]
  exact ⟨_, rfl⟩

end Rules

/-- Tokens that may follow operands of at least the given precedence. -/
structure Follow (n : Nat) (ts : List Token) : Prop where
  noCall : ∀ us, ts ≠ .openParen :: us
  looser : Looser n ts

/-- Tokens that may follow a choice. -/
structure FollowChoice (isOpen : Bool) (ts : List Token) : Prop where
  follow : Follow loosest ts
  noQuestion : ∀ us, ts ≠ .question :: us
  noColon : NoColon isOpen ts

section Follow

variable {m n : Nat} {isOpen : Bool} {ts : List Token}

theorem Follow.of_le (h : Follow m ts) (hle : m ≤ n) : Follow n ts :=
  ⟨h.noCall, fun op us hts => Nat.lt_of_lt_of_le (h.looser op us hts) hle⟩

theorem Follow.op {o : BinaryOp} (h : o.precedence < n) : Follow n (.op o :: ts) where
  noCall := nofun
  looser := by
    rintro _ _ ⟨⟩
    exact h

theorem Follow.question : Follow n (.question :: ts) := ⟨nofun, nofun⟩

theorem FollowChoice.colon : FollowChoice false (.colon :: ts) := ⟨⟨nofun, nofun⟩, nofun, nofun⟩

theorem FollowChoice.comma : FollowChoice isOpen (.comma :: ts) := ⟨⟨nofun, nofun⟩, nofun, nofun⟩

theorem FollowChoice.closeParen : FollowChoice isOpen (.closeParen :: ts) :=
  ⟨⟨nofun, nofun⟩, nofun, nofun⟩

theorem FollowChoice.nil : FollowChoice isOpen [] := ⟨⟨nofun, nofun⟩, nofun, nofun⟩

end Follow

mutual

theorem readChoice_of_choice {isOpen : Bool} {ts rest : List Token} {f : Formula Float}
    (hf : Choice isOpen ts f) (hrest : FollowChoice isOpen rest) :
    Gives (readChoice input (ts ++ rest)) (f, rest) := by
  cases hf with
  | level hf =>
    have hread := readBinary_of_level hf (Nat.le_refl _) (hrest.follow.of_le (Nat.le_succ _))
      (gives_operators_nil hrest.follow.looser)
    exact gives_level hread hrest.noQuestion
  | @whenever _ ts us f g hf hg =>
    have hcondition : Gives (readBinary input loosest (ts ++ .question :: (us ++ rest)))
        (f, .question :: (us ++ rest)) :=
      readBinary_of_level hf (Nat.le_refl _) .question (gives_operators_nil Follow.question.looser)
    have hconsequent := readChoice_of_choice hg
      ⟨hrest.follow, hrest.noQuestion, fun _ => hrest.noColon rfl⟩
    rw [List.append_assoc, List.cons_append]
    exact gives_whenever hcondition hconsequent (hrest.noColon rfl)
  | @choose _ ts us vs f g k hf hg hk =>
    have hcondition : Gives (readBinary input loosest
        (ts ++ .question :: (us ++ .colon :: (vs ++ rest))))
        (f, .question :: (us ++ .colon :: (vs ++ rest))) :=
      readBinary_of_level hf (Nat.le_refl _) .question (gives_operators_nil Follow.question.looser)
    have hconsequent : Gives (readChoice input (us ++ .colon :: (vs ++ rest)))
        (g, .colon :: (vs ++ rest)) :=
      readChoice_of_choice hg .colon
    have halternative := readChoice_of_choice hk hrest
    rw [List.append_assoc, List.cons_append, List.append_assoc, List.cons_append]
    exact gives_choose hcondition hconsequent halternative
  termination_by 16 * ts.length + 12
  decreasing_by
    all_goals subst_vars
    all_goals try simp only [List.length_append, List.length_cons]
    all_goals omega

theorem readBinary_of_level {m least : Nat} {ts rest : List Token} {f : Formula Float}
    (hf : Level m ts f) (hle : least ≤ m) (hrest : Follow (m + 1) rest)
    {r : Formula Float × List Token} (h : Gives (readOperators input least f rest) r) :
    Gives (readBinary input least (ts ++ rest)) r := by
  cases hf with
  | operand hf => exact gives_binary (readUnary_of_unary hf hrest.noCall) h
  | single hm hf =>
    exact readBinary_of_level hf (Nat.le_succ_of_le hle) (hrest.of_le (Nat.le_succ _)) h
  | @chain _ op ts us f g hop hf hg =>
    obtain rfl := joins_iff.1 hop
    have hright : Gives (readBinary input (op.precedence + 1) (us ++ rest)) (g, rest) :=
      readBinary_of_level hg (Nat.le_refl _) (hrest.of_le (Nat.le_succ _))
        (gives_operators_nil hrest.looser)
    rw [List.append_assoc, List.cons_append]
    -- the chain so far is followed by its own operator, which it leaves for later
    exact readBinary_of_level hf hle (.op (Nat.lt_succ_self _)) (gives_operators_op hle hright h)
  termination_by 16 * ts.length + (10 - m)
  decreasing_by
    all_goals subst_vars
    all_goals try simp only [List.length_append, List.length_cons]
    all_goals omega

theorem readUnary_of_unary {ts rest : List Token} {f : Formula Float} (hf : Unary ts f)
    (hrest : ∀ us, rest ≠ .openParen :: us) : Gives (readUnary input (ts ++ rest)) (f, rest) := by
  cases hf with
  | primary hf => exact gives_unary hf (readPrimary_of_primary hf hrest)
  | minusNumber hf => exact gives_minus (readUnary_of_unary hf hrest)
  | minus hf hne => exact neg_of_ne hne ▸ gives_minus (readUnary_of_unary hf hrest)
  | not hf => exact gives_not (readUnary_of_unary hf hrest)
  termination_by 16 * ts.length + 1
  decreasing_by
    all_goals subst_vars
    all_goals try simp only [List.length_cons]
    all_goals omega

theorem readPrimary_of_primary {ts rest : List Token} {f : Formula Float} (hf : Primary ts f)
    (hrest : ∀ us, rest ≠ .openParen :: us) : Gives (readPrimary input (ts ++ rest)) (f, rest) := by
  cases hf with
  | number x | text s | capture i | quotedName name =>
    rw [List.singleton_append, readPrimary]
    exact ⟨_, rfl⟩
  | source => exact gives_ofIdent hrest
  | null => exact gives_ofIdent hrest
  | name hsource hnull => exact ofIdent_of_ne hsource hnull ▸ gives_ofIdent hrest
  | @paren _ ts f hf =>
    have hread : Gives (readChoice input (ts ++ .closeParen :: rest)) (f, .closeParen :: rest) :=
      readChoice_of_choice hf .closeParen
    rw [List.cons_append, List.append_assoc]
    exact gives_paren hread
  | @call name fn ts args hf hargs =>
    obtain ⟨rfl, harity⟩ := signature_iff.1 hf
    have hread : Gives (readMoreArguments input (ts ++ .closeParen :: rest)) (args, rest) :=
      readMoreArguments_of_arguments hargs
    rw [List.cons_append, List.cons_append, List.append_assoc]
    exact gives_call hread harity
  termination_by 16 * ts.length
  decreasing_by
    all_goals subst_vars
    all_goals simp only [List.length_append, List.length_cons]
    all_goals omega

theorem readMoreArguments_of_arguments {ts rest : List Token} {args : List (Formula Float)}
    (hargs : Arguments ts args) :
    Gives (readMoreArguments input (ts ++ .closeParen :: rest)) (args, rest) := by
  cases hargs with
  | last hf => exact gives_last (readChoice_of_choice hf .closeParen)
  | @more _ ts us f fs hf hfs =>
    have hread : Gives (readChoice input (ts ++ .comma :: (us ++ .closeParen :: rest)))
        (f, .comma :: (us ++ .closeParen :: rest)) :=
      readChoice_of_choice hf .comma
    rw [List.append_assoc, List.cons_append]
    exact gives_more hread (readMoreArguments_of_arguments hfs)
  termination_by 16 * ts.length + 13
  decreasing_by
    all_goals subst_vars
    all_goals try simp only [List.length_append, List.length_cons]
    all_goals omega

end

/-! ## Reading is deriving -/

/-- **A list of tokens is read as a formula** exactly if it derives it. -/
theorem ofTokens_eq_ok {ts : List Token} {f : Formula Float} :
    ofTokens input ts = .ok f ↔ Expression ts f := by
  constructor
  · fun_cases ofTokens input ts with
    | case3 _ f _ hread =>
      rintro ⟨⟩
      obtain ⟨isOpen, us, hus, hf, -⟩ := choice_of_readChoice ⟨_, hread⟩
      rw [List.append_nil] at hus
      exact ⟨isOpen, hus ▸ hf⟩
    | _ => rintro ⟨⟩
  · rintro ⟨isOpen, hf⟩
    have hread : Gives (readChoice input (ts ++ [])) (f, []) := readChoice_of_choice hf .nil
    rw [List.append_nil] at hread
    obtain ⟨hlt, hread⟩ := hread
    unfold ofTokens
    rw [if_neg (fun hempty => Nat.ne_of_gt hlt (congrArg List.length (List.isEmpty_iff.1 hempty))),
      hread]

/-- **The reader accepts the grammar.** A list of tokens is read as a formula exactly
if it derives it, and refused with an error exactly if it derives none; it derives one
at most. -/
theorem ofTokens_accepts (input : String) (ts : List Token) :
    (∀ f, ofTokens input ts = .ok f ↔ Expression ts f) ∧
      ((∃ e, ofTokens input ts = .error e) ↔ ¬ ∃ f, Expression ts f) ∧
      ∀ f g, Expression ts f → Expression ts g → f = g := by
  refine ⟨fun f => ofTokens_eq_ok, ?_, ?_⟩
  · constructor
    · rintro ⟨e, he⟩ ⟨f, hf⟩
      rw [ofTokens_eq_ok.2 hf] at he
      cases he
    · intro hnone
      cases h : ofTokens input ts with
      | error e => exact ⟨e, rfl⟩
      | ok f => exact absurd ⟨f, ofTokens_eq_ok.1 h⟩ hnone
  · intro f g hf hg
    have hread : ofTokens input ts = .ok f := ofTokens_eq_ok.2 hf
    rw [ofTokens_eq_ok.2 hg] at hread
    exact (Except.ok.inj hread).symm

/-- A colon belongs to the nearest question mark. -/
example : ofTokens "a ? b ? c : d"
    [.ident "a", .question, .ident "b", .question, .ident "c", .colon, .ident "d"] =
      .ok (.whenever (.attr "a") (.choose (.attr "b") (.attr "c") (.attr "d"))) := by
  cbv

end Formula

end Rulebook
