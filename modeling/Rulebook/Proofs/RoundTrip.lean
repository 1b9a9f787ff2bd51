import Rulebook.Proofs.Grammar
import Rulebook.Proofs.RuleEquality
import Rulebook.Proofs.Scanning

/-!
# Reading what was rendered

The canonical text of a formula has parentheses only where they are needed, and
what is needed is said by precedence. The grammar says by levels what may stand
where without parentheses. The two meet here: the text of a formula is scanned as
tokens that the grammar derives at the level of the formula's precedence, and
putting parentheses around a text makes it fit anywhere.

What is derived is the formula itself, but for the numbers. A minus sign in front
of a number is part of the number once it is read, and the zero with a sign is
written without it.
-/

namespace Rulebook.Formula

open Grammar
open Token (Scans)

/-! ## Formulas that can be written -/

/-- **A formula with a text of its own**: its numbers are finite, the attributes it
names have names, the groups it refers to have numbers that can be read, and
functions have as many arguments as they take. -/
inductive Writable : Formula Float → Prop
  | number {x : Float} (h : x.isFinite = true) : Writable (.number x)
  | text (s : String) : Writable (.text s)
  | null : Writable .null
  | source : Writable .source
  | attr {name : String} (h : name ≠ "") : Writable (.attr name)
  | capture {i : Nat} (h : i < Text.indexBound) : Writable (.capture i)
  | unary (op : UnaryOp) {f : Formula Float} (hf : Writable f) : Writable (.unary op f)
  | binary (op : BinaryOp) {f g : Formula Float} (hf : Writable f) (hg : Writable g) :
    Writable (.binary op f g)
  | whenever {f g : Formula Float} (hf : Writable f) (hg : Writable g) : Writable (.whenever f g)
  | choose {f g k : Formula Float} (hf : Writable f) (hg : Writable g) (hk : Writable k) :
    Writable (.choose f g k)
  | call {f : Function} {args : List (Formula Float)} (h : f.accepts args.length = true)
    (hargs : ∀ a ∈ args, Writable a) : Writable (.call f args)

section Folding

variable {N : Type}

mutual

/-- Whether a number stands directly under a negation anywhere in a formula. -/
def negatesNumber : Formula N → Bool
  | unary .neg (number _) => true
  | unary _ f => negatesNumber f
  | binary _ f g => negatesNumber f || negatesNumber g
  | whenever f g => negatesNumber f || negatesNumber g
  | choose f g k => negatesNumber f || negatesNumber g || negatesNumber k
  | call _ args => negatesNumberArgs args
  | _ => false

/-- Whether a number stands so in some arguments. -/
def negatesNumberArgs : List (Formula N) → Bool
  | [] => false
  | f :: fs => negatesNumber f || negatesNumberArgs fs

end

theorem negatesNumber_neg {f : Formula N} (h : ∀ x, f ≠ number x) :
    (unary .neg f).negatesNumber = f.negatesNumber := by
  rw [negatesNumber]
  rintro x - rfl
  exact h x rfl

variable [Quantity N]

mutual

/-- **A formula with negations of numbers done**, the innermost first. -/
def folded : Formula N → Formula N
  | unary .neg f => (folded f).neg
  | unary .not f => unary .not (folded f)
  | binary op f g => binary op (folded f) (folded g)
  | whenever f g => whenever (folded f) (folded g)
  | choose f g k => choose (folded f) (folded g) (folded k)
  | call fn args => call fn (foldedArgs args)
  | number x => number x
  | text s => text s
  | null => null
  | source => source
  | attr name => attr name
  | capture i => capture i

/-- Arguments with negations of numbers done. -/
def foldedArgs : List (Formula N) → List (Formula N)
  | [] => []
  | f :: fs => folded f :: foldedArgs fs

end

theorem neg_of_ne_number {f : Formula N} (h : ∀ x, f ≠ number x) : f.neg = unary .neg f := by
  cases f with
  | number x => exact absurd rfl (h x)
  | _ => rfl

mutual

/-- **Where no number is negated** there is nothing to fold. -/
theorem folded_eq_self : ∀ {f : Formula N}, f.negatesNumber = false → f.folded = f
  | number _, _ | text _, _ | null, _ | source, _ | attr _, _ | capture _, _ => rfl
  | unary .not f, h => by
    rw [folded, folded_eq_self (f := f) h]
  | unary .neg f, h => by
    have hne : ∀ x, f ≠ number x := by
      rintro x rfl
      cases h
    rw [negatesNumber_neg hne] at h
    rw [folded, folded_eq_self h, neg_of_ne_number hne]
  | binary _ f g, h => by
    obtain ⟨hf, hg⟩ := Bool.or_eq_false_iff.1 h
    rw [folded, folded_eq_self hf, folded_eq_self hg]
  | whenever f g, h => by
    obtain ⟨hf, hg⟩ := Bool.or_eq_false_iff.1 h
    rw [folded, folded_eq_self hf, folded_eq_self hg]
  | choose f g k, h => by
    obtain ⟨hfg, hk⟩ := Bool.or_eq_false_iff.1 h
    obtain ⟨hf, hg⟩ := Bool.or_eq_false_iff.1 hfg
    rw [folded, folded_eq_self hf, folded_eq_self hg, folded_eq_self hk]
  | call _ args, h => by
    rw [folded, foldedArgs_eq_self h]

theorem foldedArgs_eq_self : ∀ {args : List (Formula N)}, negatesNumberArgs args = false →
    foldedArgs args = args
  | [], _ => rfl
  | f :: fs, h => by
    obtain ⟨hf, hfs⟩ := Bool.or_eq_false_iff.1 h
    rw [foldedArgs, folded_eq_self hf, foldedArgs_eq_self hfs]

end

end Folding

/-- Negating equal numbers gives equal ones. -/
theorem neg_beq_neg {x y : Float} (h : (x == y) = true) : (-x == -y) = true := by
  obtain ⟨hx, -, hcases⟩ := Float.beq_iff_ne_nan_and_eq.1 h
  obtain rfl | ⟨rfl, rfl⟩ | ⟨rfl, rfl⟩ := hcases
  · rw [Double.beq_self_iff]
    exact Double.isNaN_neg ((Double.beq_self_iff x).1 h)
  · decide
  · decide

/-- Negating equal formulas gives equal ones. -/
theorem same_neg {f g : Formula Float} (h : same f g = true) : same f.neg g.neg = true := by
  cases f with
  | number x =>
    cases g with
    | number y => exact neg_beq_neg h
    | _ => cases h
  | _ =>
    cases g with
    | number y => cases h
    | _ => exact h

/-! ## Levels and precedences -/

/-- **Tokens that stand for a formula** where something of a precedence may stand. -/
inductive Binds : Nat → List Token → Formula Float → Prop
  | choice {isOpen : Bool} {ts : List Token} {f : Formula Float} (h : Choice isOpen ts f) :
    Binds choicePrecedence ts f
  | level {n : Nat} {ts : List Token} {f : Formula Float} (hn : choicePrecedence < n)
    (h : Level n ts f) : Binds n ts f
  | primary {ts : List Token} {f : Formula Float} (h : Primary ts f) :
    Binds primaryPrecedence ts f

theorem unary_of_level {ts : List Token} {f : Formula Float} (h : Level unaryPrecedence ts f) :
    Unary ts f := by
  cases h with
  | operand h => exact h
  | single hn => exact absurd hn (by decide)
  | chain hop => exact absurd (lt_of_joins hop) (by decide)

namespace Binds

variable {m n : Nat} {ts : List Token} {f : Formula Float}

theorem level_of_le (h : Binds n ts f) (hle : m ≤ n) (hchoice : choicePrecedence < m)
    (hunary : m ≤ unaryPrecedence) : Level m ts f := by
  cases h with
  | choice => exact absurd hle (Nat.not_le.2 hchoice)
  | level _ h => exact h.of_le hle
  | primary h => exact (Level.operand (.primary h)).of_le hunary

theorem primary_of_lt (h : Binds n ts f) (hlt : unaryPrecedence < n) : Primary ts f := by
  cases h with
  | choice => exact absurd hlt (by decide)
  | level _ h => exact absurd hlt (Nat.not_lt.2 h.le)
  | primary h => exact h

theorem expression (h : Binds n ts f) : Expression ts f := by
  cases h with
  | choice h => exact ⟨_, h⟩
  | level hn h => exact ⟨false, .level (h.of_le hn)⟩
  | primary h => exact ⟨false, .level ((Level.operand (.primary h)).of_le (by decide))⟩

end Binds

/-- **A text that reads as a formula** where something of a precedence may stand. -/
def Reads (n : Nat) (cs : List Char) (f : Formula Float) : Prop :=
  ∃ ts, Scans cs ts ∧ Binds n ts f

namespace Reads

variable {m n : Nat} {cs : List Char} {f : Formula Float} {needed : Bool}

/-- In parentheses a text may stand anywhere. -/
theorem paren (h : Reads n cs f) : ∃ ts, Scans ('(' :: cs ++ [')']) ts ∧ Primary ts f := by
  obtain ⟨ts, hscans, hbinds⟩ := h
  obtain ⟨isOpen, hchoice⟩ := hbinds.expression
  exact ⟨_, hscans.paren, .paren hchoice⟩

/-- **A text may stand at a level** if it is in parentheses or binds so tightly. -/
theorem level (h : Reads n cs f) (hneeded : needed = false → m ≤ n)
    (hchoice : choicePrecedence < m) (hunary : m ≤ unaryPrecedence) :
    ∃ ts, Scans (enclose needed cs) ts ∧ Level m ts f := by
  cases needed with
  | true =>
    obtain ⟨ts, hscans, hprimary⟩ := h.paren
    exact ⟨ts, hscans, (Level.operand (.primary hprimary)).of_le hunary⟩
  | false =>
    obtain ⟨ts, hscans, hbinds⟩ := h
    exact ⟨ts, hscans, hbinds.level_of_le (hneeded rfl) hchoice hunary⟩

/-- **A text may stand by itself** if it is in parentheses or binds the tightest. -/
theorem primary (h : Reads n cs f) (hneeded : needed = false → unaryPrecedence < n) :
    ∃ ts, Scans (enclose needed cs) ts ∧ Primary ts f := by
  cases needed with
  | true => exact h.paren
  | false =>
    obtain ⟨ts, hscans, hbinds⟩ := h
    exact ⟨ts, hscans, hbinds.primary_of_lt (hneeded rfl)⟩

theorem of_primary {ts : List Token} (hscans : Scans cs ts) (h : Primary ts f) :
    Reads primaryPrecedence cs f := ⟨ts, hscans, .primary h⟩

theorem of_unary {ts : List Token} (hscans : Scans cs ts) (h : Unary ts f) :
    Reads unaryPrecedence cs f := ⟨ts, hscans, .level (by decide) (.operand h)⟩

/-! ### Texts put together -/

variable {ds : List Char} {g : Formula Float}

/-- Behind a minus sign there is nothing with a sign of its own. -/
theorem neg (h : Reads n cs f) :
    Reads unaryPrecedence ('-' :: enclose (n ≤ unaryPrecedence) cs) f.neg := by
  obtain ⟨ts, hscans, hprimary⟩ := h.primary (fun hn => Nat.not_le.1 (of_decide_eq_false hn))
  exact .of_unary hscans.minus (Unary.primary hprimary).neg

theorem not (h : Reads n cs f) :
    Reads unaryPrecedence ('!' :: enclose (n < unaryPrecedence) cs) (unary .not f) := by
  obtain ⟨ts, hscans, hlevel⟩ := h.level (fun hn => Nat.not_lt.1 (of_decide_eq_false hn))
    (by decide) (Nat.le_refl unaryPrecedence)
  exact .of_unary hscans.bang (.not (unary_of_level hlevel))

/-- Operators of one precedence group to the left, so on the right parentheses are
needed sooner. -/
theorem binary (op : BinaryOp) (h : Reads m cs f) (h' : Reads n ds g) :
    Reads op.precedence (enclose (m < op.precedence) cs ++
      ' ' :: op.symbol.toList ++ ' ' :: enclose (n ≤ op.precedence) ds)
      (Formula.binary op f g) := by
  have hchoice : choicePrecedence < op.precedence := by cases op <;> decide
  have htight : op.precedence + 1 ≤ unaryPrecedence :=
    Nat.succ_le_of_lt (precedence_lt op)
  obtain ⟨ts, hscans, hlevel⟩ := h.level (fun hm => Nat.not_lt.1 (of_decide_eq_false hm))
    hchoice (Nat.le_of_succ_le htight)
  obtain ⟨us, hscans', hlevel'⟩ := h'.level (fun hn => Nat.not_le.1 (of_decide_eq_false hn))
    (Nat.lt_succ_of_lt hchoice) htight
  exact ⟨_, hscans.binary op hscans', .level hchoice
    (.chain (joins_precedence op) hlevel hlevel')⟩

/-- A condition or a consequent is no choice itself unless it is in parentheses. -/
theorem operand (h : Reads n cs f) :
    ∃ ts, Scans (enclose (n ≤ choicePrecedence) cs) ts ∧ Level loosest ts f :=
  h.level (fun hn => Nat.not_le.1 (of_decide_eq_false hn)) (by decide) (by decide)

theorem whenever (h : Reads m cs f) (h' : Reads n ds g) :
    Reads choicePrecedence (enclose (m ≤ choicePrecedence) cs ++
      " ? ".toList ++ enclose (n ≤ choicePrecedence) ds) (Formula.whenever f g) := by
  obtain ⟨ts, hscans, hlevel⟩ := h.operand
  obtain ⟨us, hscans', hlevel'⟩ := h'.operand
  exact ⟨_, hscans.question hscans', .choice (.whenever hlevel (.level hlevel'))⟩

theorem choose {es : List Char} {k : Formula Float} {l : Nat} (h : Reads m cs f)
    (h' : Reads n ds g) (h'' : Reads l es k) :
    Reads choicePrecedence (enclose (m ≤ choicePrecedence) cs ++
      " ? ".toList ++ enclose (n ≤ choicePrecedence) ds ++ " : ".toList ++ es)
      (Formula.choose f g k) := by
  obtain ⟨ts, hscans, hlevel⟩ := h.operand
  obtain ⟨us, hscans', hlevel'⟩ := h'.operand
  obtain ⟨vs, hscans'', hbinds⟩ := h''
  obtain ⟨isOpen, hchoice⟩ := hbinds.expression
  refine ⟨_, (hscans.question hscans').colon hscans'', ?_⟩
  rw [List.append_assoc]
  exact .choice (.choose hlevel (.level hlevel') hchoice)

/-- **A text by itself** is read as what it reads as. -/
theorem read_ofList (h : Reads n cs f) : read (String.ofList cs) = .ok f := by
  obtain ⟨ts, hscans, hbinds⟩ := h
  unfold read readChars
  dsimp only
  rw [String.toList_ofList, hscans.scan_eq]
  exact ofTokens_eq_ok.2 hbinds.expression

end Reads

/-! ## Canonical texts -/

/-- An attribute name is written so that it is read as one. -/
theorem reads_attr {name : String} (h : name ≠ "") :
    Reads primaryPrecedence (nameChars name) (attr name) := by
  unfold nameChars
  split
  · rename_i hbare
    unfold isBareName at hbare
    simp only [Bool.and_eq_true, bne_iff_ne, List.all_eq_true] at hbare
    obtain ⟨⟨⟨⟨hstart, hparts⟩, -⟩, hsource⟩, hnull⟩ := hbare
    refine .of_primary (.ident ?_ hparts) (.name hsource hnull)
    split at hstart
    · cases hstart
    · rename_i c cs hcs
      exact ⟨c, by rw [hcs]; rfl, hstart⟩
  · exact .of_primary (.quotedIdent h) (.quotedName name)

/-- A number below zero is written with a minus sign, which is read into it. -/
theorem reads_number {x : Float} (hx : x.isFinite = true) :
    ∃ y, Reads (precedence (number x)) (number x).chars (number y) ∧ (y == x) = true := by
  have hself : (x == x) = true := (Double.beq_self_iff x).2 (Double.isNaN_of_isFinite hx)
  cases hless : Quantity.less x Quantity.zero with
  | true =>
    obtain ⟨cs, hchars, hliteral, hneg⟩ := Double.chars_of_less hx hless
    have hprecedence : precedence (number x) = unaryPrecedence := if_pos hless
    have hread : Reads unaryPrecedence ('-' :: cs) (number (-Double.size x)) :=
      .of_unary (Scans.literal hliteral).minus (.minusNumber (.primary (.number _)))
    rw [hneg, ← hchars] at hread
    exact ⟨x, hprecedence ▸ hread, hself⟩
  | false =>
    obtain ⟨hliteral, hsize⟩ := Double.chars_of_not_less hx hless
    have hprecedence : precedence (number x) = primaryPrecedence :=
      if_neg (by rw [hless]; exact Bool.false_ne_true)
    exact ⟨_, hprecedence ▸ .of_primary (.literal hliteral) (.number _), hsize⟩

/-- Arguments are written so that they are read one by one. -/
theorem arguments_of_reads {args : List (Formula Float)}
    (h : ∀ a ∈ args, ∃ g, Reads a.precedence a.chars g ∧ same g a.folded = true)
    (hne : args ≠ []) : ∃ ts gs, Scans (argumentChars args) ts ∧ Arguments ts gs ∧
      gs.length = args.length ∧ sameList gs (foldedArgs args) = true := by
  induction args with
  | nil => exact absurd rfl hne
  | cons a args ih =>
    obtain ⟨⟨g, ⟨ts, hscans, hbinds⟩, hsame⟩, hargs⟩ := List.forall_mem_cons.1 h
    obtain ⟨isOpen, hchoice⟩ := hbinds.expression
    cases args with
    | nil =>
      refine ⟨ts, [g], hscans, .last hchoice, rfl, ?_⟩
      rw [foldedArgs, foldedArgs, sameList, hsame]
      rfl
    | cons b args =>
      obtain ⟨us, gs, hscans', harguments, hlength, hsame'⟩ := ih hargs (List.cons_ne_nil _ _)
      refine ⟨_, g :: gs, hscans.comma hscans', .more hchoice harguments,
        congrArg Nat.succ hlength, ?_⟩
      rw [foldedArgs, sameList, hsame, hsame']
      rfl

/-- **The canonical text of a formula reads as the formula** where its precedence
asks for it, with negations of numbers done. -/
theorem reads_chars {f : Formula Float} (hf : Writable f) :
    ∃ g, Reads f.precedence f.chars g ∧ same g f.folded = true := by
  induction hf with
  | number hx =>
    obtain ⟨y, hread, heq⟩ := reads_number hx
    exact ⟨number y, hread, heq⟩
  | text s => exact ⟨text s, .of_primary (.text s) (.text s), beq_self_eq_true s⟩
  | null =>
    have hscans : Scans "null".toList [.ident "null"] :=
      .ident ⟨'n', rfl, by decide⟩ (List.all_eq_true.1 (by decide))
    exact ⟨null, .of_primary hscans .null, rfl⟩
  | source =>
    have hscans : Scans "source".toList [.ident "source"] :=
      .ident ⟨'s', rfl, by decide⟩ (List.all_eq_true.1 (by decide))
    exact ⟨source, .of_primary hscans .source, rfl⟩
  | attr h => exact ⟨attr _, reads_attr h, beq_self_eq_true _⟩
  | capture h => exact ⟨capture _, .of_primary (.capture h) (.capture _), beq_self_eq_true _⟩
  | @unary op f hf ih =>
    obtain ⟨g, hread, hsame⟩ := ih
    cases op with
    | neg => exact ⟨g.neg, hread.neg, same_neg hsame⟩
    | not =>
      refine ⟨Formula.unary .not g, hread.not, ?_⟩
      rw [folded, same, hsame]
      rfl
  | @binary op f g hf hg ihf ihg =>
    obtain ⟨f', hreadf, hsamef⟩ := ihf
    obtain ⟨g', hreadg, hsameg⟩ := ihg
    refine ⟨Formula.binary op f' g', hreadf.binary op hreadg, ?_⟩
    rw [folded, same, hsamef, hsameg, beq_self_eq_true]
    rfl
  | @whenever f g hf hg ihf ihg =>
    obtain ⟨f', hreadf, hsamef⟩ := ihf
    obtain ⟨g', hreadg, hsameg⟩ := ihg
    refine ⟨Formula.whenever f' g', hreadf.whenever hreadg, ?_⟩
    rw [folded, same, hsamef, hsameg]
    rfl
  | @choose f g k hf hg hk ihf ihg ihk =>
    obtain ⟨f', hreadf, hsamef⟩ := ihf
    obtain ⟨g', hreadg, hsameg⟩ := ihg
    obtain ⟨k', hreadk, hsamek⟩ := ihk
    refine ⟨Formula.choose f' g' k', hreadf.choose hreadg hreadk, ?_⟩
    rw [folded, same, hsamef, hsameg, hsamek]
    rfl
  | @call fn args harity hargs ih =>
    have hne : args ≠ [] := by
      rintro rfl
      rw [List.length_nil, accepts_zero] at harity
      cases harity
    obtain ⟨ts, gs, hscans, harguments, hlength, hsame⟩ := arguments_of_reads ih hne
    have hsignature : Signature fn.name fn gs.length :=
      signature_iff.2 ⟨rfl, by rw [hlength, harity]⟩
    refine ⟨Formula.call fn gs, .of_primary (hscans.call fn) (.call hsignature harguments), ?_⟩
    rw [folded, same, hsame, beq_self_eq_true]
    rfl

/-- **Reading undoes rendering.** The canonical text of a formula that can be written
is read as the formula with negations of numbers done; that is the formula itself if
no number in it is negated. -/
theorem read_render {f : Formula Float} (hf : Writable f) :
    ∃ g, read f.render = .ok g ∧ (g == f.folded) = true ∧
      (f.negatesNumber = false → (g == f) = true) := by
  obtain ⟨g, hreads, hsame⟩ := reads_chars hf
  refine ⟨g, hreads.read_ofList, hsame, fun h => ?_⟩
  rw [folded_eq_self h] at hsame
  exact hsame

/-- A penalty where there is anything to penalize: the number in it is negated. -/
def penalty : Formula Float :=
  whenever (attr "source") (unary .neg (number (Double.ofWhole 2)))

/-- The attribute is quoted, for it has the name of the source, and the minus sign
is read into the number. -/
theorem read_render_penalty : penalty.Writable ∧
    ∃ g, read penalty.render = .ok g ∧
      (g == whenever (attr "source") (number (-Double.ofWhole 2))) = true :=
  have hwritable : penalty.Writable :=
    .whenever (.attr (by decide)) (.unary .neg (.number (by decide +kernel)))
  ⟨hwritable, (read_render hwritable).imp fun _ h => ⟨h.1, h.2.1⟩⟩

end Rulebook.Formula
