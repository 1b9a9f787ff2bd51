import Rulebook.Compile.Feature
import Rulebook.Proofs.Interpolations

/-!
# Where an effect is cut

An effect is a target, an operator with an equals sign, and an expression, and the
expression may have equals signs of its own. The one that assigns is told from the
others by what stands next to it. Another equals sign on either side, or an exclamation
mark or an angle bracket in front, makes it part of a comparison; the first equals sign
that is not part of one is where the effect is cut.

So no target without an equals sign is cut in the wrong place, and nothing that the
expression compares can move the cut. The operator is taken from the end of what stands
before it. With a blank between target and operator, no letter or sign that the target
ends with is taken for an operator, and the `v` of a limit is always seen.
-/

namespace Rulebook

/-- A blank in front of an expression means nothing. -/
theorem Formula.readChars_space {cs : List Char} {f : Formula Float} (h : readChars cs = .ok f) :
    readChars (' ' :: cs) = .ok f := by
  obtain ⟨ts, hts, hf⟩ := Outcome.bind_eq_ok.1 h
  have hscan : Token.scan (String.ofList (' ' :: cs)) (' ' :: cs) = .ok ts := by
    rw [Token.scan_space]
    exact Token.scan_of_append_blanks (List.forall_mem_nil _) (by rwa [List.append_nil])
  exact Outcome.bind_eq_ok.2 ⟨ts, hscan, ofTokens_eq_ok.2 (ofTokens_eq_ok.1 hf)⟩

namespace Compile.Effect

variable {before seen head rest cs sign : List Char} {target expr : String} {op : MergeOp}
  {f : Formula Float}

/-! ## The cut -/

/-- **Whether an equals sign is part of a comparison**, given what stands before it and
after it. -/
def Compares (before after : List Char) : Prop :=
  (∃ c ∈ before.getLast?, c = '!' ∨ c = '<' ∨ c = '>' ∨ c = '=') ∨ after.head? = some '='

instance {before after : List Char} : Decidable (Compares before after) :=
  inferInstanceAs (Decidable (_ ∨ _))

/-- **Whether all equals signs of a text are part of comparisons.** -/
def OnlyCompares (cs : List Char) : Prop :=
  ∀ before after, cs = before ++ '=' :: after → Compares before after

/-- **A cut is made at an equals sign** that is not part of a comparison, and otherwise
further on. -/
theorem cutAssignment_cons {c : Char} : cutAssignment seen.getLast? (c :: cs) =
    if c = '=' ∧ ¬ Compares seen cs then some ([], cs)
    else (cutAssignment (seen ++ [c]).getLast? cs).map fun (head, rest) => (c :: head, rest) := by
  have hassigns : (decide (c = '=') && assigns seen.getLast? cs.head?) = true ↔
      c = '=' ∧ ¬ Compares seen cs := by
    cases hlast : seen.getLast? <;> simp [assigns, Compares, hlast]
    tauto
  rw [List.getLast?_concat]
  exact if_congr hassigns rfl rfl

/-- **There is no cut** exactly if all equals signs are part of comparisons, together with
what has been passed over already. -/
theorem cutAssignment_eq_none_iff : cutAssignment seen.getLast? cs = none ↔
    ∀ before after, cs = before ++ '=' :: after → Compares (seen ++ before) after := by
  induction cs generalizing seen with
  | nil => simp [cutAssignment]
  | cons c cs ih =>
    rw [cutAssignment_cons]
    split
    case isTrue h =>
      refine iff_of_false nofun fun hall => h.2 ?_
      simpa using hall [] cs (by rw [h.1, List.nil_append])
    case isFalse h =>
      rw [Option.map_eq_none_iff, ih]
      constructor
      · rintro hall (_ | ⟨d, before⟩) after heq
        · obtain ⟨rfl, rfl⟩ := List.cons.inj heq
          simpa using h
        · obtain ⟨rfl, rfl⟩ := List.cons.inj heq
          simpa using hall before after rfl
      · rintro hall before after rfl
        simpa using hall (c :: before) after rfl

/-- **The cut is at the first equals sign** that is not part of a comparison. -/
theorem cutAssignment_append (hhead : '=' ∉ head) (h : ¬ Compares (seen ++ head) rest) :
    cutAssignment seen.getLast? (head ++ '=' :: rest) = some (head, rest) := by
  induction head generalizing seen with
  | nil =>
    rw [List.append_nil] at h
    rw [List.nil_append, cutAssignment_cons, if_pos ⟨rfl, h⟩]
  | cons c head ih =>
    obtain ⟨hc, hhead⟩ := List.ne_and_not_mem_of_not_mem_cons hhead
    have hrest := ih hhead (show ¬ Compares ((seen ++ [c]) ++ head) rest by simpa using h)
    rw [List.cons_append, cutAssignment_cons, if_neg (fun h => hc h.1.symm), hrest]
    rfl

/-! ## Target, operator and expression -/

/-- The signs of operators, as they stand before an equals sign and behind a blank. -/
inductive IsSign : List Char → MergeOp → Prop
  | add : IsSign ['+'] .add
  | max : IsSign ['^'] .max
  | min : IsSign ['v'] .min
  | set : IsSign [] .set

/-- **The operator is the one whose sign stands behind the last blank.** -/
theorem IsSign.splitHead (h : IsSign sign op) (cs : List Char) :
    splitHead (cs ++ ' ' :: sign) = (cs ++ [' '], op) := by
  cases h <;> simp [Effect.splitHead, Text.isBlank]

theorem IsSign.not_compares (h : IsSign sign op) (cs : List Char) :
    ¬ Compares (cs ++ ' ' :: sign) (' ' :: rest) := by
  cases h <;> simp [Compares]

theorem IsSign.not_mem (h : IsSign sign op) : '=' ∉ ' ' :: sign := by
  cases h <;> decide

/-- **An effect with blanks around its operator** is read as it was meant. -/
theorem read_sign (hsign : IsSign sign op) (hne : target ≠ "") (htrim : Text.trim target = target)
    (hequals : '=' ∉ target.toList) (hf : Formula.read expr = .ok f) :
    read (String.ofList (target.toList ++ ' ' :: sign ++ '=' :: ' ' :: expr.toList)) =
      .ok ⟨target, op, f⟩ := by
  have hhead : '=' ∉ target.toList ++ ' ' :: sign := fun h =>
    (List.mem_append.1 h).elim hequals hsign.not_mem
  have hcut : cutAssignment none (target.toList ++ ' ' :: sign ++ '=' :: ' ' :: expr.toList) =
      some (target.toList ++ ' ' :: sign, ' ' :: expr.toList) :=
    @cutAssignment_append [] _ _ hhead (hsign.not_compares _)
  have hchars : target.toList ≠ [] := fun h => hne (String.toList_eq_nil_iff.1 h)
  have htrimmed : Text.trimChars target.toList = target.toList := by
    simpa only [Text.trim, String.toList_ofList] using congrArg String.toList htrim
  have htarget : Text.trimChars (target.toList ++ [' ']) = target.toList :=
    Text.trimChars_concat htrimmed (by decide)
  have hvalue : Formula.readChars (' ' :: expr.toList) = .ok f := Formula.readChars_space hf
  rw [read, String.toList_ofList, hcut]
  simp only [hsign.splitHead, htarget, if_neg hchars, hvalue, String.ofList_toList]
  rfl

/-- **Effects are cut where they assign.** An operator with blanks around it, behind any
target without an equals sign and in front of any expression, gives an effect with this
target, this operator and the formula of the expression. An entry whose equals signs are
all part of comparisons has a fault of form. -/
theorem read_assignments :
    (∀ target expr f, target ≠ "" → Text.trim target = target → '=' ∉ target.toList →
      Formula.read expr = .ok f →
        read (target ++ " += " ++ expr) = .ok ⟨target, .add, f⟩ ∧
        read (target ++ " ^= " ++ expr) = .ok ⟨target, .max, f⟩ ∧
        read (target ++ " v= " ++ expr) = .ok ⟨target, .min, f⟩ ∧
        read (target ++ " = " ++ expr) = .ok ⟨target, .set, f⟩) ∧
    ∀ entry : String, OnlyCompares entry.toList →
      read entry = malformed (.effectWithoutAssignment entry) := by
  refine ⟨fun target expr f hne htrim hequals hf => ?written, fun entry h => ?refused⟩
  case written =>
    have hread := fun {sign op} (hsign : IsSign sign op) =>
      read_sign hsign hne htrim hequals hf
    have htext : ∀ (written : String) (sign : List Char),
        written.toList = ' ' :: sign ++ ['=', ' '] →
          target ++ written ++ expr =
            String.ofList (target.toList ++ ' ' :: sign ++ '=' :: ' ' :: expr.toList) := by
      intro written sign hwritten
      rw [← String.toList_inj, String.toList_ofList]
      simp [hwritten]
    rw [htext " += " ['+'] (by decide), htext " ^= " ['^'] (by decide),
      htext " v= " ['v'] (by decide), htext " = " [] (by decide)]
    exact ⟨hread .add, hread .max, hread .min, hread .set⟩
  case refused =>
    have hcut : cutAssignment none entry.toList = none :=
      (@cutAssignment_eq_none_iff [] _).2 h
    rw [read, hcut]

/-- Neither the letter that the target ends with nor what the expression compares is taken
for the operator; and a comparison alone is no effect. -/
theorem read_assignments_nav : ∃ f,
    Formula.read "source >= 1 && rank != 'v=+=' ? speed == 9 : 2" = .ok f ∧
      read "nav v= source >= 1 && rank != 'v=+=' ? speed == 9 : 2" = .ok ⟨"nav", .min, f⟩ ∧
      read "speed >= 3" = malformed (.effectWithoutAssignment "speed >= 3") := by
  obtain ⟨f, hf⟩ := Outcome.exists_of_isOk
    (show (Formula.read "source >= 1 && rank != 'v=+=' ? speed == 9 : 2").isOk = true by
      decide +kernel)
  have honly : OnlyCompares "speed >= 3".toList :=
    (@cutAssignment_eq_none_iff [] _).1 (by decide +kernel)
  exact ⟨f, hf, (read_assignments.1 "nav" _ f (by decide) (by decide +kernel) (by decide) hf).2.2.1,
    read_assignments.2 _ honly⟩

end Compile.Effect

end Rulebook
