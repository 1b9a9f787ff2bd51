import Rulebook.Content.LeveledFeature
import Rulebook.Proofs.Grammar
import Rulebook.Proofs.Numerals
import Rulebook.Proofs.Outcomes
import Rulebook.Proofs.RuleEquality
import Rulebook.Template

/-!
# What is read is proper

Every formula that comes out of a text is proper, wherever the text stands: as
an expression, as the condition of a feature, or as an interpolation of a note.

The reader only puts together what its tokens hold, so the property is one of
tokens first: a literal is a number since the only numeral that is none is a
word, and names come out of the scanner with at least one character. What is read
is derived in the grammar, and from there it goes through the rules of the grammar
one by one.
-/

namespace Rulebook

/-! ## Tokens -/

namespace Numeral

theorem readUnsigned_ne_undefined {negative : Bool} {cs : List Char} :
    readUnsigned negative cs ≠ some undefined := by
  have of_parts (whole fraction rest : List Char) :
      (if whole.isEmpty && fraction.isEmpty then none
        else (readScale rest).map fun scale =>
          finite negative (natOfDigits (whole ++ fraction)) (scale - fraction.length))
        ≠ some undefined := by
    split
    · nofun
    · intro h
      obtain ⟨scale, -, heq⟩ := Option.map_eq_some_iff.1 h
      cases heq
  unfold readUnsigned
  dsimp only
  split
  · exact of_parts _ _ _
  · exact of_parts _ _ _

/-- The word for what is no number does not begin with a digit or a point. -/
theorem readWord_ne_undefined {negative : Bool} {c : Char} {cs : List Char}
    (hc : c.isDigit = true ∨ c = '.') : readWord negative (c :: cs) ≠ some undefined := by
  intro h
  unfold readWord at h
  dsimp only at h
  split at h
  · cases h
  · split at h
    · next hnan =>
      have hchars : (c :: cs).map Char.toLower = ['n', 'a', 'n'] := String.ofList_inj.1 hnan
      have hn : c.toLower = 'n' := (List.cons.inj hchars).1
      obtain hdigit | rfl := hc
      · have : c.toLower = c := by
          unfold Char.toLower
          rw [dif_neg]
          simp only [Char.isDigit, Bool.and_eq_true, decide_eq_true_eq] at hdigit
          intro hupper
          have h₁ := UInt32.le_iff_toNat_le.1 hdigit.2
          have h₂ := UInt32.le_iff_toNat_le.1 hupper.1
          exact absurd (Nat.le_trans h₂ h₁) (by decide)
        rw [this] at hn
        rw [hn] at hdigit
        exact absurd hdigit (by decide)
      · exact absurd hn (by decide)
    · cases h

/-- **A numeral that begins with a digit or a point** is a number. -/
theorem read_ne_undefined {c : Char} {cs : List Char} (hc : c.isDigit = true ∨ c = '.') :
    read (c :: cs) ≠ some undefined := by
  rw [read_cons hc]
  intro h
  obtain h | ⟨-, h⟩ := Option.or_eq_some_iff.1 h
  · exact readUnsigned_ne_undefined h
  · exact readWord_ne_undefined hc h

end Numeral

namespace Token

/-- **A token of which a proper formula can be made.** -/
def Proper : Token → Prop
  | number x => x.isNaN = false
  | ident name | quotedIdent name => name ≠ ""
  | capture i => i < Text.indexBound
  | _ => True

theorem isNaN_of_read {c : Char} {cs : List Char} {x : Float}
    (hc : c.isDigit = true ∨ c = '.') (h : Quantity.read (c :: cs) = some x) :
    x.isNaN = false := by
  obtain ⟨n, hn, hx⟩ := Option.bind_eq_some_iff.1 h
  cases hx
  exact Double.isNaN_ofNumeral (fun hu => Numeral.read_ne_undefined hc (hu ▸ hn))

theorem ofList_cons_ne_empty (c : Char) (cs : List Char) : String.ofList (c :: cs) ≠ "" := by
  intro h
  cases String.ofList_inj.1 h

theorem proper_of_readOp {cs rest : List Char} {t : Token}
    (h : readOp cs = some (t, rest)) : t.Proper := by
  revert h
  fun_cases readOp cs <;> rintro ⟨⟩ <;> trivial

/-- **The scanner makes proper tokens.** -/
theorem proper_of_first {input : String} {c : Char} {cs rest : List Char} {t : Token}
    (h : first input c cs = .ok (t, rest)) : t.Proper := by
  revert h
  fun_cases first input c cs with
  | case10 _ _ _ _ _ _ _ s _ hne =>
    rintro ⟨⟩
    obtain - | ⟨c, cs⟩ := s
    · exact absurd rfl hne
    · exact ofList_cons_ne_empty c cs
  | case12 _ _ _ _ _ _ _ _ _ i hi =>
    rintro ⟨⟩
    exact Text.lt_of_readBounded hi
  | case14 _ _ _ _ _ _ _ _ hc _ x hx =>
    rintro ⟨⟩
    refine isNaN_of_read ?_ hx
    rw [Bool.or_eq_true, Bool.and_eq_true, decide_eq_true_eq] at hc
    exact hc.imp_right And.left
  | case15 =>
    rintro ⟨⟩
    exact ofList_cons_ne_empty _ _
  | case17 _ _ _ _ _ _ _ _ _ _ t rest ht =>
    rintro ⟨⟩
    exact proper_of_readOp ht
  | _ => rintro ⟨⟩ <;> trivial

theorem proper_of_scan {input : String} {cs : List Char} {ts : List Token}
    (h : scan input cs = .ok ts) : ∀ t ∈ ts, t.Proper := by
  fun_induction scan input cs generalizing ts with
  | case1 => cases h; nofun
  | case2 c cs _ ih => exact ih h
  | case3 => cases h
  | case4 c cs _ t rest hfirst ih =>
    cases hscan : scan input rest with
    | error e => rw [hscan] at h; cases h
    | ok us =>
      rw [hscan] at h
      cases h
      exact List.forall_mem_cons.2 ⟨proper_of_first hfirst, ih hscan⟩

end Token

/-! ## Expressions -/

namespace Grammar

/-! ### Derivations, in the order of their rules -/

mutual

theorem proper_of_choice {isOpen : Bool} {ts : List Token} {f : Formula Float} :
    Choice isOpen ts f → (∀ t ∈ ts, t.Proper) → f.Proper
  | .level h, hts => proper_of_level h hts
  | .whenever hf hg, hts => by
    obtain ⟨hts, hus⟩ := List.forall_mem_append.1 hts
    exact .whenever (proper_of_level hf hts) (proper_of_choice hg (List.forall_mem_cons.1 hus).2)
  | .choose hf hg hk, hts => by
    obtain ⟨hts, hrest⟩ := List.forall_mem_append.1 hts
    obtain ⟨hus, hvs⟩ := List.forall_mem_append.1 (List.forall_mem_cons.1 hrest).2
    exact .choose (proper_of_level hf hts) (proper_of_choice hg hus)
      (proper_of_choice hk (List.forall_mem_cons.1 hvs).2)

theorem proper_of_level {n : Nat} {ts : List Token} {f : Formula Float} :
    Level n ts f → (∀ t ∈ ts, t.Proper) → f.Proper
  | .operand h, hts => proper_of_unary h hts
  | .single _ h, hts => proper_of_level h hts
  | .chain _ hf hg, hts => by
    obtain ⟨hts, hus⟩ := List.forall_mem_append.1 hts
    exact .binary _ (proper_of_level hf hts) (proper_of_level hg (List.forall_mem_cons.1 hus).2)

theorem proper_of_unary {ts : List Token} {f : Formula Float} :
    Unary ts f → (∀ t ∈ ts, t.Proper) → f.Proper
  | .primary h, hts => proper_of_primary h hts
  | .minusNumber h, hts => (proper_of_unary h (List.forall_mem_cons.1 hts).2).neg
  | .minus h hne, hts => neg_of_ne hne ▸ (proper_of_unary h (List.forall_mem_cons.1 hts).2).neg
  | .not h, hts => .not (proper_of_unary h (List.forall_mem_cons.1 hts).2)

theorem proper_of_primary {ts : List Token} {f : Formula Float} :
    Primary ts f → (∀ t ∈ ts, t.Proper) → f.Proper
  | .number x, hts => .number (hts (.number x) (List.mem_singleton_self _))
  | .text s, _ => .text s
  | .capture i, hts => .capture (hts (.capture i) (List.mem_singleton_self _))
  | .quotedName name, hts => .attr (hts (.quotedIdent name) (List.mem_singleton_self _))
  | .source, _ => .source
  | .null, _ => .null
  | @Primary.name name _ _, hts => .attr (hts (.ident name) (List.mem_singleton_self _))
  | .paren h, hts =>
    proper_of_choice h (List.forall_mem_append.1 (List.forall_mem_cons.1 hts).2).1
  | .call hf h, hts => by
    obtain ⟨-, hrest⟩ := List.forall_mem_cons.1 hts
    obtain ⟨hargs, -⟩ := List.forall_mem_append.1 (List.forall_mem_cons.1 hrest).2
    exact .call (signature_iff.1 hf).2 (proper_of_arguments h hargs)

theorem proper_of_arguments {ts : List Token} {args : List (Formula Float)} :
    Arguments ts args → (∀ t ∈ ts, t.Proper) → ∀ a ∈ args, a.Proper
  | .last h, hts => List.forall_mem_singleton.2 (proper_of_choice h hts)
  | .more h hs, hts => by
    obtain ⟨hts, hus⟩ := List.forall_mem_append.1 hts
    exact List.forall_mem_cons.2
      ⟨proper_of_choice h hts, proper_of_arguments hs (List.forall_mem_cons.1 hus).2⟩

end

end Grammar

namespace Formula

theorem proper_ofTokens {input : String} {ts : List Token} (hts : ∀ t ∈ ts, t.Proper)
    {f : Formula Float} (h : ofTokens input ts = .ok f) : f.Proper := by
  obtain ⟨isOpen, hf⟩ := ofTokens_eq_ok.1 h
  exact Grammar.proper_of_choice hf hts

theorem proper_readChars {cs : List Char} {f : Formula Float} (h : readChars cs = .ok f) :
    f.Proper := by
  unfold readChars at h
  dsimp only at h
  cases hscan : Token.scan (String.ofList cs) cs with
  | error e => rw [hscan] at h; cases h
  | ok ts =>
    rw [hscan] at h
    exact proper_ofTokens (Token.proper_of_scan hscan) h

/-- **Every formula that is read is proper.** -/
theorem proper_read {text : String} {f : Formula Float} (h : read text = .ok f) : f.Proper :=
  proper_readChars h

end Formula

/-! ## Conditions and interpolations -/

/-- The condition of a feature that is read is proper. -/
theorem LeveledFeature.proper_condition {entry : String} {feature : LeveledFeature}
    (h : read entry = .ok feature) : ∀ f ∈ feature.condition, f.Proper := by
  unfold read at h
  dsimp only at h
  split at h
  · obtain ⟨f, hf, h⟩ := Outcome.bind_eq_ok.1 h
    obtain ⟨r, hr, h⟩ := Outcome.bind_eq_ok.1 h
    cases hr
    obtain ⟨grant, -, h⟩ := Outcome.bind_eq_ok.1 h
    split at h
    · cases h
    · split at h
      · cases h
      · cases h
        intro g hg
        cases hg
        exact Formula.proper_readChars hf
  · obtain ⟨r, hr, h⟩ := Outcome.bind_eq_ok.1 h
    cases hr
    obtain ⟨grant, -, h⟩ := Outcome.bind_eq_ok.1 h
    split at h
    · cases h
    · split at h
      · cases h
      · cases h
        nofun

theorem Template.proper_bindFrom {note : String} {next : Nat} {cs : List Char} {t : Template}
    (h : bindFrom note next cs = .ok t) : ∀ b ∈ t.bindings, b.formula.Proper := by
  fun_induction bindFrom note next cs generalizing t with
  | case1 =>
    cases h
    nofun
  | case6 =>
    rename_i hf _ ih
    obtain ⟨t', ht', rfl⟩ := Outcome.map_eq_ok.1 h
    exact List.forall_mem_cons.2 ⟨Formula.proper_readChars hf, ih ht'⟩
  | _ => cases h

/-- **What a note binds its placeholders to** is proper. -/
theorem Template.proper_compileChars {cs : List Char} {t : Template}
    (h : compileChars cs = .ok t) : ∀ b ∈ t.bindings, b.formula.Proper := by
  unfold compileChars at h
  dsimp only at h
  split at h
  · cases h
  · exact proper_bindFrom h

end Rulebook
