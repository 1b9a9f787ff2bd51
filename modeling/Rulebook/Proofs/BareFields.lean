import Rulebook.Proofs.WrittenFields

/-!
# Values without quotes

A value does not need quotes if there is something to it and it has neither blanks nor
commas. Any other value, as it stands, is read as something else: at the first blank it
ends, at a comma it falls into two, and nothing is no value.

That nothing else is read as the value is a matter of size. Of all characters but blanks
and commas each adds one to what is read, and these add nothing. So what is read is as
long as the text only if there are none of them.
-/

namespace Rulebook.Specification

variable {s : ValueState} {value rest : List Char}

/-- Whether a character may stand in a value without quotes. -/
def isBareChar (c : Char) : Bool := c ≠ ',' && !Text.isBlank c

/-- **Whether a value needs no quotes**, if it has none itself. -/
def IsBare (value : List Char) : Prop := value ≠ [] ∧ value.all isBareChar = true

instance {value : List Char} : Decidable (IsBare value) := inferInstanceAs (Decidable (_ ∧ _))

/-- How many characters have been read into values. -/
def ValueState.size (s : ValueState) : Nat := s.current.length + s.finished.flatten.length

theorem length_le_size {v : String} (h : s.values = [v]) : v.toList.length ≤ s.size := by
  unfold ValueState.values at h
  obtain ⟨cs, hcs, rfl⟩ := List.map_eq_singleton_iff.1 h
  rw [String.toList_ofList, ValueState.size]
  rw [List.reverse_eq_iff] at hcs
  split at hcs
  · obtain ⟨rfl, hfinished⟩ := List.cons.inj hcs
    rw [List.length_reverse]
    exact Nat.le_add_right ..
  · rw [hcs]
    simp

/-- Outside quotes, a character adds one to what is read if it is bare, and else a comma
adds nothing. -/
theorem step_of_not_quoted {c : Char} (hs : s.quoted = false) (hquote : c ≠ '"')
    (hblank : Text.isBlank c = false) :
    (s.step c).quoted = false ∧ (s.step c).size = s.size + if isBareChar c then 1 else 0 := by
  have hbare : isBareChar c = decide (c ≠ ',') := by
    rw [isBareChar, hblank, Bool.not_false, Bool.and_true]
  rw [ValueState.step, if_neg hquote, hs, Bool.not_false, Bool.and_true, hbare]
  by_cases hcomma : c = ','
  · simp [ValueState.size, hcomma]
  · simp [ValueState.size, hcomma]
    omega

/-- **What is read is not larger** than the number of bare characters. -/
theorem size_readValues_le (hs : s.quoted = false) (hquote : '"' ∉ value)
    (hgap : ∀ c ∈ rest.head?, Text.isBlank c = true) :
    (readValues s (value ++ rest)).1.size ≤ s.size + value.countP isBareChar := by
  induction value generalizing s with
  | nil =>
    rw [List.nil_append, readValues_of_gap hs hgap]
    exact Nat.le_add_right ..
  | cons c value ih =>
    obtain ⟨hne, hquote⟩ := List.ne_and_not_mem_of_not_mem_cons hquote
    rw [List.cons_append, readValues, hs, Bool.not_false, Bool.and_true]
    split
    · exact Nat.le_add_right ..
    · next hblank =>
      obtain ⟨hstep, hsize⟩ := step_of_not_quoted hs hne.symm (Bool.eq_false_iff.2 hblank)
      have hrest := ih hstep hquote
      rw [hsize] at hrest
      rw [List.countP_cons]
      omega

/-- A bare value is read, and what follows is left. -/
theorem exists_readValues_bare (hvalue : IsBare value) (hquote : '"' ∉ value)
    (hgap : ∀ c ∈ rest.head?, Text.isBlank c = true) :
    ∃ t, t.quoted = false ∧ t.values = [String.ofList value] ∧
      readValues .start (value ++ rest) = (t, rest) := by
  obtain ⟨hne, hbare⟩ := hvalue
  have hcontent : ∀ c ∈ value, IsContent false c := by
    intro c hc
    have hc' := List.all_eq_true.1 hbare c hc
    rw [isBareChar, Bool.and_eq_true, decide_eq_true_iff, Bool.not_eq_true'] at hc'
    refine ⟨?_, fun _ => hc'⟩
    rintro rfl
    exact hquote hc
  obtain ⟨c, value, rfl⟩ := List.exists_cons_of_ne_nil hne
  obtain ⟨hc, hvalue⟩ := List.forall_mem_cons.1 hcontent
  let t : ValueState := ⟨[], value.reverse ++ [c], true, false⟩
  refine ⟨t, rfl, ?_, ?_⟩
  · simp [t, ValueState.values]
  · rw [List.cons_append, readValues_content hc, readValues_run rfl hvalue]
    exact readValues_of_gap rfl hgap

/-- **Only a bare value** is read as itself. -/
theorem isBare_of_readValues (hquote : '"' ∉ value)
    (hgap : ∀ c ∈ rest.head?, Text.isBlank c = true)
    (h : (readValues .start (value ++ rest)).1.values = [String.ofList value]) : IsBare value := by
  constructor
  · rintro rfl
    rw [List.nil_append, readValues_of_gap rfl hgap] at h
    cases h
  · have hlength := length_le_size h
    have hsize := @size_readValues_le .start value rest rfl hquote hgap
    rw [String.toList_ofList] at hlength
    have hstart : ValueState.start.size = 0 := rfl
    rw [hstart, Nat.zero_add] at hsize
    rw [List.all_eq_true]
    exact List.countP_eq_length.1
      (Nat.le_antisymm List.countP_le_length (Nat.le_trans hlength hsize))

theorem isBareChar_of_isDigit {c : Char} (h : c.isDigit = true) : isBareChar c = true := by
  have hcode : 48 ≤ c.toNat ∧ c.toNat ≤ 57 := by
    simpa [Char.isDigit, UInt32.le_iff_toNat_le] using h
  have hblank : Text.isBlank c = false := by
    unfold Text.isBlank
    simp only [Bool.or_eq_false_iff, Bool.and_eq_false_iff, decide_eq_false_iff_not]
    omega
  have hcomma : c ≠ ',' := by
    rintro rfl
    exact absurd hcode.1 (by decide)
  rw [isBareChar, hblank, decide_eq_true hcomma]
  rfl

/-- **A field with a value that stands without quotes**, and a space behind it, is read as
it was meant exactly if the value is bare. -/
theorem fieldsOfChars_bare_iff {name value : String} {fs : List RawField}
    (hne : name.toList ≠ []) (hname : ∀ c ∈ name.toList, Text.isBlank c = false ∧ c ≠ '=')
    (hquote : '"' ∉ value.toList) :
    fieldsOfChars (name.toList ++ '=' :: (value.toList ++ ' ' :: rest)) =
        .ok (⟨name, [value]⟩ :: fs) ↔
      IsBare value.toList ∧ fieldsOfChars rest = .ok fs := by
  have hgap : ∀ c ∈ (' ' :: rest).head?, Text.isBlank c = true := gap_cons rfl
  have hfield (hvalue : IsBare value.toList) :
      fieldsOfChars (name.toList ++ '=' :: (value.toList ++ ' ' :: rest)) =
        (fieldsOfChars rest).map (⟨name, [value]⟩ :: ·) := by
    obtain ⟨t, ht, hvalues, hread⟩ := exists_readValues_bare hvalue hquote hgap
    rw [fieldsOfChars_field hne hname hread ht, hvalues, fieldsOfChars_blank (by decide),
      String.ofList_toList, String.ofList_toList]
  constructor
  · intro h
    have hvalue : IsBare value.toList := by
      rw [fieldsOfChars_name hne hname] at h
      split at h
      · cases h
      · obtain ⟨_, -, heq⟩ := Outcome.map_eq_ok.1 h
        obtain ⟨hfirst, -⟩ := List.cons.inj heq
        refine isBare_of_readValues hquote hgap ?_
        rw [(RawField.mk.inj hfirst).2, String.ofList_toList]
    rw [hfield hvalue] at h
    obtain ⟨_, hrest, heq⟩ := Outcome.map_eq_ok.1 h
    obtain ⟨-, rfl⟩ := List.cons.inj heq
    exact ⟨hvalue, hrest⟩
  · rintro ⟨hvalue, hrest⟩
    rw [hfield hvalue, hrest]
    rfl

end Rulebook.Specification
