import Rulebook.Content.Specification
import Rulebook.Proofs.Outcomes

/-!
# Fields as they are written

A field can be written so that it is read back: its name, an equals sign, and its
values between quotes, with commas between them. Then it does not matter what the
values are made of, as long as none has a quote itself; a name must not be empty, and
may have neither blanks nor an equals sign.

These are also all the fields there are. Whatever text is read, no name and no value
comes out of it that could not be written in this way.

Reading the values of a field goes through its text character by character. What
matters of a piece of text is whether reading stops within it, and in which state it
leaves; a value between quotes is taken whole wherever it stands.
-/

namespace Rulebook

variable {cs rest : List Char}

/-- **Whether a field can be written**, so that it is read back. -/
structure RawField.Writable (f : RawField) : Prop where
  name_ne : f.name ≠ ""
  name : ∀ c ∈ f.name.toList, Text.isBlank c = false ∧ c ≠ '='
  values : ∀ value ∈ f.values, '"' ∉ value.toList

instance (f : RawField) : Decidable f.Writable :=
  decidable_of_iff (f.name ≠ "" ∧ f.name.toList.all (fun c => !Text.isBlank c && c ≠ '=') = true ∧
    f.values.all (fun value => !value.toList.contains '"') = true) (by
      simp only [List.all_eq_true, Bool.and_eq_true, Bool.not_eq_true', decide_eq_true_eq,
        List.contains_eq_mem, decide_eq_false_iff_not]
      exact ⟨fun h => ⟨h.1, h.2.1, h.2.2⟩, fun h => ⟨h.name_ne, h.name, h.values⟩⟩)

namespace Specification

/-! ## Writing -/

/-- A value between quotes. -/
def quoted (value : String) : List Char := '"' :: (value.toList ++ ['"'])

/-- Values between quotes, with commas between them. -/
def quotedValues : List String → List Char
  | [] => []
  | value :: values => quoted value ++ values.flatMap fun v => ',' :: quoted v

/-- **A field as it is written**, with all its values between quotes. -/
def written (f : RawField) : List Char := f.name.toList ++ '=' :: quotedValues f.values

/-- **Texts that list fields**, with blanks between them. There may be more blanks in
front of the first and behind the last one. -/
inductive Lists : List RawField → List Char → Prop where
  | nil : Lists [] []
  | blank {c : Char} {fs : List RawField} {cs : List Char} (hc : Text.isBlank c = true)
      (hcs : Lists fs cs) : Lists fs (c :: cs)
  | field {f : RawField} {fs : List RawField} {cs : List Char}
      (hgap : ∀ c ∈ cs.head?, Text.isBlank c = true) (hcs : Lists fs cs) :
      Lists (f :: fs) (written f ++ cs)

/-- A blank is a gap behind a field. -/
theorem gap_cons {c : Char} (hc : Text.isBlank c = true) :
    ∀ d ∈ (c :: cs).head?, Text.isBlank d = true := by
  intro d hd
  cases hd
  exact hc

theorem gap_nil : ∀ d ∈ ([] : List Char).head?, Text.isBlank d = true := by
  intro d hd
  cases hd

/-! ## Reading names -/

/-- A name is read up to its equals sign. -/
theorem readName_append {name : List Char}
    (h : ∀ c ∈ name, Text.isBlank c = false ∧ c ≠ '=') :
    readName (name ++ '=' :: rest) = (name, some rest) := by
  induction name with
  | nil => rfl
  | cons c name ih =>
    obtain ⟨⟨hblank, hne⟩, hname⟩ := List.forall_mem_cons.1 h
    rw [List.cons_append, readName, hblank, if_neg Bool.false_ne_true, if_neg hne, ih hname]

/-- What is read as a name has neither blanks nor an equals sign. -/
theorem plain_of_readName {name : List Char} {after : Option (List Char)}
    (h : readName cs = (name, after)) : ∀ c ∈ name, Text.isBlank c = false ∧ c ≠ '=' := by
  fun_induction readName cs generalizing name with
  | case1 | case2 | case3 =>
    obtain ⟨rfl, -⟩ := Prod.mk.inj h
    exact List.forall_mem_nil _
  | case4 c cs hblank hne front rest hrest ih =>
    obtain ⟨rfl, rfl⟩ := Prod.mk.inj h
    exact List.forall_mem_cons.2 ⟨⟨Bool.eq_false_iff.2 hblank, hne⟩, ih hrest⟩

/-! ## Reading values -/

section Values

variable {s : ValueState} {value : List Char}

/-- Whether a character is a part of a value, where quotes are open or not. -/
def IsContent (quoted : Bool) (c : Char) : Prop :=
  c ≠ '"' ∧ (quoted = false → c ≠ ',' ∧ Text.isBlank c = false)

theorem readValues_content {c : Char} (hc : IsContent s.quoted c) :
    readValues s (c :: cs) =
      readValues { s with current := c :: s.current, touched := true } cs := by
  obtain ⟨hquote, hbare⟩ := hc
  have hcontinues : (Text.isBlank c && !s.quoted) = false := by
    cases hs : s.quoted with
    | true => rw [Bool.not_true, Bool.and_false]
    | false => rw [(hbare hs).2, Bool.false_and]
  have hcomma : (decide (c = ',') && !s.quoted) = false := by
    cases hs : s.quoted with
    | true => rw [Bool.not_true, Bool.and_false]
    | false => rw [decide_eq_false (hbare hs).1, Bool.false_and]
  rw [readValues, hcontinues, if_neg Bool.false_ne_true, ValueState.step, if_neg hquote, hcomma,
    if_neg Bool.false_ne_true]

/-- A run of such characters, once something has been read. -/
theorem readValues_run (hs : s.touched = true) (h : ∀ c ∈ value, IsContent s.quoted c) :
    readValues s (value ++ rest) =
      readValues { s with current := value.reverse ++ s.current } rest := by
  induction value generalizing s with
  | nil => rfl
  | cons c value ih =>
    obtain ⟨hc, hvalue⟩ := List.forall_mem_cons.1 h
    have hrun := @ih { s with current := c :: s.current, touched := true } rfl hvalue
    rw [List.cons_append, readValues_content hc, hrun, List.reverse_cons, List.append_assoc,
      List.singleton_append, hs]

/-- A quote opens or closes. -/
theorem readValues_quote :
    readValues s ('"' :: cs) = readValues { s with quoted := !s.quoted, touched := true } cs := by
  have hblank : Text.isBlank '"' = false := by decide
  rw [readValues, hblank, Bool.false_and, if_neg Bool.false_ne_true, ValueState.step, if_pos rfl]

/-- **A value between quotes** is taken whole. -/
theorem readValues_quoted {v : String} (hs : s.quoted = false) (hv : '"' ∉ v.toList) :
    readValues s (quoted v ++ rest) =
      readValues { s with current := v.toList.reverse ++ s.current, touched := true } rest := by
  have hcontent : ∀ c ∈ v.toList, IsContent true c := by
    intro c hc
    refine ⟨?_, nofun⟩
    rintro rfl
    exact hv hc
  rw [quoted, List.cons_append, readValues_quote, List.append_assoc, hs, Bool.not_false,
    readValues_run rfl hcontent, List.singleton_append, readValues_quote]
  rfl

/-- A comma outside quotes ends a value. -/
theorem readValues_comma (hs : s.quoted = false) : readValues s (',' :: cs) =
    readValues ⟨s.current.reverse :: s.finished, [], true, false⟩ cs := by
  have hblank : Text.isBlank ',' = false := by decide
  rw [readValues, hblank, Bool.false_and, if_neg Bool.false_ne_true, ValueState.step,
    if_neg (by decide), hs]
  rfl

/-- **Further values between quotes** come behind those that are there. -/
theorem exists_readValues_more (hs : s.quoted = false) (htouched : s.touched = true)
    {values : List String} (h : ∀ v ∈ values, '"' ∉ v.toList) :
    ∃ t, t.quoted = false ∧ t.values = s.values ++ values ∧
      readValues s ((values.flatMap fun v => ',' :: quoted v) ++ rest) = readValues t rest := by
  induction values generalizing s with
  | nil => exact ⟨s, hs, (List.append_nil _).symm, rfl⟩
  | cons v values ih =>
    obtain ⟨hv, hvalues⟩ := List.forall_mem_cons.1 h
    let next : ValueState := ⟨s.current.reverse :: s.finished, v.toList.reverse, true, false⟩
    obtain ⟨t, ht, htvalues, hread⟩ := @ih next rfl rfl hvalues
    refine ⟨t, ht, ?_, ?_⟩
    · have hnext : next.values = s.values ++ [v] := by
        simp [next, ValueState.values, htouched]
      rw [htvalues, hnext, List.append_assoc, List.singleton_append]
    · rw [List.flatMap_cons, List.cons_append, List.cons_append, List.append_assoc,
        readValues_comma hs, readValues_quoted rfl hv, List.append_nil, hread]

/-- Reading stops at a blank outside quotes, and at the end. -/
theorem readValues_of_gap (hs : s.quoted = false) (h : ∀ c ∈ cs.head?, Text.isBlank c = true) :
    readValues s cs = (s, cs) := by
  cases cs with
  | nil => rfl
  | cons c cs => rw [readValues, h c rfl, hs, Bool.not_false, Bool.and_true, if_pos rfl]

/-- **The values of a field that is written** are read back, and what follows is left. -/
theorem exists_readValues_quotedValues {values : List String}
    (h : ∀ v ∈ values, '"' ∉ v.toList) (hgap : ∀ c ∈ rest.head?, Text.isBlank c = true) :
    ∃ t, t.quoted = false ∧ t.values = values ∧
      readValues .start (quotedValues values ++ rest) = (t, rest) := by
  cases values with
  | nil => exact ⟨.start, rfl, rfl, readValues_of_gap rfl hgap⟩
  | cons v values =>
    obtain ⟨hv, hvalues⟩ := List.forall_mem_cons.1 h
    let first : ValueState :=
      { ValueState.start with current := v.toList.reverse ++ [], touched := true }
    obtain ⟨t, ht, htvalues, hread⟩ := @exists_readValues_more rest first rfl rfl values hvalues
    refine ⟨t, ht, ?_, ?_⟩
    · have hfirst : first.values = [v] := by simp [first, ValueState.values, ValueState.start]
      rw [htvalues, hfirst, List.singleton_append]
    · rw [quotedValues, List.append_assoc, readValues_quoted rfl hv]
      exact hread.trans (readValues_of_gap ht hgap)

end Values

/-! ## Reading fields -/

theorem fieldsOfChars_blank {c : Char} (hc : Text.isBlank c = true) :
    fieldsOfChars (c :: cs) = fieldsOfChars cs := by
  rw [fieldsOfChars, if_pos hc]

/-- **One field**, and the others behind its values. -/
theorem fieldsOfChars_name {name : List Char} (hne : name ≠ [])
    (hname : ∀ c ∈ name, Text.isBlank c = false ∧ c ≠ '=') :
    fieldsOfChars (name ++ '=' :: rest) =
      if (readValues .start rest).1.quoted then malformed (.unterminatedValue (String.ofList name))
      else (fieldsOfChars (readValues .start rest).2).map
        (⟨String.ofList name, (readValues .start rest).1.values⟩ :: ·) := by
  obtain ⟨c, name, rfl⟩ := List.exists_cons_of_ne_nil hne
  have hblank := (List.forall_mem_cons.1 hname).1.1
  rw [List.cons_append, fieldsOfChars, hblank, if_neg Bool.false_ne_true, ← List.cons_append]
  split
  · next hnone =>
    rw [readName_append hname] at hnone
    cases hnone
  · next hnil =>
    rw [readName_append hname] at hnil
    cases hnil
  · next hsome =>
    rw [readName_append hname] at hsome
    cases hsome
    rfl

theorem fieldsOfChars_field {name after : List Char} {t : ValueState} (hne : name ≠ [])
    (hname : ∀ c ∈ name, Text.isBlank c = false ∧ c ≠ '=')
    (hread : readValues .start rest = (t, after)) (ht : t.quoted = false) :
    fieldsOfChars (name ++ '=' :: rest) =
      (fieldsOfChars after).map (⟨String.ofList name, t.values⟩ :: ·) := by
  rw [fieldsOfChars_name hne hname, hread, ht, if_neg Bool.false_ne_true]

/-- **A text that lists fields** is read as these. -/
theorem fieldsOfChars_of_lists {fs : List RawField} (h : Lists fs cs)
    (hfs : ∀ f ∈ fs, f.Writable) : fieldsOfChars cs = .ok fs := by
  induction h with
  | nil => rw [fieldsOfChars]
  | blank hc _ ih => rw [fieldsOfChars_blank hc, ih hfs]
  | @field f fs cs hgap _ ih =>
    obtain ⟨hf, hfs⟩ := List.forall_mem_cons.1 hfs
    obtain ⟨t, ht, hvalues, hread⟩ := exists_readValues_quotedValues hf.values hgap
    have hname : f.name.toList ≠ [] := mt String.toList_eq_nil_iff.1 hf.name_ne
    rw [written, List.append_assoc, List.cons_append, fieldsOfChars_field hname hf.name hread ht,
      ih hfs, hvalues, String.ofList_toList]
    rfl

/-! ## What can come out -/

/-- Whether no value that is being read has a quote. -/
def ValueState.Unquoted (s : ValueState) : Prop :=
  '"' ∉ s.current ∧ ∀ value ∈ s.finished, '"' ∉ value

theorem ValueState.unquoted_step {s : ValueState} (h : s.Unquoted) (c : Char) :
    (s.step c).Unquoted := by
  obtain ⟨hcurrent, hfinished⟩ := h
  unfold step
  split
  · exact ⟨hcurrent, hfinished⟩
  · next hne =>
    split
    · refine ⟨List.not_mem_nil, List.forall_mem_cons.2 ⟨?_, hfinished⟩⟩
      rwa [List.mem_reverse]
    · exact ⟨List.not_mem_cons_of_ne_of_not_mem (Ne.symm hne) hcurrent, hfinished⟩

theorem unquoted_readValues {s : ValueState} (h : s.Unquoted) : (readValues s cs).1.Unquoted := by
  induction cs generalizing s with
  | nil => exact h
  | cons c cs ih =>
    rw [readValues]
    split
    · exact h
    · exact ih (s.unquoted_step h c)

theorem ValueState.Unquoted.values {s : ValueState} (h : s.Unquoted) :
    ∀ value ∈ s.values, '"' ∉ value.toList := by
  intro value hvalue
  obtain ⟨cs, hcs, rfl⟩ := List.mem_map.1 hvalue
  rw [String.toList_ofList]
  rw [List.mem_reverse] at hcs
  split at hcs
  · obtain rfl | hcs := List.mem_cons.1 hcs
    · rw [List.mem_reverse]
      exact h.1
    · exact h.2 cs hcs
  · exact h.2 cs hcs

/-- **A field that is read** could be written. -/
theorem writable_of_fieldsOfChars {fs : List RawField} (h : fieldsOfChars cs = .ok fs) :
    ∀ f ∈ fs, f.Writable := by
  fun_induction fieldsOfChars cs generalizing fs with
  | case1 =>
    cases h
    nofun
  | case2 c cs hblank ih => exact ih h
  | case3 | case4 | case5 => cases h
  | case6 c cs _ name rest hne hname =>
    rename_i ih
    obtain ⟨others, hothers, rfl⟩ := Outcome.map_eq_ok.1 h
    have hstart : ValueState.start.Unquoted := ⟨List.not_mem_nil, nofun⟩
    refine List.forall_mem_cons.2 ⟨⟨?_, ?_, (unquoted_readValues hstart).values⟩, ih hothers⟩
    · rw [ne_eq, ← String.toList_eq_nil_iff, String.toList_ofList]
      exact hne
    · rw [String.toList_ofList]
      exact plain_of_readName hname

/-- Fields, each with a space behind it. -/
def listing (fs : List RawField) : List Char := fs.flatMap fun f => written f ++ [' ']

theorem lists_listing (fs : List RawField) : Lists fs (listing fs) := by
  induction fs with
  | nil => exact .nil
  | cons f fs ih =>
    rw [listing, List.flatMap_cons, List.append_assoc, List.singleton_append]
    exact .field (gap_cons rfl) (.blank rfl ih)

/-- **Reading fields undoes writing them**, whatever blanks are between them. And the
lists of fields that come out of some text are just those that can be written. -/
theorem fields_of_lists {fs : List RawField} :
    (∀ text : String, Lists fs text.toList → (∀ f ∈ fs, f.Writable) → fields text = .ok fs) ∧
      ((∃ text, fields text = .ok fs) ↔ ∀ f ∈ fs, f.Writable) := by
  refine ⟨fun text => fieldsOfChars_of_lists, ?_, fun hfs => ?_⟩
  · rintro ⟨text, h⟩
    exact writable_of_fieldsOfChars h
  · refine ⟨String.ofList (listing fs), ?_⟩
    rw [fields, String.toList_ofList]
    exact fieldsOfChars_of_lists (lists_listing fs) hfs

/-- A value with a comma, blanks and an equals sign; a field without values; and one
with two, of which the second is empty. -/
def spellFields : List RawField :=
  [⟨"Description", ["Holds a door, cost = 5"]⟩, ⟨"Effect", []⟩, ⟨"Level", ["C1", ""]⟩]

/-- These fields are read back. -/
theorem fields_of_spellFields :
    fields " Description=\"Holds a door, cost = 5\"\n\tEffect= Level=\"C1\",\"\"" =
      .ok spellFields := by
  have hlists : Lists spellFields
      (" Description=\"Holds a door, cost = 5\"\n\tEffect= Level=\"C1\",\"\"").toList :=
    .blank rfl (.field (gap_cons rfl) (.blank rfl (.blank rfl (.field (gap_cons rfl)
      (.blank rfl (.field gap_nil .nil))))))
  exact fields_of_lists.1 _ hlists (by decide)

end Specification

end Rulebook
