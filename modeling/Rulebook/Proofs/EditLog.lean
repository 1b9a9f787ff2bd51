import Mathlib.Data.List.DropRight
import Rulebook.Proofs.Chapters
import Rulebook.Proofs.ReferencedAttributes

/-!
# A book says what the log of its edits says

A book keeps the position of the chapter in which it goes on. Retracting takes
chapters out, so that the others move up, and beginning may go back to a chapter
that is there already. The *log* knows nothing of positions: it has each edit
with the record that was current when the edit was made, which the latest
beginning or retraction decides.

What stands in the chapter of a record is what the log has under this record
since its last retraction. What the log has under no record is never taken out.

One invariant carries the proof. The book goes on in the last chapter of the
current record; a record has one chapter only, and the chapter without a record
that is being written is the last of those. So what is written comes behind all
that the current record, or none, has put out before.
-/

namespace Rulebook

/-! ## The log -/

namespace Edit

/-- Whether an edit begins a record. -/
def begins (key : Key) : Edit → Bool
  | .begin k => k == key
  | _ => false

/-- Whether an edit takes out what stands under a record. Nothing takes out what
stands under none. -/
def retracts (who : Option Key) : Edit → Bool
  | .retract key => some key == who
  | _ => false

/-- **What an edit decides about the current record**: a beginning makes it a
certain one, after a retraction there is none, and the other edits leave it. -/
def turn : Edit → Option (Option Key)
  | .begin key => some (some key)
  | .retract _ => some none
  | _ => none

/-- The rule that an edit registers. -/
def rule? : Edit → Option Rule
  | .rule r => some r
  | _ => none

/-- The note that an edit registers. -/
def note? : Edit → Option Note
  | .note n => some n
  | _ => none

/-- The choice that an edit registers. -/
def choice? : Edit → Option Record
  | .choice r => some r
  | _ => none

/-- The section that an edit registers. -/
def section? : Edit → Option String
  | .sheetSection name => some name
  | _ => none

/-- Whether an edit registers something that stands in a chapter. -/
def isOutput : Edit → Bool
  | .rule _ | .note _ | .choice _ => true
  | _ => false

/-- **The record that is current** after some edits: the latest one that decides
about it counts, and before any there is none. -/
def current (es : List Edit) : Option Key := (es.reverse.findSome? turn).getD none

/-- **The log of some edits**: each with the record that was current when it was
made. -/
def log (es : List Edit) : List (Option Key × Edit) :=
  es.mapIdx fun i e => (current (es.take i), e)

/-- The log since a record was last retracted. -/
def logSince (who : Option Key) (es : List Edit) : List (Option Key × Edit) :=
  (log es).rtakeWhile (!·.2.retracts who)

/-- **The edits made under a record** since it was last retracted. -/
def madeUnder (who : Option Key) (es : List Edit) : List Edit :=
  ((logSince who es).filter (·.1 == who)).map Prod.snd

/-- Whether a record has been begun since it was last retracted. -/
def Begun (key : Key) (es : List Edit) : Prop := ∃ x ∈ logSince (some key) es, x.2.begins key

instance (key : Key) (es : List Edit) : Decidable (Begun key es) :=
  inferInstanceAs (Decidable (∃ x ∈ _, _))

variable {es : List Edit} {e : Edit} {who : Option Key} {key : Key}

theorem turn_of_isOutput (he : e.isOutput = true) : e.turn = none := by
  cases e with
  | rule r => rfl
  | note n => rfl
  | choice r => rfl
  | _ => cases he

theorem retracts_of_isOutput (he : e.isOutput = true) : e.retracts who = false := by
  cases e with
  | rule r => rfl
  | note n => rfl
  | choice r => rfl
  | _ => cases he

theorem begins_of_isOutput (he : e.isOutput = true) : e.begins key = false := by
  cases e with
  | rule r => rfl
  | note n => rfl
  | choice r => rfl
  | _ => cases he

theorem section?_of_isOutput (he : e.isOutput = true) : e.section? = none := by
  cases e with
  | rule r => rfl
  | note n => rfl
  | choice r => rfl
  | _ => cases he

theorem current_concat : current (es ++ [e]) = e.turn.getD (current es) := by
  unfold current
  rw [List.reverse_append, List.reverse_singleton, List.singleton_append, List.findSome?_cons]
  cases e.turn <;> rfl

theorem log_concat : log (es ++ [e]) = log es ++ [(current es, e)] := by
  unfold log
  rw [List.mapIdx_concat, List.take_left]
  refine congrArg (· ++ _) (List.mapIdx_eq_mapIdx_iff.2 fun i hi => ?_)
  rw [List.take_append_of_le_length hi.le]

theorem logSince_concat : logSince who (es ++ [e]) =
    if e.retracts who then [] else logSince who es ++ [(current es, e)] := by
  unfold logSince
  rw [log_concat, List.rtakeWhile_concat]
  cases e.retracts who <;> rfl

/-- Nothing is ever taken out of what stands under no record. -/
theorem logSince_none : logSince none es = log es := by
  refine List.rtakeWhile_eq_self_iff.2 fun x _ => ?_
  cases x.2 <;> rfl

theorem madeUnder_concat : madeUnder who (es ++ [e]) =
    if e.retracts who then []
    else if current es = who then madeUnder who es ++ [e] else madeUnder who es := by
  unfold madeUnder
  rw [logSince_concat]
  split
  · rfl
  · rw [List.filter_append, List.map_append]
    by_cases h : current es = who
    · simp [h]
    · simp [h]

theorem begun_concat :
    Begun key (es ++ [e]) ↔ e.retracts (some key) = false ∧ (e.begins key ∨ Begun key es) := by
  unfold Begun
  rw [logSince_concat]
  cases e.retracts (some key) <;> simp [or_comm]

theorem sections_concat_of_none (he : e.section? = none) :
    (es ++ [e]).filterMap section? = es.filterMap section? := by
  rw [List.filterMap_append, List.filterMap_cons_none he, List.filterMap_nil, List.append_nil]

end Edit

/-! ## Chapters as lists of edits -/

namespace Chapter

/-- **What some edits register**, as a chapter. -/
def ofEdits (record : Option Key) (es : List Edit) : Chapter :=
  ⟨record, es.filterMap Edit.rule?, es.filterMap Edit.note?, es.filterMap Edit.choice?⟩

/-- A chapter with what an edit registers, if the edit is of this sort. -/
def take (e : Edit) (c : Chapter) : Chapter :=
  { c with
    rules := c.rules ++ e.rule?.toList
    notes := c.notes ++ e.note?.toList
    choices := c.choices ++ e.choice?.toList }

/-- Some chapters in one. -/
def join (record : Option Key) (cs : List Chapter) : Chapter :=
  ⟨record, cs.flatMap Chapter.rules, cs.flatMap Chapter.notes, cs.flatMap Chapter.choices⟩

variable {who : Option Key} {es : List Edit} {e : Edit} {cs : List Chapter} {c : Chapter}

@[simp] theorem take_record : (c.take e).record = c.record := rfl

@[simp] theorem blank_record : (blank who).record = who := rfl

theorem take_rule (r : Rule) : take (.rule r) = addRule r := by
  funext c
  simp [take, addRule, Edit.rule?, Edit.note?, Edit.choice?]

theorem take_note (n : Note) : take (.note n) = addNote n := by
  funext c
  simp [take, addNote, Edit.rule?, Edit.note?, Edit.choice?]

theorem take_choice (r : Record) : take (.choice r) = addChoice r := by
  funext c
  simp [take, addChoice, Edit.rule?, Edit.note?, Edit.choice?]

theorem take_of_not_isOutput (he : e.isOutput = false) (c : Chapter) : c.take e = c := by
  cases e with
  | rule r => cases he
  | note n => cases he
  | choice r => cases he
  | _ => simp [take, Edit.rule?, Edit.note?, Edit.choice?]

theorem ofEdits_concat : ofEdits who (es ++ [e]) = (ofEdits who es).take e := by
  simp only [ofEdits, take, List.filterMap_append, List.filterMap_cons, List.filterMap_nil]
  cases e.rule? <;> cases e.note? <;> cases e.choice? <;> rfl

/-- **What stands under a record after one more edit**, by the log. -/
theorem ofEdits_madeUnder_concat : ofEdits who (Edit.madeUnder who (es ++ [e])) =
    if e.retracts who then .blank who
    else if Edit.current es = who then (ofEdits who (Edit.madeUnder who es)).take e
    else ofEdits who (Edit.madeUnder who es) := by
  rw [Edit.madeUnder_concat]
  split
  · rfl
  · split
    · exact ofEdits_concat
    · rfl

/-- An edit of another sort changes nothing that stands under a record, unless it
retracts the record. -/
theorem ofEdits_madeUnder_concat_of_not_isOutput (he : e.isOutput = false) :
    ofEdits who (Edit.madeUnder who (es ++ [e])) =
      if e.retracts who then .blank who else ofEdits who (Edit.madeUnder who es) := by
  rw [ofEdits_madeUnder_concat, take_of_not_isOutput he, ite_self]

theorem join_singleton (h : c.record = who) : join who [c] = c := by
  subst h
  simp [join]

theorem join_concat_take : join who (cs ++ [c.take e]) = (join who (cs ++ [c])).take e := by
  simp [join, take]

theorem join_concat_blank : join who (cs ++ [blank who]) = join who cs := by
  simp [join, blank]

end Chapter

namespace Book

/-! ## What stands under a record -/

/-- The records that have chapters, in the order of the chapters. -/
def named (b : Book) : List Key := b.chapters.filterMap Chapter.record

/-- The chapters of a record, or those without one. -/
def chaptersOf (who : Option Key) (b : Book) : List Chapter := b.chapters.filter (·.record == who)

/-- **All that stands under a record**, or under none. -/
def contents (who : Option Key) (b : Book) : Chapter := .join who (b.chaptersOf who)

variable {b : Book} {es : List Edit} {e : Edit} {who other : Option Key} {key : Key}
  {before after cs : List Chapter} {c : Chapter}

theorem mem_named : key ∈ b.named ↔ ∃ d ∈ b.chapters, d.isOf key = true := by
  simp only [named, List.mem_filterMap, Chapter.isOf_iff]

theorem filter_record_eq_nil (h : ∀ d ∈ cs, d.record ≠ who) :
    cs.filter (·.record == who) = [] :=
  List.filter_eq_nil_iff.2 fun d hd => by simpa using h d hd

/-- A chapter that is the last one of its record comes last among these. -/
theorem filter_record_last (hc : c.record = who) (hafter : ∀ d ∈ after, d.record ≠ who) :
    (before ++ c :: after).filter (·.record == who) =
      before.filter (·.record == who) ++ [c] := by
  rw [List.filter_append, List.filter_cons_of_pos (by simpa using hc), filter_record_eq_nil hafter]

/-- A chapter shows nothing to other records. -/
theorem filter_record_other (hc : c.record ≠ other) :
    (before ++ c :: after).filter (·.record == other) =
      before.filter (·.record == other) ++ after.filter (·.record == other) := by
  rw [List.filter_append, List.filter_cons_of_neg (by simpa using hc)]

theorem filter_record_concat : (cs ++ [c]).filter (·.record == who) =
    if c.record = who then cs.filter (·.record == who) ++ [c]
    else cs.filter (·.record == who) := by
  split
  case isTrue h => exact filter_record_last h (List.forall_mem_nil _)
  case isFalse h => rw [filter_record_other h, List.filter_nil, List.append_nil]

/-- **A record with one chapter at most** has no other chapter before this one or
after it. -/
theorem exists_only (hnodup : b.named.Nodup) (h : key ∈ b.named) :
    ∃ before c after, b.chapters = before ++ c :: after ∧ c.record = some key ∧
      (∀ d ∈ before, d.record ≠ some key) ∧ ∀ d ∈ after, d.record ≠ some key := by
  obtain ⟨before, c, after, hchapters, hc, hbefore⟩ := exists_first (mem_named.1 h)
  rw [Chapter.isOf_iff] at hc
  refine ⟨before, c, after, hchapters, hc, fun d hd hkey => ?_, fun d hd hkey => ?_⟩
  · rw [← Chapter.isOf_iff, hbefore d hd] at hkey
    cases hkey
  · unfold named at hnodup
    rw [hchapters, List.filterMap_append, List.filterMap_cons_some hc] at hnodup
    have hnot := (List.nodup_cons.1 (List.nodup_append.1 hnodup).2.1).1
    exact hnot (List.mem_filterMap.2 ⟨d, hd, hkey⟩)

/-- What stands under a record is its chapter. -/
theorem chapter?_eq (hnodup : b.named.Nodup) (key : Key) :
    b.chapter? key = if key ∈ b.named then some (b.contents (some key)) else none := by
  unfold chapter?
  split
  case isTrue h =>
    obtain ⟨before, c, after, hchapters, hc, hbefore, hafter⟩ := exists_only hnodup h
    have hfind : before.find? (·.isOf key) = none :=
      List.find?_eq_none.2 fun d hd => mt Chapter.isOf_iff.1 (hbefore d hd)
    unfold contents chaptersOf
    rw [hchapters, filter_record_last hc hafter, filter_record_eq_nil hbefore, List.nil_append,
      Chapter.join_singleton hc, List.find?_append, hfind,
      List.find?_cons_of_pos (Chapter.isOf_iff.2 hc)]
    rfl
  case isFalse h =>
    rw [mem_named] at h
    exact List.find?_eq_none.2 fun d hd hkey => h ⟨d, hd, hkey⟩

theorem contents_eq_blank (h : key ∉ b.named) : b.contents (some key) = .blank (some key) := by
  have hnil : b.chaptersOf (some key) = [] := filter_record_eq_nil fun d hd hkey =>
    h (List.mem_filterMap.2 ⟨d, hd, hkey⟩)
  rw [contents, hnil]
  rfl

/-! ## Where a book goes on -/

/-- **A book that goes on under a record, or under none**: in the last chapter of
this sort, or in no chapter, where what comes next opens one without a record. -/
inductive GoesOn (b : Book) (who : Option Key) : Prop
  | inLast {before : List Chapter} {c : Chapter} {after : List Chapter}
    (h : b.GoesOnIn before c after) (hc : c.record = who) (hafter : ∀ d ∈ after, d.record ≠ who)
  | nowhere (h : b.current = none) (hwho : who = none)

/-- A book never goes on past its chapters. -/
theorem GoesOn.current_lt (h : b.GoesOn who) {i : Nat} (hi : b.current = some i) :
    i < b.chapters.length := by
  cases h with
  | inLast h hc hafter =>
    obtain rfl : _ = i := Option.some.inj (h.current.symm.trans hi)
    rw [h.chapters, List.length_append, List.length_cons]
    omega
  | nowhere h hwho => cases h.symm.trans hi

namespace GoesOn

theorem write (h : b.GoesOn who) (e : Edit) : (b.write (.take e)).GoesOn who := by
  cases h with
  | inLast h hc hafter => exact .inLast (h.write (.take e)) hc hafter
  | nowhere h hwho =>
    exact .inLast (goesOnIn_write_of_none h (.take e)) hwho.symm (List.forall_mem_nil _)

theorem named_write (h : b.GoesOn who) (e : Edit) : (b.write (.take e)).named = b.named := by
  unfold named
  cases h with
  | inLast h hc hafter =>
    rw [(h.write (.take e)).chapters, h.chapters]
    simp only [List.filterMap_append, List.filterMap_cons, Chapter.take_record]
  | nowhere h hwho =>
    rw [(goesOnIn_write_of_none h (.take e)).chapters, List.filterMap_append]
    exact List.append_nil _

/-- **What is written comes behind all that stands under the current record**, and
leaves what stands under others. -/
theorem contents_write (h : b.GoesOn who) (e : Edit) (other : Option Key) :
    (b.write (.take e)).contents other =
      if who = other then (b.contents other).take e else b.contents other := by
  unfold contents chaptersOf
  cases h with
  | @inLast before c after h hc hafter =>
    rw [(h.write (.take e)).chapters, h.chapters]
    split
    case isTrue heq =>
      subst heq
      rw [filter_record_last (c := c.take e) hc hafter, filter_record_last hc hafter,
        Chapter.join_concat_take]
    case isFalse hne =>
      subst hc
      rw [filter_record_other (c := c.take e) hne, filter_record_other hne]
  | nowhere h hwho =>
    subst hwho
    rw [(goesOnIn_write_of_none h (.take e)).chapters, filter_record_concat, Chapter.take_record,
      Chapter.blank_record]
    split
    case isTrue heq =>
      subst heq
      rw [Chapter.join_concat_take, Chapter.join_concat_blank]
    case isFalse => rfl

end GoesOn

/-! ## Beginning and retracting -/

theorem goesOnIn_begin_of_not_mem (h : key ∉ b.named) :
    (b.begin key).GoesOnIn b.chapters (.blank (some key)) [] :=
  goesOnIn_begin_of_forall fun d hd =>
    Bool.eq_false_iff.2 fun hkey => h (mem_named.2 ⟨d, hd, hkey⟩)

theorem chapters_begin (b : Book) (key : Key) : (b.begin key).chapters =
    if key ∈ b.named then b.chapters else b.chapters ++ [.blank (some key)] := by
  split
  case isTrue h =>
    obtain ⟨before, c, after, hchapters, hc, hbefore⟩ := exists_first (mem_named.1 h)
    rw [(goesOnIn_begin hchapters hbefore hc).chapters, hchapters]
  case isFalse h => exact (goesOnIn_begin_of_not_mem h).chapters

theorem named_begin (b : Book) (key : Key) :
    (b.begin key).named = if key ∈ b.named then b.named else b.named ++ [key] := by
  rw [named, chapters_begin]
  split
  · rfl
  · exact List.filterMap_append

/-- A chapter that is opened has nothing in it. -/
theorem contents_begin (b : Book) (key : Key) (who : Option Key) :
    (b.begin key).contents who = b.contents who := by
  unfold contents chaptersOf
  rw [chapters_begin]
  split
  case isTrue => rfl
  case isFalse =>
    rw [filter_record_concat]
    split
    case isTrue h =>
      subst h
      exact Chapter.join_concat_blank
    case isFalse => rfl

theorem goesOn_begin (hnodup : b.named.Nodup) (key : Key) :
    (b.begin key).GoesOn (some key) := by
  by_cases h : key ∈ b.named
  · obtain ⟨before, c, after, hchapters, hc, hbefore, hafter⟩ := exists_only hnodup h
    have hbegin : (b.begin key).GoesOnIn before c after :=
      goesOnIn_begin hchapters
        (fun d hd => Bool.eq_false_iff.2 (mt Chapter.isOf_iff.1 (hbefore d hd)))
        (Chapter.isOf_iff.2 hc)
    exact .inLast hbegin hc hafter
  · exact .inLast (goesOnIn_begin_of_not_mem h) rfl (List.forall_mem_nil _)

theorem named_retract (b : Book) (key : Key) :
    (b.retract key).named = b.named.filter (· != key) := by
  unfold named retract
  show (b.chapters.filter (!·.isOf key)).filterMap Chapter.record = _
  rw [List.filterMap_filter, List.filter_filterMap]
  refine List.filterMap_congr fun d _ => ?_
  unfold Chapter.isOf
  cases d.record with
  | none => rfl
  | some k => by_cases h : k = key <;> simp [Option.filter, h]

/-- **Retracting a record leaves what stands under others.** -/
theorem chaptersOf_retract (hne : who ≠ some key) :
    (b.retract key).chaptersOf who = b.chaptersOf who := by
  unfold chaptersOf retract
  show (b.chapters.filter (!·.isOf key)).filter _ = _
  rw [List.filter_filter]
  refine List.filter_congr fun d _ => ?_
  unfold Chapter.isOf
  by_cases h : d.record = who
  · subst h
    simp [hne]
  · simp [h]

theorem chaptersOf_retract_self (b : Book) (key : Key) :
    (b.retract key).chaptersOf (some key) = [] := by
  refine filter_record_eq_nil fun d hd => ?_
  rw [Ne, ← Chapter.isOf_iff]
  simpa using (List.mem_filter.1 hd).2

theorem contents_retract (b : Book) (key : Key) (who : Option Key) :
    (b.retract key).contents who = if some key = who then .blank who else b.contents who := by
  unfold contents
  split
  case isTrue h =>
    subst h
    rw [chaptersOf_retract_self]
    rfl
  case isFalse h => rw [chaptersOf_retract (Ne.symm h)]

/-! ## Sections -/

theorem addSection_eq (b : Book) (name : String) : b.addSection name =
    { b with
      sections := if b.sections.contains name then b.sections else b.sections ++ [name] } := by
  unfold addSection
  split <;> rfl

theorem GoesOn.withSections (h : b.GoesOn who) (names : List String) :
    GoesOn { b with sections := names } who := by
  cases h with
  | inLast h hc hafter => exact .inLast ⟨h.chapters, h.current⟩ hc hafter
  | nowhere h hwho => exact .nowhere h hwho

/-! ## Following a log -/

/-- **What edits keep** of a book: it goes on under the current record, each
record has one chapter at most, and has one if it has been begun since its last
retraction, and under each record stands what was registered under it. -/
structure Follows (b : Book) (es : List Edit) : Prop where
  goesOn : b.GoesOn (Edit.current es)
  nodup : b.named.Nodup
  named : ∀ key, key ∈ b.named ↔ Edit.Begun key es
  contents : ∀ who, b.contents who = .ofEdits who (Edit.madeUnder who es)
  sections : b.sections = (es.filterMap Edit.section?).eraseDups

namespace Follows

theorem empty : Book.empty.Follows [] where
  goesOn := .nowhere rfl rfl
  nodup := List.nodup_nil
  named key := by simp [Book.named, Book.empty, Edit.Begun, Edit.logSince, Edit.log]
  contents who := rfl
  sections := rfl

theorem begin (h : b.Follows es) (key : Key) : (b.begin key).Follows (es ++ [.begin key]) where
  goesOn := by
    rw [Edit.current_concat]
    exact goesOn_begin h.nodup key
  nodup := by
    rw [named_begin]
    split
    case isTrue => exact h.nodup
    case isFalse hkey =>
      rw [← List.concat_eq_append]
      exact h.nodup.concat hkey
  named k := by
    have hmem : k ∈ (b.begin key).named ↔ key = k ∨ k ∈ b.named := by
      rw [named_begin]
      split <;> grind
    rw [hmem, h.named, Edit.begun_concat]
    simp [Edit.retracts, Edit.begins]
  contents who := by
    rw [contents_begin, h.contents, Chapter.ofEdits_madeUnder_concat_of_not_isOutput rfl]
    rfl
  sections := by
    rw [Edit.sections_concat_of_none rfl, ← h.sections]
    exact sections_begin

theorem write (h : b.Follows es) (he : e.isOutput = true) :
    (b.write (.take e)).Follows (es ++ [e]) where
  goesOn := by
    rw [Edit.current_concat, Edit.turn_of_isOutput he]
    exact h.goesOn.write e
  nodup := by
    rw [h.goesOn.named_write]
    exact h.nodup
  named key := by
    rw [h.goesOn.named_write, h.named, Edit.begun_concat, Edit.retracts_of_isOutput he,
      Edit.begins_of_isOutput he]
    simp
  contents who := by
    rw [h.goesOn.contents_write, h.contents, Chapter.ofEdits_madeUnder_concat,
      Edit.retracts_of_isOutput he]
    rfl
  sections := by
    rw [Edit.sections_concat_of_none (Edit.section?_of_isOutput he), ← h.sections]
    exact sections_write

theorem addSection (h : b.Follows es) (name : String) :
    (b.addSection name).Follows (es ++ [.sheetSection name]) := by
  have hsections : (es ++ [Edit.sheetSection name]).filterMap Edit.section? =
      es.filterMap Edit.section? ++ [name] := List.filterMap_append
  rw [addSection_eq]
  exact {
    goesOn := by
      rw [Edit.current_concat]
      exact h.goesOn.withSections _
    nodup := h.nodup
    named := fun key => by
      rw [Edit.begun_concat, ← h.named]
      simp [Edit.retracts, Edit.begins, Book.named]
    contents := fun who => by
      rw [Chapter.ofEdits_madeUnder_concat_of_not_isOutput rfl]
      exact h.contents who
    sections := by
      rw [hsections, eraseDups_concat, h.sections, contains_eraseDups] }

theorem retract (h : b.Follows es) (key : Key) :
    (b.retract key).Follows (es ++ [.retract key]) where
  goesOn := by
    rw [Edit.current_concat]
    exact .nowhere rfl rfl
  nodup := by
    rw [named_retract]
    exact h.nodup.filter _
  named k := by
    rw [named_retract, List.mem_filter, h.named, Edit.begun_concat]
    by_cases hk : k = key
    · simp [Edit.retracts, hk]
    · simp [Edit.retracts, Edit.begins, hk, Ne.symm hk]
  contents who := by
    rw [contents_retract, h.contents, Chapter.ofEdits_madeUnder_concat_of_not_isOutput rfl]
    simp [Edit.retracts]
  sections := by
    rw [Edit.sections_concat_of_none rfl, ← h.sections]
    rfl

/-- **One edit** keeps a book in step with the log. -/
theorem apply (h : b.Follows es) (e : Edit) : (b.apply e).Follows (es ++ [e]) := by
  cases e with
  | begin key => exact h.begin key
  | rule r =>
    rw [Book.apply, ← Chapter.take_rule]
    exact h.write rfl
  | note n =>
    rw [Book.apply, ← Chapter.take_note]
    exact h.write rfl
  | choice r =>
    rw [Book.apply, ← Chapter.take_choice]
    exact h.write rfl
  | sheetSection name => exact h.addSection name
  | retract key => exact h.retract key

/-- **All edits** keep it so. -/
theorem applyAll_empty (es : List Edit) : (Book.empty.applyAll es).Follows es := by
  induction es using List.reverseRecOn with
  | nil => exact empty
  | append_singleton es e ih =>
    rw [applyAll_append]
    exact ih.apply e

end Follows

/-! ## The book and the log -/

/-- **A book that says what the log of some edits says.** -/
structure Refines (b : Book) (es : List Edit) : Prop where
  /-- A record has one chapter at most. -/
  nodup : b.named.Nodup
  /-- A record has a chapter if it has been begun since it was last retracted. In
  the chapter stands what has been registered since then while the record was
  current. -/
  chapter? : ∀ key, b.chapter? key =
    if Edit.Begun key es then some (.ofEdits (some key) (Edit.madeUnder (some key) es)) else none
  /-- A record without a chapter has registered nothing since it was last
  retracted. -/
  absent : ∀ key, ¬ Edit.Begun key es →
    Chapter.ofEdits (some key) (Edit.madeUnder (some key) es) = .blank (some key)
  /-- In the chapters without a record stands all that was ever registered while
  no record was current. -/
  unnamed : Chapter.join none (b.chaptersOf none) =
    .ofEdits none (((Edit.log es).filter (·.1 == none)).map Prod.snd)
  /-- Retracting a record takes nothing from the chapters of others, nor from
  those without a record. -/
  retract : ∀ key who, who ≠ some key →
    (b.apply (.retract key)).chaptersOf who = b.chaptersOf who
  /-- The sections are those registered, each once, as they first came. -/
  sections : b.sections = (es.filterMap Edit.section?).eraseDups
  /-- The position where the book goes on is that of a chapter. -/
  current_lt : ∀ i ∈ b.current, i < b.chapters.length

/-- **An empty book that carries out edits says what their log says**, whatever
the edits are and in whatever order records are begun, written and retracted. -/
theorem applyAll_refines_log (es : List Edit) : (Book.empty.applyAll es).Refines es := by
  have h : (Book.empty.applyAll es).Follows es := Follows.applyAll_empty es
  refine ⟨h.nodup, fun key => ?chapter, fun key hkey => ?absent, ?unnamed,
    fun key who hne => ?retract, h.sections, fun i hi => h.goesOn.current_lt hi⟩
  case chapter =>
    simp only [chapter?_eq h.nodup, h.named, h.contents]
  case absent =>
    rw [← h.contents, contents_eq_blank (mt (h.named key).1 hkey)]
  case unnamed =>
    refine (h.contents none).trans ?_
    rw [Edit.madeUnder, Edit.logSince_none]
  case retract => exact chaptersOf_retract hne

/-- The second of two records moves up when the first is retracted; what comes
before it is begun again belongs to neither. -/
example :
    (empty.applyAll [.begin ⟨.language, "Common"⟩, .begin ⟨.language, "Elven"⟩,
      .note ⟨"Tongues", "traits", "1"⟩, .retract ⟨.language, "Common"⟩,
      .note ⟨"Tongues", "traits", "2"⟩, .begin ⟨.language, "Elven"⟩,
      .note ⟨"Tongues", "traits", "3"⟩]).chapters =
    [⟨some ⟨.language, "Elven"⟩, [], [⟨"Tongues", "traits", "1"⟩, ⟨"Tongues", "traits", "3"⟩], []⟩,
      ⟨none, [], [⟨"Tongues", "traits", "2"⟩], []⟩] := rfl

end Book

end Rulebook
