import Mathlib.Data.List.Basic
import Rulebook.Compiler

/-!
# What edits do to a book

Of a book two things matter to the compiler: the headings of its chapters, which
are the records with their notes and choices, and its emissions, which are the
rules with the records that they stand under. The compiler makes three sorts of
edits, and each has one lemma here.

* Retracting a record takes out its heading and its emissions.
* A handover adds an emission under a record that has a chapter, and leaves the
  headings as they are. It goes into the middle of the book, so all that is said
  of the emissions is said up to their order.
* The output of a record without a chapter makes a new chapter at the end.

What each sort does to the rules in the chapter of one record is said at the end.
-/

namespace Rulebook

/-- **What a chapter says besides its rules.** -/
def Chapter.heading (c : Chapter) : Option Key × List Note × List Record :=
  (c.record, c.notes, c.choices)

/-- The rules of a chapter with its record. -/
def Chapter.emissions (c : Chapter) : List (Option Key × Rule) := c.rules.map (c.record, ·)

theorem Chapter.isOf_iff {key : Key} {c : Chapter} : c.isOf key = true ↔ c.record = some key :=
  beq_iff_eq

theorem Chapter.emissions_addRule {key : Key} {c : Chapter} {r : Rule}
    (hc : c.record = some key) : (c.addRule r).emissions = c.emissions ++ [(some key, r)] := by
  rw [← hc]
  exact List.map_append

namespace Book

/-- The headings of all chapters. -/
def headings (b : Book) : List (Option Key × List Note × List Record) :=
  b.chapters.map Chapter.heading

/-- **The rules of a book with the records that they stand under.** -/
def emissions (b : Book) : List (Option Key × Rule) := b.chapters.flatMap Chapter.emissions

/-- The rules are those of the emissions. -/
theorem map_snd_emissions (b : Book) : b.emissions.map Prod.snd = b.rules := by
  unfold emissions rules
  rw [List.map_flatMap]
  refine congrArg (b.chapters.flatMap ·) (funext fun c => ?_)
  unfold Chapter.emissions
  rw [List.map_map]
  exact List.map_id _

variable {b : Book} {key : Key}

theorem sections_begin : (b.begin key).sections = b.sections := by
  unfold begin
  split <;> rfl

theorem sections_write {f : Chapter → Chapter} : (b.write f).sections = b.sections := by
  unfold write
  split <;> rfl

/-! ## Retracting -/

theorem headings_retract :
    (b.retract key).headings = b.headings.filter (·.1 != some key) := by
  unfold headings retract
  rw [List.filter_map]
  rfl

theorem emissions_retract :
    (b.retract key).emissions = b.emissions.filter (·.1 != some key) := by
  unfold emissions retract
  dsimp only
  rw [List.filter_flatMap]
  induction b.chapters with
  | nil => rfl
  | cons c cs ih =>
    rw [List.filter_cons, List.flatMap_cons, ← ih]
    -- the emissions of one chapter are all kept or all dropped
    have hchapter : c.emissions.filter (·.1 != some key) =
        if !c.isOf key then c.emissions else [] := by
      unfold Chapter.emissions
      rw [List.filter_map]
      show List.map _ (c.rules.filter fun _ => c.record != some key) = _
      show List.map _ (c.rules.filter fun _ => !c.isOf key) = _
      cases c.isOf key <;> simp
    rw [hchapter]
    cases c.isOf key with
    | true => rfl
    | false => exact List.flatMap_cons

/-! ## Going on in a chapter -/

/-- **A book that goes on in a chapter**, with others before it and after it. -/
structure GoesOnIn (b : Book) (before : List Chapter) (c : Chapter) (after : List Chapter) :
    Prop where
  chapters : b.chapters = before ++ c :: after
  current : b.current = some before.length

variable {before after : List Chapter} {c : Chapter}

theorem GoesOnIn.write (h : b.GoesOnIn before c after) (f : Chapter → Chapter) :
    (b.write f).GoesOnIn before (f c) after := by
  unfold Book.write
  rw [h.current]
  refine ⟨?_, rfl⟩
  show b.chapters.modify before.length f = _
  rw [h.chapters]
  exact List.modifyTailIdx_add (List.modifyHead f) 0 before (c :: after)

/-- What is written in no chapter opens one at the end. -/
theorem goesOnIn_write_of_none (h : b.current = none) (f : Chapter → Chapter) :
    (b.write f).GoesOnIn b.chapters (f (.blank none)) [] := by
  unfold Book.write
  rw [h]
  exact ⟨rfl, rfl⟩

/-- A record that has chapters goes on in the first of them. -/
theorem goesOnIn_begin (h : b.chapters = before ++ c :: after)
    (hbefore : ∀ d ∈ before, d.isOf key = false) (hc : c.isOf key = true) :
    (b.begin key).GoesOnIn before c after := by
  have hfind : b.chapters.findIdx? (·.isOf key) = some before.length := by
    rw [h, List.findIdx?_append, List.findIdx?_eq_none_iff.2 hbefore, List.findIdx?_cons, if_pos hc,
      Option.none_or, Option.map_some, Nat.zero_add]
  unfold Book.begin
  rw [hfind]
  exact ⟨h, rfl⟩

/-- A record without a chapter gets one at the end. -/
theorem goesOnIn_begin_of_forall (h : ∀ d ∈ b.chapters, d.isOf key = false) :
    (b.begin key).GoesOnIn b.chapters (.blank (some key)) [] := by
  unfold Book.begin
  rw [List.findIdx?_eq_none_iff.2 h]
  exact ⟨rfl, rfl⟩

/-- The first chapter of a record that has one. -/
theorem exists_first (h : ∃ d ∈ b.chapters, d.isOf key = true) :
    ∃ before c after, b.chapters = before ++ c :: after ∧ c.isOf key = true ∧
      ∀ d ∈ before, d.isOf key = false := by
  obtain ⟨c, hc⟩ := Option.isSome_iff_exists.1 (List.find?_isSome.2 h)
  obtain ⟨hisOf, before, after, hchapters, hbefore⟩ := List.find?_eq_some_iff_append.1 hc
  exact ⟨before, c, after, hchapters, hisOf, fun d hd => Bool.not_eq_true' _ ▸ hbefore d hd⟩

/-! ## Handing over -/

theorem headings_addRule {r : Rule} :
    (before ++ c.addRule r :: after).map Chapter.heading =
      (before ++ c :: after).map Chapter.heading := by
  rw [List.map_append, List.map_append]
  rfl

theorem perm_emissions_addRule {r : Rule} (hc : c.record = some key) :
    ((before ++ c.addRule r :: after).flatMap Chapter.emissions).Perm
      ((before ++ c :: after).flatMap Chapter.emissions ++ [(some key, r)]) := by
  simp only [List.flatMap_append, List.flatMap_cons, Chapter.emissions_addRule hc,
    List.append_assoc]
  exact (List.perm_append_comm.append_left _).append_left _

/-- Whether a record has a chapter. -/
theorem exists_isOf_iff : (∃ c ∈ b.chapters, c.isOf key = true) ↔
    some key ∈ b.headings.map Prod.fst := by
  simp only [headings, List.map_map, List.mem_map, Function.comp_apply, Chapter.isOf_iff,
    Chapter.heading]

/-- The book once a rule is handed over to a record that has a chapter. -/
theorem chapters_applyAll_handoverEdits {h : Handover}
    (hh : ∃ c ∈ b.chapters, c.isOf h.owner = true) :
    ∃ before c after, b.chapters = before ++ c :: after ∧ c.record = some h.owner ∧
      (∀ d ∈ before, d.isOf h.owner = false) ∧
      (b.applyAll (Compiler.handoverEdits h)).chapters = before ++ c.addRule h.rule :: after := by
  obtain ⟨before, c, after, hchapters, hc, hbefore⟩ := exists_first hh
  exact ⟨before, c, after, hchapters, Chapter.isOf_iff.1 hc, hbefore,
    ((goesOnIn_begin hchapters hbefore hc).write (.addRule h.rule)).chapters⟩

/-- **Handovers** to records that have chapters leave the headings as they are
and add the rules to the emissions. -/
theorem applyAll_handovers {hs : List Handover}
    (hh : ∀ h ∈ hs, some h.owner ∈ b.headings.map Prod.fst) :
    (b.applyAll (hs.flatMap Compiler.handoverEdits)).headings = b.headings ∧
      (b.applyAll (hs.flatMap Compiler.handoverEdits)).emissions.Perm
        (b.emissions ++ hs.map fun h => (some h.owner, h.rule)) := by
  induction hs generalizing b with
  | nil => exact ⟨rfl, by rw [List.map_nil, List.append_nil]; exact .refl _⟩
  | cons h hs ih =>
    obtain ⟨hhead, htail⟩ := List.forall_mem_cons.1 hh
    obtain ⟨before, c, after, hchapters, hrecord, -, hafter⟩ :=
      chapters_applyAll_handoverEdits (exists_isOf_iff.2 hhead)
    have hheadings : (b.applyAll (Compiler.handoverEdits h)).headings = b.headings := by
      unfold headings
      rw [hafter, hchapters, headings_addRule]
    have hemissions : (b.applyAll (Compiler.handoverEdits h)).emissions.Perm
        (b.emissions ++ [(some h.owner, h.rule)]) := by
      unfold emissions
      rw [hafter, hchapters]
      exact perm_emissions_addRule hrecord
    rw [List.flatMap_cons, applyAll_append]
    -- the first handover has kept the headings, so the others find their chapters
    obtain ⟨ihheadings, ihemissions⟩ := ih (b := b.applyAll (Compiler.handoverEdits h))
      (by rwa [hheadings])
    refine ⟨ihheadings.trans hheadings, ihemissions.trans ?_⟩
    rw [List.map_cons, ← List.singleton_append, ← List.append_assoc]
    exact hemissions.append_right _

/-! ## Opening a chapter -/

namespace GoesOnIn

theorem applyAll_sections (h : b.GoesOnIn before c after) (names : List String) :
    (b.applyAll (names.map .sheetSection)).GoesOnIn before c after := by
  induction names generalizing b with
  | nil => exact h
  | cons name names ih =>
    refine ih (b := b.addSection name) ?_
    unfold addSection
    split
    · exact h
    · exact ⟨h.chapters, h.current⟩

theorem applyAll_rules (h : b.GoesOnIn before c after) (rules : List Rule) :
    (b.applyAll (rules.map .rule)).GoesOnIn before
      { c with rules := c.rules ++ rules } after := by
  induction rules generalizing b c with
  | nil => rwa [List.append_nil]
  | cons r rules ih =>
    rw [List.append_cons]
    exact ih (h.write (.addRule r))

theorem applyAll_notes (h : b.GoesOnIn before c after) (notes : List Note) :
    (b.applyAll (notes.map .note)).GoesOnIn before
      { c with notes := c.notes ++ notes } after := by
  induction notes generalizing b c with
  | nil => rwa [List.append_nil]
  | cons n notes ih =>
    rw [List.append_cons]
    exact ih (h.write (.addNote n))

theorem applyAll_choices (h : b.GoesOnIn before c after) (choices : List Record) :
    (b.applyAll (choices.map .choice)).GoesOnIn before
      { c with choices := c.choices ++ choices } after := by
  induction choices generalizing b c with
  | nil => rwa [List.append_nil]
  | cons r choices ih =>
    rw [List.append_cons]
    exact ih (h.write (.addChoice r))

end GoesOnIn

/-- **The output of a record without a chapter** makes one at the end. -/
theorem chapters_applyAll_output (h : ∀ c ∈ b.chapters, c.isOf key = false)
    (names : List String) (rules : List Rule) (notes : List Note) (choices : List Record) :
    (b.applyAll (.begin key :: names.map .sheetSection ++ rules.map .rule ++ notes.map .note ++
      choices.map .choice)).chapters = b.chapters ++ [⟨some key, rules, notes, choices⟩] := by
  simp only [applyAll_append]
  exact ((((goesOnIn_begin_of_forall h).applyAll_sections names).applyAll_rules
    rules).applyAll_notes notes).applyAll_choices choices |>.chapters

/-! ## The rules of a record -/

/-- **The rules in the chapter of a record**; there are none if it has no
chapter. -/
def rulesOf (b : Book) (key : Key) : List Rule := ((b.chapter? key).map Chapter.rules).getD []

variable {other : Key} {r : Rule}

/-- The rules of a record are in its first chapter. -/
theorem rulesOf_of_first (h : b.chapters = before ++ c :: after)
    (hbefore : ∀ d ∈ before, d.isOf key = false) (hc : c.isOf key = true) :
    b.rulesOf key = c.rules := by
  have hnone : before.find? (·.isOf key) = none :=
    List.find?_eq_none.2 (fun d hd => Bool.eq_false_iff.1 (hbefore d hd))
  unfold rulesOf chapter?
  rw [h, List.find?_append, hnone, List.find?_cons_of_pos hc]
  rfl

/-- A chapter shows nothing to other records. -/
theorem rulesOf_of_not (h : b.chapters = before ++ c :: after) (hc : c.isOf key = false) :
    b.rulesOf key = (((before ++ after).find? (·.isOf key)).map Chapter.rules).getD [] := by
  unfold rulesOf chapter?
  rw [h, List.find?_append, List.find?_append,
    List.find?_cons_of_neg (Bool.eq_false_iff.1 hc)]

/-- The rules of a record stand under it. -/
theorem mem_emissions_of_mem_rulesOf (h : r ∈ b.rulesOf key) : (some key, r) ∈ b.emissions := by
  unfold rulesOf at h
  cases hchapter : b.chapter? key with
  | none =>
    rw [hchapter] at h
    cases h
  | some c =>
    rw [hchapter] at h
    have hof : c.isOf key = true := List.find?_some (p := Chapter.isOf key) hchapter
    refine List.mem_flatMap.2 ⟨c, List.mem_of_find?_eq_some hchapter, ?_⟩
    rw [Chapter.emissions, Chapter.isOf_iff.1 hof]
    exact List.mem_map_of_mem h

theorem rulesOf_retract (hne : other ≠ key) : (b.retract key).rulesOf other = b.rulesOf other := by
  have hisOf : (fun c : Chapter => !c.isOf key && c.isOf other) = (·.isOf other) := by
    funext c
    cases hof : c.isOf other with
    | false => exact Bool.and_false _
    | true =>
      have hnot : c.isOf key = false := Bool.eq_false_iff.2 (fun hkey =>
        hne (Option.some.inj ((Chapter.isOf_iff.1 hof).symm.trans (Chapter.isOf_iff.1 hkey))))
      rw [hnot]
      rfl
  unfold rulesOf chapter? retract
  rw [List.find?_filter, ← hisOf]
  simp only [Bool.decide_and, Bool.decide_eq_true]

theorem rulesOf_handover {h : Handover} (hh : ∃ c ∈ b.chapters, c.isOf h.owner = true) :
    (b.applyAll (Compiler.handoverEdits h)).rulesOf other =
      b.rulesOf other ++ if h.owner = other then [h.rule] else [] := by
  obtain ⟨before, c, after, hchapters, hrecord, hbefore, hafter⟩ :=
    chapters_applyAll_handoverEdits hh
  split
  · next heq =>
    subst heq
    rw [rulesOf_of_first hchapters hbefore (Chapter.isOf_iff.2 hrecord),
      rulesOf_of_first hafter hbefore (Chapter.isOf_iff.2 hrecord)]
    rfl
  · next hne =>
    have hnot : c.isOf other = false := Bool.eq_false_iff.2 (fun hof =>
      hne (Option.some.inj (hrecord.symm.trans (Chapter.isOf_iff.1 hof))))
    rw [rulesOf_of_not hchapters hnot, rulesOf_of_not (c := c.addRule h.rule) hafter hnot,
      List.append_nil]

/-- **Handovers** bring to each record the rules that are handed over to it, in
their order and behind those that it has. -/
theorem rulesOf_handovers {hs : List Handover}
    (hh : ∀ h ∈ hs, some h.owner ∈ b.headings.map Prod.fst) :
    (b.applyAll (hs.flatMap Compiler.handoverEdits)).rulesOf other =
      b.rulesOf other ++ (hs.filter (·.owner == other)).map Handover.rule := by
  induction hs generalizing b with
  | nil => exact (List.append_nil _).symm
  | cons h hs ih =>
    obtain ⟨hhead, htail⟩ := List.forall_mem_cons.1 hh
    have hheadings : (b.applyAll ([h].flatMap Compiler.handoverEdits)).headings = b.headings :=
      (applyAll_handovers (List.forall_mem_singleton.2 hhead)).1
    rw [List.flatMap_singleton] at hheadings
    rw [List.flatMap_cons, applyAll_append, ih (hheadings ▸ htail),
      rulesOf_handover (exists_isOf_iff.2 hhead), List.append_assoc, List.filter_cons]
    by_cases heq : h.owner = other
    · rw [if_pos heq, if_pos (beq_iff_eq.2 heq)]
      rfl
    · rw [if_neg heq, if_neg (mt beq_iff_eq.1 heq)]
      rfl

/-- A chapter that is added for a record without one has the rules of the
record. -/
theorem rulesOf_of_chapters {d : Book} {rules : List Rule} {notes : List Note}
    {choices : List Record} (h : ∀ c ∈ b.chapters, c.isOf key = false)
    (hd : d.chapters = b.chapters ++ [⟨some key, rules, notes, choices⟩]) :
    d.rulesOf other = if other = key then rules else b.rulesOf other := by
  split
  · next heq =>
    subst heq
    exact rulesOf_of_first hd h (Chapter.isOf_iff.2 rfl)
  · next hne =>
    rw [rulesOf_of_not hd (Bool.eq_false_iff.2 fun hof =>
      hne (Option.some.inj (Chapter.isOf_iff.1 hof)).symm), List.append_nil]
    rfl

end Book

end Rulebook
