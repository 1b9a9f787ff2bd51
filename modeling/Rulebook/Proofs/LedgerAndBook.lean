import Rulebook.Proofs.Chapters
import Rulebook.Proofs.CompiledRules
import Rulebook.Proofs.Ownership
import Rulebook.Proofs.Sessions

/-!
# The ledger and the book stay in step

The ledger and the book are changed by separate code. The compiler commits and
forgets; the book, which may belong to another program, only sees edits. Nobody
compares the two, so they have to agree by construction: whatever is called, in
whatever order, and however much of it fails.

The invariant is relative to the current outputs of the records. Who owns which
rule is what the outputs say, the headings of the book are those of the
registered records with the notes and choices of their outputs, and the book
shows every rule under the record that the ledger says it was emitted under.
Withdrawing a record and emitting an output each keep it, one for a record
without an output and one for a record that gets one. Recompiling is the two in
a row, and registering is the second alone.
-/

namespace Rulebook

/-- The heading of the chapter of a record with an output. -/
def Output.heading (key : Key) (o : Output) : Option Key × List Note × List Record :=
  (some key, o.notes, o.choices)

/-- **The ledger of a compiler and a book agree** on the outputs of the records. -/
structure InStep (c : Compiler) (b : Book) (current : Key → Option Output) : Prop where
  valid : c.settings.validate = .ok ()
  sound : c.ledger.Sound
  nodup : c.registered.Nodup
  registered : ∀ key, key ∈ c.registered ↔ (current key).isSome = true
  /-- The rules of outputs equal themselves. -/
  beq_self : ∀ key, ∀ o ∈ current key, ∀ r ∈ o.rules, (r == r) = true
  owns : ∀ key r, c.ledger.Owns key r ↔ ∃ o ∈ current key, ∃ s ∈ o.rules, (s == r) = true
  headings : b.headings = c.registered.map fun key =>
    ((current key).getD .empty).heading key
  emissions : b.emissions.Perm (c.ledger.emissions.map fun (key, r) => (some key, r))

/-- The edits of an output: its chapter with the rules that are fresh. -/
theorem edits_emit {c : Compiler} {key : Key} {o : Output} : (c.emit key o).2.edits =
    .begin key :: o.sections.map .sheetSection ++ (c.ledger.fresh key o.rules).map .rule ++
      o.notes.map .note ++ o.choices.map .choice := by
  have hfresh : Compiler.newRules (c.ledger.commitAll key o.rules).2 =
      (c.ledger.fresh key o.rules).map .rule := by
    unfold Compiler.newRules Ledger.fresh
    rw [List.map_filterMap]
    refine congrArg (List.filterMap · _) (funext fun (r, owner) => ?_)
    cases owner <;> rfl
  rw [← hfresh]
  rfl

namespace InStep

variable {c : Compiler} {b : Book} {current : Key → Option Output} {key : Key} {o : Output}

/-! ## Steps -/

/-- What is known besides does not matter. -/
theorem know (h : InStep c b current) : InStep (c.know key) b current :=
  ⟨h.valid, h.sound, h.nodup, h.registered, h.beq_self, h.owns, h.headings, h.emissions⟩

/-- The records with a chapter are those that are registered. -/
theorem mem_headings (h : InStep c b current) :
    some key ∈ b.headings.map Prod.fst ↔ key ∈ c.registered := by
  rw [h.headings, List.map_map]
  constructor
  · intro hmem
    obtain ⟨other, hother, heq⟩ := List.mem_map.1 hmem
    cases heq
    exact hother
  · intro hmem
    exact List.mem_map.2 ⟨key, hmem, rfl⟩

/-- Owners are registered. -/
theorem mem_registered (h : InStep c b current) {r : Rule} (hr : c.ledger.Owns key r) :
    key ∈ c.registered := by
  obtain ⟨o, ho, -⟩ := (h.owns key r).1 hr
  rw [h.registered, Option.isSome_iff_exists]
  exact ⟨o, ho⟩

/-- A record has one chapter at most. -/
theorem nodup_headings (h : InStep c b current) : (b.headings.map Prod.fst).Nodup := by
  have hrecords : b.headings.map Prod.fst = c.registered.map some := by
    rw [h.headings, List.map_map]
    rfl
  rw [hrecords]
  exact h.nodup.map (fun _ _ => Option.some.inj)

/-- Retracting a record leaves the headings of the others. -/
theorem headings_retract (h : InStep c b current) : (b.retract key).headings =
    (c.registered.erase key).map fun other => ((current other).getD .empty).heading other := by
  rw [Book.headings_retract, h.headings, h.nodup.erase_eq_filter key, List.filter_map]
  refine congrArg _ (List.filter_congr (fun other _ => ?_))
  show (some other != some key) = (other != key)
  rfl

/-- A handover goes to a record whose chapter is there. -/
theorem owner_mem_headings (h : InStep c b current) {hand : Handover}
    (hhand : hand ∈ c.ledger.handovers key) :
    some hand.owner ∈ (b.retract key).headings.map Prod.fst := by
  obtain ⟨howns, hne⟩ := h.sound.owns_forget.1 (h.sound.owns_of_mem_handovers hhand)
  rw [h.headings_retract, List.map_map]
  refine List.mem_map.2 ⟨hand.owner, ?_, rfl⟩
  exact h.nodup.mem_erase_iff.2 ⟨hne, h.mem_registered howns⟩

/-- **Withdrawing a record** leaves it without an output. -/
theorem withdraw (h : InStep c b current) :
    InStep (c.withdraw key).1 (b.applyAll (c.withdraw key).2.edits)
      (Function.update current key none) := by
  -- a handover goes to a record whose chapter is there, so no chapter is added
  have howners : ∀ hand ∈ c.ledger.handovers key,
      some hand.owner ∈ (b.retract key).headings.map Prod.fst :=
    fun _ hhand => h.owner_mem_headings hhand
  obtain ⟨hafter, hemissions⟩ := Book.applyAll_handovers howners
  refine ⟨h.valid, h.sound.forget, h.nodup.erase key, ?_, ?_, ?_, ?_, ?_⟩
  · intro other
    show other ∈ c.registered.erase key ↔ _
    rw [h.nodup.mem_erase_iff, h.registered]
    by_cases hother : other = key
    · subst hother
      simp
    · rw [Function.update_of_ne hother]
      exact and_iff_right hother
  · exact fun other o' ho' => h.beq_self other o' (mem_update_none.1 ho').2
  · intro other r
    show (c.ledger.forget key).Owns other r ↔ _
    rw [h.sound.owns_forget, h.owns]
    by_cases hother : other = key
    · subst hother
      rw [Function.update_self]
      exact ⟨fun hne => absurd rfl hne.2, fun ⟨_, ho, _⟩ => nomatch ho⟩
    · rw [Function.update_of_ne hother]
      exact and_iff_left hother
  · show ((b.retract key).applyAll _).headings = (c.registered.erase key).map _
    rw [hafter, h.headings_retract]
    refine List.map_congr_left (fun other hother => ?_)
    rw [Function.update_of_ne (h.nodup.mem_erase_iff.1 hother).1]
  · -- what the others had emitted stays, and the handovers come on top
    show ((b.retract key).applyAll _).emissions.Perm ((c.ledger.forget key).emissions.map _)
    refine hemissions.trans ?_
    rw [Book.emissions_retract]
    refine ((h.emissions.filter _).append_right _).trans ?_
    refine .trans ?_ (Ledger.emissions_forget.map _).symm
    rw [List.map_append, List.map_map, List.filter_map]
    exact .refl _

/-- A record that is not registered has no chapter. -/
theorem isOf_eq_false (h : InStep c b current) (hkey : key ∉ c.registered) :
    ∀ d ∈ b.chapters, d.isOf key = false := fun d hd =>
  Bool.eq_false_iff.2 (fun hof =>
    hkey (h.mem_headings.1 (Book.exists_isOf_iff.1 ⟨d, hd, hof⟩)))

/-- **The output of a record that is not registered** makes a chapter at the
end, with the rules that are fresh. -/
theorem chapters_emit (h : InStep c b current) (hkey : key ∉ c.registered) :
    (b.applyAll (c.emit key o).2.edits).chapters =
      b.chapters ++ [⟨some key, c.ledger.fresh key o.rules, o.notes, o.choices⟩] := by
  rw [edits_emit]
  exact Book.chapters_applyAll_output (h.isOf_eq_false hkey) ..

/-- A record whose output is emitted shows the rules that are fresh, and the others
show what they did. -/
theorem rulesOf_emit (h : InStep c b current) (hkey : key ∉ c.registered) {other : Key} :
    (b.applyAll (c.emit key o).2.edits).rulesOf other =
      if other = key then c.ledger.fresh key o.rules else b.rulesOf other :=
  Book.rulesOf_of_chapters (h.isOf_eq_false hkey) (h.chapters_emit hkey)

/-- When a record is withdrawn, the others show what is handed over to them behind
what they showed before. -/
theorem rulesOf_withdraw (h : InStep c b current) {other : Key} (hne : other ≠ key) :
    (b.applyAll (c.withdraw key).2.edits).rulesOf other = b.rulesOf other ++
      ((c.ledger.handovers key).filter (·.owner == other)).map Handover.rule :=
  (Book.rulesOf_handovers fun _ hhand => h.owner_mem_headings hhand).trans
    (congrArg (· ++ _) (Book.rulesOf_retract hne))

/-- **Emitting the output of a record** that has none gives it that output. -/
theorem emit (h : InStep c b current) (hnone : current key = none)
    (ho : ∀ r ∈ o.rules, (r == r) = true) :
    InStep (c.emit key o).1 (b.applyAll (c.emit key o).2.edits)
      (Function.update current key (some o)) := by
  have hkey : key ∉ c.registered := by
    rw [h.registered, hnone]
    exact Bool.false_ne_true
  have hchapters := h.chapters_emit (o := o) hkey
  refine ⟨h.valid, h.sound.commitAll ho, ?_, ?_, ?_, ?_, ?_, ?_⟩
  · show (c.registered ++ [key]).Nodup
    exact h.nodup.append (List.nodup_singleton key) (List.disjoint_singleton.2 hkey)
  · intro other
    show other ∈ c.registered ++ [key] ↔ _
    rw [List.mem_append, List.mem_singleton, h.registered]
    by_cases hother : other = key
    · subst hother
      simp
    · rw [Function.update_of_ne hother]
      exact or_iff_left hother
  · intro other o' ho'
    obtain ⟨-, rfl⟩ | ⟨-, ho'⟩ := mem_update_some.1 ho'
    · exact ho
    · exact h.beq_self other o' ho'
  · intro other r
    show (c.ledger.commitAll key o.rules).1.Owns other r ↔ _
    rw [h.sound.owns_commitAll ho, h.owns]
    by_cases hother : other = key
    · subst hother
      rw [Function.update_self, hnone]
      constructor
      · rintro (⟨_, ho, _⟩ | ⟨-, hr⟩)
        · cases ho
        · exact ⟨o, rfl, hr⟩
      · rintro ⟨o', ho', hr⟩
        cases ho'
        exact .inr ⟨rfl, hr⟩
    · rw [Function.update_of_ne hother]
      exact or_iff_left (fun hr => hother hr.1)
  · unfold Book.headings
    rw [hchapters, List.map_append]
    show b.headings ++ [o.heading key] = (c.registered ++ [key]).map _
    rw [List.map_append, List.map_singleton, Function.update_self, h.headings]
    refine congrArg (· ++ _) (List.map_congr_left (fun other hother => ?_))
    have hne : other ≠ key := fun heq => hkey (heq ▸ hother)
    rw [Function.update_of_ne hne]
  · -- the new chapter shows just the rules that nobody owned before
    unfold Book.emissions
    rw [hchapters, List.flatMap_append, List.flatMap_singleton]
    show (b.emissions ++ _).Perm ((c.ledger.commitAll key o.rules).1.emissions.map _)
    rw [h.sound.emissions_commitAll ho, List.map_append, List.map_map]
    exact h.emissions.append_right _

/-- A record that can be prepared has rules that equal themselves. -/
theorem beq_self_of_prepare (h : InStep c b current) {record : Record}
    (ho : (c.know record.key).prepare record = .ok o) : ∀ r ∈ o.rules, (r == r) = true := by
  have hvalid : (c.know record.key).context.settings.validate = .ok () := h.valid
  have hcompile := (Compiler.prepare_eq_ok.1 ho).1
  exact Record.beq_self_of_compile hvalid (Outcome.mapError_eq_ok.1 hcompile)

/-- Records that are not registered have no output. -/
theorem current_eq_none (h : InStep c b current) (hkey : key ∉ c.registered) :
    current key = none := by
  rw [← Option.not_isSome_iff_eq_none, ← h.registered]
  exact hkey

end InStep

namespace Session

/-! ## Calls -/

variable {s : Session}

/-- **Registering keeps the ledger and the book in step**, whether it fails or
not. -/
theorem inStep_register (h : InStep s.compiler s.book s.current) (record : Record) :
    InStep (s.perform (.register record)).compiler (s.perform (.register record)).book
      (s.perform (.register record)).current := by
  show InStep (s.perform (.register record)).stage.compiler
    (s.perform (.register record)).stage.book (s.perform (.register record)).stage.current
  obtain ⟨-, -, heq⟩ | ⟨-, -, heq⟩ | ⟨hnew, o, ho, heq⟩ := s.stage_register_cases record
  · rw [heq]
    exact h
  · rw [heq]
    exact h.know
  · rw [heq]
    exact h.know.emit (h.current_eq_none hnew) (h.beq_self_of_prepare ho)

/-- **Recompiling keeps the ledger and the book in step**, whether it fails or
not, and whether the record is registered or not. -/
theorem inStep_recompile (h : InStep s.compiler s.book s.current) (record : Record) :
    InStep (s.perform (.recompile record)).compiler (s.perform (.recompile record)).book
      (s.perform (.recompile record)).current := by
  show InStep (s.perform (.recompile record)).stage.compiler
    (s.perform (.recompile record)).stage.book (s.perform (.recompile record)).stage.current
  obtain ⟨-, -, heq⟩ | ⟨o, ho, heq⟩ := s.stage_recompile_cases record
  · rw [heq]
    exact h.know
  · have hknown : InStep (s.compiler.know record.key) s.book s.current := h.know
    rw [heq]
    exact hknown.withdraw.emit (Function.update_self ..) (h.beq_self_of_prepare ho)

theorem inStep_start {settings : Settings} (h : settings.validate = .ok ())
    (records : List Record) : InStep (start settings records).compiler
      (start settings records).book (start settings records).current where
  valid := h
  sound := Ledger.sound_empty
  nodup := List.nodup_nil
  registered _ := ⟨fun hmem => (nomatch hmem), fun hsome => (nomatch hsome)⟩
  beq_self _ _ ho := nomatch ho
  owns _ _ := ⟨fun howns => absurd howns Ledger.not_owns_empty, fun ⟨_, ho, _⟩ => nomatch ho⟩
  headings := rfl
  emissions := .refl _

/-- **Every session is in step.** -/
theorem inStep_run {settings : Settings} (hs : settings.validate = .ok ())
    (records : List Record) (calls : List Call) :
    InStep ((start settings records).run calls).compiler ((start settings records).run calls).book
      ((start settings records).run calls).current :=
  run_induction (P := fun s => InStep s.compiler s.book s.current)
    (fun _ record h => inStep_register h record) (fun _ record h => inStep_recompile h record)
    (inStep_start hs records) calls

/-! ## What the invariant says -/

/-- **The ledger and the book of a session agree** with the current outputs. -/
structure Agrees (s : Session) : Prop where
  /-- The owners of a rule are the registered records whose output contains it. -/
  owners : ∀ key r, key ∈ s.compiler.ledger.owners r ↔ s.compiler.isRegistered key = true ∧
    ∃ o, s.current key = some o ∧ o.rules.contains r = true
  /-- A rule of an output is in the book once, in the chapter of its first owner. -/
  once : ∀ r, (∃ key o, s.current key = some o ∧ o.rules.contains r = true) →
    s.book.rules.countP (· == r) = 1 ∧
      ∃ key chapter, (s.compiler.ledger.owners r).head? = some key ∧
        s.book.chapter? key = some chapter ∧ chapter.rules.contains r = true
  /-- The book holds no other rule. -/
  only : ∀ r ∈ s.book.rules, ∃ key o, s.current key = some o ∧ o.rules.contains r = true
  count : s.compiler.ruleCount = s.book.rules.length
  /-- A chapter shows the notes and the choices of the output of its record. -/
  contents : ∀ chapter ∈ s.book.chapters, ∃ key o, chapter.record = some key ∧
    s.current key = some o ∧ chapter.notes = o.notes ∧ chapter.choices = o.choices
  /-- The records with a chapter are the registered ones, which are those with an
  output. -/
  chapters : ∀ key, (s.compiler.isRegistered key = true ↔ (s.current key).isSome = true) ∧
    (s.compiler.isRegistered key = true ↔ (s.book.chapter? key).isSome = true)

end Session

namespace InStep

variable {c : Compiler} {b : Book} {current : Key → Option Output} {key : Key} {r : Rule}

theorem isRegistered (h : InStep c b current) :
    c.isRegistered key = true ↔ (current key).isSome = true := by
  rw [← h.registered]
  exact List.contains_iff_mem

/-- The rules of the book are those of the ledger, in another order. -/
theorem rules_perm (h : InStep c b current) :
    b.rules.Perm (c.ledger.entries.map LedgerEntry.rule) := by
  rw [← Book.map_snd_emissions]
  refine (h.emissions.map Prod.snd).trans ?_
  rw [Ledger.emissions, List.map_map, List.map_map]
  exact .refl _

/-- Outputs contain what their records own. -/
theorem owns_iff_contains (h : InStep c b current) :
    c.ledger.Owns key r ↔ ∃ o, current key = some o ∧ o.rules.contains r = true := by
  rw [h.owns]
  refine exists_congr (fun o => and_congr_right (fun _ => ?_))
  rw [List.contains_eq_any_beq, List.any_eq_true]
  exact exists_congr (fun s => and_congr_right (fun _ => by rw [BEq.comm (a := s)]))

/-- Of different rules one at most equals a given one. -/
theorem countP_eq_one_of_pairwise {rules : List Rule}
    (h : rules.Pairwise fun r s => (r == s) = false) (hr : ∃ s ∈ rules, (s == r) = true) :
    rules.countP (· == r) = 1 := by
  induction rules with
  | nil =>
    obtain ⟨s, hs, -⟩ := hr
    cases hs
  | cons s rules ih =>
    obtain ⟨hhead, htail⟩ := List.pairwise_cons.1 h
    rw [List.countP_cons]
    split
    · next hsr =>
      have hzero : rules.countP (· == r) = 0 := by
        refine List.countP_eq_zero.2 (fun t ht htr => ?_)
        have := hhead t ht
        rw [BEq.trans hsr (BEq.symm htr)] at this
        cases this
      rw [hzero]
    · next hsr =>
      obtain ⟨t, ht, htr⟩ := hr
      obtain rfl | ht := List.mem_cons.1 ht
      · exact absurd htr hsr
      · exact ih htail ⟨t, ht, htr⟩

/-- **A rule of an output** is in the book once. -/
theorem countP_eq_one (h : InStep c b current) (hr : c.ledger.Owns key r) :
    b.rules.countP (· == r) = 1 := by
  obtain ⟨e, he, her, -⟩ := hr
  rw [h.rules_perm.countP_eq]
  exact countP_eq_one_of_pairwise (List.pairwise_map.2 h.sound.distinct)
    ⟨e.rule, List.mem_map_of_mem he, her⟩

/-- The chapter of a record is the one that is found. -/
theorem chapter?_eq (h : InStep c b current) {chapter : Chapter} (hmem : chapter ∈ b.chapters)
    (hrecord : chapter.record = some key) : b.chapter? key = some chapter := by
  have hnodup : (b.chapters.map Chapter.record).Nodup := by
    have := h.nodup_headings
    rwa [Book.headings, List.map_map] at this
  cases hfind : b.chapter? key with
  | none =>
    exact absurd (Chapter.isOf_iff.2 hrecord) (List.find?_eq_none.1 hfind chapter hmem)
  | some found =>
    have hfound : found.isOf key = true := List.find?_some (p := Chapter.isOf key) hfind
    have hsame : found.record = chapter.record := (Chapter.isOf_iff.1 hfound).trans hrecord.symm
    rw [List.inj_on_of_nodup_map hnodup (List.mem_of_find?_eq_some hfind) hmem hsame]

/-- What the book shows under a record is in the chapter of the record. -/
theorem exists_chapter_of_mem (h : InStep c b current) (hmem : (some key, r) ∈ b.emissions) :
    ∃ chapter, b.chapter? key = some chapter ∧ r ∈ chapter.rules := by
  obtain ⟨chapter, hchapter, hrule⟩ := List.mem_flatMap.1 hmem
  obtain ⟨s, hs, heq⟩ := List.mem_map.1 hrule
  obtain ⟨hrecord, rfl⟩ := Prod.mk.inj heq
  exact ⟨chapter, h.chapter?_eq hchapter hrecord, hs⟩

/-- A rule of an output is in the chapter of its first owner. -/
theorem exists_chapter (h : InStep c b current) (hr : c.ledger.Owns key r) :
    ∃ first chapter, (c.ledger.owners r).head? = some first ∧
      b.chapter? first = some chapter ∧ chapter.rules.contains r = true := by
  obtain ⟨e, he, her, -⟩ := hr
  have howners : c.ledger.owners r = e.owners := by
    rw [Ledger.owners, h.sound.find?_eq he her]
  have hmem : (some e.emitter, e.rule) ∈ b.emissions := by
    rw [h.emissions.mem_iff]
    exact List.mem_map.2 ⟨(e.emitter, e.rule), List.mem_map.2 ⟨e, he, rfl⟩, rfl⟩
  obtain ⟨chapter, hchapter, hrule⟩ := h.exists_chapter_of_mem hmem
  refine ⟨e.emitter, chapter, by rw [howners]; rfl, hchapter, ?_⟩
  rw [List.contains_eq_any_beq, List.any_eq_true]
  exact ⟨e.rule, hrule, BEq.symm her⟩

end InStep

namespace Session

/-- **The ledger and the book never drift apart.** Under settings that make
sense, whatever is called on a new compiler and on whatever records, the owners
of a rule are the records whose current output contains it; every such rule is
in the book once, under its first owner, and no other rule is; and the chapters
show the notes and the choices of the current outputs. -/
theorem agrees_run {settings : Settings} (hs : settings.validate = .ok ())
    (known : List Record) (calls : List Call) : ((start settings known).run calls).Agrees := by
  have h := inStep_run hs known calls
  generalize (start settings known).run calls = s at h
  refine ⟨fun key r => ?_, fun r hr => ?_, fun r hr => ?_, ?_, fun chapter hchapter => ?_,
    fun key => ⟨h.isRegistered, ?_⟩⟩
  · rw [h.sound.mem_owners, h.owns_iff_contains, h.isRegistered]
    refine ⟨fun ⟨o, ho, hr⟩ => ⟨?_, o, ho, hr⟩, And.right⟩
    rw [ho]
    rfl
  · obtain ⟨key, hr⟩ := hr
    have howns := h.owns_iff_contains.2 hr
    exact ⟨h.countP_eq_one howns, h.exists_chapter howns⟩
  · obtain ⟨e, he, rfl⟩ := List.mem_map.1 (h.rules_perm.mem_iff.1 hr)
    exact ⟨e.emitter, h.owns_iff_contains.1
      ⟨e, he, h.sound.beq_self e he, LedgerEntry.emitter_mem_owners⟩⟩
  · rw [h.rules_perm.length_eq, List.length_map]
    rfl
  · have hmem : chapter.heading ∈ s.book.headings := List.mem_map_of_mem hchapter
    rw [h.headings] at hmem
    obtain ⟨key, hkey, heq⟩ := List.mem_map.1 hmem
    obtain ⟨o, ho⟩ := Option.isSome_iff_exists.1 ((h.registered key).1 hkey)
    rw [ho] at heq
    obtain ⟨hrecord, hcontents⟩ := Prod.mk.inj heq
    obtain ⟨hnotes, hchoices⟩ := Prod.mk.inj hcontents
    exact ⟨key, o, hrecord.symm, ho, hnotes.symm, hchoices.symm⟩
  · rw [Book.chapter?, List.find?_isSome, Book.exists_isOf_iff, h.mem_headings]
    exact List.contains_iff_mem

/-- The specification of a class that fights. -/
def martial : String :=
  "Experience=0,2 HitDie=d10,9,3 Attack=0,1,1,- Breath=17,1.5,2 Death=14,1.5,2 " ++
    "Petrification=15,1.5,2 Spell=17,1.5,2 Wand=16,1.5,2"

/-- Two classes, which share the totals of their saving throws. -/
def martialClasses : List Record :=
  [⟨.charClass, "Fighter", martial⟩, ⟨.charClass, "Ranger", martial⟩]

/-- The two classes share the rule that sets a total. The first emits it. It cannot
be registered again, but it can be recompiled, and then the second emits what they
share. The ledger and the book agree all along. -/
theorem agrees_run_default :
    let fighter : Record := ⟨.charClass, "Fighter", martial⟩
    let shared : Rule := .passthrough "save.Death" "classSave.Death" .set
    let s := (start .default martialClasses).run [.compileAll martialClasses]
    let t := s.run [.register fighter, .recompile fighter]
    Settings.default.validate = .ok () ∧
      s.compiler.ledger.owners shared = [⟨.charClass, "Fighter"⟩, ⟨.charClass, "Ranger"⟩] ∧
      (s.compiler.register fighter).result.isOk = false ∧
      t.compiler.ledger.owners shared = [⟨.charClass, "Ranger"⟩, ⟨.charClass, "Fighter"⟩] ∧
      s.Agrees ∧ t.Agrees := by
  intro fighter shared s t
  have hruns :
      s.compiler.ledger.owners shared = [⟨.charClass, "Fighter"⟩, ⟨.charClass, "Ranger"⟩] ∧
        (s.compiler.register fighter).result.isOk = false ∧
        t.compiler.ledger.owners shared = [⟨.charClass, "Ranger"⟩, ⟨.charClass, "Fighter"⟩] := by
    decide +kernel
  obtain ⟨hfirst, hrefused, hsecond⟩ := hruns
  have hs : s.Agrees := agrees_run rfl martialClasses [.compileAll martialClasses]
  have ht : t.Agrees := agrees_run rfl martialClasses
    [.compileAll martialClasses, .register fighter, .recompile fighter]
  exact ⟨rfl, hfirst, hrefused, hsecond, hs, ht⟩

end Session

end Rulebook
