import Mathlib.Data.List.Perm.Basic
import Rulebook.Proofs.LedgerAndBook

/-!
# The sections of the sheet

Outputs need sections of the sheet, which are registered with the book and never
taken out, also not when the record that needed one is withdrawn or comes to
something else. So the sections of a book are not those of the current outputs
but those of all outputs that were ever accepted, each once.

An output that was accepted before has its sections in the book already. It
leaves them as they are.
-/

namespace Rulebook

namespace Book

variable {b : Book} {name other : String} {e : Edit} {es : List Edit}

theorem addSection_of_mem (h : name ∈ b.sections) : b.addSection name = b :=
  if_pos (List.contains_iff_mem.2 h)

theorem sections_addSection_of_not_mem (h : name ∉ b.sections) :
    (b.addSection name).sections = b.sections ++ [name] := by
  unfold addSection
  rw [if_neg (fun hmem => h (List.contains_iff_mem.1 hmem))]

/-- **An edit leaves the sections as they are**, unless it registers one that is
not there, which comes last. -/
theorem sections_apply : (b.apply e).sections = b.sections ∨
    ∃ name, e = .sheetSection name ∧ name ∉ b.sections ∧
      (b.apply e).sections = b.sections ++ [name] := by
  cases e with
  | begin key => exact .inl sections_begin
  | rule r => exact .inl sections_write
  | note n => exact .inl sections_write
  | choice r => exact .inl sections_write
  | retract key => exact .inl rfl
  | sheetSection name =>
    by_cases h : name ∈ b.sections
    · exact .inl (congrArg sections (addSection_of_mem h))
    · exact .inr ⟨name, rfl, h, sections_addSection_of_not_mem h⟩

theorem mem_sections_apply :
    name ∈ (b.apply e).sections ↔ name ∈ b.sections ∨ e = .sheetSection name := by
  constructor
  · intro h
    obtain heq | ⟨other, rfl, -, heq⟩ := @sections_apply b e
    · exact .inl (heq ▸ h)
    · rw [heq, List.mem_append, List.mem_singleton] at h
      exact h.imp_right (congrArg Edit.sheetSection ·.symm)
  · rintro (h | rfl)
    · obtain heq | ⟨other, -, -, heq⟩ := @sections_apply b e
      · exact heq ▸ h
      · exact heq ▸ List.mem_append_left _ h
    · by_cases h : name ∈ b.sections
      · exact (congrArg sections (addSection_of_mem h)) ▸ h
      · exact sections_addSection_of_not_mem h ▸
          List.mem_append_right _ (List.mem_cons_self ..)

/-- **The sections after some edits** are those before and those that the edits
register. -/
theorem mem_sections_applyAll :
    name ∈ (b.applyAll es).sections ↔ name ∈ b.sections ∨ .sheetSection name ∈ es := by
  induction es generalizing b with
  | nil => exact (or_iff_left (List.not_mem_nil)).symm
  | cons e es ih =>
    refine ih.trans ?_
    rw [mem_sections_apply, List.mem_cons, or_assoc, eq_comm]

/-- No section is there twice. -/
theorem nodup_sections_applyAll (h : b.sections.Nodup) : (b.applyAll es).sections.Nodup := by
  induction es generalizing b with
  | nil => exact h
  | cons e es ih =>
    refine ih ?_
    obtain heq | ⟨name, -, hnew, heq⟩ := @sections_apply b e
    · rwa [heq]
    · rw [heq]
      exact h.append (List.nodup_singleton name) (List.disjoint_singleton.2 hnew)

/-- **Sections that are there already** change nothing, not even the order. -/
theorem sections_applyAll_of_forall (h : ∀ name, .sheetSection name ∈ es → name ∈ b.sections) :
    (b.applyAll es).sections = b.sections := by
  induction es generalizing b with
  | nil => rfl
  | cons e es ih =>
    have heq : (b.apply e).sections = b.sections := by
      obtain heq | ⟨name, rfl, hnew, -⟩ := @sections_apply b e
      · exact heq
      · exact absurd (h name (List.mem_cons_self ..)) hnew
    refine (ih (b := b.apply e) (fun name hname => ?_)).trans heq
    rw [heq]
    exact h name (List.mem_cons_of_mem e hname)

end Book

namespace Compiler

variable {c : Compiler} {record : Record} {key : Key} {o : Output} {name : String}

theorem sheetSection_mem_emit :
    .sheetSection name ∈ (c.emit key o).2.edits ↔ name ∈ o.sections := by
  rw [edits_emit]
  simp

theorem sheetSection_not_mem_withdraw : .sheetSection name ∉ (c.withdraw key).2.edits := by
  intro h
  obtain h | h := List.mem_cons.1 h
  · cases h
  · obtain ⟨hand, -, h⟩ := List.mem_flatMap.1 h
    simp [handoverEdits] at h

/-- **Registering** brings the sections of the output that it accepts. -/
theorem sheetSection_mem_register : .sheetSection name ∈ (c.register record).effects.edits ↔
    ∃ p ∈ c.acceptedBy record (c.register record).result, name ∈ p.2.sections := by
  obtain ⟨-, heq⟩ | ⟨-, e, -, heq⟩ | ⟨-, o, ho, heq⟩ := c.register_cases record
  · rw [heq]
    exact ⟨nofun, fun ⟨_, hp, _⟩ => nomatch hp⟩
  · rw [heq]
    exact ⟨nofun, fun ⟨_, hp, _⟩ => nomatch hp⟩
  · rw [heq, acceptedBy_ok ho]
    simp only [List.mem_singleton, exists_eq_left]
    exact sheetSection_mem_emit

/-- **Recompiling** brings the sections of the output that it accepts. -/
theorem sheetSection_mem_recompile : .sheetSection name ∈ (c.recompile record).effects.edits ↔
    ∃ p ∈ c.acceptedBy record (c.recompile record).result, name ∈ p.2.sections := by
  obtain ⟨e, -, heq⟩ | ⟨o, ho, heq⟩ := c.recompile_cases record
  · rw [heq]
    exact ⟨nofun, fun ⟨_, hp, _⟩ => nomatch hp⟩
  · rw [heq, acceptedBy_ok ho]
    simp only [List.mem_singleton, exists_eq_left, Effects.edits_append, List.mem_append]
    exact (or_iff_right sheetSection_not_mem_withdraw).trans sheetSection_mem_emit

end Compiler

namespace Session

variable {s : Session} {call : Call}

/-- **A session whose book has the sections of the accepted outputs**, each
once. -/
structure ShowsSections (s : Session) : Prop where
  nodup : s.book.sections.Nodup
  mem : ∀ name, name ∈ s.book.sections ↔ ∃ p ∈ s.accepted, name ∈ p.2.sections

/-- A call keeps it so if it brings the sections of the outputs that it accepts. -/
theorem ShowsSections.perform (h : s.ShowsSections)
    (hcall : ∀ name, .sheetSection name ∈ (s.compiler.call call).effects.edits ↔
      ∃ p ∈ s.compiler.accepted call, name ∈ p.2.sections) : (s.perform call).ShowsSections where
  nodup := Book.nodup_sections_applyAll h.nodup
  mem name := by
    refine Book.mem_sections_applyAll.trans ?_
    rw [h.mem, hcall, ← exists_or]
    refine exists_congr (fun p => ?_)
    rw [← or_and_right, ← List.mem_append]
    rfl

/-- **Every session** shows the sections of the outputs that it accepted. -/
theorem showsSections_run (settings : Settings) (known : List Record) (calls : List Call) :
    ((start settings known).run calls).ShowsSections :=
  run_induction (fun _ _ h => h.perform fun _ => Compiler.sheetSection_mem_register)
    (fun _ _ h => h.perform fun _ => Compiler.sheetSection_mem_recompile)
    ⟨List.nodup_nil, fun _ => ⟨nofun, fun ⟨_, hp, _⟩ => nomatch hp⟩⟩ calls

/-- **Sessions that accepted the same outputs** have the same sections, up to
their order. -/
theorem ShowsSections.perm {t : Session} (h : s.ShowsSections) (h' : t.ShowsSections)
    (haccepted : ∀ p, p ∈ s.accepted ↔ p ∈ t.accepted) : s.book.sections.Perm t.book.sections := by
  refine (List.perm_ext_iff_of_nodup h.nodup h'.nodup).2 (fun name => ?_)
  rw [h.mem, h'.mem]
  exact exists_congr (fun p => and_congr_left' (haccepted p))

end Session

end Rulebook
