import Mathlib.Data.List.Forall2
import Rulebook.Compile.Spell
import Rulebook.Proofs.Numerals
import Rulebook.Proofs.Outcomes

/-!
# Descriptions of spell variants

The description of a spell has placeholders, and each variant of the spell puts its
own entries in. Which entry that is and where it goes is said here once more, without
a procedure: an entry for a variant has the label of the variant in front, and if there
is none, the first entry for no variant is taken; and what is put in is copied as it
is.

The compiler tells the entries of variants by their form: letters, digits and a colon
are in front. But caster groups may be called otherwise, and then their labels are not
seen, and an entry for one variant is taken for one that all variants share. So
what is said holds as long as every label that an entry begins with is made of letters
and digits.
-/

namespace Rulebook

theorem CasterLabel.toList_render (caster : CasterLabel) :
    caster.render.toList = caster.group.toList ++ Numeral.digitsOfNat caster.level := by
  simp [render, Numeral.textOfNat]

/-- A group that belongs to a class is one of the caster groups. -/
theorem Settings.mem_casterGroups {settings : Settings} {group : String}
    (h : (settings.casterClass? group).isSome = true) :
    group ∈ settings.casterGroups.map Prod.fst := by
  obtain ⟨cls, hcls⟩ := Option.isSome_iff_exists.1 h
  obtain ⟨before, after, hgroups, -⟩ := List.lookup_eq_some_iff.1 hcls
  rw [hgroups, List.map_append, List.map_cons]
  exact List.mem_append_right _ (List.mem_cons_self ..)

namespace Compile

variable {settings : Settings} {entry label text : String} {entries entries' : List String}

/-! ## Entries -/

/-- **An entry for a variant**: the label, a colon and the text. -/
def labelled (label text : String) : String := label ++ ":" ++ text

theorem toList_labelled : (labelled label text).toList = label.toList ++ ':' :: text.toList := by
  simp [labelled]

theorem not_mem_of_isVariantLabel {cs : List Char} (h : isVariantLabel cs = true) : ':' ∉ cs := by
  simp only [isVariantLabel, Bool.and_eq_true, List.all_eq_true] at h
  obtain ⟨⟨⟨-, hletters⟩, -⟩, hdigits⟩ := h
  rw [← List.takeWhile_append_dropWhile (p := (!Char.isDigit ·)) (l := cs)]
  exact List.not_mem_append (fun hmem => absurd (hletters ':' hmem) (by decide))
    (fun hmem => absurd (hdigits ':' hmem) (by decide))

/-- **What is seen of an entry** is a label of letters and digits, and the text. -/
theorem splitLabel_eq_some_iff : splitLabel entry = some (label, text) ↔
    isVariantLabel label.toList = true ∧ entry = labelled label text := by
  unfold splitLabel
  constructor
  · intro h
    split at h
    · next front rest hcut =>
      obtain ⟨-, c, hc, hentry⟩ := Text.cutFirst_eq_some hcut
      obtain rfl := of_decide_eq_true hc
      split at h
      · next hlabel =>
        obtain ⟨rfl, rfl⟩ := Prod.mk.inj (Option.some.inj h)
        rw [String.toList_ofList]
        refine ⟨hlabel, String.toList_inj.1 ?_⟩
        rw [hentry, toList_labelled, String.toList_ofList, String.toList_ofList]
      · cases h
    · cases h
  · rintro ⟨hlabel, rfl⟩
    have hcut : Text.cutFirst (· = ':') (labelled label text).toList =
        some (label.toList, text.toList) := by
      rw [toList_labelled]
      refine Text.cutFirst_append (fun c hc => decide_eq_false ?_) (decide_eq_true rfl)
      rintro rfl
      exact not_mem_of_isVariantLabel hlabel hc
    rw [hcut]
    dsimp only
    rw [hlabel, if_pos rfl, String.ofList_toList, String.ofList_toList]

/-- **Whether a text is the label of a variant**: it has the form of one, or it is that
of a caster group and a level. -/
def IsLabel (settings : Settings) (label : String) : Prop :=
  isVariantLabel label.toList = true ∨
    ∃ caster : CasterLabel, (settings.casterClass? caster.group).isSome = true ∧
      caster.render = label

/-- **Whether an entry is for all variants**: no label is in front. -/
def IsShared (settings : Settings) (entry : String) : Prop :=
  ∀ label text, IsLabel settings label → entry ≠ labelled label text

/-- **Whether all labels are seen** that entries begin with: they are made of letters and
digits. -/
def Seen (settings : Settings) (entries : List String) : Prop :=
  ∀ entry ∈ entries, ∀ label text, IsLabel settings label → entry = labelled label text →
    isVariantLabel label.toList = true

theorem isVariantLabel_render {caster : CasterLabel} (hne : caster.group ≠ "")
    (hgroup : ∀ c ∈ caster.group.toList, c.isAlpha = true) :
    isVariantLabel caster.render.toList = true := by
  have hrender := CasterLabel.toList_render caster
  have hletters : ∀ c ∈ caster.group.toList, (!c.isDigit) = true := by
    intro c hc
    rw [Numeral.isDigit_eq_false_of_isAlpha (hgroup c hc)]
    rfl
  have hdigits := Numeral.isDigit_of_mem_digitsOfNat caster.level
  have hhead : ∀ c ∈ (Numeral.digitsOfNat caster.level).head?, (!c.isDigit) = false := by
    intro c hc
    rw [hdigits c (List.mem_of_mem_head? hc)]
    rfl
  obtain ⟨htake, hdrop⟩ := Text.span_append hletters hhead
  have hletters' : caster.group.toList.isEmpty = false := by
    rw [List.isEmpty_eq_false_iff, ne_eq, String.toList_eq_nil_iff]
    exact hne
  have hdigits' : (Numeral.digitsOfNat caster.level).isEmpty = false :=
    List.isEmpty_eq_false_iff.2 (Numeral.digitsOfNat_ne_nil caster.level)
  rw [isVariantLabel, hrender, htake, hdrop, hletters', hdigits', List.all_eq_true.2 hgroup,
    List.all_eq_true.2 hdigits]
  rfl

/-- **Groups with names made of letters**: their labels are always seen. -/
theorem seen_of_isAlpha (h : ∀ group ∈ settings.casterGroups.map Prod.fst,
    group ≠ "" ∧ group.toList.all Char.isAlpha = true) (entries : List String) :
    Seen settings entries := by
  rintro - - label text (hform | ⟨caster, hgroup, rfl⟩) rfl
  · exact hform
  · obtain ⟨hne, halpha⟩ := h _ (Settings.mem_casterGroups hgroup)
    exact isVariantLabel_render hne (List.all_eq_true.1 halpha)

/-- Of a seen label and its text, nothing else is made. -/
theorem splitLabel_labelled (hseen : Seen settings entries) (hentry : labelled label text ∈ entries)
    (hlabel : IsLabel settings label) : splitLabel (labelled label text) = some (label, text) :=
  splitLabel_eq_some_iff.2 ⟨hseen _ hentry label text hlabel rfl, rfl⟩

theorem isNone_splitLabel_iff (hseen : Seen settings entries) (hentry : entry ∈ entries) :
    (splitLabel entry).isNone = true ↔ IsShared settings entry := by
  rw [Option.isNone_iff_eq_none]
  constructor
  · rintro hnone label text hlabel rfl
    rw [splitLabel_labelled hseen hentry hlabel] at hnone
    cases hnone
  · intro hshared
    rw [Option.eq_none_iff_forall_ne_some]
    rintro ⟨label, text⟩ hsplit
    obtain ⟨hform, heq⟩ := splitLabel_eq_some_iff.1 hsplit
    exact hshared label text (.inl hform) heq

/-- **The text that a variant takes** from the entries of a field: that of its first own
entry, or else the first shared entry. -/
inductive Chosen (settings : Settings) (label : String) (entries : List String) (text : String) :
    Prop where
  | own {before after : List String} (hentries : entries = before ++ labelled label text :: after)
      (hbefore : ∀ entry ∈ before, ∀ t, entry ≠ labelled label t)
  | shared {before after : List String} (hown : ∀ entry ∈ entries, ∀ t, entry ≠ labelled label t)
      (hentries : entries = before ++ text :: after) (hshared : IsShared settings text)
      (hbefore : ∀ entry ∈ before, ¬ IsShared settings entry)

/-- Two entries that are both the first of their sort are one. -/
theorem eq_of_first {P : String → Prop} {before after before' after' : List String}
    (h : before ++ entry :: after = before' ++ text :: after') (hentry : P entry) (htext : P text)
    (hbefore : ∀ e ∈ before, ¬ P e) (hbefore' : ∀ e ∈ before', ¬ P e) : entry = text := by
  induction before generalizing before' with
  | nil =>
    cases before' with
    | nil => exact (List.cons.inj h).1
    | cons e before' =>
      obtain ⟨rfl, -⟩ := List.cons.inj h
      exact absurd hentry (hbefore' _ (List.mem_cons_self ..))
  | cons e before ih =>
    obtain ⟨hne, hbefore⟩ := List.forall_mem_cons.1 hbefore
    cases before' with
    | nil =>
      obtain ⟨rfl, -⟩ := List.cons.inj h
      exact absurd htext hne
    | cons e' before' =>
      exact ih (List.cons.inj h).2 hbefore (List.forall_mem_cons.1 hbefore').2

/-- A variant takes one text. -/
theorem Chosen.unique {other : String} (h : Chosen settings label entries text)
    (h' : Chosen settings label entries other) : text = other := by
  obtain ⟨rfl, hbefore⟩ | ⟨hown, rfl, hshared, hbefore⟩ := h
  · obtain ⟨hentries, hbefore'⟩ | ⟨hown, -, -, -⟩ := h'
    · have hfirst := eq_of_first (P := fun e => ∃ t, e = labelled label t) hentries ⟨_, rfl⟩
        ⟨_, rfl⟩ (fun e he => not_exists.2 (hbefore e he))
        (fun e he => not_exists.2 (hbefore' e he))
      have hlist := congrArg String.toList hfirst
      rw [toList_labelled, toList_labelled] at hlist
      exact String.toList_inj.1 (List.cons.inj (List.append_cancel_left hlist)).2
    · exact absurd rfl (hown _ (List.mem_append_right _ (List.mem_cons_self ..)) text)
  · obtain ⟨hentries, -⟩ | ⟨-, hentries, hshared', hbefore'⟩ := h'
    · rw [hentries] at hown
      exact absurd rfl (hown _ (List.mem_append_right _ (List.mem_cons_self ..)) other)
    · exact eq_of_first hentries hshared hshared' hbefore hbefore'

/-- The text of an entry, if it is one for the variant of a label. -/
def ownText? (label entry : String) : Option String :=
  match splitLabel entry with
  | some (l, text) => if l = label then some text else none
  | none => none

theorem ownText?_eq_some_iff :
    ownText? label entry = some text ↔ splitLabel entry = some (label, text) := by
  unfold ownText?
  split
  · next l t hsplit =>
    rw [hsplit, Option.some_inj, Prod.mk.injEq]
    split
    · next hl => rw [Option.some_inj, and_iff_right hl]
    · next hl => exact iff_of_false nofun (fun h => hl h.1)
  · next hsplit =>
    rw [hsplit]
    exact iff_of_false nofun nofun

theorem pick_eq : pick entries label =
    (entries.findSome? (ownText? label)).or (entries.find? fun e => (splitLabel e).isNone) := rfl

/-- **The entry that is picked** is the one that the variant takes. -/
theorem pick_eq_some_iff (hseen : Seen settings entries) (hlabel : IsLabel settings label) :
    pick entries label = some text ↔ Chosen settings label entries text := by
  have hown : ∀ entry ∈ entries, ∀ t,
      ownText? label entry = some t ↔ entry = labelled label t := by
    intro entry hentry t
    rw [ownText?_eq_some_iff, splitLabel_eq_some_iff]
    exact and_iff_right_of_imp (hseen entry hentry label t hlabel)
  have hnone : ∀ entry ∈ entries,
      ownText? label entry = none ↔ ∀ t, entry ≠ labelled label t := by
    intro entry hentry
    rw [Option.eq_none_iff_forall_ne_some]
    exact forall_congr' fun t => not_congr (hown entry hentry t)
  rw [pick_eq, Option.or_eq_some_iff, List.findSome?_eq_some_iff, List.findSome?_eq_none_iff,
    List.find?_eq_some_iff_append]
  constructor
  · rintro (⟨before, entry, after, rfl, hentry, hbefore⟩ |
      ⟨hall, hshared, before, after, rfl, hbefore⟩)
    · rw [(hown entry (List.mem_append_right _ (List.mem_cons_self ..)) text).1 hentry]
      exact .own rfl (fun e he => (hnone e (List.mem_append_left _ he)).1 (hbefore e he))
    · have hmem : text ∈ before ++ text :: after :=
        List.mem_append_right _ (List.mem_cons_self ..)
      refine .shared (fun e he => (hnone e he).1 (hall e he)) rfl
        ((isNone_splitLabel_iff hseen hmem).1 hshared) (fun e he hsharedEntry => ?_)
      have hbefore := hbefore e he
      rw [(isNone_splitLabel_iff hseen (List.mem_append_left _ he)).2 hsharedEntry] at hbefore
      cases hbefore
  · rintro (⟨rfl, hbefore⟩ | @⟨before, after, hall, rfl, hshared, hbefore⟩)
    · exact .inl ⟨_, _, _, rfl, (hown _ (List.mem_append_right _ (List.mem_cons_self ..)) _).2 rfl,
        fun e he => (hnone e (List.mem_append_left _ he)).2 (hbefore e he)⟩
    · have hmem : text ∈ before ++ text :: after :=
        List.mem_append_right _ (List.mem_cons_self ..)
      refine .inr ⟨fun e he => (hnone e he).2 (hall e he),
        (isNone_splitLabel_iff hseen hmem).2 hshared, _, _, rfl, fun e he => ?_⟩
      rw [Bool.not_eq_true', Bool.eq_false_iff, ne_eq,
        isNone_splitLabel_iff hseen (List.mem_append_left _ he)]
      exact hbefore e he

/-- **A change to an entry** that is no matter for a variant: only the text of an entry
for another variant. -/
inductive Reworded (settings : Settings) (label : String) : String → String → Prop where
  | same (entry : String) : Reworded settings label entry entry
  | other {other text text' : String} (hother : IsLabel settings other) (hne : other ≠ label) :
      Reworded settings label (labelled other text) (labelled other text')

/-- Such changes do not matter for what is picked. -/
theorem pick_reworded (hseen : Seen settings entries)
    (h : List.Forall₂ (Reworded settings label) entries entries') :
    pick entries' label = pick entries label := by
  have hown : entries'.findSome? (ownText? label) = entries.findSome? (ownText? label) ∧
      (entries'.find? fun e => (splitLabel e).isNone) =
        entries.find? fun e => (splitLabel e).isNone := by
    induction h with
    | nil => exact ⟨rfl, rfl⟩
    | @cons entry entry' entries entries' hentry _ ih =>
      obtain ⟨hown, hshared⟩ := ih fun e he => hseen e (List.mem_cons_of_mem _ he)
      cases hentry with
      | same => exact ⟨by rw [List.findSome?_cons, List.findSome?_cons, hown],
          by rw [List.find?_cons, List.find?_cons, hshared]⟩
      | @other other text text' hother hne =>
        have hform := hseen _ (List.mem_cons_self ..) other text hother rfl
        have hsplit : ∀ t, splitLabel (labelled other t) = some (other, t) :=
          fun t => splitLabel_eq_some_iff.2 ⟨hform, rfl⟩
        have hnone : ∀ t, ownText? label (labelled other t) = none := by
          intro t
          unfold ownText?
          rw [hsplit]
          exact if_neg hne
        constructor
        · rw [List.findSome?_cons, List.findSome?_cons, hnone, hnone, hown]
        · rw [List.find?_cons, List.find?_cons, hsplit, hsplit, hshared]
          rfl
  rw [pick_eq, pick_eq, hown.1, hown.2]

/-! ## Placeholders -/

/-- **The placeholders of a description**: a letter, and the entries that it stands
for. -/
inductive Placeholder (d : Details) : Char → List String → Prop where
  | duration : Placeholder d 'D' d.duration
  | effect : Placeholder d 'E' d.effect
  | range : Placeholder d 'R' d.range

/-- **A description with its placeholders filled in**, from the left to the right. What
is put in, and all other characters, are copied. -/
inductive Fills (settings : Settings) (d : Details) (label : String) :
    List Char → List Char → Prop where
  | nil : Fills settings d label [] []
  | placeholder {c : Char} {text : String} {entries : List String} {cs out : List Char}
      (hc : Placeholder d c entries) (htext : Chosen settings label entries text)
      (hcs : Fills settings d label cs out) :
      Fills settings d label ('$' :: c :: cs) (text.toList ++ out)
  | other {c : Char} {cs out : List Char}
      (hc : c = '$' → ∀ e ∈ cs.head?, e ≠ 'D' ∧ e ≠ 'E' ∧ e ≠ 'R')
      (hcs : Fills settings d label cs out) : Fills settings d label (c :: cs) (c :: out)

/-- All entries of the fields that a description may refer to. -/
def Details.all (d : Details) : List String := d.duration ++ d.effect ++ d.range

variable {d d' : Details} {cs out : List Char} {c : Char} {field : String}

/-- **The compiler knows the same placeholders**, with the names of the fields. -/
theorem Details.exists_of_iff :
    (∃ field, d.of c = some (field, entries)) ↔ Placeholder d c entries := by
  constructor
  · rintro ⟨field, h⟩
    unfold Details.of at h
    split at h <;> cases h <;> constructor
  · intro h
    cases h <;> exact ⟨_, rfl⟩

theorem Details.of_eq_none_iff : d.of c = none ↔ c ≠ 'D' ∧ c ≠ 'E' ∧ c ≠ 'R' := by
  unfold Details.of
  split <;> simp_all

namespace Placeholder

theorem subset_all (h : Placeholder d c entries) : entries ⊆ d.all := by
  intro entry hentry
  unfold Details.all
  cases h <;> simp [hentry]

theorem seen (hseen : Seen settings d.all) (h : Placeholder d c entries) :
    Seen settings entries := fun entry hentry => hseen entry (h.subset_all hentry)

/-- A letter stands for one field. -/
theorem unique (h : Placeholder d c entries) (h' : Placeholder d c entries') :
    entries = entries' := by
  cases h <;> cases h' <;> rfl

/-- No other letter is a placeholder. -/
theorem absurd_of_ne (h : Placeholder d c entries) : ¬ (c ≠ 'D' ∧ c ≠ 'E' ∧ c ≠ 'R') := by
  cases h <;> decide

end Placeholder

/-- What a placeholder stands for, for one variant: a field, and the text if there is one. -/
def Details.found (d : Details) (label : String) (c : Char) : Option (String × Option String) :=
  (d.of c).map fun (field, entries) => (field, pick entries label)

/-- Of the fields, a dollar sign depends on this alone. -/
theorem substitute_dollar : substitute d label ('$' :: c :: cs) =
    match d.found label c with
    | none => (substitute d label (c :: cs)).map ('$' :: ·)
    | some (field, none) =>
      (refused (.missingEntry (String.ofList ['$', c]) field label)).inField "Description"
    | some (_, some text) => (substitute d label cs).map (text.toList ++ ·) := by
  rw [substitute, Details.found]
  cases d.of c with
  | none => rfl
  | some found =>
    dsimp only [Option.map_some]
    cases pick found.2 label <;> rfl

theorem substitute_placeholder (hc : d.of c = some (field, entries))
    (hpick : pick entries label = some text) :
    substitute d label ('$' :: c :: cs) = (substitute d label cs).map (text.toList ++ ·) := by
  have hfound : d.found label c = some (field, some text) := by
    rw [Details.found, hc, ← hpick]
    rfl
  rw [substitute_dollar, hfound]

theorem substitute_other (hc : c = '$' → ∀ e ∈ cs.head?, e ≠ 'D' ∧ e ≠ 'E' ∧ e ≠ 'R') :
    substitute d label (c :: cs) = (substitute d label cs).map (c :: ·) := by
  obtain rfl | hne := eq_or_ne c '$'
  · cases cs with
    | nil => rfl
    | cons e cs =>
      rw [substitute, Details.of_eq_none_iff.2 (hc rfl e rfl)]
  · rw [substitute]
    exact fun _ _ hdollar => absurd hdollar hne

/-- A dollar sign at the end stands for itself. -/
theorem of_no_placeholder (h : ∀ e ds, c = '$' → cs = e :: ds → False) :
    c = '$' → ∀ e ∈ cs.head?, e ≠ 'D' ∧ e ≠ 'E' ∧ e ≠ 'R' := by
  intro hdollar e he
  obtain ⟨ds, hcs⟩ := List.head?_eq_some_iff.1 he
  exact (h e ds hdollar hcs).elim

/-- **The description of a variant** is the one with its placeholders filled in. -/
theorem substitute_eq_ok_iff (hseen : Seen settings d.all) (hlabel : IsLabel settings label) :
    substitute d label cs = .ok out ↔ Fills settings d label cs out := by
  constructor
  · intro hok
    fun_induction substitute d label cs generalizing out with
    | case1 =>
      cases hok
      exact .nil
    | case2 c cs hc ih =>
      obtain ⟨out, hout, rfl⟩ := Outcome.map_eq_ok.1 hok
      refine .other (fun _ e he => ?_) (ih hout)
      cases he
      exact Details.of_eq_none_iff.1 hc
    | case3 => cases hok
    | case4 c cs field entries hc text hpick ih =>
      obtain ⟨out, hout, rfl⟩ := Outcome.map_eq_ok.1 hok
      have hplaceholder : Placeholder d c entries := Details.exists_of_iff.1 ⟨field, hc⟩
      exact .placeholder hplaceholder
        ((pick_eq_some_iff (hplaceholder.seen hseen) hlabel).1 hpick) (ih hout)
    | case5 c cs hnone ih =>
      obtain ⟨out, hout, rfl⟩ := Outcome.map_eq_ok.1 hok
      exact .other (of_no_placeholder hnone) (ih hout)
  · intro hfills
    induction hfills with
    | nil => rfl
    | placeholder hc htext _ ih =>
      obtain ⟨field, hof⟩ := Details.exists_of_iff.2 hc
      have hpick := (pick_eq_some_iff (hc.seen hseen) hlabel).2 htext
      rw [substitute_placeholder hof hpick, ih]
      rfl
    | other hc _ ih =>
      rw [substitute_other hc, ih]
      rfl

/-- **There is one way** to fill a description in. -/
theorem Fills.unique {out' : List Char} (h : Fills settings d label cs out)
    (h' : Fills settings d label cs out') : out = out' := by
  induction h generalizing out' with
  | nil =>
    cases h'
    rfl
  | placeholder hc htext _ ih =>
    cases h' with
    | placeholder hc' htext' hcs' =>
      obtain rfl := hc.unique hc'
      rw [htext.unique htext', ih hcs']
    | other hc' _ => exact absurd (hc' rfl _ rfl) hc.absurd_of_ne
  | other hc _ ih =>
    cases h' with
    | placeholder hc' _ _ => exact absurd (hc rfl _ rfl) hc'.absurd_of_ne
    | other _ hcs' => rw [ih hcs']

/-- **Every placeholder of a description has an entry**, if the description is filled
in. -/
theorem Fills.exists_chosen (h : Fills settings d label cs out) (hc : Placeholder d c entries)
    (hmem : ['$', c] <:+: cs) : ∃ text, Chosen settings label entries text := by
  induction h with
  | nil => cases List.infix_nil.1 hmem
  | @placeholder c' text entries' cs out hc' htext _ ih =>
    obtain hfirst | hmem := List.infix_cons_iff.1 hmem
    · obtain ⟨-, hfirst⟩ := List.cons_prefix_cons.1 hfirst
      obtain ⟨rfl, -⟩ := List.cons_prefix_cons.1 hfirst
      obtain rfl := hc.unique hc'
      exact ⟨text, htext⟩
    · obtain hsecond | hmem := List.infix_cons_iff.1 hmem
      · -- no letter of a placeholder is a dollar sign
        obtain ⟨rfl, -⟩ := List.cons_prefix_cons.1 hsecond
        cases hc'
      · exact ih hmem
  | @other c' cs out hc' _ ih =>
    obtain hfirst | hmem := List.infix_cons_iff.1 hmem
    · obtain ⟨hdollar, hfirst⟩ := List.cons_prefix_cons.1 hfirst
      obtain ⟨rest, rfl⟩ := hfirst
      exact absurd (hc' hdollar.symm c rfl) hc.absurd_of_ne
    · exact ih hmem

/-- **Changes to entries** that are no matter for a variant. -/
structure Details.Reworded (settings : Settings) (label : String) (d d' : Details) : Prop where
  duration : List.Forall₂ (Compile.Reworded settings label) d.duration d'.duration
  effect : List.Forall₂ (Compile.Reworded settings label) d.effect d'.effect
  range : List.Forall₂ (Compile.Reworded settings label) d.range d'.range

theorem Details.found_reworded (hseen : Seen settings d.all) (h : d.Reworded settings label d') :
    d'.found label c = d.found label c := by
  have hseen : Seen settings d.duration ∧ Seen settings d.effect ∧ Seen settings d.range := by
    simpa [Seen, Details.all, or_imp, forall_and, and_assoc] using hseen
  have hduration := pick_reworded hseen.1 h.duration
  have heffect := pick_reworded hseen.2.1 h.effect
  have hrange := pick_reworded hseen.2.2 h.range
  unfold found of
  split
  · exact congrArg (fun text => some ("Duration", text)) hduration
  · exact congrArg (fun text => some ("Effect", text)) heffect
  · exact congrArg (fun text => some ("Range", text)) hrange
  · rfl

/-- **Changes to entries for other variants** do not matter for the description of a
variant. -/
theorem substitute_reworded (hseen : Seen settings d.all) (h : d.Reworded settings label d') :
    substitute d' label cs = substitute d label cs := by
  have hfound : ∀ c, d'.found label c = (d.of c).map fun (field, entries) =>
      (field, pick entries label) := fun c => Details.found_reworded hseen h
  fun_induction substitute d label cs with
  | case1 => rfl
  | case2 c cs hc ih =>
    rw [substitute_dollar, hfound, hc, Option.map_none]
    dsimp only
    rw [ih]
  | case3 c cs field entries hc hpick =>
    rw [substitute_dollar, hfound, hc, Option.map_some]
    dsimp only
    rw [hpick]
  | case4 c cs field entries hc text hpick ih =>
    rw [substitute_dollar, hfound, hc, Option.map_some]
    dsimp only
    rw [hpick]
    dsimp only
    rw [ih]
  | case5 c cs hnone ih => rw [substitute_other (of_no_placeholder hnone), ih]

end Compile

end Rulebook
