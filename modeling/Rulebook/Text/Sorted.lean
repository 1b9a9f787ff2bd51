/-!
# Sorting by a text

Items are put in ascending order of a text that belongs to each. Items with the
same text keep their order.
-/

namespace Rulebook.Text

variable {α : Type}

/-- Puts an item before the first one whose text is not smaller. -/
def insertOn (key : α → String) (a : α) : List α → List α
  | [] => [a]
  | b :: bs => if key b < key a then b :: insertOn key a bs else a :: b :: bs

/-- **The items in ascending order of their texts.** -/
def sortOn (key : α → String) (items : List α) : List α := items.foldr (insertOn key) []

theorem insertOn_perm (key : α → String) (a : α) (items : List α) :
    (insertOn key a items).Perm (a :: items) := by
  induction items with
  | nil => exact .refl _
  | cons b bs ih =>
    unfold insertOn
    split
    · exact (ih.cons b).trans (.swap a b bs)
    · exact .refl _

/-- Sorting neither drops nor repeats an item. -/
theorem sortOn_perm (key : α → String) (items : List α) : (sortOn key items).Perm items := by
  induction items with
  | nil => exact .refl _
  | cons a items ih => exact (insertOn_perm key a _).trans (ih.cons a)

theorem filter_insertOn (key : α → String) (a : α) (items : List α) (text : String) :
    (insertOn key a items).filter (key · == text) = (a :: items).filter (key · == text) := by
  induction items with
  | nil => rfl
  | cons b bs ih =>
    unfold insertOn
    split
    · next hlt =>
      rw [List.filter_cons, ih]
      by_cases hb : key b = text
      · -- the two texts differ, so only one of them is the given one
        have ha : ¬ key a = text := by
          rintro rfl
          exact String.lt_irrefl _ (hb ▸ hlt)
        simp [ha, hb]
      · simp [List.filter_cons, hb]
    · rfl

/-- **Items with the same text keep their order.** -/
theorem filter_sortOn (key : α → String) (items : List α) (text : String) :
    (sortOn key items).filter (key · == text) = items.filter (key · == text) := by
  induction items with
  | nil => rfl
  | cons a items ih =>
    show (insertOn key a (sortOn key items)).filter _ = _
    rw [filter_insertOn, List.filter_cons, ih, List.filter_cons]

end Rulebook.Text
