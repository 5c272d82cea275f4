import OpenChat.Platform.Winsock

/-!
# The rich edit control

`CRichEditCtrl` as far as the info boxes use it: the text and the selection,
which lies inside the text.  Character and paragraph formats do not change
either and are left out.
-/

namespace OpenChat.Platform

/-- The text of the control and the borders of its selection; an empty
selection is the caret. -/
structure CRichEditCtrl where
  text : List WChar
  selStart : Nat
  selEnd : Nat
  ordered : selStart ≤ selEnd
  inside : selEnd ≤ text.length

namespace CRichEditCtrl

def empty : CRichEditCtrl where
  text := []
  selStart := 0
  selEnd := 0
  ordered := Nat.le_refl 0
  inside := Nat.le_refl 0

/-- The position a character index stands for: a negative one, and one beyond
the text, stand for its end. -/
def position (edit : CRichEditCtrl) (index : Int) : Nat :=
  if index < 0 then edit.text.length else min index.toNat edit.text.length

theorem position_le (edit : CRichEditCtrl) (index : Int) :
    edit.position index ≤ edit.text.length := by
  unfold position
  split
  · exact Nat.le_refl _
  · exact min_le_right _ _

def setSel (edit : CRichEditCtrl) (nStartChar nEndChar : Int) :
    CRichEditCtrl where
  text := edit.text
  selStart := min (edit.position nStartChar) (edit.position nEndChar)
  selEnd := max (edit.position nStartChar) (edit.position nEndChar)
  ordered := min_le_max
  inside := max_le (edit.position_le nStartChar) (edit.position_le nEndChar)

/-- The new text takes the place of the selection, and the caret stands behind
it. -/
def replaceSel (edit : CRichEditCtrl) (newText : List WChar) :
    CRichEditCtrl where
  text := edit.text.take edit.selStart ++ newText ++
    edit.text.drop edit.selEnd
  selStart := edit.selStart + newText.length
  selEnd := edit.selStart + newText.length
  ordered := Nat.le_refl _
  inside := by
    have order := edit.ordered
    have bound := edit.inside
    simp only [List.length_append, List.length_take, List.length_drop]
    omega

def CaretAtEnd (edit : CRichEditCtrl) : Prop :=
  edit.selStart = edit.text.length

instance (edit : CRichEditCtrl) : Decidable edit.CaretAtEnd :=
  inferInstanceAs (Decidable (_ = _))

def SelectsFront (edit : CRichEditCtrl) : Prop :=
  edit.selStart = 0 ∧ 0 < edit.selEnd

theorem CaretAtEnd.selEnd_eq {edit : CRichEditCtrl}
    (atEnd : edit.CaretAtEnd) : edit.selEnd = edit.text.length :=
  Nat.le_antisymm edit.inside (atEnd ▸ edit.ordered)

theorem caretAtEnd_empty : empty.CaretAtEnd := rfl

@[simp] theorem setSel_text (edit : CRichEditCtrl)
    (nStartChar nEndChar : Int) :
    (edit.setSel nStartChar nEndChar).text = edit.text := rfl

theorem caretAtEnd_setSel_end (edit : CRichEditCtrl) :
    (edit.setSel (-1) (-1)).CaretAtEnd :=
  min_self _

theorem setSel_front (edit : CRichEditCtrl) {length : Nat}
    (positive : 0 < length) :
    (edit.setSel 0 (length : Int)).CaretAtEnd ∨
      (edit.setSel 0 (length : Int)).SelectsFront := by
  have first : edit.position 0 = 0 := by simp [position]
  have last : edit.position (length : Int) = min length edit.text.length := by
    have notNegative : ¬(length : Int) < 0 := by omega
    rw [position, if_neg notNegative, Int.toNat_natCast]
  cases filled : edit.text with
  | nil =>
      left
      simp [CaretAtEnd, setSel, position, filled]
  | cons char text =>
      right
      have some : 0 < edit.text.length := by simp [filled]
      rw [SelectsFront, setSel]
      simp only [first, last, Nat.zero_min, Nat.zero_max, true_and]
      omega

theorem replaceSel_text (edit : CRichEditCtrl) (newText : List WChar) :
    (edit.replaceSel newText).text =
      edit.text.take edit.selStart ++ newText ++
        edit.text.drop edit.selEnd := rfl

theorem replaceSel_text_of_caretAtEnd {edit : CRichEditCtrl}
    (atEnd : edit.CaretAtEnd) (newText : List WChar) :
    (edit.replaceSel newText).text = edit.text ++ newText := by
  rw [replaceSel_text, atEnd, List.take_length, atEnd.selEnd_eq,
    List.drop_length, List.append_nil]

theorem CaretAtEnd.replaceSel {edit : CRichEditCtrl}
    (atEnd : edit.CaretAtEnd) (newText : List WChar) :
    (edit.replaceSel newText).CaretAtEnd := by
  rw [CaretAtEnd, replaceSel_text_of_caretAtEnd atEnd, List.length_append,
    ← atEnd]
  rfl

/-- Text put in the place of selected characters makes the text shorter than
an insertion does. -/
theorem SelectsFront.length_replaceSel {edit : CRichEditCtrl}
    (front : edit.SelectsFront) (newText : List WChar) :
    (edit.replaceSel newText).text.length <
      edit.text.length + newText.length := by
  obtain ⟨first, later⟩ := front
  have bound := edit.inside
  simp only [replaceSel_text, List.length_append, List.length_take,
    List.length_drop]
  omega

end CRichEditCtrl

end OpenChat.Platform
