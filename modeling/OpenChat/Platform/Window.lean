import OpenChat.Foundation.KeyedList
import OpenChat.Platform.Winsock

/-!
# Keyboard messages and the list control

The messages both windows tell apart, and `CListCtrl` in report view with
three text columns and check boxes, without sorting.  An insert index beyond
the row count appends; item texts of missing rows are empty.
-/

namespace OpenChat.Platform

/-- The keyboard messages `PreTranslateMessage` tells apart. -/
inductive Message where
  | keyDown (wParam : Nat)
  | other

def vkReturn : Nat := 13
def vkEscape : Nat := 27

/-- One row: the texts of columns 0, 1 and 2 and the check mark. -/
structure ListRow where
  port : Text
  ip : Text
  socket : Text
  checked : Bool
deriving DecidableEq

namespace ListRow

def getText (row : ListRow) : Nat → Text
  | 0 => row.port
  | 1 => row.ip
  | 2 => row.socket
  | _ => []

def setText (row : ListRow) (text : Text) : Nat → ListRow
  | 0 => { row with port := text }
  | 1 => { row with ip := text }
  | 2 => { row with socket := text }
  | _ => row

end ListRow

abbrev CListCtrl := List ListRow

namespace CListCtrl

def getItemCount (list : CListCtrl) : Nat :=
  list.length

/-- `InsertItem`: the index the new, unchecked row got, and the list. -/
def insertItem (list : CListCtrl) (index : Nat) (text : Text) :
    Nat × CListCtrl :=
  let nRow := min index list.length
  (nRow, list.insertIdx nRow
    { port := text, ip := [], socket := [], checked := false })

def setItemText (list : CListCtrl) (nRow column : Nat) (text : Text) :
    CListCtrl :=
  list.modify nRow fun row => row.setText text column

def getItemText (list : CListCtrl) (nRow column : Nat) : Text :=
  match list[nRow]? with
  | some row => row.getText column
  | none => []

theorem getItemText_eq_elim (list : CListCtrl) (nRow column : Nat) :
    list.getItemText nRow column =
      (list[nRow]?).elim [] fun row => row.getText column := by
  rw [getItemText]
  cases list[nRow]? <;> rfl

def getCheck (list : CListCtrl) (nRow : Nat) : Bool :=
  match list[nRow]? with
  | some row => row.checked
  | none => false

def setCheck (list : CListCtrl) (nRow : Nat) (checked : Bool) : CListCtrl :=
  list.modify nRow fun row => { row with checked := checked }

def deleteItem (list : CListCtrl) (nRow : Nat) : CListCtrl :=
  list.eraseIdx nRow

end CListCtrl

theorem modify_insertIdx {α : Type*} (change : α → α) (item : α) :
    ∀ (items : List α) (index : Nat), index ≤ items.length →
      (items.insertIdx index item).modify index change =
        items.insertIdx index (change item)
  | items, 0, _ => by simp
  | [], index + 1, bound => by simp at bound
  | head :: tail, index + 1, bound => by
      simpa using modify_insertIdx change item tail index (by simpa using bound)

theorem find?_range_eq_findIdx? {α : Type*} (passes : Option α → Bool)
    (items : List α) :
    (List.range items.length).find? (fun index => passes items[index]?) =
      items.findIdx? fun item => passes (some item) := by
  induction items with
  | nil => rfl
  | cons head tail induction =>
      rw [List.length_cons, List.range_succ_eq_map, List.find?_cons,
        List.findIdx?_cons, List.find?_map]
      have shifted :
          ((fun index => passes (head :: tail)[index]?) ∘ Nat.succ) =
            fun index => passes tail[index]? := by
        funext index
        simp
      rw [shifted, induction]
      cases result : passes (some head) <;> simp [result]

/-- A loop over the row indices is a loop over the rows. -/
theorem foldl_range_getElem? {α β : Type*} (body : β → Option α → β)
    (items : List α) (start : β) :
    (List.range items.length).foldl
        (fun state index => body state items[index]?) start =
      items.foldl (fun state item => body state (some item)) start := by
  induction items generalizing start with
  | nil => rfl
  | cons head tail induction =>
      rw [List.length_cons, List.range_succ_eq_map, List.foldl_cons,
        List.foldl_map, List.foldl_cons]
      simpa using induction (body start (some head))

end OpenChat.Platform
