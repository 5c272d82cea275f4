import Mathlib.Data.List.Count
import Mathlib.Data.List.Nodup
import Mathlib.Data.List.Perm.Basic

/-!
# Updates at one position of a list

Overwriting or erasing one position changes a count, or the collected images
of the items, only by what the old and the new item contribute.
-/

namespace OpenChat.Foundation.Positions

variable {α β : Type*}

/-- What stands before and after a position, and the list with that position
overwritten or erased. -/
theorem split_at_index {items : List α} {index : Nat} {item : α}
    (found : items[index]? = some item) :
    ∃ before after, items = before ++ item :: after ∧
      before.length = index ∧
      (∀ new, items.set index new = before ++ new :: after) ∧
      items.eraseIdx index = before ++ after := by
  induction items generalizing index with
  | nil => simp at found
  | cons head tail induction =>
      cases index with
      | zero =>
          obtain rfl : head = item := by simpa using found
          exact ⟨[], tail, rfl, rfl, fun _ => rfl, rfl⟩
      | succ index =>
          obtain ⟨before, after, items_eq, length, set_eq, erase_eq⟩ :=
            induction (by simpa using found)
          refine ⟨head :: before, after, by simp [items_eq], by simp [length],
            ?_, by simp [erase_eq]⟩
          intro new
          simp [set_eq]

theorem eraseIdx_eraseIdx_of_lt {first second : Nat} (less : first < second)
    (items : List α) :
    (items.eraseIdx first).eraseIdx (second - 1) =
      (items.eraseIdx second).eraseIdx first := by
  induction items generalizing first second with
  | nil => simp
  | cons head tail induction =>
      obtain ⟨second, rfl⟩ := Nat.exists_eq_succ_of_ne_zero
        (Nat.ne_of_gt (Nat.zero_lt_of_lt less))
      cases first with
      | zero => rfl
      | succ first =>
          have tails := induction (Nat.lt_of_succ_lt_succ less)
          obtain ⟨second, rfl⟩ := Nat.exists_eq_succ_of_ne_zero
            (Nat.ne_of_gt (Nat.zero_lt_of_lt (Nat.lt_of_succ_lt_succ less)))
          simpa using tails

theorem mem_set_iff_of_found {items : List α} {index : Nat} {old : α}
    (found : items[index]? = some old) (new other : α) :
    other ∈ items.set index new ↔
      other = new ∨ other ∈ items.eraseIdx index := by
  obtain ⟨before, after, _, _, set_eq, erase_eq⟩ := split_at_index found
  rw [set_eq, erase_eq]
  simp only [List.mem_append, List.mem_cons]
  tauto

theorem mem_eraseIdx_of_ne {items : List α} {index : Nat} {old other : α}
    (found : items[index]? = some old) (member : other ∈ items)
    (different : other ≠ old) : other ∈ items.eraseIdx index := by
  obtain ⟨before, after, items_eq, _, _, erase_eq⟩ := split_at_index found
  rw [items_eq] at member
  rw [erase_eq]
  rcases List.mem_append.mp member with front | back
  · exact List.mem_append_left _ front
  · rcases List.mem_cons.mp back with same | later
    · exact (different same).elim
    · exact List.mem_append_right _ later

section Counting

variable (passes : α → Bool) {items : List α} {index : Nat} {old new : α}

theorem countP_set (found : items[index]? = some old) (new : α) :
    (items.set index new).countP passes + (if passes old then 1 else 0) =
      items.countP passes + (if passes new then 1 else 0) := by
  obtain ⟨before, after, items_eq, _, set_eq, _⟩ := split_at_index found
  rw [set_eq, items_eq]
  simp only [List.countP_append, List.countP_cons]
  omega

theorem countP_set_of_eq {passes : α → Bool}
    (found : items[index]? = some old) (same : passes new = passes old) :
    (items.set index new).countP passes = items.countP passes := by
  have counts := countP_set passes found new
  rw [same] at counts
  omega

theorem countP_eraseIdx (found : items[index]? = some old) :
    (items.eraseIdx index).countP passes + (if passes old then 1 else 0) =
      items.countP passes := by
  obtain ⟨before, after, items_eq, _, _, erase_eq⟩ := split_at_index found
  rw [erase_eq, items_eq]
  simp only [List.countP_append, List.countP_cons]
  omega

theorem countP_pos_of_getElem? {passes : α → Bool}
    (found : items[index]? = some old) (holds : passes old = true) :
    0 < items.countP passes :=
  List.countP_pos_iff.mpr ⟨old, List.mem_of_getElem? found, holds⟩

/-- When passing items have one and the same image and images are distinct,
at most one item passes. -/
theorem countP_le_one_of_nodup_map {image : α → β}
    (distinct : (items.map image).Nodup)
    (agree : ∀ left ∈ items, ∀ right ∈ items, passes left = true →
      passes right = true → image left = image right) :
    items.countP passes ≤ 1 := by
  induction items with
  | nil => simp
  | cons head tail induction =>
      obtain ⟨notInTail, tailDistinct⟩ := List.nodup_cons.mp distinct
      have tailBound := induction tailDistinct
        (fun left leftMember right rightMember =>
          agree left (.tail _ leftMember) right (.tail _ rightMember))
      by_cases passed : passes head = true
      · have noOther : tail.countP passes = 0 := by
          rw [List.countP_eq_zero]
          intro other member otherPassed
          apply notInTail
          rw [agree head (.head _) other (.tail _ member) passed otherPassed]
          exact List.mem_map_of_mem member
        simp [passed, noOther]
      · simpa [passed] using tailBound

end Counting

section Weighing

variable (weight : α → Nat) {items : List α} {index : Nat} {old : α}

def total : List α → Nat
  | [] => 0
  | item :: items => weight item + total items

theorem total_append (left right : List α) :
    total weight (left ++ right) = total weight left + total weight right := by
  induction left with
  | nil => simp [total]
  | cons item left induction =>
      rw [List.cons_append, total, total, induction, Nat.add_assoc]

theorem total_set (found : items[index]? = some old) (new : α) :
    total weight (items.set index new) + weight old =
      total weight items + weight new := by
  obtain ⟨before, after, items_eq, _, set_eq, _⟩ := split_at_index found
  rw [set_eq, items_eq, total_append, total_append, total, total]
  omega

theorem total_eraseIdx (found : items[index]? = some old) :
    total weight (items.eraseIdx index) + weight old = total weight items := by
  obtain ⟨before, after, items_eq, _, _, erase_eq⟩ := split_at_index found
  rw [erase_eq, items_eq, total_append, total_append, total]
  omega

theorem total_le {weight : α → Nat} {most : Nat}
    (bounded : ∀ item, weight item ≤ most) (items : List α) :
    total weight items ≤ most * items.length := by
  induction items with
  | nil => exact Nat.zero_le _
  | cons item items induction =>
      have first := bounded item
      rw [total, List.length_cons, Nat.mul_succ]
      omega

end Weighing

section Collecting

/-- A filter changes what is collected exactly if it drops an item from which
something is collected. -/
theorem filterMap_filter_eq_iff (passes : α → Bool) (collect : α → Option β)
    (items : List α) :
    (items.filter passes).filterMap collect = items.filterMap collect ↔
      ∀ item ∈ items, (collect item).isSome → passes item = true := by
  induction items with
  | nil => simp
  | cons head tail induction =>
      have shorter : ((tail.filter passes).filterMap collect).length ≤
          (tail.filterMap collect).length :=
        (List.filter_sublist.filterMap collect).length_le
      rw [List.forall_mem_cons, ← induction]
      cases kept : passes head with
      | true =>
          rw [List.filter_cons_of_pos kept]
          cases collected : collect head with
          | none => simp [collected]
          | some image => simp [collected]
      | false =>
          rw [List.filter_cons_of_neg (by simp [kept])]
          cases collected : collect head with
          | none => simp [collected]
          | some image =>
              rw [List.filterMap_cons_some collected]
              refine iff_of_false ?_ (by simp)
              intro same
              have lengths := congrArg List.length same
              rw [List.length_cons] at lengths
              omega

variable {collect : α → Option β} {items : List α} {index : Nat}
  {old new : α} {image : β}

theorem map_set_of_eq {image : α → β} (found : items[index]? = some old)
    (same : image new = image old) :
    (items.set index new).map image = items.map image := by
  obtain ⟨before, after, items_eq, _, set_eq, _⟩ := split_at_index found
  rw [set_eq, items_eq]
  simp only [List.map_append, List.map_cons, same]

theorem filterMap_set_of_eq (collect : α → Option β)
    (found : items[index]? = some old) (same : collect new = collect old) :
    (items.set index new).filterMap collect = items.filterMap collect := by
  obtain ⟨before, after, items_eq, _, set_eq, _⟩ := split_at_index found
  rw [set_eq, items_eq]
  simp only [List.filterMap_append, List.filterMap_cons, same]

theorem filterMap_eraseIdx_of_none (collect : α → Option β)
    (found : items[index]? = some old) (oldNone : collect old = none) :
    (items.eraseIdx index).filterMap collect = items.filterMap collect := by
  obtain ⟨before, after, items_eq, _, _, erase_eq⟩ := split_at_index found
  rw [erase_eq, items_eq]
  simp only [List.filterMap_append, List.filterMap_cons, oldNone]

/-- Collecting less yields a sublist. -/
theorem filterMap_sublist {fewer more : α → Option β}
    (within : ∀ item image, fewer item = some image →
      more item = some image) (items : List α) :
    (items.filterMap fewer).Sublist (items.filterMap more) := by
  induction items with
  | nil => exact .slnil
  | cons item items induction =>
      cases collected : fewer item with
      | none =>
          rw [List.filterMap_cons_none collected]
          cases collectedMore : more item with
          | none =>
              rw [List.filterMap_cons_none collectedMore]
              exact induction
          | some image =>
              rw [List.filterMap_cons_some collectedMore]
              exact induction.cons image
      | some image =>
          rw [List.filterMap_cons_some collected,
            List.filterMap_cons_some (within item image collected)]
          exact induction.cons_cons image

/-- An item which starts to contribute adds its image. -/
theorem filterMap_set_perm_cons (collect : α → Option β)
    (found : items[index]? = some old)
    (oldNone : collect old = none) (newSome : collect new = some image) :
    ((items.set index new).filterMap collect).Perm
      (image :: items.filterMap collect) := by
  obtain ⟨before, after, items_eq, _, set_eq, _⟩ := split_at_index found
  rw [set_eq, items_eq]
  simp only [List.filterMap_append, List.filterMap_cons, oldNone, newSome]
  exact List.perm_middle

/-- An item which stops to contribute takes its image away. -/
theorem filterMap_perm_cons_set (collect : α → Option β)
    (found : items[index]? = some old) (new : α)
    (oldSome : collect old = some image) (newNone : collect new = none) :
    (items.filterMap collect).Perm
      (image :: (items.set index new).filterMap collect) := by
  obtain ⟨before, after, items_eq, _, set_eq, _⟩ := split_at_index found
  rw [set_eq, items_eq]
  simp only [List.filterMap_append, List.filterMap_cons, oldSome, newNone]
  exact List.perm_middle

end Collecting

end OpenChat.Foundation.Positions
