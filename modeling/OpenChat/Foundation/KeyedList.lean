import Mathlib.Data.List.Count
import Mathlib.Data.List.Perm.Basic
import Mathlib.Logic.Function.Basic

/-!
# Lists searched by a key that need not be unique

Two stores which are updated at different moments, each by removing the first
item with a given key, stay related as long as every removal finds an item.
`leaveOut` describes the store that is ahead: it lacks the first few items of
every key.  The three commutation laws below say how it moves with removals
in either store and with items appended to both.
-/

namespace OpenChat.Foundation.KeyedList

variable {α β κ : Type*} [DecidableEq κ]

/-- Remove the first item with the given key, if there is one. -/
def removeFirst (key : α → κ) (wanted : κ) (items : List α) : List α :=
  items.eraseP fun item => key item = wanted

def countKey (key : α → κ) (wanted : κ) (items : List α) : Nat :=
  items.countP fun item => key item = wanted

def bump (skipped : κ → Nat) (wanted : κ) : κ → Nat :=
  Function.update skipped wanted (skipped wanted + 1)

def drop (skipped : κ → Nat) (wanted : κ) : κ → Nat :=
  Function.update skipped wanted (skipped wanted - 1)

/-- Leave out the first `skipped k` items of every key `k` and keep all the
others in order. -/
def leaveOut (key : α → κ) (skipped : κ → Nat) : List α → List α
  | [] => []
  | item :: items =>
      if skipped (key item) = 0 then
        item :: leaveOut key skipped items
      else
        leaveOut key (drop skipped (key item)) items

section Counting

variable (key : α → κ) (wanted : κ)

@[simp] theorem countKey_nil : countKey key wanted [] = 0 := rfl

theorem countKey_cons (item : α) (items : List α) :
    countKey key wanted (item :: items) =
      countKey key wanted items + if key item = wanted then 1 else 0 := by
  simp [countKey, List.countP_cons]

@[simp] theorem countKey_append (left right : List α) :
    countKey key wanted (left ++ right) =
      countKey key wanted left + countKey key wanted right := by
  simp [countKey]

theorem countKey_pos {items : List α} :
    0 < countKey key wanted items ↔ ∃ item ∈ items, key item = wanted := by
  simp [countKey, List.countP_pos_iff]

end Counting

theorem removeFirst_cons_same {key : α → κ} {wanted : κ} {item : α}
    (same : key item = wanted) (items : List α) :
    removeFirst key wanted (item :: items) = items := by
  simp [removeFirst, same]

theorem removeFirst_cons_other {key : α → κ} {wanted : κ} {item : α}
    (other : key item ≠ wanted) (items : List α) :
    removeFirst key wanted (item :: items) =
      item :: removeFirst key wanted items := by
  simp [removeFirst, other]

theorem removeFirst_sublist (key : α → κ) (wanted : κ) (items : List α) :
    (removeFirst key wanted items).Sublist items :=
  List.eraseP_sublist

theorem countKey_removeFirst (key : α → κ) (wanted counted : κ)
    (items : List α) :
    countKey key counted (removeFirst key wanted items) =
      countKey key counted items - if counted = wanted then 1 else 0 := by
  induction items with
  | nil => simp [removeFirst]
  | cons item items induction =>
      by_cases same : key item = wanted
      · subst same
        rw [removeFirst_cons_same rfl, countKey_cons]
        by_cases asked : key item = counted
        · simp [asked]
        · simp [asked, Ne.symm asked]
      · rw [removeFirst_cons_other same, countKey_cons, countKey_cons,
          induction]
        by_cases asked : key item = counted
        · subst asked
          simp [same]
        · simp [asked]

theorem removeFirst_map (map : α → β) (key : β → κ) (wanted : κ)
    (items : List α) :
    removeFirst key wanted (items.map map) =
      (removeFirst (key ∘ map) wanted items).map map :=
  List.eraseP_map

theorem removeFirst_append_of_pos {key : α → κ} {wanted : κ}
    {items : List α} (found : 0 < countKey key wanted items)
    (later : List α) :
    removeFirst key wanted (items ++ later) =
      removeFirst key wanted items ++ later := by
  obtain ⟨item, member, same⟩ := (countKey_pos key wanted).mp found
  exact List.eraseP_append_left (by simpa using same) later member

theorem removeFirst_append_of_other {key : α → κ} {wanted : κ} {item : α}
    (other : key item ≠ wanted) (items : List α) :
    removeFirst key wanted (items ++ [item]) =
      removeFirst key wanted items ++ [item] := by
  induction items with
  | nil => simp [removeFirst, other]
  | cons head tail induction =>
      by_cases same : key head = wanted
      · simp [removeFirst_cons_same same]
      · simp [removeFirst_cons_other same, induction]

/-- When no earlier item has its key, the item itself is removed. -/
theorem removeFirst_own {key : α → κ} {before : List α} {item : α}
    (noEarlier : ∀ earlier ∈ before, key earlier ≠ key item)
    (after : List α) :
    removeFirst key (key item) (before ++ item :: after) =
      before ++ after := by
  induction before with
  | nil => exact removeFirst_cons_same rfl after
  | cons head tail induction =>
      rw [List.cons_append, removeFirst_cons_other (noEarlier head (by simp)),
        induction (fun earlier member => noEarlier earlier (.tail _ member)),
        List.cons_append]

/-- A removal takes away the item the search finds. -/
theorem perm_cons_removeFirst {key : α → κ} {wanted : κ} {item : α}
    {items : List α}
    (found : items.find? (fun item => key item = wanted) = some item) :
    items.Perm (item :: removeFirst key wanted items) := by
  obtain ⟨same, before, after, rfl, others⟩ :=
    List.find?_eq_some_iff_append.mp found
  obtain rfl : key item = wanted := by simpa using same
  rw [removeFirst_own (fun earlier member => by
    simpa using others earlier member)]
  exact List.perm_middle

/-- Of two lists with the same items the rests agree exactly if the items
taken away do. -/
theorem perm_tails_iff {left right : α} {lefts rights : List α}
    (perm : (left :: lefts).Perm (right :: rights)) :
    lefts.Perm rights ↔ left = right := by
  constructor
  · intro tails
    have heads : ([left] ++ rights).Perm ([right] ++ rights) :=
      (tails.cons left).symm.trans perm
    exact List.singleton_perm_singleton.mp
      ((List.perm_append_right_iff rights).mp heads)
  · rintro rfl
    exact perm.cons_inv

theorem leaveOut_of_zero (key : α → κ) {skipped : κ → Nat}
    (none : ∀ wanted, skipped wanted = 0) (items : List α) :
    leaveOut key skipped items = items := by
  induction items with
  | nil => rfl
  | cons item items induction => simp [leaveOut, none, induction]

private theorem drop_bump (skipped : κ → Nat) (wanted : κ) :
    drop (bump skipped wanted) wanted = skipped := by
  funext other
  by_cases same : other = wanted
  · subst same
    simp [drop, bump]
  · simp [drop, bump, same]

private theorem bump_drop {skipped : κ → Nat} {wanted : κ}
    (positive : skipped wanted ≠ 0) :
    bump (drop skipped wanted) wanted = skipped := by
  funext other
  by_cases same : other = wanted
  · subst same
    simp [drop, bump]
    omega
  · simp [drop, bump, same]

private theorem bump_drop_comm {first second : κ} (different : first ≠ second)
    (skipped : κ → Nat) :
    bump (drop skipped first) second = drop (bump skipped second) first := by
  simp [bump, drop, different, different.symm,
    Function.update_comm different]

/-- Removing from the store that is ahead leaves out one more item. -/
theorem removeFirst_leaveOut (key : α → κ) {wanted : κ} {items : List α}
    {skipped : κ → Nat}
    (remaining : skipped wanted < countKey key wanted items) :
    removeFirst key wanted (leaveOut key skipped items) =
      leaveOut key (bump skipped wanted) items := by
  induction items generalizing skipped with
  | nil => simp at remaining
  | cons item items induction =>
      rw [countKey_cons] at remaining
      by_cases same : key item = wanted
      · subst same
        have bumped : bump skipped (key item) (key item) ≠ 0 := by
          simp [bump]
        by_cases zero : skipped (key item) = 0
        · rw [leaveOut, if_pos zero, leaveOut, if_neg bumped,
            removeFirst_cons_same rfl, drop_bump]
        · rw [leaveOut, if_neg zero, leaveOut, if_neg bumped, drop_bump,
            induction, bump_drop zero]
          simp only [drop, Function.update_self]
          simp only [if_true] at remaining
          omega
      · have unchanged : bump skipped wanted (key item) =
            skipped (key item) := by simp [bump, same]
        rw [if_neg same, Nat.add_zero] at remaining
        by_cases zero : skipped (key item) = 0
        · rw [leaveOut, if_pos zero, leaveOut, unchanged, if_pos zero,
            removeFirst_cons_other same, induction remaining]
        · rw [leaveOut, if_neg zero, leaveOut, unchanged, if_neg zero,
            induction, bump_drop_comm same]
          simpa [drop, Function.update_of_ne (Ne.symm same)] using remaining

/-- Removing from the store that is behind leaves out one item less. -/
theorem leaveOut_removeFirst (key : α → κ) {wanted : κ} {items : List α}
    (skipped : κ → Nat) (found : 0 < countKey key wanted items) :
    leaveOut key skipped (removeFirst key wanted items) =
      leaveOut key (bump skipped wanted) items := by
  induction items generalizing skipped with
  | nil => simp at found
  | cons item items induction =>
      by_cases same : key item = wanted
      · subst same
        have bumped : bump skipped (key item) (key item) ≠ 0 := by
          simp [bump]
        rw [removeFirst_cons_same rfl, leaveOut, if_neg bumped, drop_bump]
      · have foundLater : 0 < countKey key wanted items := by
          simpa [countKey_cons, same] using found
        have unchanged : bump skipped wanted (key item) =
            skipped (key item) := by simp [bump, same]
        rw [removeFirst_cons_other same, leaveOut, leaveOut, unchanged]
        by_cases zero : skipped (key item) = 0
        · rw [if_pos zero, if_pos zero, induction skipped foundLater]
        · rw [if_neg zero, if_neg zero, induction _ foundLater,
            bump_drop_comm same]

/-- An item appended behind enough items of its key is kept. -/
theorem leaveOut_append_singleton (key : α → κ) {item : α} {items : List α}
    {skipped : κ → Nat}
    (enough : skipped (key item) ≤ countKey key (key item) items) :
    leaveOut key skipped (items ++ [item]) =
      leaveOut key skipped items ++ [item] := by
  induction items generalizing skipped with
  | nil =>
      have zero : skipped (key item) = 0 := by simpa using enough
      simp [leaveOut, zero]
  | cons head tail induction =>
      rw [countKey_cons] at enough
      by_cases zero : skipped (key head) = 0
      · rw [List.cons_append, leaveOut, if_pos zero, leaveOut, if_pos zero,
          List.cons_append, induction]
        by_cases same : key head = key item
        · simp [← same, zero]
        · simpa [same] using enough
      · rw [List.cons_append, leaveOut, if_neg zero, leaveOut, if_neg zero,
          induction]
        by_cases same : key head = key item
        · rw [same]
          simp only [drop, Function.update_self]
          simp only [same, if_true] at enough
          omega
        · simpa [drop, Function.update_of_ne (Ne.symm same), same]
            using enough

theorem leaveOut_sublist (key : α → κ) (skipped : κ → Nat)
    (items : List α) : (leaveOut key skipped items).Sublist items := by
  induction items generalizing skipped with
  | nil => exact .slnil
  | cons item items induction =>
      by_cases zero : skipped (key item) = 0
      · rw [leaveOut, if_pos zero]
        exact (induction skipped).cons_cons item
      · rw [leaveOut, if_neg zero]
        exact (induction _).cons item

/-- The store that is ahead still holds the items which were not left out. -/
theorem countKey_leaveOut (key : α → κ) (wanted : κ) (items : List α)
    (skipped : κ → Nat) :
    countKey key wanted (leaveOut key skipped items) =
      countKey key wanted items - skipped wanted := by
  induction items generalizing skipped with
  | nil => simp [leaveOut]
  | cons item items induction =>
      by_cases zero : skipped (key item) = 0
      · rw [leaveOut, if_pos zero, countKey_cons, countKey_cons, induction]
        by_cases same : key item = wanted
        · subst same
          simp [zero]
        · simp [same]
      · rw [leaveOut, if_neg zero, induction, countKey_cons]
        by_cases same : key item = wanted
        · subst same
          simp only [drop, Function.update_self, if_true]
          omega
        · simp [drop, Function.update_of_ne (Ne.symm same), same]

end OpenChat.Foundation.KeyedList
