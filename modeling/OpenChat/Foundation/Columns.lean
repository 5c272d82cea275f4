import Mathlib.Data.List.Basic

/-!
# A table filled row by row and kept column by column

Two nested loops push the fields of each row onto the columns, with a checked
access for every push.  When the table has a column for every field no access
fails, and the table grows by the rows, transposed.
-/

namespace OpenChat.Foundation.Columns

universe u v

variable {α : Type u} {ρ : Type v}

/-- Push a value onto column `i`; `none` when there is no such column. -/
def pushAt (table : List (List α)) (i : Nat) (value : α) :
    Option (List (List α)) :=
  (table[i]?).map fun column => table.set i (column ++ [value])

def pushEach (value : Nat → α) (count : Nat) (table : List (List α)) :
    Option (List (List α)) :=
  (List.range count).foldlM (fun table i => pushAt table i (value i)) table

def pushRows (value : ρ → Nat → α) (count : Nat) (table : List (List α))
    (rows : List ρ) : Option (List (List α)) :=
  rows.foldlM (fun table row => pushEach (value row) count table) table

theorem mapIdx_unchanged (table : List (List α)) :
    (table.mapIdx fun _ column => column) = table := by
  apply List.ext_getElem?
  intro i
  simp

theorem pushEach_eq (value : Nat → α) {count : Nat} {table : List (List α)}
    (fits : count ≤ table.length) :
    pushEach value count table =
      some (table.mapIdx fun i column =>
        if i < count then column ++ [value i] else column) := by
  induction count with
  | zero => simp [pushEach, mapIdx_unchanged]
  | succ count induction =>
      have before := induction (Nat.le_of_succ_le fits)
      rw [pushEach] at before
      rw [pushEach, List.range_succ, List.foldlM_append, before]
      have here : (table.mapIdx fun i column =>
          if i < count then column ++ [value i] else column)[count]? =
            some table[count] := by
        simp [List.getElem?_eq_getElem (Nat.lt_of_succ_le fits)]
      simp only [Option.bind_eq_bind, Option.bind_some, List.foldlM_cons,
        List.foldlM_nil, pushAt, here, Option.map_some]
      refine congrArg some (List.ext_getElem? fun i => ?_)
      by_cases same : count = i
      · subst same
        have inside : count < (table.mapIdx fun i column =>
            if i < count then column ++ [value i] else column).length := by
          rw [List.length_mapIdx]
          exact Nat.lt_of_succ_le fits
        rw [List.getElem?_set_self inside]
        simp [List.getElem?_eq_getElem (Nat.lt_of_succ_le fits)]
      · have bound : i < count + 1 ↔ i < count := by omega
        rw [List.getElem?_set_ne same, List.getElem?_mapIdx,
          List.getElem?_mapIdx]
        simp only [bound]

/-- The loops add the rows, transposed. -/
theorem pushRows_eq (value : ρ → Nat → α) (table : List (List α))
    (rows : List ρ) :
    pushRows value table.length table rows =
      some (table.mapIdx fun i column =>
        column ++ rows.map fun row => value row i) := by
  induction rows generalizing table with
  | nil =>
      have same : (table.mapIdx fun _ column => column ++ []) = table := by
        simp [mapIdx_unchanged]
      exact congrArg some same.symm
  | cons row rows induction =>
      have pushed : pushEach (value row) table.length table =
          some (table.mapIdx fun i column => column ++ [value row i]) := by
        rw [pushEach_eq (value row) (Nat.le_refl _)]
        refine congrArg some (List.ext_getElem? fun i => ?_)
        by_cases inside : i < table.length
        · simp [inside]
        · simp [List.getElem?_eq_none (Nat.le_of_not_lt inside)]
      have later := induction
        (table.mapIdx fun i column => column ++ [value row i])
      rw [List.length_mapIdx] at later
      rw [pushRows, List.foldlM_cons, pushed]
      refine later.trans (congrArg some ?_)
      simp [List.mapIdx_mapIdx, Function.comp_def]

end OpenChat.Foundation.Columns
