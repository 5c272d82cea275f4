import OpenChat.Client.Outcomes
import OpenChat.Foundation.Columns

/-!
# The result vector of a query

`RQuery` fetches the rows of a stored result one at a time and pushes every
field onto the vector of its column, each push behind a checked access.  No
access fails, and an empty result vector ends as the transpose of the rows.
-/

namespace OpenChat.Client

open Platform Platform.MySql Foundation

/-- A stored result as the client library returns it: every row has a field
for each column, and a field is NULL or ends at its first NUL. -/
structure FetchedRes extends MysqlRes where
  filled : ∀ row ∈ rows, row.length = numFields
  noNul : ∀ row ∈ rows, ∀ bytes, some bytes ∈ row → 0 ∉ bytes

def fieldText (field : Option (List Byte)) : List Byte :=
  match field with
  | none => ansi "NULL"
  | some bytes => bytes

/-- The vector has the columns of the result and in each of them the fields
of all rows. -/
structure IsTranspose (res : MysqlRes) (result : Result) : Prop where
  columns : result.length = res.numFields
  rows : ∀ column ∈ result, column.length = res.rows.length
  fields : ∀ i j : Nat, (result[i]?.bind fun column => column[j]?) =
    (res.rows[j]?.bind fun row => row[i]?).map fieldText

namespace RMysql

/-- `RQuery` with its checked accesses, given whether `mysql_query` fails and
what `mysql_store_result` returns; `none` is the exception of `at`. -/
def rQueryAt (failed : Bool) (stored : Option MysqlRes) (result : Result)
    (select : Bool) : Option (Bool × Result) :=
  if failed then some (false, result)
  else if !select then some (true, result)
  else
    match stored with
    | none => some (false, result)
    | some res =>
        (Columns.pushRows (fun column i => fetched (column[i]?.join))
          res.numFields (resize res.numFields result) res.rows).map
            fun result => (true, result)

def filledBy (rows : List (List (Option (List Byte)))) (result : Result) :
    Result :=
  result.mapIdx fun i column =>
    column ++ rows.map fun row => fetched row[i]?.join

theorem rQueryAt_stored (res : MysqlRes) (result : Result) :
    rQueryAt false (some res) result true =
      some (true, filledBy res.rows (resize res.numFields result)) := by
  have pushed := Columns.pushRows_eq
    (fun (column : List (Option (List Byte))) i => fetched (column[i]?.join))
    (resize res.numFields result) res.rows
  rw [length_resize] at pushed
  simp only [rQueryAt, Bool.false_eq_true, if_false, Bool.not_true, pushed]
  rfl

theorem pushRow_eq (result : Result) (row : List (Option (List Byte))) :
    pushRow result row = filledBy [row] result := by
  apply List.ext_getElem?
  intro i
  rw [pushRow, filledBy, List.getElem?_mapIdx, List.getElem?_mapIdx,
    List.map_singleton]
  cases row[i]?.join with
  | none => rfl
  | some bytes => rfl

theorem foldl_pushRow_eq (rows : List (List (Option (List Byte))))
    (result : Result) :
    rows.foldl pushRow result = filledBy rows result := by
  induction rows generalizing result with
  | nil =>
      have unchanged : filledBy [] result = result := by
        simp [filledBy, Columns.mapIdx_unchanged]
      exact unchanged.symm
  | cons row rows induction =>
      rw [List.foldl_cons, induction, pushRow_eq]
      simp [filledBy, List.mapIdx_mapIdx, Function.comp_def]

end RMysql

def QueryOutcome.failed : QueryOutcome → Bool
  | .notConnected => true
  | .rejected => true
  | .connectionLost => true
  | .noResultSet => false
  | .resultSet _ => false

def QueryOutcome.stored : QueryOutcome → Option MysqlRes
  | .resultSet res => some res.toMysqlRes
  | _ => none

namespace RMysql

/-- No access fails, whatever becomes of the query: `RQuery` does what the
handlers get from `rQueryOn`. -/
theorem rQueryAt_eq_rQueryOn (outcome : QueryOutcome) (result : Result)
    (select : Bool) :
    rQueryAt (QueryOutcome.failed outcome) (QueryOutcome.stored outcome)
        result select = some (rQueryOn outcome result select) := by
  cases outcome with
  | notConnected => rfl
  | rejected => rfl
  | connectionLost => rfl
  | noResultSet => cases select <;> rfl
  | resultSet res =>
      cases select with
      | false => rfl
      | true =>
          have stored := rQueryAt_stored res.toMysqlRes result
          rw [← foldl_pushRow_eq] at stored
          exact stored

theorem fetched_eq_fieldText (res : FetchedRes) {row}
    (member : row ∈ res.rows) {field} (inRow : field ∈ row) :
    fetched field = fieldText field := by
  cases field with
  | none => rfl
  | some bytes => exact fetched_of_noNul (res.noNul row member bytes inRow)

theorem getElem?_filledBy (res : MysqlRes) {i : Nat}
    (inside : i < res.numFields) :
    (filledBy res.rows (resize res.numFields []))[i]? =
      some (res.rows.map fun row => fetched row[i]?.join) := by
  have empty : (resize res.numFields [])[i]? = some [] := by
    simp [resize, inside]
  rw [filledBy, List.getElem?_mapIdx, empty]
  rfl

theorem isTranspose_filledBy (res : FetchedRes) :
    IsTranspose res.toMysqlRes
      (filledBy res.rows (resize res.numFields [])) := by
  have columns :
      (filledBy res.rows (resize res.numFields [])).length =
        res.numFields := by
    rw [filledBy, List.length_mapIdx, length_resize]
  constructor
  · exact columns
  · intro column member
    obtain ⟨i, inside, here⟩ := List.mem_iff_getElem.mp member
    have read := getElem?_filledBy res.toMysqlRes (columns ▸ inside)
    rw [List.getElem?_eq_getElem inside, here] at read
    rw [Option.some.inj read, List.length_map]
  · intro i j
    by_cases inside : i < res.numFields
    · rw [getElem?_filledBy res.toMysqlRes inside, Option.bind_some,
        List.getElem?_map]
      cases found : res.rows[j]? with
      | none => rfl
      | some row =>
          have member := List.mem_of_getElem? found
          have field : i < row.length := by
            rw [res.filled row member]
            exact inside
          have text := fetched_eq_fieldText res member
            (List.getElem_mem field)
          simp only [Option.map_some, Option.bind_some,
            List.getElem?_eq_getElem field, Option.join_some, text]
    · have beyond :
          (filledBy res.rows (resize res.numFields []))[i]? = none := by
        rw [List.getElem?_eq_none_iff, columns]
        exact Nat.le_of_not_lt inside
      rw [beyond]
      cases found : res.rows[j]? with
      | none => rfl
      | some row =>
          have member := List.mem_of_getElem? found
          have short : row[i]? = none := by
            rw [List.getElem?_eq_none_iff, res.filled row member]
            exact Nat.le_of_not_lt inside
          rw [Option.bind_some, short]
          rfl

/-- `RQuery` always returns.  It leaves the result vector as it was when it
fails or nothing is selected, and fills an empty one with the transpose of
the rows otherwise. -/
theorem rQuery_transposes (failed : Bool) (stored : Option FetchedRes)
    (result : Result) (select : Bool) :
    ∃ ok later,
      rQueryAt failed (stored.map FetchedRes.toMysqlRes) result select =
          some (ok, later) ∧
        (ok = false ∨ select = false → later = result) ∧
        (result = [] → select = true → ok = true →
          ∃ res ∈ stored, IsTranspose res.toMysqlRes later) := by
  cases failed with
  | true =>
      refine ⟨false, result, rfl, fun _ => rfl, ?_⟩
      intro _ _ impossible
      cases impossible
  | false =>
      cases select with
      | false =>
          refine ⟨true, result, rfl, fun _ => rfl, ?_⟩
          intro _ impossible
          cases impossible
      | true =>
          cases stored with
          | none =>
              refine ⟨false, result, rfl, fun _ => rfl, ?_⟩
              intro _ _ impossible
              cases impossible
          | some res =>
              refine ⟨true, _, rQueryAt_stored res.toMysqlRes result, ?_, ?_⟩
              · intro impossible
                rcases impossible with impossible | impossible <;>
                  cases impossible
              · intro empty _ _
                subst empty
                exact ⟨res, rfl, isTranspose_filledBy res⟩

private def twoRows : List (List (Option (List Byte))) :=
  [[some (ansi "dan"), none], [some (ansi "eve"), some (ansi "42")]]

def twoByTwo : FetchedRes where
  numFields := 2
  rows := twoRows
  filled := by decide
  noNul := by
    have noNul : ∀ row ∈ twoRows, ∀ field ∈ row, 0 ∉ field.getD [] := by
      decide
    intro row member bytes inRow
    exact noNul row member (some bytes) inRow

theorem twoByTwo_transposed :
    ∃ later,
      rQueryAt false (some twoByTwo.toMysqlRes) [] true =
          some (true, later) ∧
        IsTranspose twoByTwo.toMysqlRes later := by
  obtain ⟨ok, later, done, _, transposed⟩ :=
    rQuery_transposes false (some twoByTwo) [] true
  have stored := (rQueryAt_stored twoByTwo.toMysqlRes []).symm.trans done
  obtain rfl : true = ok := congrArg Prod.fst (Option.some.inj stored)
  obtain ⟨res, isStored, isTranspose⟩ := transposed rfl rfl rfl
  obtain rfl := Option.some.inj isStored
  exact ⟨later, done, isTranspose⟩

end RMysql

end OpenChat.Client
