import OpenChat.Client.LoginDlg
import OpenChat.Platform.Database

/-!
# The dialog and the outcomes of its queries

`RQuery` reports failure in its return value and leaves the result vector as
it was; both handlers ignore the return value.  The login then takes
`result.at(0)` of an empty vector unless a result set came back.
-/

namespace OpenChat.Client

open Platform Platform.MySql

namespace RMysql

/-- `RQuery`, given what becomes of the query: what it returns and the result
vector. -/
def rQueryOn (outcome : QueryOutcome) (result : Result) (select : Bool) :
    Bool × Result :=
  match outcome with
  | .notConnected => (false, result)
  | .rejected => (false, result)
  | .connectionLost => (false, result)
  | .noResultSet => if select = false then (true, result) else (false, result)
  | .resultSet res =>
      if select = false then (true, result)
      else (true, res.rows.foldl pushRow (resize res.numFields result))

theorem length_foldl_pushRow (rows : List (List (Option (List Byte))))
    (result : Result) :
    (rows.foldl pushRow result).length = result.length := by
  induction rows generalizing result with
  | nil => rfl
  | cons row rows induction =>
      rw [List.foldl_cons, induction, pushRow, List.length_mapIdx]

theorem length_resize (columns : Nat) (result : Result) :
    (resize columns result).length = columns := by
  rw [resize, List.length_append, List.length_take, List.length_replicate]
  omega

theorem rQueryOn_plain (info : List InfoRow) (query : List Byte)
    (result : Result) (select : Bool) :
    rQueryOn ((Database.plain info).query .asStored (cStr query)).1 result
        select =
      ((rQuery info query result select).1,
        (rQuery info query result select).2.1) := by
  rw [Database.query_plain, rQuery, mysqlQuery]
  cases parseStatement (cStr query) with
  | none => rfl
  | some statement =>
      cases statement with
      | selectAccount password =>
          cases select with
          | false => rfl
          | true =>
              simp only [rQueryOn, Database.accountsOf, List.map_map]
              rfl
      | insertInfo row => cases select <;> rfl

theorem query_plain_table (info : List InfoRow) (query : List Byte)
    (result : Result) (select : Bool) :
    ((Database.plain info).query .asStored (cStr query)).2 =
      .plain (rQuery info query result select).2.2 := by
  rw [Database.query_plain, rQuery, mysqlQuery]
  cases parseStatement (cStr query) with
  | none => rfl
  | some statement =>
      cases statement with
      | selectAccount password => cases select <;> rfl
      | insertInfo row => cases select <;> rfl

end RMysql

namespace LoginDlg

/-- `OnBnClickedMfcbuttonLogin`, given what becomes of its query; `none` is an
exception of `at`. -/
def loginOn (page : CodePage) (dlg : LoginDlg) (parent : PCClientDlg)
    (outcome : QueryOutcome) : Option (LoginDlg × PCClientDlg) :=
  let (_ok, result) := RMysql.rQueryOn outcome [] true
  (result[0]?).bind fun column =>
    if column.isEmpty then some (dlg.refuse, parent)
    else
      (column[0]?).bind fun account =>
        if page.decode (cStr account) ≠ dlg.account then
          some (dlg.refuse, parent)
        else
          some (dlg.endDialog 11, { parent with windowText := dlg.account })

/-- The handler returns, and has ended the dialog or shown that there is no
account. -/
def Settles (page : CodePage) (dlg : LoginDlg) (parent : PCClientDlg)
    (outcome : QueryOutcome) : Prop :=
  ∃ after, dlg.loginOn page parent outcome = some after ∧
    (after.1.ended = some 11 ∨ after.1.info = "没有账号？点击注册！".toList)

theorem loginOn_plain (page : CodePage) (dlg : LoginDlg)
    (parent : PCClientDlg) (info : List InfoRow) :
    let query := cStr (loginQuery (page.ct2a dlg.password))
    dlg.onBnClickedMfcbuttonLogin page parent info =
      (dlg.loginOn page parent
        ((Database.plain info).query .asStored (cStr query)).1).map
          fun after =>
            (after.1, after.2, (RMysql.rQuery info query [] true).2.2) := by
  intro query
  rw [loginOn, RMysql.rQueryOn_plain]
  simp only [onBnClickedMfcbuttonLogin]
  rw [show cStr (loginQuery (page.ct2a dlg.password)) = query from rfl]
  obtain ⟨ok, result, later⟩ := RMysql.rQuery info query [] true
  rcases result with _ | ⟨_ | ⟨account, accounts⟩, columns⟩
  · rfl
  · rfl
  · by_cases same : page.decode (cStr account) = dlg.account
    · simp [same]
    · simp [same]

theorem settles_of_resultSet (page : CodePage) (dlg : LoginDlg)
    (parent : PCClientDlg) (res : ResultSet) :
    dlg.Settles page parent (.resultSet res) := by
  have columns :
      0 < (res.rows.foldl RMysql.pushRow
        (RMysql.resize res.numFields [])).length := by
    rw [RMysql.length_foldl_pushRow, RMysql.length_resize]
    exact res.hasColumn
  obtain ⟨column, others, filled⟩ := List.exists_cons_of_length_pos columns
  have fetched : RMysql.rQueryOn (.resultSet res) [] true =
      (true, column :: others) := congrArg (Prod.mk true) filled
  cases column with
  | nil =>
      refine ⟨(dlg.refuse, parent), ?_, .inr rfl⟩
      rw [loginOn, fetched]
      rfl
  | cons account accounts =>
      by_cases same : page.decode (cStr account) = dlg.account
      · refine ⟨(dlg.endDialog 11,
          { parent with windowText := dlg.account }), ?_, .inl rfl⟩
        rw [loginOn, fetched]
        exact if_neg (not_not_intro same)
      · refine ⟨(dlg.refuse, parent), ?_, .inr rfl⟩
        rw [loginOn, fetched]
        exact if_pos same

/-- Without a result set the result vector is empty, and `result.at(0)`
throws. -/
theorem loginOn_eq_none (page : CodePage) (dlg : LoginDlg)
    (parent : PCClientDlg) {outcome : QueryOutcome}
    (missing : ∀ res, outcome ≠ .resultSet res) :
    dlg.loginOn page parent outcome = none := by
  cases outcome with
  | notConnected => rfl
  | rejected => rfl
  | connectionLost => rfl
  | noResultSet => rfl
  | resultSet res => exact absurd rfl (missing res)

/-- The login handler keeps its two indexings in range, and ends the dialog
or shows that there is no account, exactly if the query left a result set. -/
theorem login_never_throws_iff (page : CodePage) (dlg : LoginDlg)
    (parent : PCClientDlg) (outcome : QueryOutcome) :
    dlg.Settles page parent outcome ↔
      ∃ res, outcome = .resultSet res := by
  constructor
  · rintro ⟨after, returned, _⟩
    by_contra missing
    have thrown := dlg.loginOn_eq_none page parent
      (not_exists.mp missing)
    rw [thrown] at returned
    cases returned
  · rintro ⟨res, rfl⟩
    exact dlg.settles_of_resultSet page parent res

theorem login_throws_without_connection :
    ¬∀ (page : CodePage) (dlg : LoginDlg) (parent : PCClientDlg)
      (outcome : QueryOutcome), dlg.Settles page parent outcome := by
  intro settles
  obtain ⟨after, returned, _⟩ := settles .ascii (typed [97] [98])
    PCClientDlg.create .notConnected
  exact absurd returned (by simp [loginOn, RMysql.rQueryOn])

end LoginDlg

end OpenChat.Client
