import OpenChat.Client.Accounts
import OpenChat.Client.Outcomes

/-!
# Credentials and the table

The two buttons of the login dialog on a table with NULLs and a server that
may fail.  The login takes what `RQuery` makes of the first account it gets
back, and a NULL becomes the text `NULL`.  The registration ends in the same
way whether or not its row was inserted.
-/

namespace OpenChat.Client

open Platform Platform.MySql

variable {page : CodePage}

namespace LoginDlg

def filled (dlg : LoginDlg) (account password : List WChar) : LoginDlg :=
  { dlg with
    account := account
    password := password
    ended := none }

/-- `OnBnClickedMfcbuttonLogin` on a database that may fail. -/
def loginAt (page : CodePage) (dlg : LoginDlg) (parent : PCClientDlg)
    (db : Database) (order : RowOrder) :
    Option (LoginDlg × PCClientDlg × Database) :=
  let str := loginQuery (page.ct2a dlg.password)
  let answer := db.query order (cStr (cStr str))
  (dlg.loginOn page parent answer.1).map fun after =>
    (after.1, after.2, answer.2)

/-- `OnBnClickedMfcbuttonRegister` on a database that may fail. -/
def registerAt (page : CodePage) (dlg : LoginDlg) (parent : PCClientDlg)
    (db : Database) (order : RowOrder) :
    LoginDlg × PCClientDlg × Database :=
  let dlg := { dlg with title := "注册账号".toList }
  let strQuery := registerQuery parent.getPort parent.getClientSocket
    (page.ct2a dlg.account) (page.ct2a dlg.password)
  let answer := db.query order (cStr (cStr strQuery))
  let (_ok, _result) := RMysql.rQueryOn answer.1 [] false
  (dlg.endDialog 11, { parent with windowText := dlg.account }, answer.2)

theorem loginAt_plain (page : CodePage) (dlg : LoginDlg)
    (parent : PCClientDlg) (info : List InfoRow) :
    dlg.loginAt page parent (.plain info) .asStored =
      (dlg.onBnClickedMfcbuttonLogin page parent info).map fun after =>
        (after.1, after.2.1, .plain after.2.2) := by
  rw [loginOn_plain, Option.map_map]
  simp only [loginAt, RMysql.query_plain_table info _ [] true,
    Function.comp_def]

theorem registerAt_plain (page : CodePage) (dlg : LoginDlg)
    (parent : PCClientDlg) (info : List InfoRow) :
    dlg.registerAt page parent (.plain info) .asStored =
      let after := dlg.onBnClickedMfcbuttonRegister page parent info
      (after.1, after.2.1, .plain after.2.2) := by
  simp only [registerAt, onBnClickedMfcbuttonRegister,
    RMysql.query_plain_table info _ [] false]

def Admits (dlg : LoginDlg) (parent : PCClientDlg) (db : Database)
    (order : RowOrder) (account : List WChar) (password : TypedText page) :
    Prop :=
  ∃ after, (dlg.filled account password.text).loginAt page parent db order =
      some after ∧
    after.1.ended = some 11

end LoginDlg

/-- The account column holds the text.  A typed text has no NUL. -/
def HasAccount (page : CodePage) (account : List WChar) (row : StoredRow) :
    Prop :=
  ∃ stored, row.account = some stored ∧ 0 ∉ stored ∧
    page.decode stored = account

def Holds (db : Database) (account : List WChar) (password : TypedText page) :
    Prop :=
  ∃ row ∈ db.rows, HasAccount page account row ∧
    row.password = some password.value

/-- The account column is NULL or goes on behind a NUL, and is fetched as the
text all the same. -/
def Misread (page : CodePage) (account : List WChar) (row : StoredRow) :
    Prop :=
  page.decode (RMysql.fetched row.account) = account ∧
    ∀ stored, row.account = some stored → 0 ∈ stored

namespace RMysql

theorem hasAccount_or_misread {account : List WChar} {row : StoredRow}
    (reads : page.decode (fetched row.account) = account) :
    HasAccount page account row ∨ Misread page account row := by
  by_cases plain : ∃ stored, row.account = some stored ∧ 0 ∉ stored
  · obtain ⟨stored, cell, noNul⟩ := plain
    rw [cell, fetched_of_noNul noNul] at reads
    exact .inl ⟨stored, cell, noNul, reads⟩
  · refine .inr ⟨reads, fun stored cell => ?_⟩
    by_contra noNul
    exact plain ⟨stored, cell, noNul⟩

end RMysql

namespace LoginDlg

theorem query_login {db : Database} (order : RowOrder)
    (password : TypedText page)
    (works : (db.reachable && db.accepting && db.answering) = true) :
    (db.query order
        (cStr (cStr (loginQuery (page.ct2a password.text))))).1 =
      .resultSet (Database.accountsOf
        (db.returned order password.value)) := by
  rw [Database.returned, if_pos works]
  simp only [Bool.and_eq_true] at works
  obtain ⟨⟨reachable, accepting⟩, answering⟩ := works
  rw [cStr_cStr, cStr_of_noNul (loginQuery_noNul password.text),
    Database.query, parse_loginQuery password.denotes, if_pos reachable]
  simp only [accepting, answering, if_true]
  rfl

theorem query_login_fails {db : Database} (order : RowOrder)
    (password : TypedText page)
    (fails : ¬(db.reachable && db.accepting && db.answering) = true) :
    ∀ res, (db.query order
        (cStr (cStr (loginQuery (page.ct2a password.text))))).1 ≠
      .resultSet res := by
  intro res
  rw [cStr_cStr, cStr_of_noNul (loginQuery_noNul password.text),
    Database.query, parse_loginQuery password.denotes]
  cases reachable : db.reachable with
  | false => simp
  | true =>
      cases accepting : db.accepting with
      | false => simp
      | true =>
          cases answering : db.answering with
          | false => simp
          | true => simp [reachable, accepting, answering] at fails

theorem loginOn_accounts (page : CodePage) (dlg : LoginDlg)
    (parent : PCClientDlg) (rows : List StoredRow) :
    dlg.loginOn page parent (.resultSet (Database.accountsOf rows)) =
      match rows.head? with
      | none => some (dlg.refuse, parent)
      | some first =>
          if page.decode (RMysql.fetched first.account) ≠ dlg.account then
            some (dlg.refuse, parent)
          else
            some (dlg.endDialog 11,
              { parent with windowText := dlg.account }) := by
  have filled : RMysql.rQueryOn (.resultSet (Database.accountsOf rows)) []
      true = (true, [rows.map fun row => RMysql.fetched row.account]) := by
    have fetched := RMysql.foldl_pushRow_single
      (rows.map fun row => row.account) []
    rw [List.map_map, List.map_map] at fetched
    exact congrArg (Prod.mk true) fetched
  rw [loginOn, filled]
  cases rows with
  | nil => rfl
  | cons first rows =>
      simp only [List.map_cons, List.getElem?_cons_zero, Option.bind_some,
        List.isEmpty_cons, Bool.false_eq_true, if_false, List.head?_cons,
        RMysql.cStr_fetched]

theorem admits_iff (dlg : LoginDlg) (parent : PCClientDlg) (db : Database)
    (order : RowOrder) (account : List WChar) (password : TypedText page) :
    dlg.Admits parent db order account password ↔
      ∃ first ∈ (db.returned order password.value).head?,
        page.decode (RMysql.fetched first.account) = account := by
  by_cases works : (db.reachable && db.accepting && db.answering) = true
  · rw [Admits, loginAt]
    simp only [filled]
    rw [query_login order password works, loginOn_accounts]
    cases (db.returned order password.value).head? with
    | none => simp [refuse]
    | some first =>
        by_cases reads : page.decode (RMysql.fetched first.account) = account
        · simp [reads, endDialog]
        · simp [reads, refuse]
  · rw [Admits, loginAt]
    simp only [filled]
    rw [loginOn_eq_none _ _ _ (query_login_fails order password works),
      Database.returned, if_neg works]
    simp

end LoginDlg

/-- A login admits only a pair the table holds exactly if the first row that
comes back is not misread as the account, or the table holds the pair
anyway. -/
theorem admits_held_iff (dlg : LoginDlg) (parent : PCClientDlg)
    (db : Database) (order : RowOrder) (account : List WChar)
    (password : TypedText page) :
    (dlg.Admits parent db order account password →
        Holds db account password) ↔
      (∀ first ∈ (db.returned order password.value).head?,
        ¬Misread page account first) ∨
      Holds db account password := by
  rw [LoginDlg.admits_iff]
  constructor
  · intro sound
    by_cases held : Holds db account password
    · exact .inr held
    · refine .inl fun first isFirst misread => held ?_
      exact sound ⟨first, isFirst, misread.1⟩
  · rintro (notMisread | held) ⟨first, isFirst, reads⟩
    · obtain ⟨inTable, hasPassword⟩ :=
        Database.mem_of_mem_returned (List.mem_of_mem_head? isFirst)
      cases RMysql.hasAccount_or_misread reads with
      | inl hasAccount => exact ⟨first, inTable, hasAccount, hasPassword⟩
      | inr misread => exact absurd misread (notMisread first isFirst)
    · exact held

private def word : TypedText .ascii where
  text := [112, 119]
  value := ansi "pw"
  denotes := by decide

def nullAccount : Database :=
  { reachable := true
    accepting := true
    answering := true
    uniqueAccount := false
    rows :=
      [{ ip := none
         port := none
         socket := none
         account := none
         password := some (ansi "pw") }] }

theorem null_row_admits :
    ¬∀ (page : CodePage) (dlg : LoginDlg) (parent : PCClientDlg)
      (db : Database) (order : RowOrder) (account : List WChar)
      (password : TypedText page),
      dlg.Admits parent db order account password →
        Holds db account password := by
  intro sound
  have admitted : (LoginDlg.typed [] []).Admits PCClientDlg.create
      nullAccount .asStored [78, 85, 76, 76] word := by
    rw [LoginDlg.admits_iff]
    exact ⟨_, rfl, by decide⟩
  obtain ⟨row, inTable, ⟨stored, cell, _⟩, _⟩ :=
    sound .ascii _ _ _ _ _ word admitted
  obtain rfl := List.mem_singleton.mp inTable
  cases cell

def registeredAt (parent : PCClientDlg) (account password : TypedText page) :
    StoredRow :=
  (registeredRow parent.getPort parent.getClientSocket account.value
    password.value).stored

/-- One row with these values was added, and no earlier row has the
account. -/
def Added (parent : PCClientDlg) (account password : TypedText page)
    (before later : Database) : Prop :=
  later.rows = before.rows ++ [registeredAt parent account password] ∧
    ∀ row ∈ before.rows, row.account ≠ some account.value

namespace LoginDlg

/-- The registration sets the parent's title and ends with `EndDialog(11)`
only if the row was added; otherwise the table is as before and nobody counts
as logged in. -/
def ReportsTruly (dlg : LoginDlg) (parent : PCClientDlg) (db : Database)
    (order : RowOrder) (account password : TypedText page) : Prop :=
  let (dlg, window, later) :=
    (dlg.filled account.text password.text).registerAt page parent db order
  (window.windowText = account.text ∧ dlg.ended = some 11 →
      Added parent account password db later) ∧
    (¬Added parent account password db later →
      later.rows = db.rows ∧ window = parent ∧ dlg.ended ≠ some 11)

theorem query_register_rows (db : Database) (order : RowOrder)
    (parent : PCClientDlg) (account password : TypedText page) :
    (db.query order (cStr (cStr (registerQuery parent.getPort
        parent.getClientSocket (page.ct2a account.text)
        (page.ct2a password.text))))).2.rows =
      if db.reachable && db.accepting && !db.conflicts account.value then
        db.rows ++ [registeredAt parent account password]
      else db.rows := by
  have noNul : 0 ∉ registerQuery parent.getPort parent.getClientSocket
      (page.ct2a account.text) (page.ct2a password.text) :=
    registerQuery_noNul _ _ account.text password.text
  rw [cStr_cStr, cStr_of_noNul noNul, Database.query,
    parse_registerQuery _ _ account.denotes password.denotes]
  cases db.reachable with
  | false => rfl
  | true =>
      cases db.accepting with
      | false => rfl
      | true => exact db.execute_insert_rows order _

end LoginDlg

/-- A registration reports truly exactly if the database is reached and
carries the insert out and no row has the account. -/
theorem registration_truthful_iff (dlg : LoginDlg) (parent : PCClientDlg)
    (db : Database) (order : RowOrder) (account password : TypedText page) :
    dlg.ReportsTruly parent db order account password ↔
      db.reachable = true ∧ db.accepting = true ∧
        ∀ row ∈ db.rows, row.account ≠ some account.value := by
  have later := LoginDlg.query_register_rows db order parent account password
  constructor
  · intro truly
    obtain ⟨stored, absent⟩ := truly.1 ⟨rfl, rfl⟩
    by_cases inserts :
        (db.reachable && db.accepting && !db.conflicts account.value) = true
    · simp only [Bool.and_eq_true] at inserts
      exact ⟨inserts.1.1, inserts.1.2, absent⟩
    · rw [if_neg inserts] at later
      have unchanged := later.symm.trans stored
      simp at unchanged
  · rintro ⟨reachable, accepting, absent⟩
    have inserts :
        (db.reachable && db.accepting && !db.conflicts account.value) =
          true := by
      rw [reachable, accepting, Database.not_conflicts_of_absent absent]
      rfl
    rw [if_pos inserts] at later
    exact ⟨fun _ => ⟨later, absent⟩, fun missing =>
      absurd ⟨later, absent⟩ missing⟩

theorem unreached_registration_ends :
    ¬∀ (page : CodePage) (dlg : LoginDlg) (parent : PCClientDlg)
      (db : Database) (order : RowOrder) (account password : TypedText page),
      dlg.ReportsTruly parent db order account password := by
  intro truly
  have added := (truly .ascii (LoginDlg.typed [] []) PCClientDlg.create
    { Database.plain [] with reachable := false } .asStored word word).1
    ⟨rfl, rfl⟩
  have nothing : ([] : List StoredRow) =
      [] ++ [registeredAt PCClientDlg.create word word] := added.1
  cases nothing

end OpenChat.Client
