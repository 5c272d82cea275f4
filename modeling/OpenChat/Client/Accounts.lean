import OpenChat.Client.LoginDlg
import OpenChat.Foundation.Run

/-!
# Registering and logging in

Runs of registrations and logins on one info table.  The login selects by
password alone and looks at the first row only, so whether an account gets in
is decided by the earliest registration with its password.
-/

namespace OpenChat.Client

open Platform Platform.MySql Foundation Foundation.StringLiteral

/-- A typed text whose literal is complete, with what the literal denotes; the
statements it is put into succeed. -/
structure TypedText (page : CodePage) where
  text : List WChar
  value : List Byte
  denotes : Denotes (page.ct2a text) value

/-- Whatever is typed without a quote or a backslash makes a literal for the
typed bytes. -/
def TypedText.plain (page : CodePage) (text : List WChar)
    (noQuote : quote ∉ page.ct2a text)
    (noBackslash : backslash ∉ page.ct2a text) : TypedText page where
  text := text
  value := page.ct2a text
  denotes := denotes_of_faithful (faithful_of_plain noQuote noBackslash)

theorem TypedText.value_eq {page : CodePage} (typed : TypedText page)
    (noQuote : quote ∉ page.ct2a typed.text)
    (noBackslash : backslash ∉ page.ct2a typed.text) :
    typed.value = page.ct2a typed.text := by
  have itself : Denotes (page.ct2a typed.text) (page.ct2a typed.text) :=
    (plain page typed.text noQuote noBackslash).denotes
  have same := typed.denotes.symm.trans itself
  exact congrArg Prod.fst (Option.some.inj same)

/-- One visit of the dialog: the two texts are typed and a button pressed.
The login puts no more than the password into its statement. -/
inductive Visit (page : CodePage) where
  | login (account : List WChar) (password : TypedText page)
  | register (account password : TypedText page)

structure Accounts where
  parent : PCClientDlg
  info : List InfoRow

variable {page : CodePage}

namespace Accounts

def login (accounts : Accounts) (account : List WChar)
    (password : TypedText page) : Option (LoginDlg × Accounts) :=
  (LoginDlg.onBnClickedMfcbuttonLogin page
    (LoginDlg.typed account password.text) accounts.parent
    accounts.info).map fun result =>
      (result.1, { parent := result.2.1, info := result.2.2 })

def register (accounts : Accounts) (account password : TypedText page) :
    LoginDlg × Accounts :=
  let result := LoginDlg.onBnClickedMfcbuttonRegister page
    (LoginDlg.typed account.text password.text) accounts.parent accounts.info
  (result.1, { parent := result.2.1, info := result.2.2 })

def visit (accounts : Accounts) : Visit page → Option Accounts
  | .login account password => (accounts.login account password).map Prod.snd
  | .register account password =>
      some (accounts.register account password).2

def LogsIn (accounts : Accounts) (account : List WChar)
    (password : TypedText page) : Prop :=
  ∃ dlg later, accounts.login account password = some (dlg, later) ∧
    dlg.ended = some 11

end Accounts

def visits (page : CodePage) : System Accounts (Visit page) :=
  { step := Accounts.visit }

/-- The account of a registration with this password. -/
def Visit.accountFor (password : TypedText page) :
    Visit page → Option (TypedText page)
  | .register account used =>
      if used.value = password.value then some account else none
  | .login _ _ => none

def Visit.added : Visit page → Option (List Byte × List Byte)
  | .register account password => some (account.value, password.value)
  | .login _ _ => none

def credentials (row : InfoRow) : List Byte × List Byte :=
  (row.account, row.password)

namespace LoginDlg

theorem loginQuery_noNul (password : List WChar) :
    0 ∉ loginQuery (page.ct2a password) := by
  have noNul := page.ct2a_noNul password
  have opening : (0 : Byte) ∉
      ansi "select account from info where password = '" := by
    decide +kernel
  have closing : (0 : Byte) ∉ ansi "'" := by decide
  simp only [loginQuery, List.mem_append, not_or]
  exact ⟨⟨opening, noNul⟩, closing⟩

private theorem stdToString_noNul (value : Nat) : 0 ∉ stdToString value := by
  intro member
  exact absurd (stdToString_digits value 0 member).1 (by decide)

theorem registerQuery_noNul (port : Nat) (socket : Socket)
    (account password : List WChar) :
    0 ∉ registerQuery port socket (page.ct2a account)
      (page.ct2a password) := by
  have opening : (0 : Byte) ∉
      ansi "insert into info(ip,port,socket,account,password) values" := by
    decide +kernel
  have address : (0 : Byte) ∉ ansi "127.0.0.1" := by decide
  have parts : (0 : Byte) ∉ ansi "(" ∧ (0 : Byte) ∉ ansi "," ∧
      (0 : Byte) ∉ ansi ")" := by decide
  have quoted_ : ∀ text : List Byte, 0 ∉ text →
      0 ∉ PCClientDlg.getQueryString text := by
    intro text noNul
    simpa [PCClientDlg.getQueryString] using noNul
  simp only [registerQuery, List.mem_append, not_or]
  simp only [opening, parts, quoted_ _ address,
    quoted_ _ (stdToString_noNul port), quoted_ _ (stdToString_noNul socket),
    quoted_ _ (page.ct2a_noNul account), quoted_ _ (page.ct2a_noNul password),
    not_false_eq_true, and_self]

theorem rQuery_select {query password : List Byte} (noNul : 0 ∉ query)
    (parsed : parseStatement query = some (.selectAccount password))
    (info : List InfoRow) :
    RMysql.rQuery info (cStr query) [] true =
      (true,
        [(info.filter fun row => row.password = password).map
          fun row => cStr row.account],
        info) := by
  rw [cStr_of_noNul noNul, RMysql.rQuery, cStr_of_noNul noNul, mysqlQuery,
    parsed]
  simp only [Option.map_some, Bool.true_eq_false, if_false, Prod.mk.injEq,
    true_and, and_true]
  have fetched := RMysql.foldl_pushRow_single ((info.filter fun row =>
    row.password = password).map fun row => some row.account) []
  rw [List.map_map, List.map_map] at fetched
  exact fetched

theorem rQuery_insert {query : List Byte} {row : InfoRow}
    (noNul : 0 ∉ query)
    (parsed : parseStatement query = some (.insertInfo row))
    (info : List InfoRow) :
    RMysql.rQuery info (cStr query) [] false = (true, [], info ++ [row]) := by
  rw [cStr_of_noNul noNul, RMysql.rQuery, cStr_of_noNul noNul, mysqlQuery,
    parsed]
  rfl

theorem rQuery_login (info : List InfoRow) (password : TypedText page) :
    RMysql.rQuery info (cStr (loginQuery (page.ct2a password.text))) [] true =
      (true,
        [(info.filter fun row => row.password = password.value).map
          fun row => cStr row.account],
        info) := by
  apply rQuery_select
  · exact loginQuery_noNul password.text
  · exact parse_loginQuery password.denotes

theorem rQuery_register (info : List InfoRow) (port : Nat) (socket : Socket)
    (account password : TypedText page) :
    RMysql.rQuery info
        (cStr (registerQuery port socket (page.ct2a account.text)
          (page.ct2a password.text))) [] false =
      (true, [],
        info ++ [registeredRow port socket account.value
          password.value]) := by
  apply rQuery_insert
  · exact registerQuery_noNul port socket account.text password.text
  · exact parse_registerQuery port socket account.denotes password.denotes

end LoginDlg

namespace Accounts

/-- The login looks at the first row with the typed password. -/
theorem logsIn_iff (accounts : Accounts) (account : List WChar)
    (password : TypedText page) :
    accounts.LogsIn account password ↔
      ∃ row, accounts.info.find? (fun row =>
          row.password = password.value) = some row ∧
        page.decode (cStr row.account) = account := by
  rw [LogsIn, login, LoginDlg.onBnClickedMfcbuttonLogin]
  simp only [LoginDlg.typed, LoginDlg.rQuery_login, List.getElem?_cons_zero]
  rw [← List.head?_filter]
  cases selected : accounts.info.filter
      fun row => row.password = password.value with
  | nil => simp [LoginDlg.refuse]
  | cons row rows =>
      simp only [List.map_cons, List.head?_cons, Option.some.injEq,
        exists_eq_left', cStr_cStr]
      by_cases same : page.decode (cStr row.account) = account
      · simp [same, LoginDlg.endDialog]
      · simp [same, LoginDlg.refuse]

theorem login_info {accounts later : Accounts} {dlg : LoginDlg}
    {account : List WChar} {password : TypedText page}
    (done : accounts.login account password = some (dlg, later)) :
    later.info = accounts.info := by
  rw [login, LoginDlg.onBnClickedMfcbuttonLogin] at done
  simp only [LoginDlg.typed, LoginDlg.rQuery_login,
    List.getElem?_cons_zero] at done
  split at done
  · simp at done
  · simp only [Option.map_some, Option.some.injEq, Prod.mk.injEq] at done
    rw [← done.2]
  · split at done
    · simp only [Option.map_some, Option.some.injEq, Prod.mk.injEq] at done
      rw [← done.2]
    · simp only [Option.map_some, Option.some.injEq, Prod.mk.injEq] at done
      rw [← done.2]

theorem register_info (accounts : Accounts)
    (account password : TypedText page) :
    (accounts.register account password).2.info.map credentials =
      accounts.info.map credentials ++ [(account.value, password.value)] := by
  rw [register, LoginDlg.onBnClickedMfcbuttonRegister]
  simp only [LoginDlg.typed, LoginDlg.rQuery_register, List.map_append]
  rfl

theorem visit_info {accounts later : Accounts} {visit : Visit page}
    (taken : accounts.visit visit = some later) :
    later.info.map credentials =
      accounts.info.map credentials ++ visit.added.toList := by
  cases visit with
  | login account password =>
      obtain ⟨⟨dlg, after⟩, done, rfl⟩ := Option.map_eq_some_iff.mp taken
      rw [login_info done]
      simp [Visit.added]
  | register account password =>
      obtain rfl := Option.some.inj taken
      exact register_info accounts account password

theorem run_info {accounts later : Accounts} {past : List (Visit page)}
    (run : (visits page).Run accounts past later) :
    later.info.map credentials =
      accounts.info.map credentials ++ past.filterMap Visit.added := by
  induction run with
  | nil => simp
  | @cons start middle finish visit past taken _ induction =>
      rw [induction, visit_info taken, List.append_assoc]
      cases added : visit.added <;> simp [added]

end Accounts

private theorem find?_added (password : TypedText page)
    (past : List (Visit page)) :
    (past.filterMap Visit.added).find? (fun columns =>
        columns.2 = password.value) =
      (past.findSome? (Visit.accountFor password)).map fun account =>
        (account.value, password.value) := by
  induction past with
  | nil => rfl
  | cons visit past induction =>
      cases visit with
      | login account used => exact induction
      | register account used =>
          by_cases same : used.value = password.value
          · simp [Visit.added, Visit.accountFor, same]
          · simpa [Visit.added, Visit.accountFor, same] using induction

/-- After any run from an empty table, a login with an account and a password
ends with `EndDialog(11)` exactly if the earliest registration with that
password was for an account which reads back as the typed one. -/
theorem login_ends_iff {parent : PCClientDlg} {past : List (Visit page)}
    {accounts : Accounts}
    (run : (visits page).Run { parent := parent, info := [] } past accounts)
    (account : List WChar) (password : TypedText page) :
    accounts.LogsIn account password ↔
      ∃ earliest, past.findSome? (Visit.accountFor password) = some earliest ∧
        page.decode (cStr earliest.value) = account := by
  have columns : (accounts.info.find? fun row =>
        row.password = password.value).map credentials =
      (past.findSome? (Visit.accountFor password)).map fun earliest =>
        (earliest.value, password.value) := by
    rw [← find?_added]
    have added := Accounts.run_info run
    rw [List.map_nil, List.nil_append] at added
    rw [← added, List.find?_map]
    rfl
  rw [accounts.logsIn_iff]
  cases selected : accounts.info.find? fun row =>
      row.password = password.value with
  | none =>
      rw [selected, Option.map_none, eq_comm,
        Option.map_eq_none_iff] at columns
      simp [columns]
  | some row =>
      rw [selected, Option.map_some, eq_comm,
        Option.map_eq_some_iff] at columns
      obtain ⟨earliest, found, same⟩ := columns
      have stored : row.account = earliest.value :=
        (congrArg Prod.fst same).symm
      simp [found, stored]

private def wide (text : String) : List WChar :=
  text.toList.map fun char => char.toNat.toUInt16

private def alice : TypedText .ascii where
  text := wide "alice"
  value := ansi "alice"
  denotes := by decide

private def bob : TypedText .ascii where
  text := wide "bob"
  value := ansi "bob"
  denotes := by decide

private def secret : TypedText .ascii where
  text := wide "secret"
  value := ansi "secret"
  denotes := by decide

def sharedPassword : List (Visit .ascii) :=
  [.register alice secret, .register bob secret]

theorem sharedPassword_enabled :
    ((visits .ascii).exec { parent := PCClientDlg.create, info := [] }
      sharedPassword).isSome := by decide

theorem first_account_logs_in :
    (((visits .ascii).exec { parent := PCClientDlg.create, info := [] }
      sharedPassword).get sharedPassword_enabled).LogsIn alice.text secret :=
  (login_ends_iff (System.run_get sharedPassword_enabled) alice.text
    secret).mpr ⟨alice, rfl, by decide⟩

def Visit.texts : Visit page → List (List WChar)
  | .login account password => [account, password.text]
  | .register account password => [account.text, password.text]

/-- The second account with a password cannot log in, although no text has a
quote or a backslash. -/
theorem registered_account_is_refused :
    ¬∀ (page : CodePage) (parent : PCClientDlg) (past : List (Visit page))
      (accounts : Accounts) (account password : TypedText page),
      (∀ visit ∈ past, ∀ text ∈ visit.texts,
        quote.toUInt16 ∉ text ∧ backslash.toUInt16 ∉ text) →
      (visits page).Run { parent := parent, info := [] } past accounts →
      Visit.register account password ∈ past →
      accounts.LogsIn account.text password := by
  intro logsIn
  have unquoted : ∀ visit ∈ sharedPassword, ∀ text ∈ visit.texts,
      quote.toUInt16 ∉ text ∧ backslash.toUInt16 ∉ text := by decide
  obtain ⟨row, found, same⟩ := (Accounts.logsIn_iff _ bob.text secret).mp
    (logsIn .ascii PCClientDlg.create sharedPassword _ bob secret unquoted
      (System.run_get sharedPassword_enabled) (by simp [sharedPassword]))
  obtain rfl := Option.some.inj (found.symm.trans
    (show _ = some (registeredRow 0 invalidSocket (ansi "alice")
      (ansi "secret")) by decide))
  exact absurd same (by decide)

end OpenChat.Client
