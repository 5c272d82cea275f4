import OpenChat.Client.ClientDlg
import OpenChat.Platform.MySql

/-!
# The login dialog and its statements

`LoginDlg` builds one select and one insert around the typed texts and runs
them through `RMysql::RQuery`.  The statements carry the texts faithfully
exactly when these have no quote and no backslash but directly before a
pattern character.
-/

namespace OpenChat.Client

open Platform Platform.MySql Foundation.StringLiteral

abbrev Result := List (List (List Byte))

/-- `std::string` from a pointer: the bytes before the first NUL. -/
def cStr (bytes : List Byte) : List Byte :=
  bytes.takeWhile fun byte => !isNul byte

theorem cStr_of_noNul {bytes : List Byte} (noNul : 0 ∉ bytes) :
    cStr bytes = bytes :=
  takeWhile_eq_self_of_noNul noNul

theorem cStr_cStr (bytes : List Byte) : cStr (cStr bytes) = cStr bytes :=
  cStr_of_noNul (takeWhile_noNul bytes)

def stdToString (value : Nat) : List Byte :=
  (Nat.toDigits 10 value).map fun char => char.toNat.toUInt8

namespace RMysql

def resize (columns : Nat) (result : Result) : Result :=
  result.take columns ++ List.replicate (columns - result.length) []

/-- One pass of the fetch loop: each column gets its cell of the row. -/
def pushRow (result : Result) (row : List (Option (List Byte))) : Result :=
  result.mapIdx fun i column =>
    match row[i]?.join with
    | some cell => column ++ [cStr cell]
    | none => column ++ [ansi "NULL"]

/-- The text a cell is fetched as. -/
def fetched (cell : Option (List Byte)) : List Byte :=
  match cell with
  | some bytes => cStr bytes
  | none => ansi "NULL"

theorem cStr_fetched (cell : Option (List Byte)) :
    cStr (fetched cell) = fetched cell := by
  cases cell with
  | none => decide
  | some bytes => exact cStr_cStr bytes

theorem fetched_of_noNul {bytes : List Byte} (noNul : 0 ∉ bytes) :
    fetched (some bytes) = bytes :=
  cStr_of_noNul noNul

theorem pushRow_single (column : List (List Byte))
    (cell : Option (List Byte)) :
    pushRow [column] [cell] = [column ++ [fetched cell]] := by
  cases cell with
  | none => rfl
  | some bytes => rfl

theorem foldl_pushRow_single (cells : List (Option (List Byte)))
    (column : List (List Byte)) :
    (cells.map fun cell => [cell]).foldl pushRow [column] =
      [column ++ cells.map fetched] := by
  induction cells generalizing column with
  | nil => simp
  | cons cell cells induction =>
      rw [List.map_cons, List.foldl_cons, pushRow_single, induction,
        List.append_assoc]
      rfl

/-- `RQuery`: what it returns, the result vector and the table. -/
def rQuery (info : List InfoRow) (query : List Byte) (result : Result)
    (select : Bool) : Bool × Result × List InfoRow :=
  match mysqlQuery info (cStr query) with
  | none => (false, result, info)
  | some (info, stored) =>
      if select = false then (true, result, info)
      else
        match stored with
        | none => (false, result, info)
        | some res =>
            (true, res.rows.foldl pushRow (resize res.numFields result), info)

end RMysql

structure LoginDlg where
  account : List WChar
  password : List WChar
  info : Text
  registerEnabled : Bool
  title : Text
  ended : Option Nat
deriving DecidableEq

namespace LoginDlg

/-- The dialog after `OnInitDialog`, with the two texts typed in. -/
def typed (account password : List WChar) : LoginDlg :=
  { account := account
    password := password
    info := []
    registerEnabled := false
    title := []
    ended := none }

def endDialog (dlg : LoginDlg) (result : Nat) : LoginDlg :=
  { dlg with ended := some result }

def refuse (dlg : LoginDlg) : LoginDlg :=
  { dlg with
    info := "没有账号？点击注册！".toList
    registerEnabled := true
    account := []
    password := [] }

/-- The statement of `OnBnClickedMfcbuttonLogin`. -/
def loginQuery (password : List Byte) : List Byte :=
  ansi "select account from info where password = '" ++ password ++ ansi "'"

/-- The statement of `OnBnClickedMfcbuttonRegister`. -/
def registerQuery (port : Nat) (socket : Socket)
    (account password : List Byte) : List Byte :=
  let strQuery := ansi "insert into info(ip,port,socket,account,password) values"
  let ip := PCClientDlg.getQueryString (ansi "127.0.0.1")
  let port := PCClientDlg.getQueryString (stdToString port)
  let socket := PCClientDlg.getQueryString (stdToString socket)
  let account := PCClientDlg.getQueryString account
  let password := PCClientDlg.getQueryString password
  strQuery ++ ansi "(" ++ ip ++ ansi "," ++ port ++ ansi "," ++ socket ++
    ansi "," ++ account ++ ansi "," ++ password ++ ansi ")"

/-- `OnBnClickedMfcbuttonLogin`; `none` is the exception of
`result.at(0)`. -/
def onBnClickedMfcbuttonLogin (page : CodePage) (dlg : LoginDlg)
    (parent : PCClientDlg) (info : List InfoRow) :
    Option (LoginDlg × PCClientDlg × List InfoRow) :=
  let str := loginQuery (page.ct2a dlg.password)
  let (_ok, result, info) := RMysql.rQuery info (cStr str) [] true
  match result[0]? with
  | none => none
  | some [] => some (dlg.refuse, parent, info)
  | some (account :: _) =>
      if page.decode (cStr account) ≠ dlg.account then
        some (dlg.refuse, parent, info)
      else
        some (dlg.endDialog 11, { parent with windowText := dlg.account },
          info)

def onBnClickedMfcbuttonRegister (page : CodePage) (dlg : LoginDlg)
    (parent : PCClientDlg) (info : List InfoRow) :
    LoginDlg × PCClientDlg × List InfoRow :=
  let dlg := { dlg with title := "注册账号".toList }
  let strQuery := registerQuery parent.getPort parent.getClientSocket
    (page.ct2a dlg.account) (page.ct2a dlg.password)
  let (_ok, _result, info) := RMysql.rQuery info (cStr strQuery) [] false
  (dlg.endDialog 11, { parent with windowText := dlg.account }, info)

end LoginDlg

def registeredRow (port : Nat) (socket : Socket)
    (account password : List Byte) : InfoRow :=
  { ip := ansi "127.0.0.1"
    port := stdToString port
    socket := stdToString socket
    account := account
    password := password }

namespace LoginDlg

theorem loginQuery_eq (password : List Byte) :
    loginQuery password = selectText ++ quoted password := by
  have opening : ansi "select account from info where password = '" =
      selectText ++ [quote] := by decide +kernel
  simp only [loginQuery, opening, quoted, List.append_assoc]
  rfl

theorem registerQuery_eq (port : Nat) (socket : Socket)
    (account password : List Byte) :
    registerQuery port socket account password =
      insertText ++ (listed [ansi "127.0.0.1", stdToString port,
        stdToString socket, account, password] ++ ansi ")") := by
  have opening : insertText =
      ansi "insert into info(ip,port,socket,account,password) values" ++
        ansi "(" := by decide +kernel
  have separator : ansi "," = [comma] := rfl
  have isQuoted : ∀ text, PCClientDlg.getQueryString text = quoted text :=
    fun _ => rfl
  simp only [registerQuery, isQuoted, opening, separator, listed,
    List.append_assoc, List.cons_append, List.nil_append]

theorem stdToString_digits (value : Nat) :
    ∀ byte ∈ stdToString value, 48 ≤ byte.toNat ∧ byte.toNat ≤ 57 := by
  intro byte member
  obtain ⟨char, inText, rfl⟩ := List.mem_map.mp member
  have digit := Nat.isDigit_of_mem_toDigits (by decide) (by decide) inText
  have bounds : 48 ≤ char.toNat ∧ char.toNat ≤ 57 := by
    simpa [Char.isDigit, UInt32.le_iff_toNat_le] using digit
  have same : char.toNat.toUInt8.toNat = char.toNat := by
    rw [Nat.toUInt8_eq, UInt8.toNat_ofNat']
    omega
  rwa [same]

private theorem stdToString_faithful (value : Nat) :
    Faithful (stdToString value) := by
  apply faithful_of_plain
  · intro member
    exact absurd (stdToString_digits value quote member).1 (by decide)
  · intro member
    exact absurd (stdToString_digits value backslash member).2 (by decide)

theorem parse_loginQuery_iff (password : List Byte) :
    parseStatement (loginQuery password) =
        some (.selectAccount password) ↔ Plain password := by
  rw [loginQuery_eq, parseStatement_select, parseSelect_eq_iff,
    faithful_iff_plain]

/-- The select of a password whose literal is complete. -/
theorem parse_loginQuery {password value : List Byte}
    (denotes : Denotes password value) :
    parseStatement (loginQuery password) = some (.selectAccount value) := by
  rw [loginQuery_eq, parseStatement_select, parseSelect_of_denotes denotes]

/-- The insert of an account and a password whose literals are complete. -/
theorem parse_registerQuery (port : Nat) (socket : Socket)
    {account password accountValue passwordValue : List Byte}
    (account_denotes : Denotes account accountValue)
    (password_denotes : Denotes password passwordValue) :
    parseStatement (registerQuery port socket account password) =
      some (.insertInfo
        (registeredRow port socket accountValue passwordValue)) := by
  have address : Denotes (ansi "127.0.0.1") (ansi "127.0.0.1") :=
    denotes_of_faithful (faithful_of_plain (by decide) (by decide))
  rw [registerQuery_eq, parseStatement_insert]
  apply parseInsert_of_denotes
  exact .cons address
    (.cons (denotes_of_faithful (stdToString_faithful port))
      (.cons (denotes_of_faithful (stdToString_faithful socket))
        (.cons account_denotes (.cons password_denotes .nil))))

theorem parse_registerQuery_iff (port : Nat) (socket : Socket)
    (account password : List Byte) :
    parseStatement (registerQuery port socket account password) =
        some (.insertInfo (registeredRow port socket account password)) ↔
      Plain account ∧ Plain password := by
  have address : Faithful (ansi "127.0.0.1") :=
    faithful_of_plain (by decide) (by decide)
  have inserted := parseInsert_eq_iff
    (registeredRow port socket account password)
  simp only [registeredRow] at inserted
  rw [registerQuery_eq, parseStatement_insert, registeredRow, inserted]
  rw [← faithful_iff_plain, ← faithful_iff_plain]
  simp [address, stdToString_faithful]

/-- Both statements parse as the fixed select and the fixed insert with the
typed texts as data exactly if neither text has a quote or a backslash that
does not stand directly before a pattern character. -/
theorem queries_keep_input_iff (port : Nat) (socket : Socket)
    (account password : List Byte) :
    (parseStatement (loginQuery password) =
        some (.selectAccount password) ∧
      parseStatement (registerQuery port socket account password) =
        some (.insertInfo (registeredRow port socket account password))) ↔
      Plain account ∧ Plain password := by
  rw [parse_loginQuery_iff, parse_registerQuery_iff]
  constructor
  · intro both
    exact both.2
  · intro plain
    exact ⟨plain.2, plain⟩

theorem quote_leaves_literal :
    ¬∀ (port : Nat) (socket : Socket) (account password : List Byte),
      parseStatement (loginQuery password) =
          some (.selectAccount password) ∧
        parseStatement (registerQuery port socket account password) =
          some (.insertInfo
            (registeredRow port socket account password)) := by
  intro keeps
  have login := (keeps 8888 8 (ansi "a") (ansi "' or ''='")).1
  exact absurd login (by decide)

end LoginDlg

end OpenChat.Client
