import OpenChat.Foundation.StringLiteral
import OpenChat.Platform.Winsock

/-!
# The info table behind the MySQL client calls

The database as the login dialog needs it: one table whose columns are byte
strings, the two statement forms the dialog sends, and the results of
`mysql_query`, `mysql_store_result`, `mysql_num_fields` and
`mysql_fetch_row`.  Comparison is byte-wise and a select returns its rows in
the order they were inserted.
-/

namespace OpenChat.Platform.MySql

open Foundation.StringLiteral

def ansi (text : String) : List Byte :=
  text.toList.map fun char => char.toNat.toUInt8

structure InfoRow where
  ip : List Byte
  port : List Byte
  socket : List Byte
  account : List Byte
  password : List Byte
deriving DecidableEq

inductive Statement where
  | selectAccount (password : List Byte)
  | insertInfo (row : InfoRow)
deriving DecidableEq

def selectText : List Byte :=
  ansi "select account from info where password = "

def insertText : List Byte :=
  ansi "insert into info(ip,port,socket,account,password) values("

/-- The fixed select: its text, one literal, and nothing behind it. -/
def parseSelect (input : List Byte) : Option Statement :=
  (expect selectText input).bind fun literal =>
    match lexLiteral literal with
    | some (password, []) => some (.selectAccount password)
    | _ => none

/-- The fixed insert: its text, five literals and the closing parenthesis. -/
def parseInsert (input : List Byte) : Option Statement :=
  (expect insertText input).bind fun literals =>
    match lexValues 5 literals with
    | some ([ip, port, socket, account, password], rest) =>
        if rest = ansi ")" then
          some (.insertInfo
            { ip := ip
              port := port
              socket := socket
              account := account
              password := password })
        else none
    | _ => none

def parseStatement (input : List Byte) : Option Statement :=
  (parseSelect input).orElse fun _ => parseInsert input

/-- A stored result: its columns, and the rows to fetch, whose cells may be
NULL. -/
structure MysqlRes where
  numFields : Nat
  rows : List (List (Option (List Byte)))

/-- `mysql_query` and the result `mysql_store_result` would return; `none` is
a nonzero return. -/
def mysqlQuery (info : List InfoRow) (query : List Byte) :
    Option (List InfoRow × Option MysqlRes) :=
  (parseStatement query).map fun statement =>
    match statement with
    | .selectAccount password =>
        (info,
          some
            { numFields := 1
              rows := (info.filter fun row => row.password = password).map
                fun row => [some row.account] })
    | .insertInfo row => (info ++ [row], none)

theorem parseSelect_eq_iff (password : List Byte) :
    parseSelect (selectText ++ quoted password) =
        some (.selectAccount password) ↔ Faithful password := by
  have closed : ([] : List Byte).head? ≠ some quote := by simp
  rw [← lexLiteral_quoted_iff closed, List.append_nil, parseSelect,
    expect_append, Option.bind_some]
  constructor
  · intro parsed
    split at parsed
    · rename_i value found
      obtain rfl := Statement.selectAccount.inj (Option.some.inj parsed)
      exact found
    · simp at parsed
  · intro lexed
    rw [lexed]

theorem parseInsert_eq_iff (row : InfoRow) :
    parseInsert (insertText ++ (listed [row.ip, row.port, row.socket,
        row.account, row.password] ++ ansi ")")) =
        some (.insertInfo row) ↔
      ∀ value ∈ [row.ip, row.port, row.socket, row.account, row.password],
        Faithful value := by
  have closed : (ansi ")").head? ≠ some quote := by decide
  rw [← lexValues_listed_iff closed, parseInsert, expect_append,
    Option.bind_some]
  constructor
  · intro parsed
    split at parsed
    · rename_i ip port socket account password rest found
      simp only [Option.ite_none_right_eq_some, Option.some.injEq,
        Statement.insertInfo.injEq] at parsed
      obtain ⟨rfl, rfl⟩ := parsed
      exact found
    · simp at parsed
  · intro lexed
    simp only [List.length_cons, List.length_nil, Nat.zero_add,
      Nat.reduceAdd] at lexed
    rw [lexed]
    simp

theorem parseSelect_of_denotes {password value : List Byte}
    (denotes : Denotes password value) :
    parseSelect (selectText ++ quoted password) =
      some (.selectAccount value) := by
  have closed : ([] : List Byte).head? ≠ some quote := by simp
  have lexed := lexLiteral_quoted denotes closed
  rw [List.append_nil] at lexed
  rw [parseSelect, expect_append, Option.bind_some, lexed]

theorem parseInsert_of_denotes {texts : List (List Byte)} {row : InfoRow}
    (denote : List.Forall₂ Denotes texts
      [row.ip, row.port, row.socket, row.account, row.password]) :
    parseInsert (insertText ++ (listed texts ++ ansi ")")) =
      some (.insertInfo row) := by
  have closed : (ansi ")").head? ≠ some quote := by decide
  have five : texts.length = 5 := denote.length_eq
  have lexed := lexValues_listed denote closed
  rw [five] at lexed
  rw [parseInsert, expect_append, Option.bind_some, lexed]
  rfl

theorem parseStatement_select (later : List Byte) :
    parseStatement (selectText ++ later) =
      parseSelect (selectText ++ later) := by
  have notInsert : parseInsert (selectText ++ later) = none := rfl
  rw [parseStatement, notInsert]
  cases parseSelect (selectText ++ later) <;> rfl

theorem parseStatement_insert (later : List Byte) :
    parseStatement (insertText ++ later) =
      parseInsert (insertText ++ later) := by
  have notSelect : parseSelect (insertText ++ later) = none := rfl
  rw [parseStatement, notSelect]
  rfl

end OpenChat.Platform.MySql
