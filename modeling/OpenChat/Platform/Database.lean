import OpenChat.Platform.MySql

/-!
# Tables with NULLs and queries that fail

The info table as a server may hold it: any cell can be NULL, the account may
have a unique key, and the connection may never have been established.  A
select returns its rows in an order the server chooses.
-/

namespace OpenChat.Platform.MySql

/-- A result set has a column at least, and every row a cell for each. -/
structure ResultSet extends MysqlRes where
  hasColumn : 0 < numFields
  filled : ∀ row ∈ rows, row.length = numFields

/-- What becomes of a query.  `mysql_query` returns nonzero for the first
three, and `mysql_store_result` NULL for the fourth. -/
inductive QueryOutcome where
  | notConnected
  | rejected
  | connectionLost
  | noResultSet
  | resultSet (res : ResultSet)

/-- A row of the table; `none` is NULL. -/
structure StoredRow where
  ip : Option (List Byte)
  port : Option (List Byte)
  socket : Option (List Byte)
  account : Option (List Byte)
  password : Option (List Byte)
deriving DecidableEq

/-- A row as an insert of five values leaves it. -/
def InfoRow.stored (row : InfoRow) : StoredRow :=
  { ip := some row.ip
    port := some row.port
    socket := some row.socket
    account := some row.account
    password := some row.password }

structure RowOrder where
  arrange : List StoredRow → List StoredRow
  perm : ∀ rows, (arrange rows).Perm rows

def RowOrder.asStored : RowOrder where
  arrange := id
  perm := fun rows => List.Perm.refl rows

/-- The connection to the server, whether it carries out statements and its
answers come back, whether the account is a unique key, and the table. -/
structure Database where
  reachable : Bool
  accepting : Bool
  answering : Bool
  uniqueAccount : Bool
  rows : List StoredRow
deriving DecidableEq

namespace Database

/-- The rows with the password, as the select finds them. -/
def matching (db : Database) (password : List Byte) : List StoredRow :=
  db.rows.filter fun row => row.password = some password

def accountsOf (rows : List StoredRow) : ResultSet where
  numFields := 1
  rows := rows.map fun row => [row.account]
  hasColumn := Nat.one_pos
  filled := by
    intro row member
    obtain ⟨stored, _, rfl⟩ := List.mem_map.mp member
    rfl

def conflicts (db : Database) (account : List Byte) : Bool :=
  db.uniqueAccount && db.rows.any fun row => row.account = some account

def execute (db : Database) (order : RowOrder) :
    Statement → QueryOutcome × Database
  | .selectAccount password =>
      (.resultSet (accountsOf (order.arrange (db.matching password))), db)
  | .insertInfo row =>
      if db.conflicts row.account then (.rejected, db)
      else (.noResultSet, { db with rows := db.rows ++ [row.stored] })

def query (db : Database) (order : RowOrder) (text : List Byte) :
    QueryOutcome × Database :=
  if db.reachable then
    match parseStatement text with
    | none => (.rejected, db)
    | some statement =>
        if db.accepting then
          let (outcome, later) := db.execute order statement
          (if db.answering then outcome else .connectionLost, later)
        else (.rejected, db)
  else (.notConnected, db)

/-- The server and the table without NULLs, keys and failures. -/
def plain (info : List InfoRow) : Database :=
  { reachable := true
    accepting := true
    answering := true
    uniqueAccount := false
    rows := info.map InfoRow.stored }

theorem execute_insert_rows (db : Database) (order : RowOrder)
    (row : InfoRow) :
    (db.execute order (.insertInfo row)).2.rows =
      if !db.conflicts row.account then db.rows ++ [row.stored]
      else db.rows := by
  rw [execute]
  cases db.conflicts row.account with
  | false => rfl
  | true => rfl

theorem not_conflicts_of_absent {db : Database} {account : List Byte}
    (absent : ∀ row ∈ db.rows, row.account ≠ some account) :
    db.conflicts account = false := by
  have missing : (db.rows.any fun row => row.account = some account) =
      false := by
    simpa using absent
  rw [conflicts, missing, Bool.and_false]

def returned (db : Database) (order : RowOrder) (password : List Byte) :
    List StoredRow :=
  if db.reachable && db.accepting && db.answering then
    order.arrange (db.matching password)
  else []

theorem mem_of_mem_returned {db : Database} {order : RowOrder}
    {password : List Byte} {row : StoredRow}
    (member : row ∈ db.returned order password) :
    row ∈ db.rows ∧ row.password = some password := by
  rw [returned] at member
  split at member
  · rw [(order.perm _).mem_iff, matching] at member
    simpa using member
  · cases member

theorem matching_plain (info : List InfoRow) (password : List Byte) :
    (plain info).matching password =
      (info.filter fun row => row.password = password).map
        InfoRow.stored := by
  rw [matching, plain, List.filter_map]
  congr 2
  funext row
  simp [InfoRow.stored]

theorem query_plain (info : List InfoRow) (text : List Byte) :
    (plain info).query .asStored text =
      match parseStatement text with
      | none => (.rejected, plain info)
      | some (.selectAccount password) =>
          (.resultSet (accountsOf ((info.filter fun row =>
            row.password = password).map InfoRow.stored)), plain info)
      | some (.insertInfo row) => (.noResultSet, plain (info ++ [row])) := by
  rw [query, if_pos (show (plain info).reachable = true from rfl)]
  cases parseStatement text with
  | none => rfl
  | some statement =>
      cases statement with
      | selectAccount password =>
          simp only [← matching_plain]
          rfl
      | insertInfo row => simp [execute, conflicts, plain]

end Database

end OpenChat.Platform.MySql
