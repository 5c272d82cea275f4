import OpenChat.Foundation.Positions
import OpenChat.Foundation.Run
import OpenChat.Server.ServerDlg

/-!
# Row indices held across calls

`InsertClient` keeps the index of the row it inserted for three calls of
`SetItemText`, and every `RemoveClient` the index of the row it has read until
it deletes it.  Each call on the list control is a step of its own here.  An
index goes stale when another thread inserts or deletes at or in front of it.
-/

namespace OpenChat.Server

open Platform Foundation Foundation.KeyedList Foundation.Positions

/-- The connection `InsertClient` is called for, and what `ClientNum()` was at
its `InsertItem`. -/
structure Joining where
  clientNum : Nat
  clientAddr : SockaddrIn
  socket : Socket
deriving DecidableEq

/-- What `InsertClient` has done. -/
inductive InsertPhase where
  | before
  | inserted (nRow : Nat)
  | portSet (nRow : Nat)
  | ipSet (nRow : Nat)
  | done
deriving DecidableEq

/-- What a `RemoveClient` does next: compare `i` with the item count, read the
text of row `i`, or delete row `i`. -/
inductive RemovePhase where
  | testing (i : Nat)
  | reading (i : Nat)
  | deleting (i : Nat)
  | done
deriving DecidableEq

structure Remover where
  item : CClientItem
  phase : RemovePhase
deriving DecidableEq

/-- The list control and the calls on it.  `own` is where the row of the
`InsertClient` now stands; `writes` has the index of every `SetItemText` with
`own` at that moment, and `deletions` the port every `DeleteItem` was meant for
with the row at its index. -/
structure RowCalls where
  list : CListCtrl
  own : Option Nat
  insert : InsertPhase
  removers : List Remover
  writes : List (Nat × Option Nat)
  deletions : List (Nat × Option ListRow)
deriving DecidableEq

/-- The next call of `InsertClient`, or of a `RemoveClient`. -/
inductive RowEvent where
  | insertClient
  | removeClient (j : Nat)
deriving DecidableEq

def InsertPhase.pendingRow : InsertPhase → Option Nat
  | .inserted nRow => some nRow
  | .portSet nRow => some nRow
  | .ipSet nRow => some nRow
  | _ => none

def RemovePhase.looked : RemovePhase → Option Nat
  | .reading i => some i
  | _ => none

def RemovePhase.chosen : RemovePhase → Option Nat
  | .deleting i => some i
  | _ => none

namespace RowCalls

def start (rows : CListCtrl) (items : List CClientItem) : RowCalls :=
  { list := rows
    own := none
    insert := .before
    removers := items.map fun item => { item := item, phase := .testing 0 }
    writes := []
    deletions := [] }

/-- Where a row stands after row `i` was deleted. -/
def shifted (own : Option Nat) (i : Nat) : Option Nat :=
  own.bind fun k => if i < k then some (k - 1)
    else if i = k then none
    else some k

def setText (world : RowCalls) (nRow column : Nat) (text : Text)
    (phase : InsertPhase) : RowCalls :=
  { world with
    list := world.list.setItemText nRow column text
    insert := phase
    writes := world.writes ++ [(nRow, world.own)] }

def insertClient (joining : Joining) (world : RowCalls) : Option RowCalls :=
  match world.insert with
  | .before =>
      let (nRow, list) := world.list.insertItem joining.clientNum []
      some
        { world with
          list := list
          own := some nRow
          insert := .inserted nRow }
  | .inserted nRow =>
      some (world.setText nRow 0
        (formatD (ntohs joining.clientAddr.sinPort).toNat) (.portSet nRow))
  | .portSet nRow =>
      some (world.setText nRow 1 (inetNtop joining.clientAddr.sinAddr)
        (.ipSet nRow))
  | .ipSet nRow =>
      some (world.setText nRow 2 (formatLd joining.socket) .done)
  | .done => none

def delete (world : RowCalls) (j : Nat) (remover : Remover) (i : Nat) :
    RowCalls :=
  { world with
    list := world.list.deleteItem i
    own := shifted world.own i
    removers := world.removers.set j { remover with phase := .done }
    deletions := world.deletions ++ [(remover.item.cPort, world.list[i]?)] }

/-- What the loop of a `RemoveClient` goes on with after a test or a read. -/
def nextPhase (list : CListCtrl) (item : CClientItem) :
    RemovePhase → RemovePhase
  | .testing i => if i < list.getItemCount then .reading i else .done
  | .reading i =>
      if ttoi (list.getItemText i 0) = (item.cPort : Int) then .deleting i
      else .testing (i + 1)
  | phase => phase

def goOn (world : RowCalls) (j : Nat) (item : CClientItem)
    (phase : RemovePhase) : RowCalls :=
  { world with
    removers := world.removers.set j { item := item, phase := phase } }

def removeClient (world : RowCalls) (j : Nat) (remover : Remover) :
    Option RowCalls :=
  match remover.phase with
  | .done => none
  | .deleting i => some (world.delete j remover i)
  | phase =>
      some (world.goOn j remover.item
        (nextPhase world.list remover.item phase))

def step (joining : Joining) (world : RowCalls) : RowEvent → Option RowCalls
  | .insertClient => world.insertClient joining
  | .removeClient j =>
      (world.removers[j]?).bind fun remover => world.removeClient j remover

def process (joining : Joining) : System RowCalls RowEvent :=
  { step := step joining }

/-- The calls of an `InsertClient` nobody interferes with. -/
theorem insertClient_alone (dlg : PCServerDlg) (clientAddr : SockaddrIn)
    (socket : Socket) (items : List CClientItem) :
    let joining : Joining :=
      { clientNum := dlg.mServer.clientNum
        clientAddr := clientAddr
        socket := socket }
    ((process joining).exec (start dlg.mClientList items)
        (List.replicate 4 .insertClient)).map list =
      some (dlg.insertClient clientAddr socket).mClientList := rfl

theorem goOn_found {world : RowCalls} {j : Nat} {remover : Remover}
    (found : world.removers[j]? = some remover) (item : CClientItem)
    (phase : RemovePhase) :
    (world.goOn j item phase).removers[j]? =
      some { item := item, phase := phase } := by
  obtain ⟨inside, _⟩ := List.getElem?_eq_some_iff.mp found
  exact List.getElem?_set_self inside

theorem reaches_goOn (joining : Joining) {world : RowCalls} {j : Nat}
    {item : CClientItem} {phase : RemovePhase}
    (found : world.removers[j]? = some { item := item, phase := phase })
    (inLoop : phase ≠ .done ∧ phase.chosen = none) :
    (process joining).Reaches world
      (world.goOn j item (nextPhase world.list item phase)) := by
  apply System.Reaches.step (RowEvent.removeClient j)
  cases phase with
  | deleting i => cases inLoop.2
  | done => exact (inLoop.1 rfl).elim
  | _ => simp [process, step, found, removeClient]

theorem reaches_delete (joining : Joining) {world : RowCalls} {j i : Nat}
    {item : CClientItem}
    (found : world.removers[j]? =
      some { item := item, phase := .deleting i }) :
    (process joining).Reaches world
      (world.delete j { item := item, phase := .deleting i } i) := by
  apply System.Reaches.step (RowEvent.removeClient j)
  simp [process, step, found, removeClient]

theorem reaches_readRow (joining : Joining) {world : RowCalls} {j : Nat}
    {item : CClientItem} {before rest : CListCtrl} {row : ListRow}
    (found : world.removers[j]? =
      some { item := item, phase := .testing before.length })
    (rows : world.list = before ++ row :: rest) :
    (process joining).Reaches world
      ((world.goOn j item (.reading before.length)).goOn j item
        (if rowPort row = (item.cPort : Int) then .deleting before.length
        else .testing (before.length + 1))) := by
  have there : before.length < world.list.getItemCount := by
    rw [rows, CListCtrl.getItemCount, List.length_append, List.length_cons]
    omega
  have text : ttoi (world.list.getItemText before.length 0) =
      rowPort row := by
    rw [rows, CListCtrl.getItemText, List.getElem?_append_right le_rfl,
      Nat.sub_self]
    rfl
  have tested := reaches_goOn joining found (by simp [RemovePhase.chosen])
  rw [nextPhase, if_pos there] at tested
  have read := reaches_goOn joining
    (goOn_found found item (.reading before.length))
    (by simp [RemovePhase.chosen])
  have sameText : ttoi ((world.goOn j item
      (.reading before.length)).list.getItemText before.length 0) =
        rowPort row := text
  rw [nextPhase, sameText] at read
  exact tested.trans read

/-- From the test of some row on, a `RemoveClient` nobody interferes with
deletes the first row that shows the port. -/
theorem removeClient_alone_from (joining : Joining) {world : RowCalls} {j : Nat}
    {item : CClientItem} {before rest : CListCtrl}
    (found : world.removers[j]? =
      some { item := item, phase := .testing before.length })
    (rows : world.list = before ++ rest)
    (noEarlier : ∀ row ∈ before, rowPort row ≠ (item.cPort : Int)) :
    ∃ finish, (process joining).Reaches world finish ∧
      finish.list = removeFirst rowPort (item.cPort : Int) world.list := by
  induction rest generalizing before world with
  | nil =>
      have absent : removeFirst rowPort (item.cPort : Int) world.list =
          world.list := by
        rw [rows, List.append_nil]
        exact List.eraseP_of_forall_not (by simpa using noEarlier)
      exact ⟨_, reaches_goOn joining found (by simp [RemovePhase.chosen]),
        absent.symm⟩
  | cons row rest induction =>
      have read := reaches_readRow joining found rows
      have nextFound := goOn_found (goOn_found found item
        (.reading before.length)) item
      by_cases shows : rowPort row = (item.cPort : Int)
      · rw [if_pos shows] at read
        refine ⟨_, read.trans (reaches_delete joining (nextFound _)), ?_⟩
        have erased : world.list.eraseIdx before.length = before ++ rest := by
          rw [rows, List.eraseIdx_append_of_length_le le_rfl, Nat.sub_self]
          rfl
        rw [rows, ← shows, removeFirst_own (shows ▸ noEarlier)]
        exact erased
      · rw [if_neg shows] at read
        have noneShows : ∀ earlier ∈ before ++ [row],
            rowPort earlier ≠ (item.cPort : Int) := by
          intro earlier member
          rcases List.mem_append.mp member with old | new
          · exact noEarlier earlier old
          · obtain rfl := List.mem_singleton.mp new
            exact shows
        have atNext : ((world.goOn j item (.reading before.length)).goOn j
            item (.testing (before.length + 1))).removers[j]? =
              some
                { item := item
                  phase := .testing (before ++ [row]).length } := by
          rw [List.length_append]
          exact nextFound _
        have nextRows : ((world.goOn j item (.reading before.length)).goOn j
            item (.testing (before.length + 1))).list =
              (before ++ [row]) ++ rest := by
          rw [List.append_assoc]
          exact rows
        obtain ⟨finish, later, list_eq⟩ := induction atNext nextRows noneShows
        exact ⟨finish, read.trans later, list_eq⟩

/-- The calls of a `RemoveClient` nobody interferes with. -/
theorem removeClient_alone (joining : Joining) (dlg : PCServerDlg)
    {world : RowCalls} {j : Nat} {item : CClientItem}
    (found : world.removers[j]? =
      some { item := item, phase := .testing 0 })
    (rows : world.list = dlg.mClientList) :
    ∃ finish, (process joining).Reaches world finish ∧
      finish.list = (dlg.removeClient item).mClientList := by
  rw [PCServerDlg.removeClient_mClientList, ← rows]
  exact removeClient_alone_from joining found (List.nil_append _).symm
    (by simp)

def ShowsPort (list : CListCtrl) (i port : Nat) : Prop :=
  ∃ row ∈ list[i]?, rowPort row = (port : Int)

instance (list : CListCtrl) (i port : Nat) :
    Decidable (ShowsPort list i port) :=
  inferInstanceAs (Decidable (∃ row ∈ list[i]?, _))

def filled (joining : Joining) : InsertPhase → ListRow
  | .before => { port := [], ip := [], socket := [], checked := false }
  | .inserted _ => { port := [], ip := [], socket := [], checked := false }
  | .portSet _ =>
      { port := formatD (ntohs joining.clientAddr.sinPort).toNat
        ip := []
        socket := []
        checked := false }
  | .ipSet _ =>
      { port := formatD (ntohs joining.clientAddr.sinPort).toNat
        ip := inetNtop joining.clientAddr.sinAddr
        socket := []
        checked := false }
  | .done => rowOf joining.clientAddr joining.socket

def others (list : CListCtrl) (own : Option Nat) : CListCtrl :=
  own.elim list list.eraseIdx

/-- Every `SetItemText` wrote the own row, every `DeleteItem` deleted a row
with the port it was meant for, and the texts of all rows are their own. -/
structure KeepsRows (joining : Joining) (rows : CListCtrl)
    (world : RowCalls) : Prop where
  writes : ∀ write ∈ world.writes, write.2 = some write.1
  deletions : ∀ deletion ∈ world.deletions,
    ∃ row ∈ deletion.2, rowPort row = (deletion.1 : Int)
  filled : ∀ k ∈ world.own,
    world.list[k]? = some (filled joining world.insert)
  others : (others world.list world.own).Sublist rows

def listAfter (joining : Joining) (world : RowCalls) :
    RowEvent → CListCtrl
  | .insertClient =>
      match world.insert with
      | .before => (world.list.insertItem joining.clientNum []).2
      | .inserted nRow =>
          world.list.setItemText nRow 0
            (formatD (ntohs joining.clientAddr.sinPort).toNat)
      | .portSet nRow =>
          world.list.setItemText nRow 1
            (inetNtop joining.clientAddr.sinAddr)
      | .ipSet nRow =>
          world.list.setItemText nRow 2 (formatLd joining.socket)
      | .done => world.list
  | .removeClient j =>
      ((world.removers[j]?).bind fun remover => remover.phase.chosen).elim
        world.list world.list.deleteItem

def bystanders (world : RowCalls) : RowEvent → List Remover
  | .insertClient => world.removers
  | .removeClient j => world.removers.eraseIdx j

/-- A `RemoveClient` deletes only behind a row whose texts are still to be
set, and takes the empty text of a missing row for no port. -/
def KeepsBehind (world : RowCalls) : RowEvent → Prop
  | .insertClient => True
  | .removeClient j =>
      ∀ remover ∈ world.removers[j]?,
        (∀ i ∈ remover.phase.chosen, ∀ nRow ∈ world.insert.pendingRow,
          nRow < i) ∧
        ∀ i ∈ remover.phase.looked,
          i < world.list.getItemCount ∨ remover.item.cPort ≠ 0

/-- The call leaves the indices the other threads hold on the rows they mean:
the row chosen by another `RemoveClient` still shows its port. -/
def Careful (joining : Joining) (world : RowCalls) (event : RowEvent) :
    Prop :=
  world.KeepsBehind event ∧
    ∀ remover ∈ world.bystanders event, ∀ i ∈ remover.phase.chosen,
      ShowsPort (world.listAfter joining event) i remover.item.cPort

instance (world : RowCalls) : DecidablePred world.KeepsBehind
  | .insertClient => inferInstanceAs (Decidable True)
  | .removeClient j =>
      inferInstanceAs (Decidable (∀ remover ∈ world.removers[j]?, _))

instance (joining : Joining) (world : RowCalls) (event : RowEvent) :
    Decidable (world.Careful joining event) :=
  inferInstanceAs (Decidable (_ ∧ _))

/-- Every index in hand is that of the row it is meant for. -/
structure Kept (joining : Joining) (rows : CListCtrl) (world : RowCalls) :
    Prop where
  keeps : world.KeepsRows joining rows
  pending : ∀ nRow ∈ world.insert.pendingRow, world.own = some nRow
  notYet : world.insert = .before → world.own = none
  chosen : ∀ remover ∈ world.removers, ∀ i ∈ remover.phase.chosen,
    ShowsPort world.list i remover.item.cPort

theorem kept_start (joining : Joining) (rows : CListCtrl)
    (items : List CClientItem) : (start rows items).Kept joining rows where
  keeps :=
    { writes := by
        intro write member
        cases member
      deletions := by
        intro deletion member
        cases member
      filled := by
        intro k member
        cases member
      others := List.Sublist.refl rows }
  pending := by
    intro nRow member
    cases member
  notYet := fun _ => rfl
  chosen := by
    intro remover member i chosen
    obtain ⟨item, _, rfl⟩ := List.mem_map.mp member
    cases chosen

section Insert

variable {joining : Joining} {rows : CListCtrl} {world : RowCalls}

theorem Kept.insertItem (kept : world.Kept joining rows)
    (before : world.insert = .before)
    (shows : ∀ remover ∈ world.removers, ∀ i ∈ remover.phase.chosen,
      ShowsPort (world.list.insertItem joining.clientNum []).2 i
        remover.item.cPort) :
    Kept joining rows
      { world with
        list := (world.list.insertItem joining.clientNum []).2
        own := some (world.list.insertItem joining.clientNum []).1
        insert :=
          .inserted (world.list.insertItem joining.clientNum []).1 } := by
  have inside : min joining.clientNum world.list.length ≤
      world.list.length := min_le_right _ _
  have noOwn := kept.notYet before
  have allOld := kept.keeps.others
  rw [others, noOwn] at allOld
  refine ⟨⟨kept.keeps.writes, kept.keeps.deletions, ?_, ?_⟩, ?_, ?_, shows⟩
  · intro k isOwn
    obtain rfl := Option.some.inj isOwn
    simp only [CListCtrl.insertItem]
    rw [List.getElem?_insertIdx_self, if_pos inside]
    rfl
  · simp only [others, CListCtrl.insertItem, Option.elim_some,
      List.eraseIdx_insertIdx_self]
    exact allOld
  · intro nRow isPending
    exact isPending
  · intro isBefore
    cases isBefore

theorem Kept.setText (kept : world.Kept joining rows) {nRow column : Nat}
    {text : Text} {phase : InsertPhase}
    (pending : world.insert.pendingRow = some nRow)
    (next : ∀ later ∈ phase.pendingRow, later = nRow)
    (notBefore : phase ≠ .before)
    (fills : filled joining phase =
      (filled joining world.insert).setText text column)
    (shows : ∀ remover ∈ world.removers, ∀ i ∈ remover.phase.chosen,
      ShowsPort (world.list.setItemText nRow column text) i
        remover.item.cPort) :
    (world.setText nRow column text phase).Kept joining rows := by
  have isOwn := kept.pending nRow pending
  have oldRow := kept.keeps.filled nRow isOwn
  refine ⟨⟨?_, kept.keeps.deletions, ?_, ?_⟩, ?_, ?_, shows⟩
  · intro write member
    rcases List.mem_append.mp member with old | new
    · exact kept.keeps.writes write old
    · obtain rfl := List.mem_singleton.mp new
      exact isOwn
  · intro k isOwn'
    obtain rfl := Option.some.inj (isOwn.symm.trans isOwn')
    simp only [RowCalls.setText, CListCtrl.setItemText]
    rw [List.getElem?_modify_eq, oldRow, fills]
    rfl
  · have others_eq := kept.keeps.others
    rw [others, isOwn, Option.elim_some] at others_eq
    simp only [others, RowCalls.setText, CListCtrl.setItemText, isOwn,
      Option.elim_some, List.eraseIdx_modify_of_eq]
    exact others_eq
  · intro later isPending
    obtain rfl := next later isPending
    exact isOwn
  · intro isBefore
    exact (notBefore isBefore).elim

theorem Kept.insertClient {next : RowCalls}
    (kept : world.Kept joining rows)
    (careful : world.Careful joining .insertClient)
    (taken : world.insertClient joining = some next) :
    next.Kept joining rows := by
  have shows := careful.2
  unfold RowCalls.insertClient at taken
  unfold listAfter bystanders at shows
  cases phase : world.insert with
  | before =>
      rw [phase] at taken shows
      obtain rfl := Option.some.inj taken
      exact kept.insertItem phase shows
  | inserted nRow =>
      rw [phase] at taken shows
      obtain rfl := Option.some.inj taken
      exact kept.setText (by rw [phase]; rfl)
        (fun _ isPending => (Option.some.inj isPending).symm) nofun
        (by rw [phase]; rfl) shows
  | portSet nRow =>
      rw [phase] at taken shows
      obtain rfl := Option.some.inj taken
      exact kept.setText (by rw [phase]; rfl)
        (fun _ isPending => (Option.some.inj isPending).symm) nofun
        (by rw [phase]; rfl) shows
  | ipSet nRow =>
      rw [phase] at taken shows
      obtain rfl := Option.some.inj taken
      exact kept.setText (by rw [phase]; rfl)
        (fun _ isPending => nomatch isPending) nofun
        (by rw [phase]; rfl) shows
  | done =>
      rw [phase] at taken
      cases taken

end Insert

section Remove

variable {joining : Joining} {rows : CListCtrl} {world : RowCalls}

theorem getElem?_shifted {list : CListCtrl} {own : Option Nat} {i k : Nat}
    (isOwn : shifted own i = some k) :
    ∃ old, own = some old ∧ (list.eraseIdx i)[k]? = list[old]? := by
  obtain ⟨old, rfl, moved⟩ := Option.bind_eq_some_iff.mp isOwn
  refine ⟨old, rfl, ?_⟩
  rw [List.getElem?_eraseIdx]
  split at moved
  · obtain rfl := Option.some.inj moved
    rw [if_neg (by omega)]
    congr 1
    omega
  · split at moved
    · cases moved
    · obtain rfl := Option.some.inj moved
      rw [if_pos (by omega)]

theorem others_shifted_sublist (list : CListCtrl) (own : Option Nat)
    (i : Nat) :
    (others (list.eraseIdx i) (shifted own i)).Sublist (others list own) := by
  cases own with
  | none => exact List.eraseIdx_sublist _ _
  | some k =>
      simp only [shifted, others, Option.bind_some, Option.elim_some]
      rcases Nat.lt_trichotomy i k with less | same | greater
      · rw [if_pos less, Option.elim_some, eraseIdx_eraseIdx_of_lt less]
        exact List.eraseIdx_sublist _ _
      · subst same
        simp
      · rw [if_neg (by omega), if_neg (by omega), Option.elim_some,
          ← eraseIdx_eraseIdx_of_lt greater]
        exact List.eraseIdx_sublist _ _

theorem Kept.delete (kept : world.Kept joining rows) {j i : Nat}
    {remover : Remover} (found : world.removers[j]? = some remover)
    (phase : remover.phase = .deleting i)
    (careful : world.Careful joining (.removeClient j)) :
    (world.delete j remover i).Kept joining rows := by
  obtain ⟨behind, shows⟩ := careful
  have isChosen : i ∈ remover.phase.chosen := by
    rw [phase]
    rfl
  have shownNow := kept.chosen remover (List.mem_of_getElem? found) i isChosen
  have after : world.listAfter joining (.removeClient j) =
      world.list.eraseIdx i := by
    simp [listAfter, found, phase, RemovePhase.chosen, CListCtrl.deleteItem]
  rw [after] at shows
  refine ⟨⟨kept.keeps.writes, ?_, ?_, ?_⟩, ?_, ?_, ?_⟩
  · intro deletion member
    rcases List.mem_append.mp member with old | new
    · exact kept.keeps.deletions deletion old
    · obtain rfl := List.mem_singleton.mp new
      exact shownNow
  · intro k isOwn
    obtain ⟨old, wasOwn, same⟩ := getElem?_shifted isOwn
    exact same.trans (kept.keeps.filled old wasOwn)
  · exact (others_shifted_sublist _ _ _).trans kept.keeps.others
  · intro nRow isPending
    have isOwn := kept.pending nRow isPending
    have less := (behind remover found).1 i isChosen nRow isPending
    simp only [RowCalls.delete, shifted, isOwn, Option.bind_some]
    rw [if_neg (by omega), if_neg (by omega)]
  · intro isBefore
    simp only [RowCalls.delete, shifted, kept.notYet isBefore,
      Option.bind_none]
  · intro other member k chosen
    rcases (mem_set_iff_of_found found _ other).mp member with rfl | bystander
    · cases chosen
    · exact shows other bystander k chosen

theorem showsPort_of_read {list : CListCtrl} {i port : Nat}
    (there : i < list.getItemCount ∨ port ≠ 0)
    (read : ttoi (list.getItemText i 0) = (port : Int)) :
    ShowsPort list i port := by
  rw [CListCtrl.getItemText] at read
  cases found : list[i]? with
  | some row =>
      rw [found] at read
      exact ⟨row, found, read⟩
  | none =>
      rw [found] at read
      have zero : ttoi ([] : Text) = 0 := by decide
      rw [List.getElem?_eq_none_iff] at found
      rcases there with inside | notZero
      · exact absurd inside (Nat.not_lt.mpr found)
      · dsimp only at read
        omega

theorem Kept.goOn (kept : world.Kept joining rows) {j : Nat}
    {remover : Remover} (found : world.removers[j]? = some remover)
    (notChosen : remover.phase.chosen = none)
    (careful : world.Careful joining (.removeClient j)) :
    (world.goOn j remover.item
      (nextPhase world.list remover.item remover.phase)).Kept joining
        rows := by
  refine ⟨⟨kept.keeps.writes, kept.keeps.deletions, kept.keeps.filled,
    kept.keeps.others⟩, kept.pending, kept.notYet, ?_⟩
  intro other member k chosen
  rcases (mem_set_iff_of_found found _ other).mp member with rfl | bystander
  · cases phase : remover.phase with
    | testing i =>
        rw [phase, nextPhase] at chosen
        dsimp only at chosen
        split at chosen <;> cases chosen
    | reading i =>
        have there := (careful.1 remover found).2 i (by
          rw [phase]
          rfl)
        rw [phase, nextPhase] at chosen
        dsimp only at chosen
        split at chosen
        · rename_i shows
          obtain rfl := Option.some.inj chosen
          exact showsPort_of_read there shows
        · cases chosen
    | deleting i =>
        rw [phase] at notChosen
        cases notChosen
    | done =>
        rw [phase] at chosen
        cases chosen
  · exact kept.chosen other (List.mem_of_mem_eraseIdx bystander) k chosen

theorem Kept.removeClient {next : RowCalls} (kept : world.Kept joining rows)
    {j : Nat} {remover : Remover}
    (found : world.removers[j]? = some remover)
    (careful : world.Careful joining (.removeClient j))
    (taken : world.removeClient j remover = some next) :
    next.Kept joining rows := by
  unfold RowCalls.removeClient at taken
  cases phase : remover.phase with
  | done =>
      rw [phase] at taken
      cases taken
  | deleting i =>
      rw [phase] at taken
      obtain rfl := Option.some.inj taken
      exact kept.delete found phase careful
  | testing i =>
      rw [phase] at taken
      obtain rfl := Option.some.inj taken
      rw [← phase]
      exact kept.goOn found (by rw [phase]; rfl) careful
  | reading i =>
      rw [phase] at taken
      obtain rfl := Option.some.inj taken
      rw [← phase]
      exact kept.goOn found (by rw [phase]; rfl) careful

end Remove

theorem Kept.step {joining : Joining} {rows : CListCtrl}
    {world next : RowCalls} {event : RowEvent}
    (kept : world.Kept joining rows) (careful : world.Careful joining event)
    (taken : world.step joining event = some next) :
    next.Kept joining rows := by
  cases event with
  | insertClient => exact kept.insertClient careful taken
  | removeClient j =>
      obtain ⟨remover, found, moved⟩ := Option.bind_eq_some_iff.mp taken
      exact kept.removeClient found careful moved

/-- From any rows, in every run whose calls are careful (a deletion while the
texts of the new row are being set is behind that row, a row chosen by another
`RemoveClient` still shows its port after the call, and no missing row is read
for port 0), every call writes or deletes a row it is meant for and all rows
keep their own texts. -/
theorem rows_kept (joining : Joining) (rows : CListCtrl)
    (items : List CClientItem) {events : List RowEvent}
    (meets : (process joining).StepsMeet (Careful joining) (start rows items)
      events) :
    (process joining).Always (KeepsRows joining rows) (start rows items)
      events := by
  have preserved : ∀ world event next, Kept joining rows world →
      Careful joining world event →
        (process joining).step world event = some next →
          Kept joining rows next :=
    fun world event next kept careful taken => kept.step careful taken
  exact (System.always_of_guarded preserved (kept_start joining rows items)
    meets).mono fun _ kept => kept.keeps

def oldRow : ListRow :=
  { port := "5000".toList
    ip := "10.0.0.1".toList
    socket := "8".toList
    checked := false }

def oldClient : CClientItem :=
  { cAddr := "10.0.0.1".toList, cPort := 5000, cSocket := 8 }

def secondJoins : Joining :=
  { clientNum := 1
    clientAddr :=
      { sinPort := 0x8913, sinAddr := { b1 := 10, b2 := 0, b3 := 0, b4 := 2 } }
    socket := 12 }

/-- The first client leaves between `InsertItem` and `SetItemText`. -/
def leavesInBetween : List RowEvent :=
  [.insertClient, .removeClient 0, .removeClient 0, .removeClient 0,
    .insertClient, .insertClient, .insertClient]

theorem new_row_stays_blank :
    ¬∀ joining rows items events finish,
      (process joining).Run (start rows items) events finish →
        (process joining).Always (KeepsRows joining rows) (start rows items)
          events := by
  intro kept
  have run : (process secondJoins).Run (start [oldRow] [oldClient])
      leavesInBetween _ := System.run_get (by decide)
  have always := kept _ _ _ _ _ run leavesInBetween _ List.prefix_rfl run
  exact absurd (always.filled 0 (by decide)) (by decide)

/-- The first client leaves when the new row has its texts. -/
def leavesAfterwards : List RowEvent :=
  [.insertClient, .removeClient 0, .insertClient, .removeClient 0,
    .insertClient, .insertClient, .removeClient 0]

theorem rows_kept_in_leavesAfterwards :
    (process secondJoins).Always (KeepsRows secondJoins [oldRow])
      (start [oldRow] [oldClient]) leavesAfterwards :=
  rows_kept secondJoins [oldRow] [oldClient] (by decide)

end RowCalls

end OpenChat.Server
