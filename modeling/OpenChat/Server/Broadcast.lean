import Mathlib.Data.List.Nodup
import OpenChat.Server.ServerDlg

/-!
# What the window sends to one client

A typed line and every line of a file go to the sockets parsed from the texts
of the checked rows.  Because no two rows show the same socket, what reaches
one socket is decided by the row which shows it alone: the loops over rows and
lines project to the actions at which that row was checked.
-/

namespace OpenChat.Server

open Platform Foundation.KeyedList

/-- The window together with everything sent so far. -/
structure Desk where
  dlg : PCServerDlg
  network : Network

/-- What happens to the window between two moments: editing the text to send,
a keyboard message, a chosen file with what the local array holds at first, a
click on a check box, and the calls of the accept and client threads. -/
inductive Action where
  | edit (text : List WChar)
  | message (msg : Message)
  | file (lines : Option (List FileLine)) (buf : Buffer 512)
  | setCheck (nRow : Nat) (checked : Bool)
  | insertClient (clientAddr : SockaddrIn) (socket : Socket)
  | addClient (clientAddr : SockaddrIn) (socket : Socket)
  | removeClient (item : CClientItem)
  | deleteClient (port : Nat)

namespace Desk

def opened (outcome : InitOutcome) (answer : Nat → Int) : Desk :=
  { dlg := (PCServerDlg.create.onBtnOpen outcome).2
    network := { sent := [], answer := answer } }

def act (page : CodePage) (desk : Desk) : Action → Desk
  | .edit text => { desk with dlg := { desk.dlg with mEditSend := text } }
  | .message msg =>
      let (_consumed, dlg, network) :=
        desk.dlg.preTranslateMessage page desk.network msg
      { dlg := dlg, network := network }
  | .file lines buf =>
      { desk with network := desk.dlg.onBtnFile page lines buf desk.network }
  | .setCheck nRow checked =>
      { desk with
        dlg :=
          { desk.dlg with
            mClientList := desk.dlg.mClientList.setCheck nRow checked } }
  | .insertClient clientAddr socket =>
      { desk with dlg := desk.dlg.insertClient clientAddr socket }
  | .addClient clientAddr socket =>
      { desk with
        dlg :=
          { desk.dlg with
            mServer := desk.dlg.mServer.addClient clientAddr socket } }
  | .removeClient item => { desk with dlg := desk.dlg.removeClient item }
  | .deleteClient port =>
      { desk with
        dlg :=
          { desk.dlg with mServer := desk.dlg.mServer.deleteClient port } }

def acts (page : CodePage) (desk : Desk) (actions : List Action) : Desk :=
  actions.foldl (act page) desk

end Desk

def joined (actions : List Action) : List Socket :=
  actions.filterMap fun action =>
    match action with
    | .insertClient _ socket => some socket
    | _ => none

/-- The row which shows the socket is there and checked. -/
def ShowsChecked (list : CListCtrl) (socket : Socket) : Prop :=
  ∃ row ∈ list, row.socket = formatLd socket ∧ row.checked = true

instance (list : CListCtrl) (socket : Socket) :
    Decidable (ShowsChecked list socket) :=
  inferInstanceAs (Decidable (∃ row ∈ list, _))

/-- The records of a file: each line is written over what the array held
after the line before. -/
def records (page : CodePage) : Buffer 512 → List FileLine → List (List Byte)
  | _, [] => []
  | buf, line :: lines =>
      let filled := PCServerDlg.fillRecord page line buf
      filled.bytes :: records page filled lines

theorem length_records (page : CodePage) (buf : Buffer 512)
    (lines : List FileLine) :
    (records page buf lines).length = lines.length := by
  induction lines generalizing buf with
  | nil => rfl
  | cons line lines induction =>
      rw [records, List.length_cons, induction, List.length_cons]

/-- What one action hands to `send` for a checked row, given the text in the
edit box. -/
def handed (page : CodePage) (text : List WChar) : Action → List (List Byte)
  | .message (.keyDown wParam) =>
      if wParam = vkReturn then [page.ct2a text] else []
  | .file (some lines) buf => records page buf lines
  | _ => []

/-- The actions of a run at which the row showing the socket was checked, each
with the text in the edit box at that moment. -/
def checkedActions (page : CodePage) (socket : Socket) :
    Desk → List Action → List (List WChar × Action)
  | _, [] => []
  | desk, action :: later =>
      let remaining := checkedActions page socket (desk.act page action) later
      if ShowsChecked desk.dlg.mClientList socket then
        (desk.dlg.mEditSend, action) :: remaining
      else remaining

/-- Every row shows a socket below 2^32, no two rows the same. -/
structure RowsApart (list : CListCtrl) : Prop where
  distinct : (list.map ListRow.socket).Nodup
  fit : ∀ row ∈ list, ∃ socket < 2 ^ 32, row.socket = formatLd socket

theorem RowsApart.tail {row : ListRow} {list : CListCtrl}
    (apart : RowsApart (row :: list)) : RowsApart list where
  distinct := (List.nodup_cons.mp apart.distinct).2
  fit := by
    intro other member
    exact apart.fit other (.tail _ member)

theorem RowsApart.not_showsChecked_tail {row : ListRow} {list : CListCtrl}
    {socket : Socket} (apart : RowsApart (row :: list))
    (shows : row.socket = formatLd socket) : ¬ShowsChecked list socket := by
  rintro ⟨other, member, otherShows, _⟩
  apply (List.nodup_cons.mp apart.distinct).1
  rw [shows, ← otherShows]
  exact List.mem_map_of_mem member

@[simp] theorem sentTo_send (network : Network) (target socket : Socket)
    (bytes : List Byte) :
    (network.send target bytes).2.sentTo socket =
      network.sentTo socket ++ if target = socket then [bytes] else [] := by
  by_cases same : target = socket
  · simp [Network.send, Network.sentTo, same]
  · simp [Network.send, Network.sentTo, same]

/-- The body of a send loop over the rows: nothing for an unchecked row, and
otherwise the same bytes in every round. -/
structure SendsTo (bytes : List Byte) {State : Type} (network : State → Network)
    (ready : State → Prop) (body : State → Option ListRow → State) : Prop where
  skips : ∀ state row, row.checked = false → body state (some row) = state
  sends : ∀ state row, row.checked = true → ready state →
    network (body state (some row)) =
      ((network state).send (tcstoul row.socket) bytes).2
  stays : ∀ state row, row.checked = true → ready state →
    ready (body state (some row))

/-- A send loop over the rows hands the bytes to a socket once if its row is
checked, and not at all otherwise. -/
theorem SendsTo.loop {bytes : List Byte} {State : Type}
    {network : State → Network} {ready : State → Prop}
    {body : State → Option ListRow → State}
    (sends : SendsTo bytes network ready body) {list : CListCtrl}
    (apart : RowsApart list) {socket : Socket} (fits : socket < 2 ^ 32)
    (state : State) (isReady : ready state) :
    (network (list.foldl (fun state row => body state (some row))
        state)).sentTo socket =
      (network state).sentTo socket ++
        if ShowsChecked list socket then [bytes] else [] := by
  induction list generalizing state with
  | nil => simp [ShowsChecked]
  | cons row list induction =>
      have later := induction apart.tail
      rw [List.foldl_cons]
      obtain ⟨shown, shownFits, shows⟩ := apart.fit row (.head _)
      cases checked : row.checked with
      | false =>
          have sameRow : ShowsChecked (row :: list) socket ↔
              ShowsChecked list socket := by
            simp [ShowsChecked, checked]
          rw [sends.skips state row checked, later state isReady]
          simp only [sameRow]
      | true =>
          rw [later _ (sends.stays state row checked isReady),
            sends.sends state row checked isReady, sentTo_send, shows,
            tcstoul_formatLd shownFits]
          by_cases same : shown = socket
          · subst same
            have notLater := apart.not_showsChecked_tail shows
            have here : ShowsChecked (row :: list) shown :=
              ⟨row, .head _, shows, checked⟩
            simp [notLater, here]
          · have other : row.socket ≠ formatLd socket := by
              intro sameText
              exact same (formatLd_injective shownFits fits
                (shows.symm.trans sameText))
            have sameRow : ShowsChecked (row :: list) socket ↔
                ShowsChecked list socket := by
              simp [ShowsChecked, other]
            simp [same, sameRow]

namespace PCServerDlg

def sendBody (str : List Byte) (network : Network) :
    Option ListRow → Network
  | some row =>
      if row.checked then (network.send (tcstoul row.socket) str).2
      else network
  | none => network

theorem sendChecked_eq_foldl (list : CListCtrl) (str : List Byte)
    (network : Network) :
    sendChecked list str network =
      list.foldl (fun network row => sendBody str network (some row))
        network := by
  rw [← foldl_range_getElem?, sendChecked]
  congr 1
  funext network i
  unfold CListCtrl.getCheck CListCtrl.getItemText
  cases list[i]? with
  | none => rfl
  | some row => rfl

theorem sentTo_sendChecked {list : CListCtrl} (apart : RowsApart list)
    {socket : Socket} (fits : socket < 2 ^ 32) (str : List Byte)
    (network : Network) :
    (sendChecked list str network).sentTo socket =
      network.sentTo socket ++
        if ShowsChecked list socket then [str] else [] := by
  rw [sendChecked_eq_foldl]
  have sends : SendsTo str id (fun _ => True) (sendBody str) := by
    constructor
    · intro network row unchecked
      simp [sendBody, unchecked]
    · intro network row checked _
      simp [sendBody, checked]
    · intro network row _ _
      trivial
  exact sends.loop apart fits network trivial

theorem fillRecord_eq (page : CodePage) (line : FileLine)
    (buf : Buffer 512) :
    fillRecord page line buf =
      (buf.overlay (page.written 512 line.text)).setAt 511 newline := by
  rw [← wideCharToMultiByte_snd]
  rfl

theorem fillRecord_idem (page : CodePage) (line : FileLine)
    (buf : Buffer 512) :
    fillRecord page line (fillRecord page line buf) =
      fillRecord page line buf := by
  simp only [fillRecord_eq]
  exact Buffer.overlay_setAt_idem _ _ _ _

def fileBody (page : CodePage) (line : FileLine)
    (state : Buffer 512 × Network) : Option ListRow → Buffer 512 × Network
  | some row =>
      if row.checked then
        let buf := fillRecord page line state.1
        (buf, (state.2.send (tcstoul row.socket) buf.bytes).2)
      else state
  | none => state

theorem fileLine_eq_foldl (page : CodePage) (list : CListCtrl)
    (state : Buffer 512 × Network) (line : FileLine) :
    fileLine page list state line =
      list.foldl (fun state row => fileBody page line state (some row))
        state := by
  rw [← foldl_range_getElem?, fileLine]
  congr 1
  funext state i
  unfold fileRow CListCtrl.getCheck CListCtrl.getItemText
  cases list[i]? with
  | none => rfl
  | some row => rfl

theorem fileLine_buffer (page : CodePage) (list : CListCtrl)
    (state : Buffer 512 × Network) (line : FileLine) :
    (fileLine page list state line).1 =
      if ∃ row ∈ list, row.checked = true then
        fillRecord page line state.1
      else state.1 := by
  rw [fileLine_eq_foldl]
  induction list generalizing state with
  | nil => simp
  | cons row list induction =>
      rw [List.foldl_cons, induction]
      cases checked : row.checked with
      | false => simp [fileBody, checked]
      | true => simp [fileBody, checked, fillRecord_idem]

theorem sentTo_fileLine {list : CListCtrl} (apart : RowsApart list)
    {socket : Socket} (fits : socket < 2 ^ 32) (page : CodePage)
    (state : Buffer 512 × Network) (line : FileLine) :
    (fileLine page list state line).2.sentTo socket =
      state.2.sentTo socket ++
        if ShowsChecked list socket then
          [(fillRecord page line state.1).bytes]
        else [] := by
  rw [fileLine_eq_foldl]
  have sends : SendsTo (fillRecord page line state.1).bytes Prod.snd
      (fun later => fillRecord page line later.1 =
        fillRecord page line state.1)
      (fileBody page line) := by
    constructor
    · intro later row unchecked
      simp [fileBody, unchecked]
    · intro later row checked filled
      simp [fileBody, checked, filled]
    · intro later row checked filled
      simp [fileBody, checked, filled, fillRecord_idem]
  exact sends.loop apart fits state rfl

theorem sentTo_fileLines {list : CListCtrl} (apart : RowsApart list)
    {socket : Socket} (fits : socket < 2 ^ 32) (page : CodePage)
    (lines : List FileLine) (state : Buffer 512 × Network) :
    ((lines.foldl (fileLine page list) state).2).sentTo socket =
      state.2.sentTo socket ++
        if ShowsChecked list socket then records page state.1 lines
        else [] := by
  induction lines generalizing state with
  | nil => simp [records]
  | cons line lines induction =>
      rw [List.foldl_cons, induction, sentTo_fileLine apart fits,
        fileLine_buffer]
      by_cases shows : ShowsChecked list socket
      · obtain ⟨row, member, _, checked⟩ := id shows
        have someChecked : ∃ row ∈ list, row.checked = true :=
          ⟨row, member, checked⟩
        simp [shows, someChecked, records]
      · simp [shows]

theorem sentTo_onBtnFile {dlg : PCServerDlg}
    (apart : RowsApart dlg.mClientList) {socket : Socket}
    (fits : socket < 2 ^ 32) (page : CodePage) (text : List WChar)
    (file : Option (List FileLine)) (buf : Buffer 512) (network : Network) :
    (dlg.onBtnFile page file buf network).sentTo socket =
      network.sentTo socket ++
        if ShowsChecked dlg.mClientList socket then
          handed page text (.file file buf)
        else [] := by
  cases file with
  | none => simp [onBtnFile, handed]
  | some lines => exact sentTo_fileLines apart fits page lines (buf, network)

end PCServerDlg

open PCServerDlg

theorem sentTo_act (page : CodePage) {desk : Desk}
    (apart : RowsApart desk.dlg.mClientList) {socket : Socket}
    (fits : socket < 2 ^ 32) (action : Action) :
    (desk.act page action).network.sentTo socket =
      desk.network.sentTo socket ++
        if ShowsChecked desk.dlg.mClientList socket then
          handed page desk.dlg.mEditSend action
        else [] := by
  cases action with
  | message msg =>
      cases msg with
      | other => simp [Desk.act, preTranslateMessage, handed]
      | keyDown wParam =>
          by_cases isEscape : wParam = vkEscape
          · have notReturn : vkEscape ≠ vkReturn := by decide
            simp [Desk.act, preTranslateMessage, handed, isEscape, notReturn]
          · by_cases isReturn : wParam = vkReturn
            · subst isReturn
              simp [Desk.act, preTranslateMessage, handed, isEscape,
                sentTo_sendChecked apart fits]
            · simp [Desk.act, preTranslateMessage, handed, isEscape, isReturn]
  | file lines buf => exact sentTo_onBtnFile apart fits page _ lines buf _
  | _ => simp [Desk.act, handed]

/-- The rows of a desk, and the sockets that will still join, are apart. -/
structure Apart (desk : Desk) (actions : List Action) : Prop where
  distinct : (desk.dlg.mClientList.map ListRow.socket ++
    (joined actions).map formatLd).Nodup
  rows : ∀ row ∈ desk.dlg.mClientList,
    ∃ socket < 2 ^ 32, row.socket = formatLd socket
  fit : ∀ socket ∈ joined actions, socket < 2 ^ 32

theorem Apart.rowsApart {desk : Desk} {actions : List Action}
    (apart : Apart desk actions) : RowsApart desk.dlg.mClientList where
  distinct := List.Nodup.of_append_left apart.distinct
  fit := apart.rows

/-- An action that adds no row keeps the rows apart. -/
theorem Apart.of_sublist {desk next : Desk} {action : Action}
    {actions : List Action} (apart : Apart desk (action :: actions))
    (sameJoined : joined (action :: actions) = joined actions)
    (fewer : (next.dlg.mClientList.map ListRow.socket).Sublist
      (desk.dlg.mClientList.map ListRow.socket)) :
    Apart next actions where
  distinct := by
    rw [← sameJoined]
    exact apart.distinct.sublist (fewer.append_right _)
  rows := by
    intro row member
    obtain ⟨old, oldMember, same⟩ :=
      List.mem_map.mp (fewer.subset (List.mem_map_of_mem member))
    rw [← same]
    exact apart.rows old oldMember
  fit := by
    rw [← sameJoined]
    exact apart.fit

theorem Apart.insertClient {desk : Desk} {clientAddr : SockaddrIn}
    {socket : Socket} {actions : List Action} (page : CodePage)
    (apart : Apart desk (.insertClient clientAddr socket :: actions)) :
    Apart (desk.act page (.insertClient clientAddr socket)) actions := by
  have inserted : (desk.dlg.insertClient clientAddr socket).mClientList.Perm
      (rowOf clientAddr socket :: desk.dlg.mClientList) := by
    rw [insertClient_mClientList]
    exact List.perm_insertIdx _ _ (min_le_right _ _)
  have joinedCons : joined (.insertClient clientAddr socket :: actions) =
      socket :: joined actions := rfl
  constructor
  · have rows := (inserted.map ListRow.socket).append_right
      ((joined actions).map formatLd)
    have distinct := apart.distinct
    rw [joinedCons, List.map_cons, List.nodup_middle] at distinct
    exact rows.nodup_iff.mpr distinct
  · intro row member
    rcases List.mem_cons.mp (inserted.subset member) with rfl | old
    · exact ⟨socket, apart.fit socket (.head _), rfl⟩
    · exact apart.rows row old
  · intro later member
    exact apart.fit later (.tail _ member)

theorem Apart.act {desk : Desk} {action : Action} {actions : List Action}
    (page : CodePage) (apart : Apart desk (action :: actions)) :
    Apart (desk.act page action) actions := by
  cases action with
  | insertClient clientAddr socket => exact apart.insertClient page
  | message msg =>
      refine apart.of_sublist rfl ?_
      cases msg with
      | other => exact List.Sublist.refl _
      | keyDown wParam =>
          simp only [Desk.act, preTranslateMessage]
          repeat' split
          all_goals exact List.Sublist.refl _
  | removeClient item =>
      refine apart.of_sublist rfl ?_
      simp only [Desk.act, removeClient_mClientList]
      exact (removeFirst_sublist _ _ _).map _
  | setCheck nRow checked =>
      refine apart.of_sublist rfl ?_
      have same : (desk.dlg.mClientList.setCheck nRow checked).map
          ListRow.socket = desk.dlg.mClientList.map ListRow.socket := by
        apply List.ext_getElem?
        intro i
        simp only [CListCtrl.setCheck, List.getElem?_map,
          List.getElem?_modify]
        split <;> cases desk.dlg.mClientList[i]? <;> rfl
      exact same ▸ List.Sublist.refl _
  | _ => exact apart.of_sublist rfl (List.Sublist.refl _)

theorem sentTo_acts (page : CodePage) {desk : Desk} {actions : List Action}
    (apart : Apart desk actions) {socket : Socket}
    (fits : socket < 2 ^ 32) :
    (desk.acts page actions).network.sentTo socket =
      desk.network.sentTo socket ++
        (checkedActions page socket desk actions).flatMap fun checked =>
          handed page checked.1 checked.2 := by
  induction actions generalizing desk with
  | nil => simp [Desk.acts, checkedActions]
  | cons action actions induction =>
      have later := induction (apart.act page)
      rw [Desk.acts, List.foldl_cons]
      rw [Desk.acts] at later
      rw [later, sentTo_act page apart.rowsApart fits, checkedActions]
      by_cases shows : ShowsChecked desk.dlg.mClientList socket
      · simp [shows]
      · simp [shows]

/-- The results of `send` have no effect on the window. -/
theorem act_dlg_congr (page : CodePage) {left right : Desk}
    (same : left.dlg = right.dlg) (action : Action) :
    (left.act page action).dlg = (right.act page action).dlg := by
  cases action with
  | message msg =>
      cases msg with
      | other => exact same
      | keyDown wParam =>
          simp only [Desk.act, preTranslateMessage, same]
          repeat' split
          all_goals rfl
  | _ => simp only [Desk.act, same]

theorem checkedActions_congr (page : CodePage) (socket : Socket)
    {left right : Desk} (same : left.dlg = right.dlg)
    (actions : List Action) :
    checkedActions page socket left actions =
      checkedActions page socket right actions := by
  induction actions generalizing left right with
  | nil => rfl
  | cons action actions induction =>
      rw [checkedActions, checkedActions,
        induction (act_dlg_congr page same action), same]

/-- For every run of the window, what was handed to `send` for a socket is
what the actions handed over at which its row was checked, in their order.
The results of `send` make no difference to it, and two runs which agree on
those actions agree on it, whatever the other rows and their check marks. -/
theorem messages_reach_checked_clients (page : CodePage)
    {actions : List Action} (distinct : (joined actions).Nodup)
    (fit : ∀ socket ∈ joined actions, socket < 2 ^ 32)
    (outcome : InitOutcome) (answer : Nat → Int) {socket : Socket}
    (fits : socket < 2 ^ 32) :
    ((Desk.opened outcome answer).acts page actions).network.sentTo socket =
        (checkedActions page socket (Desk.opened outcome answer)
          actions).flatMap (fun checked => handed page checked.1 checked.2) ∧
      (∀ otherAnswer,
        ((Desk.opened outcome otherAnswer).acts page
            actions).network.sentTo socket =
          ((Desk.opened outcome answer).acts page
            actions).network.sentTo socket) ∧
      ∀ otherActions otherOutcome otherAnswer,
        (joined otherActions).Nodup →
        (∀ socket ∈ joined otherActions, socket < 2 ^ 32) →
        checkedActions page socket (Desk.opened otherOutcome otherAnswer)
            otherActions =
          checkedActions page socket (Desk.opened outcome answer) actions →
        ((Desk.opened otherOutcome otherAnswer).acts page
            otherActions).network.sentTo socket =
          ((Desk.opened outcome answer).acts page
            actions).network.sentTo socket := by
  have projected : ∀ actions outcome answer, (joined actions).Nodup →
      (∀ socket ∈ joined actions, socket < 2 ^ 32) →
      ((Desk.opened outcome answer).acts page actions).network.sentTo
          socket =
        (checkedActions page socket (Desk.opened outcome answer)
          actions).flatMap fun checked => handed page checked.1 checked.2 := by
    intro actions outcome answer distinct fit
    have apart : Apart (Desk.opened outcome answer) actions := by
      refine ⟨?_, ?_, fit⟩
      · refine List.Nodup.map_on ?_ distinct
        intro left leftMember right rightMember
        exact formatLd_injective (fit left leftMember) (fit right rightMember)
      · intro row member
        cases member
    exact sentTo_acts page apart fits
  refine ⟨projected actions outcome answer distinct fit, ?_, ?_⟩
  · intro otherAnswer
    have sameWindow : (Desk.opened outcome otherAnswer).dlg =
      (Desk.opened outcome answer).dlg := rfl
    rw [projected _ _ _ distinct fit, projected _ _ _ distinct fit,
      checkedActions_congr page socket sameWindow]
  · intro otherActions otherOutcome otherAnswer otherDistinct otherFit agree
    rw [projected _ _ _ otherDistinct otherFit, agree,
      projected _ _ _ distinct fit]

/-- Two clients join; `hi` is typed while the first row is checked, and `o`
while the second is. -/
def twoTypedLines : List Action :=
  let first : SockaddrIn :=
    { sinPort := 0x8813, sinAddr := { b1 := 10, b2 := 0, b3 := 0, b4 := 1 } }
  let second : SockaddrIn :=
    { sinPort := 0x8913, sinAddr := { b1 := 10, b2 := 0, b3 := 0, b4 := 2 } }
  [.insertClient first 8, .addClient first 8, .insertClient second 12,
    .addClient second 12, .setCheck 0 true, .edit [104, 105],
    .message (.keyDown vkReturn), .setCheck 0 false, .setCheck 1 true,
    .edit [111], .message (.keyDown vkReturn)]

theorem first_client_gets_hi :
    ((Desk.opened (.listens 4) fun _ => -1).acts .ascii
      twoTypedLines).network.sentTo 8 = [[104, 105]] :=
  (messages_reach_checked_clients .ascii (by decide) (by decide) (.listens 4)
    (fun _ => -1) (by decide)).1.trans (by decide)

end OpenChat.Server
