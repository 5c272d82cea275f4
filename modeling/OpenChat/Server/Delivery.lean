import OpenChat.Server.Addressing
import OpenChat.Server.Wires

/-!
# From the operator to the clients

The operator checks rows, types and sends files while clients come and leave
and the server is closed and opened again.  A row holds a socket number, and
`send` reaches whatever connection has that number by then.  In orderly runs
that is the connection the row was filled for, so each connection is handed
exactly what was sent while its own row was checked.
-/

namespace OpenChat.Server

open Platform Foundation Foundation.KeyedList Foundation.Positions

inductive Gesture where
  | edit (text : List WChar)
  | message (msg : Message)
  | file (lines : Option (List FileLine)) (buf : Buffer 512)
  | setCheck (nRow : Nat) (checked : Bool)

def Gesture.action : Gesture → Action
  | .edit text => .edit text
  | .message msg => .message msg
  | .file lines buf => .file lines buf
  | .setCheck nRow checked => .setCheck nRow checked

namespace World

/-- The row shows the connection with this item, and is checked. -/
def ChecksItem (world : World) (item : CClientItem) : Prop :=
  ∃ row ∈ world.dlg.mClientList,
    row.checked = true ∧ rowTexts row = entryTexts item

instance (world : World) (item : CClientItem) :
    Decidable (world.ChecksItem item) :=
  inferInstanceAs (Decidable (∃ row ∈ world.dlg.mClientList, _))

def checkedConnections (world : World) : List Nat :=
  (world.inService.filter fun service =>
    world.ChecksItem service.2).map Prod.fst

end World

/-- The server process and the window's network, with the connection each call
of `send` reached, and, for each gesture, the connections whose rows were
checked and what it hands over for one of them. -/
structure Office where
  world : World
  network : Network
  carried : List (Option Nat × List Byte)
  addressed : List (List Nat × List (List Byte))

inductive OfficeEvent where
  | server (event : Event)
  | operator (gesture : Gesture)

namespace Office

def initial (answer : Nat → Int) : Office :=
  { world := World.initial
    network := { sent := [], answer := answer }
    carried := []
    addressed := [] }

def desk (office : Office) : Desk :=
  { dlg := office.world.dlg, network := office.network }

def calls (page : CodePage) (office : Office) (gesture : Gesture) :
    List (Socket × List Byte) :=
  (office.desk.act page gesture.action).network.sent.drop
    office.network.sent.length

def operate (page : CodePage) (office : Office) (gesture : Gesture) :
    Office :=
  let desk := office.desk.act page gesture.action
  { world := { office.world with dlg := desk.dlg }
    network := desk.network
    carried := office.carried ++ (office.calls page gesture).map fun call =>
      (office.world.connectionOf call.1, call.2)
    addressed := office.addressed ++
      [(office.world.checkedConnections,
        handed page office.world.dlg.mEditSend gesture.action)] }

def step (page : CodePage) (office : Office) : OfficeEvent → Option Office
  | .server event =>
      (office.world.step event).map fun world =>
        { office with world := world }
  | .operator gesture =>
      if office.world.terminated then none
      else some (office.operate page gesture)

def post (page : CodePage) : System Office OfficeEvent :=
  { step := step page }

def carriedTo (office : Office) (conn : Nat) : List (List Byte) :=
  (office.carried.filter fun entry => entry.1 = some conn).map Prod.snd

/-- What was meant for one connection, in order. -/
def addressedTo (office : Office) (conn : Nat) : List (List Byte) :=
  office.addressed.flatMap fun entry =>
    if conn ∈ entry.1 then entry.2 else []

/-- Every connection has been handed what was meant for it, and nothing went
anywhere else. -/
structure Delivered (office : Office) : Prop where
  exactly : ∀ conn, office.carriedTo conn = office.addressedTo conn
  reached : ∀ entry ∈ office.carried, entry.1 ≠ none

def Orderly (office : Office) : OfficeEvent → Prop
  | .server event => office.world.Orderly event
  | .operator _ => True

instance (office : Office) : DecidablePred office.Orderly
  | .server event => inferInstanceAs (Decidable (office.world.Orderly event))
  | .operator _ => inferInstanceAs (Decidable True)

end Office

namespace World

theorem Sealed.connectionOf_eq {world : World} (sealed_ : world.Sealed)
    {handle : Socket} {conn : Nat}
    (isOpen : (handle, SocketUse.connection conn) ∈ world.openSockets) :
    world.connectionOf handle = some conn := by
  have somebody : (world.connectionOf handle).isSome := by
    rw [World.connectionOf, List.findSome?_isSome_iff]
    exact ⟨_, isOpen, by simp [SocketUse.connection?]⟩
  obtain ⟨other, named⟩ := Option.isSome_iff_exists.mp somebody
  obtain ⟨socket, member, isConn⟩ :=
    List.exists_of_findSome?_eq_some named
  obtain ⟨sameHandle, isConn⟩ := Option.ite_none_right_eq_some.mp isConn
  have same : socket = (handle, SocketUse.connection conn) :=
    List.inj_on_of_nodup_map sealed_.handles member isOpen sameHandle
  rw [same] at isConn
  rw [named, ← isConn]
  rfl

theorem Sealed.eq_of_cSocket_eq {world : World} (sealed_ : world.Sealed)
    {left right : Nat × CClientItem} (leftServed : left ∈ world.inService)
    (rightServed : right ∈ world.inService)
    (same : left.2.cSocket = right.2.cSocket) : left = right := by
  have leftOpen := (sealed_.owns left leftServed).2
  have rightOpen := (sealed_.owns right rightServed).2
  have sameSocket := List.inj_on_of_nodup_map sealed_.handles leftOpen
    rightOpen same
  have sameConn : left.1 = right.1 :=
    SocketUse.connection.inj (congrArg Prod.snd sameSocket)
  exact List.inj_on_of_nodup_map sealed_.distinct leftServed rightServed
    sameConn

theorem InOrder.exists_service {world : World} (inOrder : world.InOrder)
    {row : ListRow} (member : row ∈ world.dlg.mClientList) :
    ∃ service ∈ world.inService, rowTexts row = entryTexts service.2 ∧
      service.2.cSocket < 2 ^ 32 := by
  obtain ⟨service, served, texts, _, _⟩ := inOrder.servesRow rfl member
  exact ⟨service, served, texts, inOrder.small _ _
    (inOrder.sealed_.owns service served).2⟩

/-- A checked row with the socket text of a connection in service shows that
connection. -/
theorem InOrder.showsChecked_iff {world : World} (inOrder : world.InOrder)
    {service : Nat × CClientItem} (served : service ∈ world.inService) :
    ShowsChecked world.dlg.mClientList service.2.cSocket ↔
      world.ChecksItem service.2 := by
  have small := inOrder.small _ _ (inOrder.sealed_.owns service served).2
  constructor
  · rintro ⟨row, member, socketText, checked⟩
    obtain ⟨other, otherServed, texts, otherSmall⟩ :=
      inOrder.exists_service member
    have otherText : row.socket = formatLd other.2.cSocket :=
      congrArg (fun texts => texts.2.2) texts
    have sameSocket := formatLd_injective small otherSmall
      (socketText.symm.trans otherText)
    obtain rfl := inOrder.sealed_.eq_of_cSocket_eq served otherServed
      sameSocket
    exact ⟨row, member, checked, texts⟩
  · rintro ⟨row, member, checked, texts⟩
    exact ⟨row, member, congrArg (fun texts => texts.2.2) texts, checked⟩

theorem InOrder.mem_checkedConnections_iff {world : World}
    (inOrder : world.InOrder) {service : Nat × CClientItem}
    (served : service ∈ world.inService) :
    service.1 ∈ world.checkedConnections ↔ world.ChecksItem service.2 := by
  rw [checkedConnections, List.mem_map]
  constructor
  · rintro ⟨other, member, sameConn⟩
    obtain ⟨otherServed, checks⟩ := List.mem_filter.mp member
    obtain rfl := List.inj_on_of_nodup_map inOrder.sealed_.distinct
      otherServed served sameConn
    exact of_decide_eq_true checks
  · intro checks
    exact ⟨service, List.mem_filter.mpr ⟨served, decide_eq_true checks⟩, rfl⟩

theorem InOrder.rowsApart {world : World} (inOrder : world.InOrder) :
    RowsApart world.dlg.mClientList where
  distinct := by
    have services : (world.inService.map fun service =>
        formatLd service.2.cSocket).Nodup := by
      apply List.Nodup.map_on _ (List.Nodup.of_map _
        inOrder.sealed_.distinct)
      intro left leftServed right rightServed sameText
      have leftOpen := (inOrder.sealed_.owns left leftServed).2
      have rightOpen := (inOrder.sealed_.owns right rightServed).2
      exact inOrder.sealed_.eq_of_cSocket_eq leftServed rightServed
        (formatLd_injective (inOrder.small _ _ leftOpen)
          (inOrder.small _ _ rightOpen) sameText)
    have owners : ((world.rowOwners.map entryTexts).map
        fun texts => texts.2.2).Nodup := by
      have fewer := world.rowServices_sublist.map fun service =>
        formatLd service.2.cSocket
      rw [← rowServices_snd, List.map_map, List.map_map]
      exact services.sublist fewer
    have rows := (inOrder.owned.map fun texts => texts.2.2).nodup_iff.mpr
      owners
    rwa [List.map_map] at rows
  fit := by
    intro row member
    obtain ⟨service, _, texts, small⟩ := inOrder.exists_service member
    exact ⟨service.2.cSocket, small,
      congrArg (fun texts => texts.2.2) texts⟩

theorem InOrder.relist {world : World} (inOrder : world.InOrder)
    {dlg : PCServerDlg} (server : dlg.mServer = world.dlg.mServer)
    (toolBar : dlg.mToolBar = world.dlg.mToolBar)
    (rows : dlg.mClientList.map rowTexts =
      world.dlg.mClientList.map rowTexts) :
    InOrder { world with dlg := dlg } where
  sealed_ :=
    { balanced :=
        { rows := by
            intro port
            have counts := inOrder.sealed_.balanced.rows port
            have through : ∀ list : CListCtrl,
                countKey rowPort (port : Int) list =
                  countKey (fun texts : Text × Text × Text => ttoi texts.1)
                    (port : Int) (list.map rowTexts) := by
              intro list
              rw [countKey, countKey, List.countP_map]
              rfl
            rw [through] at counts ⊢
            rw [rows]
            exact counts
          entries := by
            intro port
            rw [server]
            exact inOrder.sealed_.balanced.entries port
          lastAdded := by
            intro conn clientAddr connSock member
            rw [server]
            exact inOrder.sealed_.balanced.lastAdded conn clientAddr
              connSock member
          addedAlone := inOrder.sealed_.balanced.addedAlone }
      handles := inOrder.sealed_.handles
      valid := inOrder.sealed_.valid
      distinct := inOrder.sealed_.distinct
      owns := inOrder.sealed_.owns
      rowsInSession := by
        rw [rows]
        exact inOrder.sealed_.rowsInSession
      entriesInSession := by
        rw [server]
        exact inOrder.sealed_.entriesInSession
      listening := by
        rw [IsListening, server]
        exact inOrder.sealed_.listening
      stopped := by
        rw [server]
        exact inOrder.sealed_.stopped
      unopened := by
        rw [toolBar, server]
        exact inOrder.sealed_.unopened }
  owned := by
    rw [RowsOwned, rows]
    exact inOrder.owned
  small := inOrder.small

end World

/-- A gesture changes neither the registry nor the tool bar, and of the list
at most check marks. -/
theorem act_gesture (page : CodePage) (desk : Desk) (gesture : Gesture) :
    (desk.act page gesture.action).dlg.mServer = desk.dlg.mServer ∧
      (desk.act page gesture.action).dlg.mToolBar = desk.dlg.mToolBar ∧
      (desk.act page gesture.action).dlg.mClientList.map rowTexts =
        desk.dlg.mClientList.map rowTexts := by
  cases gesture with
  | edit text => exact ⟨rfl, rfl, rfl⟩
  | file lines buf => exact ⟨rfl, rfl, rfl⟩
  | setCheck nRow checked =>
      refine ⟨rfl, rfl, ?_⟩
      apply List.ext_getElem?
      intro i
      simp only [Gesture.action, Desk.act, CListCtrl.setCheck,
        List.getElem?_map, List.getElem?_modify]
      split <;> cases desk.dlg.mClientList[i]? <;> rfl
  | message msg =>
      cases msg with
      | other => exact ⟨rfl, rfl, rfl⟩
      | keyDown wParam =>
          simp only [Gesture.action, Desk.act,
            PCServerDlg.preTranslateMessage]
          split
          · exact ⟨rfl, rfl, rfl⟩
          · split
            · exact ⟨rfl, rfl, rfl⟩
            · exact ⟨rfl, rfl, rfl⟩

namespace Office

section Gestures

variable (page : CodePage) {office : Office} (gesture : Gesture)

theorem calls_spec (office : Office) :
    (office.desk.act page gesture.action).network.sent =
        office.network.sent ++ office.calls page gesture ∧
      ∀ call ∈ office.calls page gesture,
        ∃ row ∈ office.world.dlg.mClientList, row.checked = true ∧
          call.1 = tcstoul row.socket := by
  obtain ⟨calls, sent, toChecked⟩ :=
    office.desk.act_onlyToChecked page gesture.action
  have same : office.calls page gesture = calls := by
    rw [Office.calls, sent]
    exact List.drop_left
  rw [same]
  exact ⟨sent, toChecked⟩

theorem exists_service_of_call (inOrder : office.world.InOrder)
    {call : Socket × List Byte}
    (member : call ∈ office.calls page gesture) :
    ∃ service ∈ office.world.inService,
      call.1 = service.2.cSocket ∧
        office.world.connectionOf call.1 = some service.1 := by
  obtain ⟨row, inList, _, toRow⟩ :=
    (calls_spec page gesture office).2 call member
  obtain ⟨service, served, _, isSocket, isOpen⟩ :=
    inOrder.servesRow rfl inList
  rw [← toRow] at isSocket isOpen
  exact ⟨service, served, isSocket, inOrder.sealed_.connectionOf_eq isOpen⟩

theorem callsTo_socket (inOrder : office.world.InOrder)
    {service : Nat × CClientItem}
    (served : service ∈ office.world.inService) :
    ((office.calls page gesture).filter fun call =>
        call.1 = service.2.cSocket).map Prod.snd =
      if office.world.ChecksItem service.2 then
        handed page office.world.dlg.mEditSend gesture.action
      else [] := by
  have small := inOrder.small _ _ (inOrder.sealed_.owns service served).2
  have sent := @sentTo_act page office.desk inOrder.rowsApart
    service.2.cSocket small gesture.action
  rw [Network.sentTo, (calls_spec page gesture office).1,
    List.filter_append, List.map_append] at sent
  have appended := List.append_cancel_left sent
  rw [appended]
  exact if_congr (inOrder.showsChecked_iff served) rfl rfl

/-- What a gesture hands to one connection: what it hands over for a checked
row if the row of that connection is checked, and otherwise nothing. -/
theorem callsTo_connection (inOrder : office.world.InOrder) (conn : Nat) :
    ((office.calls page gesture).filter fun call =>
        office.world.connectionOf call.1 = some conn).map Prod.snd =
      if conn ∈ office.world.checkedConnections then
        handed page office.world.dlg.mEditSend gesture.action
      else [] := by
  by_cases inService : conn ∈ office.world.inService.map Prod.fst
  · obtain ⟨service, served, rfl⟩ := List.mem_map.mp inService
    have sameCalls : ((office.calls page gesture).filter fun call =>
        office.world.connectionOf call.1 = some service.1) =
        (office.calls page gesture).filter fun call =>
          call.1 = service.2.cSocket := by
      apply List.filter_congr
      intro call member
      obtain ⟨other, otherServed, isSocket, named⟩ :=
        exists_service_of_call page gesture inOrder member
      rw [named, isSocket, decide_eq_decide, Option.some.injEq]
      constructor
      · intro sameConn
        rw [List.inj_on_of_nodup_map inOrder.sealed_.distinct otherServed
          served sameConn]
      · intro sameSocket
        rw [inOrder.sealed_.eq_of_cSocket_eq otherServed served sameSocket]
    rw [sameCalls, callsTo_socket page gesture inOrder served]
    exact (if_congr (inOrder.mem_checkedConnections_iff served) rfl rfl).symm
  · have unchecked : conn ∉ office.world.checkedConnections := by
      intro checked
      apply inService
      exact (List.filter_sublist.map Prod.fst).subset checked
    have noCall : ((office.calls page gesture).filter fun call =>
        office.world.connectionOf call.1 = some conn) = [] := by
      rw [List.filter_eq_nil_iff]
      intro call member named
      obtain ⟨service, served, _, isService⟩ :=
        exists_service_of_call page gesture inOrder member
      have sameConn := isService.symm.trans (of_decide_eq_true named)
      obtain rfl := Option.some.inj sameConn
      exact inService (List.mem_map_of_mem served)
    rw [noCall, if_neg unchecked]
    rfl

theorem Delivered.operate (delivered : office.Delivered)
    (inOrder : office.world.InOrder) :
    (office.operate page gesture).Delivered where
  exactly := by
    intro conn
    rw [carriedTo, addressedTo, Office.operate, List.filter_append,
      List.map_append, List.flatMap_append, List.flatMap_singleton,
      List.filter_map, List.map_map]
    have before := delivered.exactly conn
    rw [carriedTo, addressedTo] at before
    rw [before]
    congr 1
    exact callsTo_connection page gesture inOrder conn
  reached := by
    intro entry member
    rcases List.mem_append.mp member with earlier | new
    · exact delivered.reached entry earlier
    · obtain ⟨call, isCall, rfl⟩ := List.mem_map.mp new
      obtain ⟨service, _, _, named⟩ :=
        exists_service_of_call page gesture inOrder isCall
      rw [named]
      exact Option.some_ne_none service.1

end Gestures

theorem inOrder_operate (page : CodePage) {office : Office}
    (inOrder : office.world.InOrder) (gesture : Gesture) :
    (office.operate page gesture).world.InOrder := by
  obtain ⟨server, toolBar, rows⟩ := act_gesture page office.desk gesture
  exact inOrder.relist server toolBar rows

/-- In a run whose server steps are orderly, whatever the operator does in
between and whatever `send` answers, each connection has been handed exactly
what was sent while its own row was checked, in that order, and no call of
`send` missed a connection. -/
theorem delivered_to_checked (page : CodePage) (answer : Nat → Int)
    {events : List OfficeEvent}
    (orderly : (post page).StepsMeet Orderly (initial answer) events) :
    (post page).Always Delivered (initial answer) events := by
  have preserved : ∀ (office : Office) (event : OfficeEvent)
      (next : Office), office.world.InOrder ∧ office.Delivered →
        office.Orderly event → (post page).step office event = some next →
          next.world.InOrder ∧ next.Delivered := by
    intro office event next ⟨inOrder, delivered⟩ guard taken
    cases event with
    | server event =>
        obtain ⟨world, stepped, rfl⟩ := Option.map_eq_some_iff.mp taken
        exact ⟨inOrder.steps guard (World.steps_of_step stepped),
          delivered.exactly, delivered.reached⟩
    | operator gesture =>
        obtain ⟨_, result⟩ := Option.ite_none_left_eq_some.mp taken
        obtain rfl := Option.some.inj result
        exact ⟨inOrder_operate page inOrder gesture,
          delivered.operate page gesture inOrder⟩
  have nothingYet : (initial answer).Delivered := by
    constructor
    · intro conn
      rfl
    · intro entry member
      cases member
  have always := System.always_of_guarded preserved
    ⟨World.inOrder_initial, nothingYet⟩ orderly
  exact always.mono fun _ both => both.2

private def rowPeer (host : UInt8) : SockaddrIn :=
  { sinPort := 0x9113
    sinAddr := { b1 := 10, b2 := 0, b3 := 0, b4 := host } }

/-- `hi` goes to the second of two clients; then the first leaves, its row is
removed and `o` goes to the second one again, now in the first row. -/
def movedRowRun : List OfficeEvent :=
  [.server (.openServer (.listens 120)), .server (.testRun 0),
    .server (.accept 0 (rowPeer 13) 124), .server (.insertClient 0),
    .server (.addClient 0), .server (.startClient 0), .server (.testRun 0),
    .server (.accept 0 (rowPeer 14) 128), .server (.insertClient 0),
    .operator (.setCheck 1 true), .operator (.edit [104, 105]),
    .operator (.message (.keyDown vkReturn)), .server (.addClient 0),
    .server (.startClient 0), .server (.hangUp 0), .operator (.edit [111]),
    .operator (.message (.keyDown vkReturn)), .server (.deleteClient 0)]

theorem movedRowRun_enabled :
    ((post .ascii).exec (initial fun _ => -1) movedRowRun).isSome := by decide

theorem moved_row_gets_its_texts :
    (((post .ascii).exec (initial fun _ => -1) movedRowRun).get
      movedRowRun_enabled).Delivered :=
  delivered_to_checked .ascii (fun _ => -1) (by decide) _ _
    (List.prefix_refl _) (System.run_get movedRowRun_enabled)

end Office

end OpenChat.Server
