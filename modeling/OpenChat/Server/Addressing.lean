import OpenChat.Server.Broadcast
import OpenChat.Server.RowOwners
import OpenChat.Server.Separation

/-!
# Whom the window can send to

Both send loops read the socket of a checked row out of the list and hand it
to `send` without looking at the registry.  While rows have their owners and
sessions are kept apart, every such socket is open and belongs to the
connection the row was filled for, so nothing typed or read from a file leaves
on any other socket.
-/

namespace OpenChat.Server

open Platform Foundation Foundation.KeyedList Foundation.Positions

/-- Every further call of `send` is for the socket of a checked row. -/
def SendsOnlyToChecked (list : CListCtrl) (before after : Network) : Prop :=
  ∃ calls, after.sent = before.sent ++ calls ∧
    ∀ call ∈ calls, ∃ row ∈ list, row.checked = true ∧
      call.1 = tcstoul row.socket

namespace SendsOnlyToChecked

variable {list : CListCtrl} {before middle after : Network}

theorem refl (network : Network) : SendsOnlyToChecked list network network :=
  ⟨[], by simp⟩

theorem trans (first : SendsOnlyToChecked list before middle)
    (later : SendsOnlyToChecked list middle after) :
    SendsOnlyToChecked list before after := by
  obtain ⟨calls, sent, toChecked⟩ := first
  obtain ⟨laterCalls, laterSent, laterToChecked⟩ := later
  refine ⟨calls ++ laterCalls, ?_, ?_⟩
  · rw [laterSent, sent, List.append_assoc]
  · intro call member
    rcases List.mem_append.mp member with isFirst | isLater
    · exact toChecked call isFirst
    · exact laterToChecked call isLater

theorem send {row : ListRow} (member : row ∈ list)
    (checked : row.checked = true) (network : Network) (bytes : List Byte) :
    SendsOnlyToChecked list network
      (network.send (tcstoul row.socket) bytes).2 := by
  refine ⟨[(tcstoul row.socket, bytes)], rfl, ?_⟩
  intro call isCall
  obtain rfl := List.mem_singleton.mp isCall
  exact ⟨row, member, checked, rfl⟩

/-- A loop over rows of the list whose body sends only to its own row, and
only if that is checked. -/
theorem loop {State : Type} {network : State → Network}
    {body : State → ListRow → State}
    (sends : ∀ row ∈ list, ∀ state,
      SendsOnlyToChecked list (network state) (network (body state row)))
    {rows : List ListRow} (inside : rows ⊆ list) (state : State) :
    SendsOnlyToChecked list (network state)
      (network (rows.foldl body state)) := by
  induction rows generalizing state with
  | nil => exact refl _
  | cons row rows induction =>
      have first := sends row (inside List.mem_cons_self) state
      have later := induction
        (fun _ member => inside (.tail _ member)) (body state row)
      exact first.trans later

end SendsOnlyToChecked

namespace PCServerDlg

theorem sendChecked_onlyToChecked (list : CListCtrl) (str : List Byte)
    (network : Network) :
    SendsOnlyToChecked list network (sendChecked list str network) := by
  rw [sendChecked_eq_foldl]
  have sends : ∀ row ∈ list, ∀ state : Network,
      SendsOnlyToChecked list (id state)
        (id (sendBody str state (some row))) := by
    intro row member state
    cases checked : row.checked with
    | false =>
        have skipped : sendBody str state (some row) = state := by
          simp [sendBody, checked]
        rw [skipped]
        exact .refl _
    | true =>
        have sent : sendBody str state (some row) =
            (state.send (tcstoul row.socket) str).2 := by
          simp [sendBody, checked]
        rw [sent]
        exact .send member checked state str
  exact SendsOnlyToChecked.loop sends (List.Subset.refl _) network

theorem fileLine_onlyToChecked (page : CodePage) (list : CListCtrl)
    (state : Buffer 512 × Network) (line : FileLine) :
    SendsOnlyToChecked list state.2 (fileLine page list state line).2 := by
  rw [fileLine_eq_foldl]
  have sends : ∀ row ∈ list, ∀ state : Buffer 512 × Network,
      SendsOnlyToChecked list state.2
        (fileBody page line state (some row)).2 := by
    intro row member state
    cases checked : row.checked with
    | false =>
        have skipped : fileBody page line state (some row) = state := by
          simp [fileBody, checked]
        rw [skipped]
        exact .refl _
    | true =>
        have sent : (fileBody page line state (some row)).2 =
            (state.2.send (tcstoul row.socket)
              (fillRecord page line state.1).bytes).2 := by
          simp [fileBody, checked]
        rw [sent]
        exact .send member checked state.2 _
  exact SendsOnlyToChecked.loop sends (List.Subset.refl _) state

theorem onBtnFile_onlyToChecked (page : CodePage) (dlg : PCServerDlg)
    (file : Option (List FileLine)) (buf : Buffer 512) (network : Network) :
    SendsOnlyToChecked dlg.mClientList network
      (dlg.onBtnFile page file buf network) := by
  cases file with
  | none => exact .refl _
  | some lines =>
      have all : ∀ (lines : List FileLine) (state : Buffer 512 × Network),
          SendsOnlyToChecked dlg.mClientList state.2
            (lines.foldl (fileLine page dlg.mClientList) state).2 := by
        intro lines
        induction lines with
        | nil => exact fun state => .refl _
        | cons line lines induction =>
            intro state
            exact (fileLine_onlyToChecked page _ state line).trans
              (induction _)
      exact all lines (buf, network)

theorem preTranslateMessage_onlyToChecked (page : CodePage)
    (dlg : PCServerDlg) (network : Network) (msg : Message) :
    SendsOnlyToChecked dlg.mClientList network
      (dlg.preTranslateMessage page network msg).2.2 := by
  cases msg with
  | other => exact .refl _
  | keyDown wParam =>
      unfold preTranslateMessage
      dsimp only
      by_cases escape : wParam = vkEscape
      · rw [if_pos escape]
        exact .refl _
      · by_cases isReturn : wParam = vkReturn
        · rw [if_neg escape, if_pos isReturn]
          exact sendChecked_onlyToChecked _ _ network
        · rw [if_neg escape, if_neg isReturn]
          exact .refl _

end PCServerDlg

theorem Desk.act_onlyToChecked (page : CodePage) (desk : Desk)
    (action : Action) :
    SendsOnlyToChecked desk.dlg.mClientList desk.network
      (desk.act page action).network := by
  cases action with
  | message msg =>
      exact PCServerDlg.preTranslateMessage_onlyToChecked page desk.dlg
        desk.network msg
  | file lines buf =>
      exact PCServerDlg.onBtnFile_onlyToChecked page desk.dlg lines buf
        desk.network
  | edit | setCheck | insertClient | addClient | removeClient
  | deleteClient => exact .refl _

namespace World

/-- The handle is the open socket of a connection some loop or handler is
serving, and the row shows that connection. -/
def ServesRow (world : World) (row : ListRow) (handle : Socket) : Prop :=
  ∃ service ∈ world.inService, rowTexts row = entryTexts service.2 ∧
    handle = service.2.cSocket ∧
    (handle, SocketUse.connection service.1) ∈ world.openSockets

/-- The steps which keep rows and sessions in order, with accepted handles
below 2^32. -/
def Orderly (world : World) (event : Event) : Prop :=
  world.Undisturbed event ∧ world.MindsOwnRow event ∧
    match event with
    | .accept _ _ connSock => connSock < 2 ^ 32
    | _ => True

instance (world : World) (event : Event) :
    Decidable (world.Orderly event) :=
  match event with
  | .accept _ _ connSock =>
      inferInstanceAs (Decidable (_ ∧ _ ∧ connSock < 2 ^ 32))
  | .openServer _ | .closeServer | .testRun _ | .pollNothing _
  | .insertClient _ | .addClient _ | .startClient _ | .receive _ _
  | .hangUp _ | .deleteClient _ =>
      inferInstanceAs (Decidable (_ ∧ _ ∧ True))

/-- Rows and sessions are in order and connections have handles below
2^32. -/
structure InOrder (world : World) : Prop where
  sealed_ : world.Sealed
  owned : world.RowsOwned
  small : ∀ handle conn,
    (handle, SocketUse.connection conn) ∈ world.openSockets →
      handle < 2 ^ 32

theorem inOrder_initial : initial.InOrder where
  sealed_ := sealed_initial
  owned := rowsOwned_initial
  small := by
    intro handle conn member
    simp [initial] at member

theorem not_connection_of_leavesOpen {outcome : InitOutcome}
    {socket : Socket × SocketUse} (member : socket ∈ outcome.leavesOpen)
    (conn : Nat) : socket.2 ≠ .connection conn := by
  intro isConnection
  cases outcome <;> simp [InitOutcome.leavesOpen] at member <;>
    simp [member] at isConnection

theorem connection_of_steps {world next : World} {event : Event}
    (taken : Steps world event next) {handle : Socket} {conn : Nat}
    (isOpen : (handle, SocketUse.connection conn) ∈ next.openSockets) :
    (handle, SocketUse.connection conn) ∈ world.openSockets ∨
      ∃ i clientAddr, event = .accept i clientAddr handle := by
  cases taken with
  | openServer enabled fresh =>
      rcases List.mem_append.mp isOpen with old | new
      · exact .inl old
      · exact (not_connection_of_leavesOpen new conn rfl).elim
  | closeServer enabled => exact .inl (List.mem_of_mem_filter isOpen)
  | @accept i clientAddr connSock found listening fresh =>
      rcases List.mem_append.mp isOpen with old | new
      · exact .inl old
      · obtain ⟨rfl, _⟩ := Prod.mk.inj (List.mem_singleton.mp new)
        exact .inr ⟨i, clientAddr, rfl⟩
  | @startClient i conn clientAddr connSock found =>
      left
      simp only [World.startClient] at isOpen
      split at isOpen
      · exact isOpen
      · exact isOpen
  | testRun | endLoop | pollNothing | insertClient | addClient | receive
  | hangUp | deleteClient => exact .inl isOpen

theorem InOrder.steps {world next : World} {event : Event}
    (inOrder : world.InOrder) (orderly : world.Orderly event)
    (taken : Steps world event next) : next.InOrder where
  sealed_ := inOrder.sealed_.steps orderly.1 taken
  owned := (inOrder.owned.steps_iff taken).mpr orderly.2.1
  small := by
    intro handle conn isOpen
    rcases connection_of_steps taken isOpen with old | ⟨i, addr, rfl⟩
    · exact inOrder.small handle conn old
    · exact orderly.2.2

theorem rowServices_sublist (world : World) :
    world.rowServices.Sublist world.inService := by
  have loops : (world.clientLoops.filterMap ClientLoop.rowService).Sublist
      (world.clientLoops.map fun loop => (loop.conn, loop.client)) := by
    rw [← List.filterMap_eq_map]
    apply filterMap_sublist
    intro loop service isService
    exact (Option.ite_none_left_eq_some.mp isService).2
  have handlers : (world.acceptLoops.filterMap AcceptPhase.rowService).Sublist
      (world.acceptLoops.filterMap AcceptPhase.handled) := by
    apply filterMap_sublist
    intro phase service isService
    cases phase with
    | testing | polling | accepted => cases isService
    | inserted | added => exact isService
  exact loops.append handlers

theorem exists_service_of_rowOwner {world : World} {item : CClientItem}
    (member : item ∈ world.rowOwners) :
    ∃ conn, (conn, item) ∈ world.inService := by
  rw [← rowServices_snd] at member
  obtain ⟨service, shown, rfl⟩ := List.mem_map.mp member
  exact ⟨service.1, world.rowServices_sublist.subset shown⟩

theorem InOrder.servesRow {world : World} (inOrder : world.InOrder)
    {row : ListRow} {shown : CListCtrl}
    (sameRows : shown.map rowTexts = world.dlg.mClientList.map rowTexts)
    (member : row ∈ shown) :
    world.ServesRow row (tcstoul row.socket) := by
  have inList : rowTexts row ∈ world.dlg.mClientList.map rowTexts :=
    sameRows ▸ List.mem_map_of_mem member
  obtain ⟨item, isOwner, texts⟩ :=
    List.mem_map.mp (inOrder.owned.subset inList)
  obtain ⟨conn, served⟩ := exists_service_of_rowOwner isOwner
  have isOpen := (inOrder.sealed_.owns (conn, item) served).2
  have socketText : row.socket = formatLd item.cSocket :=
    (congrArg (fun texts => texts.2.2) texts).symm
  have read : tcstoul row.socket = item.cSocket := by
    rw [socketText]
    exact tcstoul_formatLd (inOrder.small item.cSocket conn isOpen)
  exact ⟨(conn, item), served, texts.symm, read, read ▸ isOpen⟩

/-- In a run whose steps are orderly, whatever is done at the window in any
state, with any rows checked, every `send` is for the open socket of a
connection in service which a checked row shows. -/
theorem sends_reach_shown_connections {events : List Event}
    (orderly : process.StepsMeet Orderly initial events) :
    process.Always
      (fun world => ∀ (page : CodePage) (desk : Desk) (action : Action),
        desk.dlg.mClientList.map rowTexts =
            world.dlg.mClientList.map rowTexts →
          ∃ calls, (desk.act page action).network.sent =
              desk.network.sent ++ calls ∧
            ∀ call ∈ calls, ∃ row ∈ desk.dlg.mClientList,
              row.checked = true ∧ world.ServesRow row call.1)
      initial events := by
  have always : process.Always InOrder initial events := by
    apply System.always_of_guarded _ inOrder_initial orderly
    intro world event next inOrder guard taken
    exact inOrder.steps guard (steps_of_step taken)
  refine always.mono ?_
  intro world inOrder page desk action sameRows
  obtain ⟨calls, sent, toChecked⟩ := desk.act_onlyToChecked page action
  refine ⟨calls, sent, ?_⟩
  intro call member
  obtain ⟨row, inList, checked, same⟩ := toChecked call member
  refine ⟨row, inList, checked, ?_⟩
  rw [same]
  exact inOrder.servesRow sameRows inList

/-- One peer is served on handle 36. -/
def shownPeerRun : List Event :=
  let peer : SockaddrIn :=
    { sinPort := 0x8A13, sinAddr := { b1 := 10, b2 := 0, b3 := 0, b4 := 5 } }
  [.openServer (.listens 32), .testRun 0, .accept 0 peer 36, .insertClient 0,
    .addClient 0, .startClient 0]

theorem shownPeerRun_enabled :
    (process.exec initial shownPeerRun).isSome := by decide

theorem sends_reach_shown_peer :
    ∃ world, process.Run initial shownPeerRun world ∧
      ∀ (page : CodePage) (desk : Desk) (action : Action),
        desk.dlg.mClientList.map rowTexts =
            world.dlg.mClientList.map rowTexts →
          ∃ calls, (desk.act page action).network.sent =
              desk.network.sent ++ calls ∧
            ∀ call ∈ calls, ∃ row ∈ desk.dlg.mClientList,
              row.checked = true ∧ world.ServesRow row call.1 :=
  ⟨_, System.run_get shownPeerRun_enabled,
    sends_reach_shown_connections (by decide) _ _ (List.prefix_refl _)
      (System.run_get shownPeerRun_enabled)⟩

end World

end OpenChat.Server
