import OpenChat.Server.Broadcast

/-!
# From the text of a row back to its socket

`InsertClient` prints a socket with `%ld`, as a signed number, and both send
loops read the text of a row with `_tcstoul`, as an unsigned one.  Below 2^32
the reader undoes the printer, so each loop calls `send` on the socket of
every checked row, once a round.
-/

namespace OpenChat.Server

open Platform

/-- A client with a row in the list, which may be checked. -/
structure ShownClient where
  clientAddr : SockaddrIn
  socket : Socket
  fits : socket < 2 ^ 32
  checked : Bool

def ShownClient.row (client : ShownClient) : ListRow :=
  { rowOf client.clientAddr client.socket with checked := client.checked }

theorem ShownClient.tcstoul_row (client : ShownClient) :
    tcstoul client.row.socket = client.socket :=
  tcstoul_formatLd client.fits

def checkedSockets (clients : List ShownClient) : List Socket :=
  (clients.filter ShownClient.checked).map ShownClient.socket

theorem checkedSockets_cons (client : ShownClient)
    (clients : List ShownClient) :
    checkedSockets (client :: clients) =
      if client.checked then client.socket :: checkedSockets clients
      else checkedSockets clients := by
  cases checked : client.checked with
  | false => simp [checkedSockets, checked]
  | true => simp [checkedSockets, checked]

namespace PCServerDlg

def showing (dlg : PCServerDlg) (clients : List ShownClient) : PCServerDlg :=
  { dlg with mClientList := clients.map ShownClient.row }

theorem insertClient_socketText (dlg : PCServerDlg) (clientAddr : SockaddrIn)
    (socket : Socket) :
    (dlg.insertClient clientAddr socket).mClientList.getItemText
        (min dlg.mServer.clientNum dlg.mClientList.length) 2 =
      formatLd socket := by
  have inside : min dlg.mServer.clientNum dlg.mClientList.length ≤
      dlg.mClientList.length := min_le_right _ _
  rw [insertClient_mClientList, CListCtrl.getItemText,
    List.getElem?_insertIdx_self, if_pos inside]
  rfl

theorem sent_sendChecked (clients : List ShownClient) (str : List Byte)
    (network : Network) :
    (sendChecked (clients.map ShownClient.row) str network).sent =
      network.sent ++ (checkedSockets clients).map fun socket =>
        (socket, str) := by
  rw [sendChecked_eq_foldl]
  induction clients generalizing network with
  | nil => simp [checkedSockets]
  | cons client clients induction =>
      rw [List.map_cons, List.foldl_cons, induction, checkedSockets_cons]
      cases checked : client.checked with
      | false => simp [sendBody, ShownClient.row, checked]
      | true =>
          have read : tcstoul (rowOf client.clientAddr client.socket).socket =
              client.socket := client.tcstoul_row
          simp [sendBody, ShownClient.row, checked, Network.send, read]

theorem sent_fileLine (page : CodePage) (clients : List ShownClient)
    (line : FileLine) {record : Buffer 512} (state : Buffer 512 × Network)
    (filled : fillRecord page line state.1 = record) :
    (fileLine page (clients.map ShownClient.row) state line).2.sent =
      state.2.sent ++ (checkedSockets clients).map fun socket =>
        (socket, record.bytes) := by
  rw [fileLine_eq_foldl]
  induction clients generalizing state with
  | nil => simp [checkedSockets]
  | cons client clients induction =>
      rw [List.map_cons, List.foldl_cons, checkedSockets_cons]
      cases checked : client.checked with
      | false =>
          have skipped : fileBody page line state (some client.row) =
              state := by
            simp [fileBody, ShownClient.row, checked]
          rw [skipped, induction state filled]
          rfl
      | true =>
          have sent : fileBody page line state (some client.row) =
              (record, (state.2.send client.socket record.bytes).2) := by
            have read : tcstoul client.row.socket = client.socket :=
              client.tcstoul_row
            simp only [fileBody, read, filled]
            exact if_pos checked
          have again : fillRecord page line record = record := by
            rw [← filled]
            exact fillRecord_idem page line state.1
          rw [sent, induction _ again]
          simp [Network.send]

theorem sent_fileLines (page : CodePage) (clients : List ShownClient)
    (lines : List FileLine) (state : Buffer 512 × Network) :
    (lines.foldl (fileLine page (clients.map ShownClient.row))
        state).2.sent =
      state.2.sent ++ (records page state.1 lines).flatMap fun record =>
        (checkedSockets clients).map fun socket => (socket, record) := by
  induction lines generalizing state with
  | nil => simp [records]
  | cons line lines induction =>
      rw [List.foldl_cons, induction, sent_fileLine page clients line state
        rfl, fileLine_buffer, records, List.flatMap_cons, List.append_assoc]
      by_cases someChecked : ∃ client ∈ clients, client.checked = true
      · obtain ⟨client, member, checked⟩ := someChecked
        have someRow : ∃ row ∈ clients.map ShownClient.row,
            row.checked = true :=
          ⟨client.row, List.mem_map_of_mem member, checked⟩
        rw [if_pos someRow]
      · have noTarget : checkedSockets clients = [] := by
          simpa [checkedSockets] using someChecked
        have nothing : ∀ sent : List (List Byte),
            (sent.flatMap fun _ => ([] : List (Socket × List Byte))) = [] :=
          fun sent => List.flatMap_eq_nil_iff.mpr fun _ _ => rfl
        simp only [noTarget, List.map_nil, nothing]

end PCServerDlg

open PCServerDlg

/-- The text in the row of a socket below 2^32 reads as that socket: in the
row `InsertClient` fills, and in both loops, which call `send` on the sockets
of the checked rows.  So rows of distinct sockets address distinct ones. -/
theorem rows_lead_back (page : CodePage) (dlg : PCServerDlg)
    (clients : List ShownClient) (network : Network) :
    (∀ client : ShownClient,
      tcstoul ((dlg.insertClient client.clientAddr
          client.socket).mClientList.getItemText
            (min dlg.mServer.clientNum dlg.mClientList.length) 2) =
        client.socket) ∧
    ((dlg.showing clients).preTranslateMessage page network
        (.keyDown vkReturn)).2.2.sent =
      network.sent ++ (checkedSockets clients).map
        (fun socket => (socket, page.ct2a dlg.mEditSend)) ∧
    (∀ (lines : List FileLine) (buf : Buffer 512),
      ((dlg.showing clients).onBtnFile page (some lines) buf network).sent =
        network.sent ++ (records page buf lines).flatMap fun record =>
          (checkedSockets clients).map fun socket => (socket, record)) ∧
    ∀ left right : ShownClient, left.socket ≠ right.socket →
      tcstoul left.row.socket ≠ tcstoul right.row.socket := by
  refine ⟨?_, ?_, ?_, ?_⟩
  · intro client
    rw [insertClient_socketText]
    exact tcstoul_formatLd client.fits
  · have notEscape : vkReturn ≠ vkEscape := by decide
    simp only [preTranslateMessage, if_neg notEscape, if_true]
    exact sent_sendChecked clients (page.ct2a dlg.mEditSend) network
  · intro lines buf
    exact sent_fileLines page clients lines (buf, network)
  · intro left right distinct
    rw [left.tcstoul_row, right.tcstoul_row]
    exact distinct

/-- A checked client whose row shows `-4`. -/
def highClient : ShownClient where
  clientAddr :=
    { sinPort := 0x9313, sinAddr := { b1 := 10, b2 := 0, b3 := 0, b4 := 17 } }
  socket := 2 ^ 32 - 4
  fits := by decide
  checked := true

theorem high_client_is_sent_to :
    ((PCServerDlg.create.showing [highClient]).preTranslateMessage .ascii
        { sent := [], answer := fun _ => 0 } (.keyDown vkReturn)).2.2.sent =
      [(2 ^ 32 - 4, [])] :=
  (rows_lead_back .ascii PCServerDlg.create [highClient]
    { sent := [], answer := fun _ => 0 }).2.1

end OpenChat.Server
