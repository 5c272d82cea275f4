import OpenChat.Platform.CodePage
import OpenChat.Server.TcpServer

/-!
# The server window

The handlers of `PCServerDlg` which touch the registry, the list of clients,
the tool bar, the status text or a socket.  Everything sent is collected in a
`Network`, which also holds the return values the calls of `send` will get.
-/

namespace OpenChat.Server

open Platform Foundation.KeyedList

/-- The buffers handed to `send` so far and the results of its calls. -/
structure Network where
  sent : List (Socket × List Byte)
  answer : Nat → Int

namespace Network

def send (network : Network) (socket : Socket) (bytes : List Byte) :
    Int × Network :=
  (network.answer network.sent.length,
    { network with sent := network.sent ++ [(socket, bytes)] })

def sentTo (network : Network) (socket : Socket) : List (List Byte) :=
  (network.sent.filter fun call => call.1 = socket).map Prod.snd

end Network

/-- The five buttons of the tool bar: open, close, file, picture, video. -/
structure ToolBar where
  button1 : Bool
  button2 : Bool
  button3 : Bool
  button4 : Bool
  button5 : Bool
deriving DecidableEq

structure PCServerDlg where
  mServer : TcpServer
  mServerPort : Nat
  mInfoBox : List (List Byte)
  mClientList : CListCtrl
  mEditSend : List WChar
  mToolBar : ToolBar
  statusText : Text
  info : Text
deriving DecidableEq

/-- A line as `CStdioFile::ReadString` returns it. -/
structure FileLine where
  text : List WChar
  noNul : 0 ∉ text
  noNewline : 10 ∉ text

namespace PCServerDlg

/-- The window after construction and `OnInitDialog`. -/
def create : PCServerDlg :=
  { mServer := TcpServer.create 8888
    mServerPort := 8888
    mInfoBox := []
    mClientList := []
    mEditSend := []
    mToolBar :=
      { button1 := true
        button2 := false
        button3 := false
        button4 := false
        button5 := false }
    statusText := []
    info := [] }

def addInfo (dlg : PCServerDlg) (strMsg : List Byte) : PCServerDlg :=
  { dlg with mInfoBox := dlg.mInfoBox ++ [strMsg] }

def notifyUi (dlg : PCServerDlg) (msg : Text) : PCServerDlg :=
  { dlg with info := msg }

def insertClient (dlg : PCServerDlg) (clientAddr : SockaddrIn)
    (socket : Socket) : PCServerDlg :=
  let (nRow, list) := dlg.mClientList.insertItem dlg.mServer.clientNum []
  let strPort := formatD (ntohs clientAddr.sinPort).toNat
  let strIp := inetNtop clientAddr.sinAddr
  let strSocket := formatLd socket
  let list := list.setItemText nRow 0 strPort
  let list := list.setItemText nRow 1 strIp
  let list := list.setItemText nRow 2 strSocket
  { dlg with mClientList := list }

/-- The first row whose port text is the item's port is deleted. -/
def removeClient (dlg : PCServerDlg) (item : CClientItem) : PCServerDlg :=
  let list := dlg.mClientList
  let found := (List.range list.getItemCount).find? fun i =>
    ttoi (list.getItemText i 0) = (item.cPort : Int)
  match found with
  | some i => { dlg with mClientList := list.deleteItem i }
  | none => dlg

/-- `OnBtn_Open`: whether a `SelectFunc` thread was started, and the
window. -/
def onBtnOpen (dlg : PCServerDlg) (outcome : InitOutcome) :
    Bool × PCServerDlg :=
  let server := dlg.mServer.setPort dlg.mServerPort
  let (started, server) := server.start outcome
  (started,
    { dlg with
      mServer := server
      statusText := "[SYS] 服务器已开启！".toList
      mToolBar :=
        { button1 := false
          button2 := true
          button3 := true
          button4 := true
          button5 := true } })

def onBtnClose (dlg : PCServerDlg) : PCServerDlg :=
  { dlg with
    mServer := dlg.mServer.stop
    statusText := "[SYS] 服务器已关闭！".toList
    mToolBar :=
      { button1 := true
        button2 := false
        button3 := false
        button4 := false
        button5 := false } }

/-- The `VK_RETURN` loop: the text goes to the socket of every checked
row. -/
def sendChecked (list : CListCtrl) (str : List Byte) (network : Network) :
    Network :=
  (List.range list.getItemCount).foldl
    (fun network i =>
      if list.getCheck i then
        let socket := tcstoul (list.getItemText i 2)
        let (_sendbyte, network) := network.send socket str
        network
      else network)
    network

/-- `PreTranslateMessage`: `true` when the message is consumed, `false` when
it is left to `CDialogEx`. -/
def preTranslateMessage (page : CodePage) (dlg : PCServerDlg)
    (network : Network) : Message → Bool × PCServerDlg × Network
  | .keyDown wParam =>
      if wParam = vkEscape then
        (true, dlg, network)
      else if wParam = vkReturn then
        let str := page.ct2a dlg.mEditSend
        let network := sendChecked dlg.mClientList str network
        (true, { dlg with mEditSend := [] }, network)
      else
        (false, dlg, network)
  | .other => (false, dlg, network)

/-- The conversion of a line into the local array and the newline forced into
its last byte. -/
def fillRecord (page : CodePage) (line : FileLine) (buf : Buffer 512) :
    Buffer 512 :=
  let (_count, buf) := wideCharToMultiByte page line.text buf
  buf.setAt 511 newline

def fileRow (page : CodePage) (line : FileLine) (list : CListCtrl)
    (state : Buffer 512 × Network) (i : Nat) : Buffer 512 × Network :=
  if list.getCheck i then
    let buf := fillRecord page line state.1
    let socket := tcstoul (list.getItemText i 2)
    let (_sendbyte, network) := state.2.send socket buf.bytes
    (buf, network)
  else state

def fileLine (page : CodePage) (list : CListCtrl)
    (state : Buffer 512 × Network) (line : FileLine) : Buffer 512 × Network :=
  (List.range list.getItemCount).foldl (fileRow page line list) state

/-- `OnBtn_File`; `none` when no file was chosen or it could not be opened.
`buf` is what the local array holds at first. -/
def onBtnFile (page : CodePage) (dlg : PCServerDlg)
    (file : Option (List FileLine)) (buf : Buffer 512) (network : Network) :
    Network :=
  match file with
  | none => network
  | some lines =>
      (lines.foldl (fileLine page dlg.mClientList) (buf, network)).2

end PCServerDlg

/-- The row `InsertClient` fills for an accepted connection. -/
def rowOf (clientAddr : SockaddrIn) (socket : Socket) : ListRow :=
  { port := formatD (ntohs clientAddr.sinPort).toNat
    ip := inetNtop clientAddr.sinAddr
    socket := formatLd socket
    checked := false }

def rowPort (row : ListRow) : Int :=
  ttoi row.port

@[simp] theorem rowPort_rowOf (clientAddr : SockaddrIn) (socket : Socket) :
    rowPort (rowOf clientAddr socket) =
      ((TcpServer.acceptedItem clientAddr socket).cPort : Int) :=
  ttoi_formatD _

namespace PCServerDlg

theorem insertClient_mClientList (dlg : PCServerDlg)
    (clientAddr : SockaddrIn) (socket : Socket) :
    (dlg.insertClient clientAddr socket).mClientList =
      dlg.mClientList.insertIdx
        (min dlg.mServer.clientNum dlg.mClientList.length)
        (rowOf clientAddr socket) := by
  have inside : min dlg.mServer.clientNum dlg.mClientList.length ≤
      dlg.mClientList.length := min_le_right _ _
  simp only [insertClient, CListCtrl.insertItem, CListCtrl.setItemText,
    modify_insertIdx _ _ _ _ inside]
  rfl

/-- When the registry has at least as many entries as the list has rows, the
new row is the last one. -/
theorem insertClient_appends (dlg : PCServerDlg) (clientAddr : SockaddrIn)
    (socket : Socket)
    (enough : dlg.mClientList.length ≤ dlg.mServer.clientNum) :
    (dlg.insertClient clientAddr socket).mClientList =
      dlg.mClientList ++ [rowOf clientAddr socket] := by
  rw [insertClient_mClientList, min_eq_right enough,
    List.insertIdx_length_self]

@[simp] theorem insertClient_mServer (dlg : PCServerDlg)
    (clientAddr : SockaddrIn) (socket : Socket) :
    (dlg.insertClient clientAddr socket).mServer = dlg.mServer := rfl

/-- `RemoveClient` deletes the first row which shows the item's port. -/
@[simp] theorem removeClient_mClientList (dlg : PCServerDlg)
    (item : CClientItem) :
    (dlg.removeClient item).mClientList =
      removeFirst rowPort (item.cPort : Int) dlg.mClientList := by
  have search :
      ((List.range dlg.mClientList.getItemCount).find? fun i =>
        ttoi (dlg.mClientList.getItemText i 0) = (item.cPort : Int)) =
      dlg.mClientList.findIdx? fun row =>
        rowPort row = (item.cPort : Int) := by
    simp only [CListCtrl.getItemText_eq_elim]
    exact find?_range_eq_findIdx?
      (fun row? : Option ListRow =>
        decide (ttoi (row?.elim [] fun row => row.getText 0) =
          (item.cPort : Int))) dlg.mClientList
  simp only [removeClient, search, removeFirst, List.eraseP_eq_eraseIdx]
  split <;> rename_i result <;> rw [result]
  rfl

@[simp] theorem removeClient_mServer (dlg : PCServerDlg)
    (item : CClientItem) : (dlg.removeClient item).mServer = dlg.mServer := by
  simp only [removeClient]
  split <;> rfl

@[simp] theorem removeClient_mToolBar (dlg : PCServerDlg)
    (item : CClientItem) :
    (dlg.removeClient item).mToolBar = dlg.mToolBar := by
  simp only [removeClient]
  split <;> rfl

end PCServerDlg

end OpenChat.Server
