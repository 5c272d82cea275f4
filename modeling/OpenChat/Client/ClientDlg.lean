import OpenChat.Platform.CodePage
import OpenChat.Platform.Window

/-!
# The client's socket and window

`TcpClient` holds one socket handle which `Connect` overwrites and every
receive loop reads anew; `PCClientDlg` is the window around it.  How `socket`,
`connect`, `getsockname` and `recv` fare is decided by the environment.
-/

namespace OpenChat.Client

open Platform

structure TcpClient where
  mSocket : Socket
  mPort : Nat
  mIp : Text
deriving DecidableEq

inductive ConnectOutcome where
  | socketFails
  | connectFails (handle : Socket)
  | connects (handle : Socket)
deriving DecidableEq

namespace TcpClient

def create (port : Nat) (ip : Text) : TcpClient :=
  { mSocket := invalidSocket, mPort := port, mIp := ip }

/-- `Connect`: the result, on which a `ClientFunc` thread has been started if
it is `true`, and the members. -/
def connect (client : TcpClient) : ConnectOutcome → Bool × TcpClient
  | .socketFails => (false, { client with mSocket := invalidSocket })
  | .connectFails handle => (false, { client with mSocket := handle })
  | .connects handle => (true, { client with mSocket := handle })

def setPort (client : TcpClient) (port : Nat) : TcpClient :=
  { client with mPort := port }

def setIp (client : TcpClient) (ip : Text) : TcpClient :=
  { client with mIp := ip }

def bufSize : Nat := 256

/-- What a `ClientFunc` pass does with a received chunk: the text for
`AddInfo` and the bytes sent back.  There is no text when the array holds no
terminating NUL. -/
def clientFunc (chunk : List Byte) : Option (List Byte) × List Byte :=
  let msg := recvBuffer bufSize chunk
  ((cString msg).map fun text => text ++ [newline], msg)

theorem length_clientFunc {chunk : List Byte}
    (bounded : chunk.length ≤ bufSize) :
    (clientFunc chunk).2.length = bufSize := by
  rw [clientFunc, recvBuffer, List.length_append, List.length_replicate]
  omega

end TcpClient

inductive ServerStatus where
  | on
  | off
deriving DecidableEq

/-- A text of the info box: bytes given to `AddInfo`, or a wide text. -/
inductive InfoText where
  | narrow (bytes : List Byte)
  | wide (text : Text)
deriving DecidableEq

structure PCClientDlg where
  mServerStatus : ServerStatus
  mClient : TcpClient
  mEditSend : List WChar
  mInfoBox : List InfoText
  mPort : Nat
  windowText : List WChar
deriving DecidableEq

namespace PCClientDlg

def create : PCClientDlg :=
  { mServerStatus := .off
    mClient := TcpClient.create 8888 "127.0.0.1".toList
    mEditSend := []
    mInfoBox := []
    mPort := 0
    windowText := [] }

def addInfo (dlg : PCClientDlg) (info : InfoText) : PCClientDlg :=
  { dlg with mInfoBox := dlg.mInfoBox ++ [info] }

def setServerState (dlg : PCClientDlg) (state : ServerStatus) : PCClientDlg :=
  { dlg with mServerStatus := state }

def getPort (dlg : PCClientDlg) : Nat :=
  dlg.mPort

def getClientSocket (dlg : PCClientDlg) : Socket :=
  dlg.mClient.mSocket

def getQueryString (input : List Byte) : List Byte :=
  39 :: (input ++ [39])

/-- `ConnectToServer`; `localAddr` is what `getsockname` writes, if it
succeeds. -/
def connectToServer (dlg : PCClientDlg) (outcome : ConnectOutcome)
    (localAddr : Option SockaddrIn) : Bool × PCClientDlg :=
  let client := (dlg.mClient.setPort 8888).setIp "127.0.0.1".toList
  let (connected, client) := client.connect outcome
  let dlg := { dlg with mClient := client }
  if connected then
    match localAddr with
    | none => (false, dlg)
    | some cliAddr =>
        let dlg := { dlg with mPort := (ntohs cliAddr.sinPort).toNat }
        let dlg := dlg.addInfo (.wide "连接服务器成功\n".toList)
        (true, dlg.setServerState .on)
  else (false, dlg)

/-- `PreTranslateMessage`: whether the message is consumed, the window, and
what is handed to `send`. -/
def preTranslateMessage (page : CodePage) (dlg : PCClientDlg) :
    Message → Bool × PCClientDlg × Option (Socket × List Byte)
  | .keyDown wParam =>
      if wParam = vkEscape then
        (true, dlg, none)
      else if wParam = vkReturn then
        let str := page.ct2a dlg.mEditSend
        (true, { dlg with mEditSend := [] }, some (dlg.mClient.mSocket, str))
      else
        (false, dlg, none)
  | .other => (false, dlg, none)

/-- What a `ClientFunc` loop does when `recv` reports the end of the
connection, besides shutting the socket down. -/
def connectionLost (dlg : PCClientDlg) : PCClientDlg :=
  (dlg.addInfo (.wide "已断线，请重新连接\n".toList)).setServerState .off

end PCClientDlg

end OpenChat.Client
