import OpenChat.Platform.Window

/-!
# The server's registry and listening socket

`TcpServer` and `CClientItem` as the code has them.  The environment decides
how `Init` fares, so `init` takes that as an argument and returns what the
source returns together with the new member values.
-/

namespace OpenChat.Server

open Platform

structure CClientItem where
  cAddr : Text
  cPort : Nat
  cSocket : Socket
deriving DecidableEq

structure TcpServer where
  mLisSock : Socket
  mPort : Nat
  mRun : Bool
  mClientVec : List CClientItem
deriving DecidableEq

/-- How the calls of `Init` fare: `socket` fails, or it yields a handle and
`bind`, `listen` or nothing fails. -/
inductive InitOutcome where
  | socketFails
  | bindFails (handle : Socket)
  | listenFails (handle : Socket)
  | listens (handle : Socket)
deriving DecidableEq

namespace TcpServer

def create (port : Nat) : TcpServer :=
  { mLisSock := invalidSocket
    mPort := port
    mRun := false
    mClientVec := [] }

def init (server : TcpServer) : InitOutcome → Bool × TcpServer
  | .socketFails => (false, { server with mLisSock := invalidSocket })
  | .bindFails handle => (false, { server with mLisSock := handle })
  | .listenFails handle => (false, { server with mLisSock := handle })
  | .listens handle =>
      (true, { server with mLisSock := handle, mRun := true })

/-- The sockets `UnInit` passes to `closesocket`, in order. -/
def unInitCloses (server : TcpServer) : List Socket :=
  server.mClientVec.map CClientItem.cSocket ++ [server.mLisSock]

def unInit (_server : TcpServer) : TcpServer :=
  { mLisSock := invalidSocket
    mPort := 0
    mRun := false
    mClientVec := [] }

/-- `Start`: whether a `SelectFunc` thread was started, and the members. -/
def start (server : TcpServer) (outcome : InitOutcome) : Bool × TcpServer :=
  server.init outcome

def stop (server : TcpServer) : TcpServer :=
  server.unInit

def setPort (server : TcpServer) (port : Nat) : TcpServer :=
  { server with mPort := port }

/-- The item `AddClient` constructs for an accepted connection. -/
def acceptedItem (cliAddr : SockaddrIn) (connSock : Socket) : CClientItem :=
  { cAddr := inetNtoa cliAddr.sinAddr
    cPort := (ntohs cliAddr.sinPort).toNat
    cSocket := connSock }

def addClient (server : TcpServer) (cliAddr : SockaddrIn)
    (connSock : Socket) : TcpServer :=
  { server with
    mClientVec := server.mClientVec ++ [acceptedItem cliAddr connSock] }

def clientNum (server : TcpServer) : Nat :=
  server.mClientVec.length

/-- `value - 1` in 32-bit unsigned arithmetic. -/
def unsignedPred (value : Nat) : Nat :=
  if value = 0 then 2 ^ 32 - 1 else value - 1

/-- `mClientVec.at(cIndex)`; `none` is the exception. -/
def getClient (server : TcpServer) (cIndex : Nat) : Option CClientItem :=
  server.mClientVec[cIndex]?

/-- The loop of `DeleteClient`: erase the first entry with the port. -/
def deleteLoop (port : Nat) : List CClientItem → List CClientItem
  | [] => []
  | it :: rest =>
      if it.cPort = port then rest else it :: deleteLoop port rest

def deleteClient (server : TcpServer) (port : Nat) : TcpServer :=
  { server with mClientVec := deleteLoop port server.mClientVec }

def maxBuff : Nat := 256

/-- The text a `ClientFunc` pass gives to `AddInfo` for a received chunk; none
when the array holds no terminating NUL. -/
def clientFunc (chunk : List Byte) : Option (List Byte) :=
  (cString (recvBuffer maxBuff chunk)).map fun text => text ++ [newline]

open Foundation.KeyedList

theorem deleteLoop_eq_removeFirst (port : Nat) (entries : List CClientItem) :
    deleteLoop port entries =
      removeFirst CClientItem.cPort port entries := by
  induction entries with
  | nil => rfl
  | cons entry entries induction =>
      by_cases same : entry.cPort = port
      · rw [removeFirst_cons_same same, deleteLoop, if_pos same]
      · rw [removeFirst_cons_other same, deleteLoop, if_neg same, induction]

@[simp] theorem deleteClient_mClientVec (server : TcpServer) (port : Nat) :
    (server.deleteClient port).mClientVec =
      removeFirst CClientItem.cPort port server.mClientVec :=
  deleteLoop_eq_removeFirst port server.mClientVec

@[simp] theorem addClient_mClientVec (server : TcpServer)
    (cliAddr : SockaddrIn) (connSock : Socket) :
    (server.addClient cliAddr connSock).mClientVec =
      server.mClientVec ++ [acceptedItem cliAddr connSock] := rfl

/-- The index `ClientNum() - 1` addresses the last entry; of an empty vector
it addresses nothing. -/
theorem getClient_last (server : TcpServer) :
    server.getClient (unsignedPred server.clientNum) =
      server.mClientVec.getLast? := by
  unfold getClient unsignedPred clientNum
  by_cases empty : server.mClientVec.length = 0
  · have nil : server.mClientVec = [] := List.length_eq_zero_iff.mp empty
    simp [nil]
  · rw [if_neg empty, List.getLast?_eq_getElem?]

end TcpServer

end OpenChat.Server
