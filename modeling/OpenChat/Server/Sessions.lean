import OpenChat.Foundation.Run
import OpenChat.Server.ServerDlg

/-!
# The server process as a transition system

One state holds the window with its registry and list, the sockets the
process has open, and the running `SelectFunc` and `ClientFunc` loops.  Every
call the loops make on shared data is a step of its own, so a run is an
interleaving of the button handlers, any number of accept loops and any number
of client loops.  Connections are numbered in the order they are accepted;
the number and the list of items accepted since the last `OnBtn_Open` are
bookkeeping no handler reads.
-/

namespace OpenChat.Server

open Platform Foundation

/-- What an open socket of the process is: unusable because `bind` or `listen`
failed, listening, or the server end of a connection. -/
inductive SocketUse where
  | idle
  | listening
  | connection (conn : Nat)
deriving DecidableEq

/-- A running `SelectFunc` loop, by what it does next: test `IsRun()`, wait
for a connection, and for an accepted one call `InsertClient`, call
`AddClient`, or start its `ClientFunc`. -/
inductive AcceptPhase where
  | testing
  | polling
  | accepted (conn : Nat) (clientAddr : SockaddrIn) (connSock : Socket)
  | inserted (conn : Nat) (clientAddr : SockaddrIn) (connSock : Socket)
  | added (conn : Nat) (clientAddr : SockaddrIn) (connSock : Socket)
deriving DecidableEq

/-- A running `ClientFunc` loop: the connection it was started for, the item
it was given, and whether it is between `RemoveClient` and `DeleteClient`. -/
structure ClientLoop where
  conn : Nat
  client : CClientItem
  leaving : Bool
deriving DecidableEq

structure World where
  dlg : PCServerDlg
  openSockets : List (Socket × SocketUse)
  nextConn : Nat
  session : List CClientItem
  acceptLoops : List AcceptPhase
  clientLoops : List ClientLoop
  terminated : Bool
deriving DecidableEq

inductive Event where
  | openServer (outcome : InitOutcome)
  | closeServer
  | testRun (i : Nat)
  | pollNothing (i : Nat)
  | accept (i : Nat) (clientAddr : SockaddrIn) (connSock : Socket)
  | insertClient (i : Nat)
  | addClient (i : Nat)
  | startClient (i : Nat)
  | receive (j : Nat) (chunk : List Byte)
  | hangUp (j : Nat)
  | deleteClient (j : Nat)
deriving DecidableEq

def InitOutcome.leavesOpen : InitOutcome → List (Socket × SocketUse)
  | .socketFails => []
  | .bindFails handle => [(handle, .idle)]
  | .listenFails handle => [(handle, .idle)]
  | .listens handle => [(handle, .listening)]

namespace World

def initial : World :=
  { dlg := PCServerDlg.create
    openSockets := []
    nextConn := 0
    session := []
    acceptLoops := []
    clientLoops := []
    terminated := false }

/-- A handle value the system may hand out: no open socket has it. -/
def Fresh (world : World) (handle : Socket) : Prop :=
  handle ≠ invalidSocket ∧ handle ∉ world.openSockets.map Prod.fst

instance (world : World) (handle : Socket) :
    Decidable (world.Fresh handle) :=
  inferInstanceAs (Decidable (_ ∧ _))

def IsOpen (world : World) (handle : Socket) : Prop :=
  handle ∈ world.openSockets.map Prod.fst

instance (world : World) (handle : Socket) :
    Decidable (world.IsOpen handle) :=
  inferInstanceAs (Decidable (_ ∈ _))

def IsListening (world : World) : Prop :=
  (world.dlg.mServer.mLisSock, SocketUse.listening) ∈ world.openSockets

instance (world : World) : Decidable world.IsListening :=
  inferInstanceAs (Decidable (_ ∈ _))

/-- `closesocket` for every handle in the list. -/
def closeSockets (world : World) (handles : List Socket) :
    List (Socket × SocketUse) :=
  world.openSockets.filter fun socket => socket.1 ∉ handles

def joinText (clientAddr : SockaddrIn) : Text :=
  "[SYS] ".toList ++ formatD (ntohs clientAddr.sinPort).toNat ++
    "已登录".toList

def leaveText (client : CClientItem) : Text :=
  "[SYS] ".toList ++ formatD client.cPort ++ " 已离开".toList

def openServer (world : World) (outcome : InitOutcome) : World :=
  let (started, dlg) := world.dlg.onBtnOpen outcome
  { world with
    dlg := dlg
    openSockets := world.openSockets ++ outcome.leavesOpen
    session := []
    acceptLoops :=
      if started then world.acceptLoops ++ [.testing]
      else world.acceptLoops }

def closeServer (world : World) : World :=
  { world with
    dlg := world.dlg.onBtnClose
    openSockets := world.closeSockets world.dlg.mServer.unInitCloses }

def accept (world : World) (i : Nat) (clientAddr : SockaddrIn)
    (connSock : Socket) : World :=
  { world with
    openSockets :=
      world.openSockets ++ [(connSock, .connection world.nextConn)]
    nextConn := world.nextConn + 1
    session := world.session ++ [TcpServer.acceptedItem clientAddr connSock]
    acceptLoops := world.acceptLoops.set i
      (.accepted world.nextConn clientAddr connSock) }

def insertClient (world : World) (i conn : Nat) (clientAddr : SockaddrIn)
    (connSock : Socket) : World :=
  { world with
    dlg := (world.dlg.insertClient clientAddr connSock).notifyUi
      (joinText clientAddr)
    acceptLoops := world.acceptLoops.set i
      (.inserted conn clientAddr connSock) }

def addClient (world : World) (i conn : Nat) (clientAddr : SockaddrIn)
    (connSock : Socket) : World :=
  { world with
    dlg :=
      { world.dlg with
        mServer := world.dlg.mServer.addClient clientAddr connSock }
    acceptLoops := world.acceptLoops.set i
      (.added conn clientAddr connSock) }

/-- `GetClient(ClientNum()-1)` is evaluated and its result handed to a new
thread; an exception in the accept thread ends the process. -/
def startClient (world : World) (i conn : Nat) : World :=
  let server := world.dlg.mServer
  match server.getClient (TcpServer.unsignedPred server.clientNum) with
  | some client =>
      { world with
        acceptLoops := world.acceptLoops.set i .testing
        clientLoops := world.clientLoops ++
          [{ conn := conn, client := client, leaving := false }] }
  | none => { world with terminated := true }

def hangUp (world : World) (j : Nat) (loop : ClientLoop) : World :=
  { world with
    dlg := world.dlg.removeClient loop.client
    clientLoops := world.clientLoops.set j { loop with leaving := true } }

def deleteClient (world : World) (j : Nat) (loop : ClientLoop) : World :=
  { world with
    dlg := PCServerDlg.notifyUi
      { world.dlg with
        mServer := world.dlg.mServer.deleteClient loop.client.cPort }
      (leaveText loop.client)
    clientLoops := world.clientLoops.eraseIdx j }

/-- One step; `none` when the event cannot happen in this state.  `Select` and
the `accept` or `recv` behind it are one step: no close comes between them. -/
def step (world : World) (event : Event) : Option World :=
  if world.terminated then none else
  match event with
  | .openServer outcome =>
      if world.dlg.mToolBar.button1 = true ∧
          ∀ socket ∈ outcome.leavesOpen, world.Fresh socket.1 then
        some (world.openServer outcome)
      else none
  | .closeServer =>
      if world.dlg.mToolBar.button2 = true then some world.closeServer
      else none
  | .testRun i =>
      match world.acceptLoops[i]? with
      | some .testing =>
          if world.dlg.mServer.mRun then
            some { world with acceptLoops := world.acceptLoops.set i .polling }
          else
            some { world with acceptLoops := world.acceptLoops.eraseIdx i }
      | _ => none
  | .pollNothing i =>
      match world.acceptLoops[i]? with
      | some .polling =>
          some { world with acceptLoops := world.acceptLoops.set i .testing }
      | _ => none
  | .accept i clientAddr connSock =>
      match world.acceptLoops[i]? with
      | some .polling =>
          if world.IsListening ∧ world.Fresh connSock then
            some (world.accept i clientAddr connSock)
          else none
      | _ => none
  | .insertClient i =>
      match world.acceptLoops[i]? with
      | some (.accepted conn clientAddr connSock) =>
          some (world.insertClient i conn clientAddr connSock)
      | _ => none
  | .addClient i =>
      match world.acceptLoops[i]? with
      | some (.inserted conn clientAddr connSock) =>
          some (world.addClient i conn clientAddr connSock)
      | _ => none
  | .startClient i =>
      match world.acceptLoops[i]? with
      | some (.added conn _ _) => some (world.startClient i conn)
      | _ => none
  | .receive j chunk =>
      match world.clientLoops[j]? with
      | some loop =>
          if loop.leaving = false ∧ world.IsOpen loop.client.cSocket ∧
              0 < chunk.length ∧ chunk.length ≤ TcpServer.maxBuff then
            (TcpServer.clientFunc chunk).map fun strMsg =>
              { world with dlg := world.dlg.addInfo strMsg }
          else none
      | none => none
  | .hangUp j =>
      match world.clientLoops[j]? with
      | some loop =>
          if loop.leaving = false ∧ world.IsOpen loop.client.cSocket then
            some (world.hangUp j loop)
          else none
      | none => none
  | .deleteClient j =>
      match world.clientLoops[j]? with
      | some loop =>
          if loop.leaving = true then some (world.deleteClient j loop)
          else none
      | none => none

/-- The cases of `step`, each with its guard. -/
inductive Steps : World → Event → World → Prop where
  | openServer {world : World} {outcome : InitOutcome} :
      world.dlg.mToolBar.button1 = true →
      (∀ socket ∈ outcome.leavesOpen, world.Fresh socket.1) →
      Steps world (.openServer outcome) (world.openServer outcome)
  | closeServer {world : World} :
      world.dlg.mToolBar.button2 = true →
      Steps world .closeServer world.closeServer
  | testRun {world : World} {i : Nat} :
      world.acceptLoops[i]? = some .testing →
      world.dlg.mServer.mRun = true →
      Steps world (.testRun i)
        { world with acceptLoops := world.acceptLoops.set i .polling }
  | endLoop {world : World} {i : Nat} :
      world.acceptLoops[i]? = some .testing →
      world.dlg.mServer.mRun = false →
      Steps world (.testRun i)
        { world with acceptLoops := world.acceptLoops.eraseIdx i }
  | pollNothing {world : World} {i : Nat} :
      world.acceptLoops[i]? = some .polling →
      Steps world (.pollNothing i)
        { world with acceptLoops := world.acceptLoops.set i .testing }
  | accept {world : World} {i : Nat} {clientAddr : SockaddrIn}
      {connSock : Socket} :
      world.acceptLoops[i]? = some .polling →
      world.IsListening → world.Fresh connSock →
      Steps world (.accept i clientAddr connSock)
        (world.accept i clientAddr connSock)
  | insertClient {world : World} {i conn : Nat} {clientAddr : SockaddrIn}
      {connSock : Socket} :
      world.acceptLoops[i]? = some (.accepted conn clientAddr connSock) →
      Steps world (.insertClient i)
        (world.insertClient i conn clientAddr connSock)
  | addClient {world : World} {i conn : Nat} {clientAddr : SockaddrIn}
      {connSock : Socket} :
      world.acceptLoops[i]? = some (.inserted conn clientAddr connSock) →
      Steps world (.addClient i) (world.addClient i conn clientAddr connSock)
  | startClient {world : World} {i conn : Nat} {clientAddr : SockaddrIn}
      {connSock : Socket} :
      world.acceptLoops[i]? = some (.added conn clientAddr connSock) →
      Steps world (.startClient i) (world.startClient i conn)
  | receive {world : World} {j : Nat} {loop : ClientLoop}
      {chunk strMsg : List Byte} :
      world.clientLoops[j]? = some loop →
      loop.leaving = false → world.IsOpen loop.client.cSocket →
      TcpServer.clientFunc chunk = some strMsg →
      Steps world (.receive j chunk)
        { world with dlg := world.dlg.addInfo strMsg }
  | hangUp {world : World} {j : Nat} {loop : ClientLoop} :
      world.clientLoops[j]? = some loop →
      loop.leaving = false → world.IsOpen loop.client.cSocket →
      Steps world (.hangUp j) (world.hangUp j loop)
  | deleteClient {world : World} {j : Nat} {loop : ClientLoop} :
      world.clientLoops[j]? = some loop → loop.leaving = true →
      Steps world (.deleteClient j) (world.deleteClient j loop)

theorem steps_of_step {world next : World} {event : Event}
    (taken : world.step event = some next) : Steps world event next := by
  unfold step at taken
  split at taken
  · simp at taken
  · cases event with
    | openServer outcome =>
        simp only [Option.ite_none_right_eq_some, Option.some.injEq] at taken
        obtain ⟨⟨enabled, fresh⟩, rfl⟩ := taken
        exact .openServer enabled fresh
    | closeServer =>
        simp only [Option.ite_none_right_eq_some, Option.some.injEq] at taken
        obtain ⟨enabled, rfl⟩ := taken
        exact .closeServer enabled
    | testRun i =>
        dsimp only at taken
        split at taken <;> rename_i phase
        · split at taken <;> rename_i running
          · obtain rfl := Option.some.inj taken
            exact .testRun phase running
          · obtain rfl := Option.some.inj taken
            exact .endLoop phase (by simpa using running)
        · simp at taken
    | pollNothing i =>
        dsimp only at taken
        split at taken <;> rename_i phase
        · obtain rfl := Option.some.inj taken
          exact .pollNothing phase
        · simp at taken
    | accept i clientAddr connSock =>
        dsimp only at taken
        split at taken <;> rename_i phase
        · simp only [Option.ite_none_right_eq_some,
            Option.some.injEq] at taken
          obtain ⟨⟨listening, fresh⟩, rfl⟩ := taken
          exact .accept phase listening fresh
        · simp at taken
    | insertClient i =>
        dsimp only at taken
        split at taken <;> rename_i phase
        · obtain rfl := Option.some.inj taken
          exact .insertClient phase
        · simp at taken
    | addClient i =>
        dsimp only at taken
        split at taken <;> rename_i phase
        · obtain rfl := Option.some.inj taken
          exact .addClient phase
        · simp at taken
    | startClient i =>
        dsimp only at taken
        split at taken <;> rename_i phase
        · obtain rfl := Option.some.inj taken
          exact .startClient phase
        · simp at taken
    | receive j chunk =>
        dsimp only at taken
        split at taken <;> rename_i found
        · simp only [Option.ite_none_right_eq_some,
            Option.map_eq_some_iff] at taken
          obtain ⟨⟨notLeaving, isOpen, _, _⟩, strMsg, read, rfl⟩ := taken
          exact .receive found notLeaving isOpen read
        · simp at taken
    | hangUp j =>
        dsimp only at taken
        split at taken <;> rename_i found
        · simp only [Option.ite_none_right_eq_some,
            Option.some.injEq] at taken
          obtain ⟨⟨notLeaving, isOpen⟩, rfl⟩ := taken
          exact .hangUp found notLeaving isOpen
        · simp at taken
    | deleteClient j =>
        dsimp only at taken
        split at taken <;> rename_i found
        · simp only [Option.ite_none_right_eq_some,
            Option.some.injEq] at taken
          obtain ⟨leaving, rfl⟩ := taken
          exact .deleteClient found leaving
        · simp at taken

@[simp] theorem openServer_mClientList (world : World)
    (outcome : InitOutcome) :
    (world.openServer outcome).dlg.mClientList = world.dlg.mClientList := rfl

@[simp] theorem openServer_mClientVec (world : World)
    (outcome : InitOutcome) :
    (world.openServer outcome).dlg.mServer.mClientVec =
      world.dlg.mServer.mClientVec := by
  cases outcome <;> rfl

theorem openServer_acceptLoops (world : World) (outcome : InitOutcome) :
    (world.openServer outcome).acceptLoops = world.acceptLoops ∨
      (world.openServer outcome).acceptLoops =
        world.acceptLoops ++ [.testing] := by
  cases outcome with
  | listens handle => exact .inr rfl
  | _ => exact .inl rfl

end World

def process : System World Event :=
  { step := World.step }

end OpenChat.Server
