import OpenChat.Client.ClientDlg
import OpenChat.Foundation.Positions
import OpenChat.Foundation.Run

/-!
# The connections of one client process

Every receive loop reads whatever `m_socket` is at that moment, `Connect`
overwrites it, and no handler ever closes a socket.  One connection with one
reader and no socket left behind is therefore what a client has exactly as
long as nobody clicks the connect button again once a socket was obtained.
-/

namespace OpenChat.Client

open Platform Foundation Foundation.Positions

/-- An established connection: its number, its socket, whether the server
closed it, and whether a receive loop has seen that. -/
structure Connection where
  conn : Nat
  socket : Socket
  peerClosed : Bool
  seenClosed : Bool
deriving DecidableEq

/-- The client process: the window with its `TcpClient`, the open sockets, the
connections in the order they were established, and for each running
`ClientFunc` loop the connection it was started for. -/
structure Process where
  dlg : PCClientDlg
  openSockets : List Socket
  connections : List Connection
  nextConn : Nat
  loops : List Nat
deriving DecidableEq

inductive ClientEvent where
  | click (outcome : ConnectOutcome) (localAddr : Option SockaddrIn)
  | serverClose (k : Nat)
  | idle (i : Nat)
  | receive (i : Nat) (chunk : List Byte)
  | lose (i : Nat)
deriving DecidableEq

def ConnectOutcome.obtained : ConnectOutcome → List Socket
  | .socketFails => []
  | .connectFails handle => [handle]
  | .connects handle => [handle]

namespace Process

def initial : Process :=
  { dlg := PCClientDlg.create
    openSockets := []
    connections := []
    nextConn := 0
    loops := [] }

def mSocket (process : Process) : Socket :=
  process.dlg.mClient.mSocket

def Fresh (process : Process) (handle : Socket) : Prop :=
  handle ≠ invalidSocket ∧ handle ∉ process.openSockets

instance (process : Process) (handle : Socket) :
    Decidable (process.Fresh handle) :=
  inferInstanceAs (Decidable (_ ∧ _))

def click (process : Process) (outcome : ConnectOutcome)
    (localAddr : Option SockaddrIn) : Process :=
  let (_connected, dlg) := process.dlg.connectToServer outcome localAddr
  let process :=
    { process with
      dlg := dlg
      openSockets := process.openSockets ++ outcome.obtained }
  match outcome with
  | .connects handle =>
      { process with
        connections := process.connections ++
          [{ conn := process.nextConn
             socket := handle
             peerClosed := false
             seenClosed := false }]
        nextConn := process.nextConn + 1
        loops := process.loops ++ [process.nextConn] }
  | _ => process

/-- The connection a loop gets when it reads `m_socket`. -/
def current (process : Process) : Option Connection :=
  process.connections.find? fun connection =>
    connection.socket = process.mSocket

/-- A loop whose `recv` reports the end of the connection shows that and
leaves; the socket stays open. -/
def lose (process : Process) (i : Nat) : Process :=
  { process with
    dlg := process.dlg.connectionLost
    connections := process.connections.map fun connection =>
      if connection.socket = process.mSocket then
        { connection with seenClosed := true }
      else connection
    loops := process.loops.eraseIdx i }

/-- One step; `none` when the event cannot happen in this state. -/
def step (process : Process) : ClientEvent → Option Process
  | .click outcome localAddr =>
      if ∀ handle ∈ outcome.obtained, process.Fresh handle then
        some (process.click outcome localAddr)
      else none
  | .serverClose k =>
      (process.connections[k]?).map fun connection =>
        { process with
          connections := process.connections.set k
            { connection with peerClosed := true } }
  | .idle i => (process.loops[i]?).map fun _ => process
  | .receive i chunk =>
      match process.loops[i]?, process.current with
      | some _, some connection =>
          if connection.seenClosed = false ∧ 0 < chunk.length ∧
              chunk.length ≤ TcpClient.bufSize then
            (TcpClient.clientFunc chunk).1.map fun info =>
              { process with dlg := process.dlg.addInfo (.narrow info) }
          else none
      | _, _ => none
  | .lose i =>
      match process.loops[i]?, process.current with
      | some _, some connection =>
          if connection.peerClosed = true ∨ connection.seenClosed = true then
            some (process.lose i)
          else none
      | _, _ => none

def readers (process : Process) (connection : Connection) : List Nat :=
  if connection.socket = process.mSocket then process.loops else []

/-- Each connection not yet seen closed is read by exactly one loop, its own,
and no socket but `m_socket` is open. -/
def OneReader (process : Process) : Prop :=
  (∀ connection ∈ process.connections, connection.seenClosed = false →
    process.readers connection = [connection.conn]) ∧
  ∀ handle ∈ process.openSockets, handle = process.mSocket

/-- The connect button is clicked only while no socket is held. -/
def NoSocketHeld (process : Process) : ClientEvent → Prop
  | .click _ _ => process.mSocket = invalidSocket
  | _ => True

instance (process : Process) : DecidablePred process.NoSocketHeld
  | .click _ _ => inferInstanceAs (Decidable (_ = _))
  | .serverClose _ | .idle _ | .receive _ _ | .lose _ =>
      inferInstanceAs (Decidable True)

/-- At most one connection, on `m_socket`, with its loop until it is seen
closed. -/
structure Tidy (process : Process) : Prop where
  held : process.openSockets =
    if process.mSocket = invalidSocket then [] else [process.mSocket]
  unconnected : process.mSocket = invalidSocket → process.connections = []
  single : process.connections.length ≤ 1
  own : ∀ connection ∈ process.connections,
    connection.socket = process.mSocket
  readers : process.loops = (process.connections.filter fun connection =>
    !connection.seenClosed).map Connection.conn

theorem tidy_initial : initial.Tidy where
  held := rfl
  unconnected := fun _ => rfl
  single := Nat.zero_le 1
  own := by
    intro connection member
    cases member
  readers := rfl

theorem Tidy.eq_singleton {process : Process} (tidy : process.Tidy)
    {connection : Connection} (member : connection ∈ process.connections) :
    process.connections = [connection] := by
  match connections : process.connections with
  | [] => simp [connections] at member
  | [only] =>
      obtain rfl : connection = only := by simpa [connections] using member
      rfl
  | _ :: _ :: _ =>
      have single := tidy.single
      simp [connections] at single

theorem Tidy.oneReader {process : Process} (tidy : process.Tidy) :
    process.OneReader := by
  constructor
  · intro connection member notSeen
    rw [Process.readers, if_pos (tidy.own connection member), tidy.readers,
      tidy.eq_singleton member]
    simp [notSeen]
  · intro handle member
    rw [tidy.held] at member
    split at member
    · simp at member
    · exact List.mem_singleton.mp member

theorem click_mSocket (process : Process) (outcome : ConnectOutcome)
    (localAddr : Option SockaddrIn) :
    (process.click outcome localAddr).mSocket =
      (outcome.obtained.head?).getD invalidSocket := by
  cases outcome with
  | socketFails => rfl
  | connectFails handle => rfl
  | connects handle => cases localAddr <;> rfl

theorem click_openSockets (process : Process) (outcome : ConnectOutcome)
    (localAddr : Option SockaddrIn) :
    (process.click outcome localAddr).openSockets =
      process.openSockets ++ outcome.obtained := by
  cases outcome <;> rfl

theorem Tidy.click {process : Process} (tidy : process.Tidy)
    {outcome : ConnectOutcome} (localAddr : Option SockaddrIn)
    (fresh : ∀ handle ∈ outcome.obtained, process.Fresh handle)
    (noSocket : process.mSocket = invalidSocket) :
    (process.click outcome localAddr).Tidy := by
  have noneHeld : process.openSockets = [] := by
    rw [tidy.held, if_pos noSocket]
  have noConnection := tidy.unconnected noSocket
  have noLoop : process.loops = [] := by
    rw [tidy.readers, noConnection]
    rfl
  have mSocket := process.click_mSocket outcome localAddr
  have openSockets := process.click_openSockets outcome localAddr
  cases outcome with
  | socketFails =>
      constructor
      · rw [openSockets, mSocket, noneHeld]
        rfl
      · exact fun _ => noConnection
      · exact tidy.single
      · intro connection member
        have impossible : connection ∈ process.connections := member
        simp [noConnection] at impossible
      · exact tidy.readers
  | connectFails handle =>
      have valid := (fresh handle (.head _)).1
      constructor
      · rw [openSockets, mSocket, noneHeld]
        simp [ConnectOutcome.obtained, valid]
      · exact fun _ => noConnection
      · exact tidy.single
      · intro connection member
        have impossible : connection ∈ process.connections := member
        simp [noConnection] at impossible
      · exact tidy.readers
  | connects handle =>
      have valid := (fresh handle (.head _)).1
      have connections : (process.click (.connects handle)
          localAddr).connections =
            [{ conn := process.nextConn
               socket := handle
               peerClosed := false
               seenClosed := false }] := by
        simp [Process.click, noConnection]
      constructor
      · rw [openSockets, mSocket, noneHeld]
        simp [ConnectOutcome.obtained, valid]
      · intro isInvalid
        rw [mSocket] at isInvalid
        exact (valid isInvalid).elim
      · rw [connections]
        exact Nat.le_refl 1
      · intro connection member
        rw [connections] at member
        obtain rfl := List.mem_singleton.mp member
        exact mSocket.symm
      · rw [connections]
        simp [Process.click, noLoop]

theorem not_oneReader_click {process : Process} (tidy : process.Tidy)
    {outcome : ConnectOutcome} (localAddr : Option SockaddrIn)
    (fresh : ∀ handle ∈ outcome.obtained, process.Fresh handle)
    (held : process.mSocket ≠ invalidSocket) :
    ¬(process.click outcome localAddr).OneReader := by
  intro oneReader
  have isOpen : process.mSocket ∈ process.openSockets := by
    rw [tidy.held, if_neg held]
    exact List.mem_singleton.mpr rfl
  have stays : process.mSocket ∈
      (process.click outcome localAddr).openSockets := by
    rw [click_openSockets]
    exact List.mem_append_left _ isOpen
  have same := oneReader.2 _ stays
  rw [click_mSocket] at same
  cases obtained : outcome.obtained with
  | nil =>
      rw [obtained] at same
      exact held same
  | cons handle others =>
      rw [obtained] at same
      have isFresh := fresh handle (by rw [obtained]; exact .head _)
      obtain rfl : process.mSocket = handle := same
      exact isFresh.2 isOpen

theorem Tidy.serverClose {process : Process} (tidy : process.Tidy) {k : Nat}
    {connection : Connection}
    (found : process.connections[k]? = some connection) :
    Tidy
      { process with
        connections := process.connections.set k
          { connection with peerClosed := true } } := by
  have only := tidy.eq_singleton (List.mem_of_getElem? found)
  have isFirst : k = 0 := by
    obtain ⟨inside, _⟩ := List.getElem?_eq_some_iff.mp found
    rw [only] at inside
    simpa using inside
  subst isFirst
  constructor
  · exact tidy.held
  · intro noSocket
    rw [tidy.unconnected noSocket] at only
    cases only
  · simp [only]
  · intro other member
    simp only [only, List.set_cons_zero, List.mem_singleton] at member
    rw [member]
    exact tidy.own connection (List.mem_of_getElem? found)
  · have readers := tidy.readers
    rw [only] at readers
    simp only [only, List.set_cons_zero]
    cases seen : connection.seenClosed with
    | false => simpa [seen] using readers
    | true => simpa [seen] using readers

theorem Tidy.lose {process : Process} (tidy : process.Tidy) {i : Nat}
    {conn : Nat} {connection : Connection}
    (running : process.loops[i]? = some conn)
    (found : process.current = some connection) : (process.lose i).Tidy := by
  have member := List.mem_of_find?_eq_some found
  have only := tidy.eq_singleton member
  have onSocket := tidy.own connection member
  have readers := tidy.readers
  rw [only] at readers
  have notSeen : connection.seenClosed = false := by
    by_contra seen
    rw [readers] at running
    simp [seen] at running
  have loops : process.loops = [connection.conn] := by
    simpa [notSeen] using readers
  have isFirst : i = 0 := by
    obtain ⟨inside, _⟩ := List.getElem?_eq_some_iff.mp running
    rw [loops] at inside
    simpa using inside
  subst isFirst
  have after : (process.lose 0).connections =
      [{ connection with seenClosed := true }] := by
    simp [Process.lose, only, onSocket]
  constructor
  · exact tidy.held
  · intro noSocket
    rw [tidy.unconnected noSocket] at only
    cases only
  · rw [after]
    exact Nat.le_refl 1
  · intro other otherMember
    rw [after] at otherMember
    obtain rfl := List.mem_singleton.mp otherMember
    exact onSocket
  · rw [after]
    simp [Process.lose, loops]

end Process

def clientProcess : System Process ClientEvent :=
  { step := Process.step }

namespace Process

theorem eq_of_step_click {process next : Process} {outcome : ConnectOutcome}
    {localAddr : Option SockaddrIn}
    (taken : process.step (.click outcome localAddr) = some next) :
    (∀ handle ∈ outcome.obtained, process.Fresh handle) ∧
      next = process.click outcome localAddr := by
  simp only [Process.step, Option.ite_none_right_eq_some,
    Option.some.injEq] at taken
  exact ⟨taken.1, taken.2.symm⟩

theorem eq_of_step_receive {process next : Process} {i : Nat}
    {chunk : List Byte}
    (taken : process.step (.receive i chunk) = some next) :
    ∃ info, (TcpClient.clientFunc chunk).1 = some info ∧
      next = { process with dlg := process.dlg.addInfo (.narrow info) } := by
  simp only [Process.step] at taken
  split at taken
  · simp only [Option.ite_none_right_eq_some,
      Option.map_eq_some_iff] at taken
    obtain ⟨_, info, passed, rfl⟩ := taken
    exact ⟨info, passed, rfl⟩
  · cases taken

theorem eq_of_step_lose {process next : Process} {i : Nat}
    (taken : process.step (.lose i) = some next) :
    ∃ conn connection, process.loops[i]? = some conn ∧
      process.current = some connection ∧
      (connection.peerClosed = true ∨ connection.seenClosed = true) ∧
      next = process.lose i := by
  simp only [Process.step] at taken
  split at taken
  · rename_i conn connection running found
    simp only [Option.ite_none_right_eq_some, Option.some.injEq] at taken
    obtain ⟨closed, rfl⟩ := taken
    exact ⟨conn, connection, running, found, closed, rfl⟩
  · cases taken

theorem Tidy.step {process next : Process} {event : ClientEvent}
    (tidy : process.Tidy) (noSocket : process.NoSocketHeld event)
    (taken : process.step event = some next) : next.Tidy := by
  cases event with
  | click outcome localAddr =>
      obtain ⟨fresh, rfl⟩ := eq_of_step_click taken
      exact tidy.click localAddr fresh noSocket
  | serverClose k =>
      obtain ⟨connection, found, rfl⟩ := Option.map_eq_some_iff.mp taken
      exact tidy.serverClose found
  | idle i =>
      obtain ⟨_, _, rfl⟩ := Option.map_eq_some_iff.mp taken
      exact tidy
  | receive i chunk =>
      obtain ⟨info, _, rfl⟩ := eq_of_step_receive taken
      exact ⟨tidy.held, tidy.unconnected, tidy.single, tidy.own,
        tidy.readers⟩
  | lose i =>
      obtain ⟨conn, connection, running, found, _, rfl⟩ :=
        eq_of_step_lose taken
      exact tidy.lose running found

theorem Tidy.step_broken {process next : Process} {event : ClientEvent}
    (tidy : process.Tidy) (missed : ¬process.NoSocketHeld event)
    (taken : process.step event = some next) : ¬next.OneReader := by
  cases event with
  | click outcome localAddr =>
      obtain ⟨fresh, rfl⟩ := eq_of_step_click taken
      exact not_oneReader_click tidy localAddr fresh missed
  | _ => exact (missed trivial).elim

/-- In every run of the client, each connection has its one reader and no
socket is left behind in every state exactly if the connect button is clicked
only while `m_socket` is invalid. -/
theorem one_reader_iff {events : List ClientEvent} {process : Process}
    (run : clientProcess.Run initial events process) :
    clientProcess.Always OneReader initial events ↔
      clientProcess.StepsMeet NoSocketHeld initial events := by
  apply System.always_iff_stepsMeet _ _ _ tidy_initial run
  · intro process tidy
    exact tidy.oneReader
  · intro process event next tidy
    exact tidy.step
  · intro process event next tidy
    exact tidy.step_broken

private def localAddress : SockaddrIn :=
  { sinPort := 0x8813, sinAddr := { b1 := 127, b2 := 0, b3 := 0, b4 := 1 } }

def singleConnection : List ClientEvent :=
  [.click (.connects 8) (some localAddress), .receive 0 [104, 105],
    .serverClose 0, .lose 0]

theorem singleConnection_enabled :
    (clientProcess.exec initial singleConnection).isSome := by decide

theorem one_reader_through_singleConnection :
    clientProcess.Always OneReader initial singleConnection :=
  (one_reader_iff (System.run_get singleConnection_enabled)).mpr (by decide)

def secondClick : List ClientEvent :=
  [.click (.connects 8) (some localAddress),
    .click (.connects 12) (some localAddress)]

theorem secondClick_enabled :
    (clientProcess.exec initial secondClick).isSome := by decide

/-- After a second click both loops read the second connection, and nobody
the first. -/
theorem second_click_orphans_connection :
    ¬∀ events, clientProcess.Always OneReader initial events := by
  intro oneReader
  have last := oneReader secondClick _ _ (List.prefix_refl _)
    (System.run_get secondClick_enabled)
  have readers := last.1
    { conn := 0, socket := 8, peerClosed := false, seenClosed := false }
    (by decide) rfl
  exact absurd readers (by decide)

end Process

end OpenChat.Client
