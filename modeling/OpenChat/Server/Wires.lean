import OpenChat.Chat.Reception
import OpenChat.Foundation.Switchboard
import OpenChat.Server.Separation

/-!
# The server and what its clients send

A `ClientFunc` loop reads whatever connection its handle names at the moment
of the `recv`.  The server process is joined with the byte streams of all its
connections, so that a run also says whose bytes a loop was given: the loop of
a connection hears that connection, from its first byte on and without a gap,
as long as every handle still names the connection its loop was started for.
-/

namespace OpenChat.Server

open Platform Foundation Foundation.CutStream

def SocketUse.connection? : SocketUse → Option Nat
  | .connection conn => some conn
  | _ => none

def World.connectionOf (world : World) (handle : Socket) : Option Nat :=
  world.openSockets.findSome? fun socket =>
    if socket.1 = handle then socket.2.connection? else none

/-- The server process, and a channel for each connection in the order they
were accepted.  A delivery goes to the connection whose loop called `recv`. -/
structure Room where
  world : World
  wires : Switchboard Byte
deriving DecidableEq

/-- A step of the server other than a `recv`, a `send` of the client at the
other end of a connection, or a `recv` that returns `count` bytes. -/
inductive RoomEvent where
  | server (event : Event)
  | clientSends (conn : Nat) (bytes : List Byte)
  | recv (j count : Nat)
deriving DecidableEq

namespace Room

def initial : Room :=
  { world := World.initial, wires := .empty }

def step (room : Room) : RoomEvent → Option Room
  | .server (.receive _ _) => none
  | .server event => do
      let world ← room.world.step event
      let wires :=
        match event with
        | .accept _ _ _ => room.wires.connect
        | _ => room.wires
      some { world := world, wires := wires }
  | .clientSends conn bytes =>
      if conn < room.wires.channels.length then
        some { room with wires := room.wires.send conn bytes }
      else none
  | .recv j count => do
      let loop ← room.world.clientLoops[j]?
      let conn ← room.world.connectionOf loop.client.cSocket
      let chunk ← room.wires.front conn count
      let world ← room.world.step (.receive j chunk)
      some
        { world := world
          wires := room.wires.deliver conn loop.conn chunk }

def traffic : System Room RoomEvent :=
  { step := step }

/-- Of every chunk a loop was given, the bytes in front of its first NUL and a
newline. -/
def boxLines (wires : Switchboard Byte) : List (List Byte) :=
  wires.deliveries.map fun delivery => shown isNul delivery.2 ++ [newline]

/-- The info box holds the lines of the chunks the loops were given, and each
loop was given the stream of its own connection, up to what is still on the
way. -/
structure Attributed (room : Room) : Prop where
  box : room.world.dlg.mInfoBox = boxLines room.wires
  numbered : room.wires.channels.length = room.world.nextConn
  faithful : room.wires.Faithful

/-- A `recv` is made on the connection its loop was started for. -/
def HearsOwn (room : Room) : RoomEvent → Prop
  | .recv j _ =>
      ∀ loop ∈ room.world.clientLoops[j]?,
        room.world.connectionOf loop.client.cSocket = some loop.conn
  | _ => True

instance (room : Room) : DecidablePred room.HearsOwn
  | .recv j _ =>
      inferInstanceAs (Decidable (∀ loop ∈ room.world.clientLoops[j]?, _))
  | .server _ | .clientSends _ _ => inferInstanceAs (Decidable True)

def Quiet (room : Room) : RoomEvent → Prop
  | .server event => room.world.Undisturbed event
  | _ => True

instance (room : Room) : DecidablePred room.Quiet
  | .server event => inferInstanceAs (Decidable (room.world.Undisturbed event))
  | .clientSends _ _ | .recv _ _ => inferInstanceAs (Decidable True)

theorem attributed_initial : initial.Attributed where
  box := rfl
  numbered := rfl
  faithful := Switchboard.faithful_empty

end Room

namespace World

theorem box_of_steps {world next : World} {event : Event}
    (taken : Steps world event next)
    (notReceive : ∀ j chunk, event ≠ .receive j chunk) :
    next.dlg.mInfoBox = world.dlg.mInfoBox := by
  cases taken with
  | receive => exact (notReceive _ _ rfl).elim
  | @startClient i conn clientAddr connSock found =>
      simp only [World.startClient]
      split <;> rfl
  | @hangUp j loop found notLeaving isOpen =>
      simp only [World.hangUp, PCServerDlg.removeClient]
      split <;> rfl
  | openServer | closeServer | testRun | endLoop | pollNothing | accept
  | insertClient | addClient | deleteClient => rfl

theorem nextConn_of_steps {world next : World} {event : Event}
    (taken : Steps world event next)
    (notAccept : ∀ i clientAddr connSock,
      event ≠ .accept i clientAddr connSock) :
    next.nextConn = world.nextConn := by
  cases taken with
  | accept => exact (notAccept _ _ _ rfl).elim
  | @startClient i conn clientAddr connSock found =>
      simp only [World.startClient]
      split <;> rfl
  | openServer | closeServer | testRun | endLoop | pollNothing
  | insertClient | addClient | receive | hangUp | deleteClient => rfl

theorem nextConn_of_accept {world next : World} {i : Nat}
    {clientAddr : SockaddrIn} {connSock : Socket}
    (taken : Steps world (.accept i clientAddr connSock) next) :
    next.nextConn = world.nextConn + 1 := by
  cases taken
  rfl

/-- In a sealed state a handle that is read names the connection of its
reader. -/
theorem Sealed.connectionOf {world : World} (sealed_ : world.Sealed)
    {loop : ClientLoop} (member : loop ∈ world.clientLoops)
    (reading : loop.leaving = false) {conn : Nat}
    (named : world.connectionOf loop.client.cSocket = some conn) :
    conn = loop.conn := by
  obtain ⟨socket, isOpen, isConn⟩ := List.exists_of_findSome?_eq_some named
  obtain ⟨sameHandle, isConn⟩ := Option.ite_none_right_eq_some.mp isConn
  have reads : loop.reads socket.1 = true := by
    simp [ClientLoop.reads, reading, sameHandle]
  have own := (sealed_.separated.1 socket isOpen).1 loop member reads
  rw [own] at isConn
  exact (Option.some.inj isConn).symm

end World

namespace Room

/-- What a `recv` does: the chunk is the front of the connection the handle
names, the info box shows it, and the loop's connection has heard it. -/
theorem step_recv {room next : Room} {j count : Nat}
    (taken : room.step (.recv j count) = some next) :
    ∃ loop conn chunk strMsg,
      room.world.clientLoops[j]? = some loop ∧
      loop.leaving = false ∧
      room.world.connectionOf loop.client.cSocket = some conn ∧
      room.wires.front conn count = some chunk ∧
      TcpServer.clientFunc chunk = some strMsg ∧
      World.Steps room.world (.receive j chunk) next.world ∧
      next =
        { world := { room.world with dlg := room.world.dlg.addInfo strMsg }
          wires := room.wires.deliver conn loop.conn chunk } := by
  simp only [step, Option.bind_eq_bind, Option.bind_eq_some_iff,
    Option.some.injEq] at taken
  obtain ⟨loop, found, conn, named, chunk, front, world, received, rfl⟩ :=
    taken
  have steps := World.steps_of_step received
  cases steps with
  | @receive _ same _ strMsg foundSame reading isOpen read =>
      obtain rfl := Option.some.inj (found.symm.trans foundSame)
      exact ⟨loop, conn, chunk, strMsg, found, reading, named, front, read,
        .receive found reading isOpen read, rfl⟩

theorem step_server {room next : Room} {event : Event}
    (taken : room.step (.server event) = some next) :
    World.Steps room.world event next.world ∧
      (∀ j chunk, event ≠ .receive j chunk) ∧
      ((∃ i clientAddr connSock, event = .accept i clientAddr connSock ∧
          next.wires = room.wires.connect) ∨
        (∀ i clientAddr connSock, event ≠ .accept i clientAddr connSock) ∧
          next.wires = room.wires) := by
  cases event with
  | receive => cases taken
  | accept i clientAddr connSock =>
      simp only [step, Option.bind_eq_bind, Option.bind_eq_some_iff,
        Option.some.injEq] at taken
      obtain ⟨world, stepped, rfl⟩ := taken
      refine ⟨World.steps_of_step stepped, by simp, .inl ?_⟩
      exact ⟨i, clientAddr, connSock, rfl, rfl⟩
  | openServer | closeServer | testRun | pollNothing | insertClient
  | addClient | startClient | hangUp | deleteClient =>
      simp only [step, Option.bind_eq_bind, Option.bind_eq_some_iff,
        Option.some.injEq] at taken
      obtain ⟨world, stepped, rfl⟩ := taken
      exact ⟨World.steps_of_step stepped, by simp, .inr ⟨by simp, rfl⟩⟩

theorem sends_of_step {room next : Room} {conn : Nat} {bytes : List Byte}
    (taken : room.step (.clientSends conn bytes) = some next) :
    next = { room with wires := room.wires.send conn bytes } := by
  obtain ⟨_, same⟩ := Option.ite_none_right_eq_some.mp taken
  exact (Option.some.inj same).symm

/-- A step keeps the attribution exactly if it is no `recv` on the connection
of another loop. -/
theorem Attributed.step_iff {room next : Room} {event : RoomEvent}
    (attributed : room.Attributed)
    (taken : room.step event = some next) :
    next.Attributed ↔ room.HearsOwn event := by
  cases event with
  | server event =>
      refine iff_of_true ?_ trivial
      obtain ⟨steps, notReceive, accepts | others⟩ := step_server taken
      · obtain ⟨i, clientAddr, connSock, rfl, wires⟩ := accepts
        refine ⟨?_, ?_, ?_⟩
        · rw [World.box_of_steps steps notReceive, wires]
          exact attributed.box
        · rw [World.nextConn_of_accept steps, wires, Switchboard.connect,
            List.length_append, attributed.numbered]
          rfl
        · rw [wires]
          exact attributed.faithful.connect
      · obtain ⟨notAccept, wires⟩ := others
        refine ⟨?_, ?_, wires ▸ attributed.faithful⟩
        · rw [World.box_of_steps steps notReceive, wires]
          exact attributed.box
        · rw [World.nextConn_of_steps steps notAccept, wires]
          exact attributed.numbered
  | clientSends conn bytes =>
      refine iff_of_true ?_ trivial
      obtain rfl := sends_of_step taken
      refine ⟨attributed.box, ?_, attributed.faithful.send conn bytes⟩
      rw [← attributed.numbered, Switchboard.send, List.length_modify]
  | recv j count =>
      obtain ⟨loop, conn, chunk, strMsg, found, _, named, front, read, _,
        rfl⟩ := step_recv taken
      have hears : room.HearsOwn (.recv j count) ↔ loop.conn = conn := by
        simp only [HearsOwn, found, named, Option.mem_some,
          forall_eq', Option.some.injEq]
        exact eq_comm
      rw [hears, ← attributed.faithful.deliver_iff front]
      constructor
      · exact fun still => still.faithful
      · intro faithful
        refine ⟨?_, ?_, faithful⟩
        · have line := Chat.clientFunc_eq_some read
          simp only [PCServerDlg.addInfo, Switchboard.deliver, boxLines,
            List.map_append, attributed.box, List.map_singleton, line]
        · rw [← attributed.numbered, Switchboard.deliver, List.length_modify]

/-- Whatever the clients send, however TCP cuts it and however the steps
interleave: throughout a run every loop has heard its own connection, in order
and without a gap up to what is still on the way, and the info box holds the
lines of what the loops heard, exactly if no loop ever reads a handle that
names another connection by then. -/
theorem attributed_iff {events : List RoomEvent} {finish : Room}
    (run : traffic.Run initial events finish) :
    traffic.Always Attributed initial events ↔
      traffic.StepsMeet HearsOwn initial events := by
  apply System.always_iff_stepsMeet (fun _ attributed => attributed) _ _
    attributed_initial run
  · intro now event next attributed own taken
    exact (attributed.step_iff taken).mpr own
  · intro now event next attributed foreign taken still
    exact foreign ((attributed.step_iff taken).mp still)

private def wirePeer (host : UInt8) : SockaddrIn :=
  { sinPort := 0x8C13
    sinAddr := { b1 := 10, b2 := 0, b3 := 0, b4 := host } }

/-- The server is closed while its client is served, opened again, and the
next client gets the handle the loop of the first one still reads. -/
def staleReaderRun : List RoomEvent :=
  [.server (.openServer (.listens 52)), .server (.testRun 0),
    .server (.accept 0 (wirePeer 7) 56), .server (.insertClient 0),
    .server (.addClient 0), .server (.startClient 0), .server .closeServer,
    .server (.testRun 0), .server (.openServer (.listens 60)),
    .server (.testRun 0), .server (.accept 0 (wirePeer 8) 56),
    .clientSends 1 [104, 105], .recv 0 2]

theorem staleReaderRun_enabled :
    (traffic.exec initial staleReaderRun).isSome := by decide

theorem stale_reader_hears_next_client :
    ¬traffic.Always Attributed initial staleReaderRun := by
  rw [attributed_iff (System.run_get staleReaderRun_enabled)]
  decide

/-- A sealed server whose loops have heard their own connections. -/
structure InTouch (room : Room) : Prop where
  sealed_ : room.world.Sealed
  attributed : room.Attributed

theorem InTouch.step {room next : Room} {event : RoomEvent}
    (inTouch : room.InTouch) (quiet : room.Quiet event)
    (taken : room.step event = some next) : next.InTouch := by
  cases event with
  | server event =>
      obtain ⟨steps, _⟩ := step_server taken
      exact ⟨inTouch.sealed_.steps quiet steps,
        (inTouch.attributed.step_iff taken).mpr trivial⟩
  | clientSends conn bytes =>
      have still := (inTouch.attributed.step_iff taken).mpr trivial
      obtain rfl := sends_of_step taken
      exact ⟨inTouch.sealed_, still⟩
  | recv j count =>
      obtain ⟨loop, conn, chunk, _, found, reading, named, _, _, steps, _⟩ :=
        step_recv taken
      have own : room.HearsOwn (.recv j count) := by
        intro same isSame
        obtain rfl := Option.some.inj (found.symm.trans isSame)
        rw [named, inTouch.sealed_.connectionOf (List.mem_of_getElem? found)
          reading named]
      have undisturbed : room.world.Undisturbed (.receive j chunk) := trivial
      exact ⟨inTouch.sealed_.steps undisturbed steps,
        (inTouch.attributed.step_iff taken).mpr own⟩

/-- In an undisturbed run every loop hears its own connection, and the box
holds the lines of what was heard. -/
theorem attributed_of_quiet {events : List RoomEvent}
    (quiet : traffic.StepsMeet Quiet initial events) :
    traffic.Always Attributed initial events := by
  have always : traffic.Always InTouch initial events :=
    System.always_of_guarded
      (fun _ _ _ inTouch quiet taken => inTouch.step quiet taken)
      ⟨World.sealed_initial, attributed_initial⟩ quiet
  exact always.mono fun _ inTouch => inTouch.attributed

def twoClientsRun : List RoomEvent :=
  [.server (.openServer (.listens 64)), .server (.testRun 0),
    .server (.accept 0 (wirePeer 9) 68), .server (.insertClient 0),
    .server (.addClient 0), .server (.startClient 0), .server (.testRun 0),
    .clientSends 0 [97, 98, 99], .server (.accept 0 (wirePeer 10) 72),
    .recv 0 2, .server (.insertClient 0), .server (.addClient 0),
    .clientSends 1 [104, 105], .server (.startClient 0), .recv 1 2,
    .recv 0 1, .server (.hangUp 0), .server (.deleteClient 0)]

theorem twoClientsRun_enabled :
    (traffic.exec initial twoClientsRun).isSome := by decide

theorem two_clients_are_heard :
    ((traffic.exec initial twoClientsRun).get
      twoClientsRun_enabled).Attributed :=
  attributed_of_quiet (by decide) _ _ (List.prefix_refl _)
    (System.run_get twoClientsRun_enabled)

end Room

end OpenChat.Server
