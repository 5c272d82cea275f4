import OpenChat.Server.AfterClose
import OpenChat.Server.Wires

/-!
# Clients that leave and sockets that stay

The `ClientFunc` of a client that has left deletes its row and its entry and
ends, but nobody closes its socket: `UnInit` alone closes sockets of
connections, those of the entries it finds.  In an undisturbed run everybody
can leave at any time, and leaves nothing behind but an open socket.
-/

namespace OpenChat.Server

open Platform Foundation Foundation.KeyedList Foundation.Positions

/-- The steps by which handlers come to their end and clients leave. -/
def Event.finishes : Event → Bool
  | .insertClient _ | .addClient _ | .startClient _ | .hangUp _
  | .deleteClient _ => true
  | _ => false

def AcceptPhase.toDo : AcceptPhase → Nat
  | .testing | .polling => 0
  | .accepted _ _ _ => 5
  | .inserted _ _ _ => 4
  | .added _ _ _ => 3

def ClientLoop.toDo (loop : ClientLoop) : Nat :=
  if loop.leaving then 1 else 2

namespace World

section Sockets

def openConnections (world : World) : List Nat :=
  world.openSockets.filterMap fun socket => socket.2.connection?

/-- The server end of every connection accepted so far is open. -/
def AllOpen (world : World) : Prop :=
  world.openConnections = List.range world.nextConn

instance (world : World) : Decidable world.AllOpen :=
  inferInstanceAs (Decidable (_ = _))

/-- No socket in the registry that a close finds is that of an open
connection. -/
def ClosesNone (world : World) : Event → Prop
  | .closeServer =>
      ∀ item ∈ world.dlg.mServer.mClientVec,
        world.connectionOf item.cSocket = none
  | _ => True

instance (world : World) : DecidablePred world.ClosesNone
  | .closeServer =>
      inferInstanceAs (Decidable (∀ item ∈ world.dlg.mServer.mClientVec, _))
  | .openServer _ | .testRun _ | .pollNothing _ | .accept _ _ _
  | .insertClient _ | .addClient _ | .startClient _ | .receive _ _
  | .hangUp _ | .deleteClient _ => inferInstanceAs (Decidable True)

theorem connectionOf_eq_none_iff {world : World} {handle : Socket} :
    world.connectionOf handle = none ↔
      ∀ socket ∈ world.openSockets, socket.1 = handle →
        socket.2.connection? = none := by
  rw [connectionOf, List.findSome?_eq_none_iff]
  constructor
  · intro nothing socket member same
    have found := nothing socket member
    rwa [if_pos same] at found
  · intro nothing socket member
    split
    · rename_i same
      exact nothing socket member same
    · rfl

theorem connection?_eq_some {use : SocketUse} {conn : Nat}
    (isConn : use.connection? = some conn) : use = .connection conn := by
  cases use with
  | idle | listening => cases isConn
  | connection other =>
      obtain rfl := Option.some.inj isConn
      rfl

/-- `mLisSock` is `INVALID_SOCKET` or open, and the handle of no
connection. -/
structure ListensApart (world : World) : Prop where
  valid : world.ValidHandles
  listens : world.dlg.mServer.mLisSock = invalidSocket ∨
    world.IsOpen world.dlg.mServer.mLisSock
  apart : ∀ conn,
    (world.dlg.mServer.mLisSock, SocketUse.connection conn) ∉
      world.openSockets

theorem listensApart_initial : initial.ListensApart where
  valid := List.not_mem_nil
  listens := .inl rfl
  apart := fun _ => List.not_mem_nil

theorem listensApart_openServer {world : World} {outcome : InitOutcome}
    (fresh : ∀ socket ∈ outcome.leavesOpen, world.Fresh socket.1)
    (valid : (world.openServer outcome).ValidHandles) :
    (world.openServer outcome).ListensApart := by
  have isOpen : ∀ handle use,
      outcome.leavesOpen = [(handle, use)] →
        (world.openServer outcome).IsOpen handle := by
    intro handle use leaves
    rw [IsOpen, World.openServer, leaves, List.map_append]
    exact List.mem_append_right _ (.head _)
  have isApart : ∀ handle use conn,
      outcome.leavesOpen = [(handle, use)] → use.connection? = none →
        (handle, SocketUse.connection conn) ∉
          (world.openServer outcome).openSockets := by
    intro handle use conn leaves notConn member
    have given : (handle, use) ∈ outcome.leavesOpen := by simp [leaves]
    rcases List.mem_append.mp member with old | new
    · exact (fresh _ given).2 (List.mem_map.mpr ⟨_, old, rfl⟩)
    · rw [leaves, List.mem_singleton, Prod.mk.injEq] at new
      rw [← new.2] at notConn
      cases notConn
  cases outcome with
  | socketFails =>
      refine ⟨valid, .inl rfl, ?_⟩
      intro conn member
      exact valid (List.mem_map_of_mem member)
  | bindFails handle =>
      exact ⟨valid, .inr (isOpen handle .idle rfl),
        fun conn => isApart handle .idle conn rfl rfl⟩
  | listenFails handle =>
      exact ⟨valid, .inr (isOpen handle .idle rfl),
        fun conn => isApart handle .idle conn rfl rfl⟩
  | listens handle =>
      exact ⟨valid, .inr (isOpen handle .listening rfl),
        fun conn => isApart handle .listening conn rfl rfl⟩

theorem ListensApart.accept {world : World} (apart : world.ListensApart)
    (i : Nat) (clientAddr : SockaddrIn) {connSock : Socket}
    (fresh : world.Fresh connSock)
    (valid : (world.accept i clientAddr connSock).ValidHandles) :
    (world.accept i clientAddr connSock).ListensApart := by
  refine ⟨valid, ?_, ?_⟩
  · rcases apart.listens with isInvalid | isOpen
    · exact .inl isInvalid
    · right
      rw [IsOpen, World.accept, List.map_append]
      exact List.mem_append_left _ isOpen
  · intro conn member
    rcases List.mem_append.mp member with old | new
    · exact apart.apart conn old
    · obtain ⟨same, _⟩ := Prod.mk.inj (List.mem_singleton.mp new)
      have lisSock : world.dlg.mServer.mLisSock = connSock := same
      rcases apart.listens with isInvalid | isOpen
      · exact fresh.1 (lisSock.symm.trans isInvalid)
      · exact fresh.2 (lisSock ▸ isOpen)

theorem ListensApart.steps {world next : World} {event : Event}
    (apart : world.ListensApart) (taken : Steps world event next) :
    next.ListensApart := by
  have valid := apart.valid.steps taken
  cases taken with
  | openServer enabled fresh => exact listensApart_openServer fresh valid
  | closeServer enabled =>
      refine ⟨valid, .inl rfl, ?_⟩
      intro conn member
      exact valid (List.mem_map_of_mem member)
  | accept found listening fresh => exact apart.accept _ _ fresh valid
  | @startClient i conn clientAddr connSock found =>
      refine ⟨valid, ?_, ?_⟩
      · simp only [World.startClient]
        split <;> exact apart.listens
      · simp only [World.startClient]
        split <;> exact apart.apart
  | @hangUp j loop found notLeaving isOpen =>
      have server : (world.hangUp j loop).dlg.mServer = world.dlg.mServer :=
        PCServerDlg.removeClient_mServer world.dlg loop.client
      exact ⟨valid, server ▸ apart.listens, server ▸ apart.apart⟩
  | testRun | endLoop | pollNothing | insertClient | addClient | receive
  | deleteClient => exact ⟨valid, apart.listens, apart.apart⟩

/-- Only `accept` opens and only a close closes sockets of connections. -/
theorem openConnections_of_steps {world next : World} {event : Event}
    (taken : Steps world event next)
    (notAccept : ∀ i clientAddr connSock,
      event ≠ .accept i clientAddr connSock)
    (notClose : event ≠ .closeServer) :
    next.openConnections = world.openConnections := by
  cases taken with
  | @openServer outcome enabled fresh =>
      have noneNew : (outcome.leavesOpen.filterMap fun socket =>
          socket.2.connection?) = [] := by
        cases outcome <;> rfl
      rw [openConnections, openConnections, World.openServer,
        List.filterMap_append, noneNew, List.append_nil]
  | closeServer => exact (notClose rfl).elim
  | accept => exact (notAccept _ _ _ rfl).elim
  | @startClient i conn clientAddr connSock found =>
      simp only [World.startClient]
      split <;> rfl
  | testRun | endLoop | pollNothing | insertClient | addClient | receive
  | hangUp | deleteClient => rfl

/-- A close leaves all connections open exactly if it finds none. -/
theorem openConnections_closeServer_iff {world : World}
    (apart : world.ListensApart) :
    world.closeServer.openConnections = world.openConnections ↔
      world.ClosesNone .closeServer := by
  have sockets : world.closeServer.openSockets =
      world.openSockets.filter fun socket =>
        socket.1 ∉ world.dlg.mServer.unInitCloses := rfl
  rw [openConnections, openConnections, sockets, filterMap_filter_eq_iff]
  simp only [decide_eq_true_eq, ClosesNone, connectionOf_eq_none_iff]
  constructor
  · intro kept item isItem socket member same
    by_contra isConn
    have stays := kept socket member (Option.isSome_iff_ne_none.mpr isConn)
    apply stays
    rw [same]
    exact List.mem_append_left _ (List.mem_map_of_mem isItem)
  · intro none_ socket member isConn closed
    rcases List.mem_append.mp closed with ofItem | isLisSock
    · obtain ⟨item, isItem, same⟩ := List.mem_map.mp ofItem
      rw [none_ item isItem socket member same.symm] at isConn
      cases isConn
    · obtain ⟨conn, isConn⟩ := Option.isSome_iff_exists.mp isConn
      have use := connection?_eq_some isConn
      have handle : socket.1 = world.dlg.mServer.mLisSock :=
        List.mem_singleton.mp isLisSock
      apply apart.apart conn
      rw [← handle, ← use]
      exact member

theorem AllOpen.steps_iff {world next : World} {event : Event}
    (apart : world.ListensApart) (allOpen : world.AllOpen)
    (taken : Steps world event next) :
    next.AllOpen ↔ world.ClosesNone event := by
  have unchanged : (∀ i clientAddr connSock,
      event ≠ .accept i clientAddr connSock) → event ≠ .closeServer →
        next.AllOpen := by
    intro notAccept notClose
    rw [AllOpen, openConnections_of_steps taken notAccept notClose,
      nextConn_of_steps taken notAccept]
    exact allOpen
  cases taken with
  | closeServer enabled =>
      rw [← openConnections_closeServer_iff apart, AllOpen, allOpen]
      rfl
  | accept found listening fresh =>
      refine iff_of_true ?_ trivial
      rw [AllOpen, openConnections, World.accept, List.filterMap_append,
        List.range_succ]
      exact congrArg (· ++ [world.nextConn]) allOpen
  | openServer | testRun | endLoop | pollNothing | insertClient | addClient
  | startClient | receive | hangUp | deleteClient =>
      exact iff_of_true (unchanged (by simp) (by simp)) trivial

/-- Over every run of the server, the sockets of all connections that were
ever accepted stay open, whether their clients have left or not, exactly as
long as no close finds an entry of an open connection. -/
theorem all_open_iff {events : List Event} {world : World}
    (run : process.Run initial events world) :
    process.Always AllOpen initial events ↔
      process.StepsMeet ClosesNone initial events := by
  have preserved : ∀ world event next,
      World.ListensApart world ∧ world.AllOpen → world.ClosesNone event →
        process.step world event = some next →
          next.ListensApart ∧ next.AllOpen := by
    intro world event next kept closesNone taken
    have steps := steps_of_step taken
    exact ⟨kept.1.steps steps,
      (kept.2.steps_iff kept.1 steps).mpr closesNone⟩
  have broken : ∀ world event next,
      World.ListensApart world ∧ world.AllOpen → ¬world.ClosesNone event →
        process.step world event = some next → ¬next.AllOpen := by
    intro world event next kept closes taken still
    exact closes ((kept.2.steps_iff kept.1 (steps_of_step taken)).mp still)
  exact System.always_iff_stepsMeet (fun _ kept => kept.2) preserved broken
    ⟨listensApart_initial, rfl⟩ run

private def quitter : SockaddrIn :=
  { sinPort := 0x8F13, sinAddr := { b1 := 10, b2 := 0, b3 := 0, b4 := 12 } }

def leavesBeforeClose : List Event :=
  [.openServer (.listens 92), .testRun 0, .accept 0 quitter 96,
    .insertClient 0, .addClient 0, .startClient 0, .hangUp 0,
    .deleteClient 0, .closeServer]

theorem leavesBeforeClose_enabled :
    (process.exec initial leavesBeforeClose).isSome := by decide

theorem socket_outlives_close :
    process.Always AllOpen initial leavesBeforeClose :=
  (all_open_iff (System.run_get leavesBeforeClose_enabled)).mpr (by decide)

end Sockets

section Leaving

/-- The undisturbed steps that finish something. -/
def departures : System World Event where
  step world event :=
    if event.finishes = true ∧ world.Undisturbed event then world.step event
    else none

def toDo (world : World) : Nat :=
  total AcceptPhase.toDo world.acceptLoops +
    total ClientLoop.toDo world.clientLoops

structure Deserted (world : World) : Prop where
  noLoops : world.clientLoops = []
  noneMidway : ∀ phase ∈ world.acceptLoops, phase.midway = false

structure Running (world : World) : Prop where
  sealed_ : world.Sealed
  alive : world.terminated = false

theorem running_initial : initial.Running :=
  ⟨sealed_initial, rfl⟩

theorem Running.steps {world next : World} {event : Event}
    (running : world.Running) (undisturbed : world.Undisturbed event)
    (taken : Steps world event next) : next.Running := by
  refine ⟨running.sealed_.steps undisturbed taken, ?_⟩
  cases taken with
  | @startClient i conn clientAddr connSock found =>
      rw [running.sealed_.balanced.startClient_eq found]
      exact running.alive
  | openServer | closeServer | testRun | endLoop | pollNothing | accept
  | insertClient | addClient | receive | hangUp | deleteClient =>
      exact running.alive

theorem exists_phase {world : World} (among : AcceptPhase → Bool)
    (some_ : ¬∀ phase ∈ world.acceptLoops, among phase = false) :
    ∃ (i : Nat) (phase : AcceptPhase),
      world.acceptLoops[i]? = some phase ∧ among phase = true := by
  simp only [not_forall, Bool.not_eq_false] at some_
  obtain ⟨phase, member, holds⟩ := some_
  obtain ⟨i, found⟩ := List.mem_iff_getElem?.mp member
  exact ⟨i, phase, found, holds⟩

theorem Running.startNext {world : World} (running : world.Running) {i : Nat}
    {conn : Nat} {clientAddr : SockaddrIn} {connSock : Socket}
    (found : world.acceptLoops[i]? = some (.added conn clientAddr connSock)) :
    departures.step world (.startClient i) = some (world.startClient i conn) ∧
      (world.startClient i conn).toDo < world.toDo := by
  constructor
  · simp [departures, Event.finishes, Undisturbed, step, running.alive, found]
  · have phases := total_set AcceptPhase.toDo found .testing
    simp only [AcceptPhase.toDo] at phases
    rw [running.sealed_.balanced.startClient_eq found]
    simp only [toDo, total_append, total, ClientLoop.toDo,
      Bool.false_eq_true, if_false]
    omega

theorem Running.addNext {world : World} (running : world.Running) {i : Nat}
    {conn : Nat} {clientAddr : SockaddrIn} {connSock : Socket}
    (noneAdded : ∀ phase ∈ world.acceptLoops, phase.isAdded = false)
    (found : world.acceptLoops[i]? =
      some (.inserted conn clientAddr connSock)) :
    departures.step world (.addClient i) =
        some (world.addClient i conn clientAddr connSock) ∧
      (world.addClient i conn clientAddr connSock).toDo < world.toDo := by
  constructor
  · have undisturbed : world.Undisturbed (.addClient i) := noneAdded
    simp [departures, Event.finishes, undisturbed, step, running.alive, found]
  · have phases := total_set AcceptPhase.toDo found
      (.added conn clientAddr connSock)
    simp only [AcceptPhase.toDo] at phases
    simp only [toDo, World.addClient]
    omega

theorem Running.insertNext {world : World} (running : world.Running) {i : Nat}
    {conn : Nat} {clientAddr : SockaddrIn} {connSock : Socket}
    (found : world.acceptLoops[i]? =
      some (.accepted conn clientAddr connSock)) :
    departures.step world (.insertClient i) =
        some (world.insertClient i conn clientAddr connSock) ∧
      (world.insertClient i conn clientAddr connSock).toDo < world.toDo := by
  constructor
  · simp [departures, Event.finishes, Undisturbed, step, running.alive, found]
  · have phases := total_set AcceptPhase.toDo found
      (.inserted conn clientAddr connSock)
    simp only [AcceptPhase.toDo] at phases
    simp only [toDo, World.insertClient]
    omega

theorem Running.hangUpNext {world : World} (running : world.Running) {j : Nat}
    {loop : ClientLoop} (found : world.clientLoops[j]? = some loop)
    (reading : loop.leaving = false) :
    departures.step world (.hangUp j) = some (world.hangUp j loop) ∧
      (world.hangUp j loop).toDo < world.toDo := by
  constructor
  · have isOpen : world.IsOpen loop.client.cSocket := by
      have served : (loop.conn, loop.client) ∈ world.inService :=
        List.mem_append_left _
          (List.mem_map.mpr ⟨loop, List.mem_of_getElem? found, rfl⟩)
      exact List.mem_map_of_mem (running.sealed_.owns _ served).2
    simp [departures, Event.finishes, Undisturbed, step, running.alive, found,
      reading, isOpen]
  · have loops := total_set ClientLoop.toDo found { loop with leaving := true }
    simp only [ClientLoop.toDo, reading, Bool.false_eq_true, if_false,
      if_true] at loops
    simp only [toDo, World.hangUp]
    omega

theorem Running.deleteNext {world : World} (running : world.Running) {j : Nat}
    {loop : ClientLoop} (found : world.clientLoops[j]? = some loop)
    (leaving : loop.leaving = true) :
    departures.step world (.deleteClient j) =
        some (world.deleteClient j loop) ∧
      (world.deleteClient j loop).toDo < world.toDo := by
  constructor
  · simp [departures, Event.finishes, Undisturbed, step, running.alive, found,
      leaving]
  · have loops := total_eraseIdx ClientLoop.toDo found
    simp only [ClientLoop.toDo, leaving, if_true] at loops
    simp only [toDo, World.deleteClient]
    omega

/-- Until the server is deserted, somebody can go on: first whoever has added
its client, then the other handlers, then the loops. -/
theorem Running.progress {world : World} (running : world.Running) :
    world.Deserted ∨ ∃ event next,
      departures.step world event = some next ∧ next.toDo < world.toDo := by
  by_cases noneAdded :
      ∀ phase ∈ world.acceptLoops, phase.isAdded = false
  · by_cases noneMidway :
        ∀ phase ∈ world.acceptLoops, phase.midway = false
    · cases loops : world.clientLoops with
      | nil => exact .inl ⟨loops, noneMidway⟩
      | cons loop others =>
          have found : world.clientLoops[0]? = some loop := by simp [loops]
          cases reading : loop.leaving with
          | false => exact .inr ⟨_, _, running.hangUpNext found reading⟩
          | true => exact .inr ⟨_, _, running.deleteNext found reading⟩
    · obtain ⟨i, phase, found, midway⟩ := exists_phase _ noneMidway
      cases phase with
      | testing | polling => cases midway
      | accepted conn clientAddr connSock =>
          exact .inr ⟨_, _, running.insertNext found⟩
      | inserted conn clientAddr connSock =>
          exact .inr ⟨_, _, running.addNext noneAdded found⟩
      | added conn clientAddr connSock =>
          exact .inr ⟨_, _, running.startNext found⟩
  · obtain ⟨i, phase, found, isAdded⟩ := exists_phase _ noneAdded
    cases phase with
    | testing | polling | accepted | inserted => cases isAdded
    | added conn clientAddr connSock =>
        exact .inr ⟨_, _, running.startNext found⟩

theorem step_of_departures {world next : World} {event : Event}
    (taken : departures.step world event = some next) :
    event.finishes = true ∧ world.Undisturbed event ∧
      process.step world event = some next := by
  obtain ⟨⟨finishes, undisturbed⟩, step⟩ :=
    Option.ite_none_right_eq_some.mp taken
  exact ⟨finishes, undisturbed, step⟩

theorem run_of_departures {world finish : World} {later : List Event}
    (run : departures.Run world later finish) :
    process.Run world later finish ∧
      (∀ event ∈ later, event.finishes = true) := by
  induction run with
  | nil world => exact ⟨.nil world, by simp⟩
  | cons taken _ induction =>
      obtain ⟨finishes, _, step⟩ := step_of_departures taken
      exact ⟨.cons step induction.1,
        List.forall_mem_cons.mpr ⟨finishes, induction.2⟩⟩

theorem openSockets_of_finishes {world next : World} {event : Event}
    (finishes : event.finishes = true) (taken : Steps world event next) :
    next.openSockets = world.openSockets := by
  cases taken with
  | @startClient i conn clientAddr connSock found =>
      simp only [World.startClient]
      split <;> rfl
  | insertClient | addClient | hangUp | deleteClient => rfl
  | openServer | closeServer | testRun | endLoop | pollNothing | accept
  | receive => cases finishes

/-- The number a row shows is the port of a connection of this session. -/
theorem Sealed.rowPort_eq {world : World} (sealed_ : world.Sealed)
    {row : ListRow} (member : row ∈ world.dlg.mClientList) :
    ∃ port : Nat, rowPort row = (port : Int) := by
  have inSession : rowTexts row ∈ world.session.map entryTexts :=
    sealed_.rowsInSession.subset
      (List.mem_append_left _ (List.mem_map_of_mem member))
  obtain ⟨item, _, texts⟩ := List.mem_map.mp inSession
  have portText : formatD item.cPort = row.port := congrArg Prod.fst texts
  exact ⟨item.cPort, by rw [rowPort, ← portText, ttoi_formatD]⟩

theorem Deserted.empty {world : World} (deserted : world.Deserted)
    (sealed_ : world.Sealed) :
    world.dlg.mClientList = [] ∧ world.dlg.mServer.mClientVec = [] := by
  have noneHas : ∀ (has : Nat → AcceptPhase → Bool) (port : Nat),
      (∀ phase : AcceptPhase, phase.midway = false → has port phase = false) →
        world.acceptLoops.countP (has port) = 0 := by
    intro has port idle
    rw [List.countP_eq_zero]
    intro phase member
    simp [idle phase (deserted.noneMidway phase member)]
  constructor
  · rw [List.eq_nil_iff_forall_not_mem]
    intro row member
    obtain ⟨port, shows⟩ := sealed_.rowPort_eq member
    have counted := (countKey_pos rowPort (port : Int)).mpr
      ⟨row, member, shows⟩
    rw [sealed_.balanced.rows, rowDemand, deserted.noLoops,
      noneHas AcceptPhase.hasRow port (by
        intro phase idle
        cases phase <;> first | rfl | cases idle)] at counted
    exact Nat.lt_irrefl 0 counted
  · rw [List.eq_nil_iff_forall_not_mem]
    intro entry member
    have counted := (countKey_pos CClientItem.cPort entry.cPort).mpr
      ⟨entry, member, rfl⟩
    rw [sealed_.balanced.entries, entryDemand, deserted.noLoops,
      noneHas AcceptPhase.hasEntry entry.cPort (by
        intro phase idle
        cases phase <;> first | rfl | cases idle)] at counted
    exact Nat.lt_irrefl 0 counted

/-- From every state of an undisturbed run the handlers can come to their end
and all clients can leave, each by steps of its own.  Then nobody is served,
the list and the registry are empty, and every socket that was open still
is. -/
theorem everyone_can_leave {events : List Event} {world : World}
    (run : process.Run initial events world)
    (undisturbed : process.StepsMeet Undisturbed initial events) :
    ∃ later finish, process.Run world later finish ∧
      (∀ event ∈ later, event.finishes = true) ∧ finish.Deserted ∧
      finish.dlg.mClientList = [] ∧ finish.dlg.mServer.mClientVec = [] ∧
      finish.openSockets = world.openSockets := by
  have preserved : ∀ world event next, World.Running world →
      world.Undisturbed event → process.step world event = some next →
        next.Running := by
    intro world event next running undisturbed taken
    exact running.steps undisturbed (steps_of_step taken)
  have running : world.Running :=
    System.always_of_guarded preserved running_initial undisturbed events
      world (List.prefix_refl events) run
  have schedule : ∀ now : World,
      now.Running ∧ now.openSockets = world.openSockets →
        now.Deserted ∨ ∃ event next,
          departures.step now event = some next ∧
            (next.Running ∧ next.openSockets = world.openSockets) ∧
            next.toDo < now.toDo := by
    rintro now ⟨nowRunning, same⟩
    rcases nowRunning.progress with deserted | goesOn
    · exact .inl deserted
    · obtain ⟨event, next, taken, less⟩ := goesOn
      obtain ⟨finishes, quiet, step⟩ := step_of_departures taken
      have steps := steps_of_step step
      have unchanged := openSockets_of_finishes finishes steps
      exact .inr ⟨event, next, taken,
        ⟨nowRunning.steps quiet steps, unchanged.trans same⟩, less⟩
  obtain ⟨finish, ⟨later, leaving⟩, ⟨finishRunning, same⟩, deserted⟩ :=
    System.reaches_goal toDo schedule ⟨running, rfl⟩
  obtain ⟨laterRun, finishes⟩ := run_of_departures leaving
  obtain ⟨noRows, noEntries⟩ := deserted.empty finishRunning.sealed_
  exact ⟨later, finish, laterRun, finishes, deserted, noRows, noEntries,
    same⟩

def twoOnTheWay : List Event :=
  [.openServer (.listens 100), .testRun 0, .accept 0 quitter 104,
    .insertClient 0, .addClient 0, .startClient 0, .testRun 0,
    .accept 0 quitter 108, .insertClient 0]

theorem twoOnTheWay_enabled :
    (process.exec initial twoOnTheWay).isSome := by decide

def twoOnTheWayWorld : World :=
  (process.exec initial twoOnTheWay).get twoOnTheWay_enabled

theorem two_on_the_way_can_leave :
    ∃ later finish, process.Run twoOnTheWayWorld later finish ∧
      (∀ event ∈ later, event.finishes = true) ∧ finish.Deserted ∧
      finish.dlg.mClientList = [] ∧ finish.dlg.mServer.mClientVec = [] ∧
      finish.openSockets = twoOnTheWayWorld.openSockets :=
  everyone_can_leave (System.run_get twoOnTheWay_enabled) (by decide)

end Leaving

end World

end OpenChat.Server
