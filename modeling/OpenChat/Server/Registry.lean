import OpenChat.Server.Ledger

/-!
# The registry names the connected clients

Here handlers run one after another on a server that stays open: a peer is
accepted, shown, entered and given its loop, or a loop ends and takes its row
and its entry away.  The registry is then the list of live connections in the
order they were accepted, as long as nobody leaves while an older connection
has the same source port.
-/

namespace OpenChat.Server

open Platform Foundation Foundation.KeyedList Foundation.Positions

inductive Handler where
  | accept (clientAddr : SockaddrIn) (connSock : Socket)
  | disconnect (j : Nat)
deriving DecidableEq

namespace World

/-- The accept loop from `accept` to the start of `ClientFunc`. -/
def serve (world : World) (clientAddr : SockaddrIn) (connSock : Socket) :
    World :=
  let conn := world.nextConn
  (((world.accept 0 clientAddr connSock).insertClient 0 conn clientAddr
    connSock).addClient 0 conn clientAddr connSock).startClient 0 conn

/-- The last pass of a `ClientFunc` loop. -/
def dismiss (world : World) (j : Nat) (loop : ClientLoop) : World :=
  (world.hangUp j loop).deleteClient j { loop with leaving := true }

def liveSockets (world : World) : List Socket :=
  world.clientLoops.map fun loop => loop.client.cSocket

/-- Handlers one after another; a new connection gets a handle which no live
connection has. -/
def handle (world : World) : Handler → Option World
  | .accept clientAddr connSock =>
      if connSock ∉ world.liveSockets then
        some (world.serve clientAddr connSock)
      else none
  | .disconnect j =>
      (world.clientLoops[j]?).map fun loop => world.dismiss j loop

/-- A whole handler as steps of the process. -/
def Handler.events : Handler → List Event
  | .accept clientAddr connSock =>
      [.testRun 0, .accept 0 clientAddr connSock, .insertClient 0,
        .addClient 0, .startClient 0]
  | .disconnect j => [.hangUp j, .deleteClient j]

theorem serve_of_run {world next : World} {clientAddr : SockaddrIn}
    {connSock : Socket} (idle : world.acceptLoops = [.testing])
    (running : world.dlg.mServer.mRun = true)
    (run : process.Run world (Handler.events (.accept clientAddr connSock))
      next) :
    next = world.serve clientAddr connSock := by
  simp only [System.run_iff_exec, Handler.events, System.exec, process,
    Option.bind_eq_some_iff] at run
  obtain ⟨tested, testing, accepted, accepting, inserted, inserting, added,
    adding, started, starting, last⟩ := run
  obtain rfl := Option.some.inj last
  cases steps_of_step testing with
  | endLoop _ stopped => simp [running] at stopped
  | testRun _ _ =>
      cases steps_of_step accepting with
      | accept _ _ _ =>
          cases steps_of_step inserting with
          | insertClient isAccepted =>
              cases steps_of_step adding with
              | addClient isInserted =>
                  cases steps_of_step starting with
                  | startClient isAdded =>
                      simp [World.accept, World.insertClient, World.addClient,
                        idle] at isAccepted isInserted isAdded
                      obtain ⟨rfl, rfl, rfl⟩ := isAccepted
                      obtain ⟨rfl, rfl, rfl⟩ := isInserted
                      obtain ⟨rfl, rfl, rfl⟩ := isAdded
                      simp [World.serve, World.accept, World.insertClient,
                        World.addClient, idle]

theorem dismiss_of_run {world next : World} {j : Nat}
    (run : process.Run world (Handler.events (.disconnect j)) next) :
    ∃ loop, world.clientLoops[j]? = some loop ∧ next = world.dismiss j loop := by
  simp only [System.run_iff_exec, Handler.events, System.exec, process,
    Option.bind_eq_some_iff] at run
  obtain ⟨left, leaving, gone, deleting, last⟩ := run
  obtain rfl := Option.some.inj last
  cases steps_of_step leaving with
  | @hangUp _ loop found _ _ =>
      cases steps_of_step deleting with
      | deleteClient isLeaving _ =>
          obtain ⟨inside, _⟩ := List.getElem?_eq_some_iff.mp found
          simp only [World.hangUp, List.getElem?_set_self inside,
            Option.some.injEq] at isLeaving
          subst isLeaving
          exact ⟨loop, found, rfl⟩

def liveItems (world : World) : List CClientItem :=
  world.clientLoops.filterMap fun loop => world.session[loop.conn]?

/-- One entry for each live connection, and no other. -/
def Registered (world : World) : Prop :=
  world.dlg.mServer.mClientVec.Perm world.liveItems

/-- `DeleteClient` removes the entry of the connection that ends. -/
def RemovesOwn (world : World) : Handler → Prop
  | .accept _ _ => True
  | .disconnect j =>
      ∀ loop ∈ world.clientLoops[j]?, ∃ own ∈ world.session[loop.conn]?,
        world.dlg.mServer.mClientVec.Perm
          (own :: (world.dlg.mServer.deleteClient
            loop.client.cPort).mClientVec)

/-- Whoever leaves, no live connection accepted earlier has its port. -/
def OwnPortFirst (world : World) : Handler → Prop
  | .accept _ _ => True
  | .disconnect j =>
      ∀ loop ∈ world.clientLoops[j]?, ∀ earlier ∈ world.clientLoops.take j,
        earlier.client.cPort ≠ loop.client.cPort

instance (world : World) : DecidablePred world.OwnPortFirst
  | .accept _ _ => inferInstanceAs (Decidable True)
  | .disconnect j =>
      inferInstanceAs (Decidable (∀ loop ∈ world.clientLoops[j]?, _))

/-- The registry is the list of live connections, oldest first. -/
structure Listed (world : World) : Prop where
  names : world.dlg.mServer.mClientVec =
    world.clientLoops.map ClientLoop.client
  accepted : ∀ loop ∈ world.clientLoops,
    world.session[loop.conn]? = some loop.client
  counted : world.session.length = world.nextConn
  distinct : world.liveSockets.Nodup

theorem Listed.liveItems_eq {world : World} (listed : world.Listed) :
    world.liveItems = world.dlg.mServer.mClientVec := by
  rw [listed.names, liveItems, ← List.filterMap_eq_map]
  exact List.filterMap_congr listed.accepted

theorem Listed.registered {world : World} (listed : world.Listed) :
    world.Registered := by
  rw [Registered, listed.liveItems_eq]

theorem listed_opened (handle : Socket) :
    (initial.openServer (.listens handle)).Listed where
  names := rfl
  accepted := by
    intro loop member
    simp [openServer, initial] at member
  counted := rfl
  distinct := List.nodup_nil

/-- An accepted connection is the youngest one and has the last entry. -/
theorem serve_clientLoops (world : World) (clientAddr : SockaddrIn)
    (connSock : Socket) :
    (world.serve clientAddr connSock).clientLoops =
      world.clientLoops ++
        [{ conn := world.nextConn
           client := TcpServer.acceptedItem clientAddr connSock
           leaving := false }] := by
  simp only [serve, startClient, TcpServer.getClient_last, addClient,
    TcpServer.addClient_mClientVec, List.getLast?_concat, insertClient,
    accept]

theorem serve_mClientVec (world : World) (clientAddr : SockaddrIn)
    (connSock : Socket) :
    (world.serve clientAddr connSock).dlg.mServer.mClientVec =
      world.dlg.mServer.mClientVec ++
        [TcpServer.acceptedItem clientAddr connSock] := by
  simp only [serve, startClient, TcpServer.getClient_last, addClient,
    TcpServer.addClient_mClientVec, List.getLast?_concat, insertClient,
    accept, PCServerDlg.notifyUi, PCServerDlg.insertClient_mServer]

theorem serve_session (world : World) (clientAddr : SockaddrIn)
    (connSock : Socket) :
    (world.serve clientAddr connSock).session =
        world.session ++ [TcpServer.acceptedItem clientAddr connSock] ∧
      (world.serve clientAddr connSock).nextConn = world.nextConn + 1 := by
  simp only [serve, startClient, TcpServer.getClient_last, addClient,
    TcpServer.addClient_mClientVec, List.getLast?_concat, insertClient,
    accept, and_self]

theorem dismiss_clientLoops (world : World) (j : Nat) (loop : ClientLoop) :
    (world.dismiss j loop).clientLoops = world.clientLoops.eraseIdx j := by
  simp only [dismiss, deleteClient, hangUp, List.eraseIdx_set_eq]

theorem dismiss_mClientVec (world : World) (j : Nat) (loop : ClientLoop) :
    (world.dismiss j loop).dlg.mServer.mClientVec =
      removeFirst CClientItem.cPort loop.client.cPort
        world.dlg.mServer.mClientVec := by
  simp only [dismiss, deleteClient, hangUp, PCServerDlg.notifyUi,
    TcpServer.deleteClient_mClientVec, PCServerDlg.removeClient_mServer]

theorem Listed.serve {world : World} (listed : world.Listed)
    {clientAddr : SockaddrIn} {connSock : Socket}
    (fresh : connSock ∉ world.liveSockets) :
    (world.serve clientAddr connSock).Listed := by
  obtain ⟨session, nextConn⟩ := world.serve_session clientAddr connSock
  constructor
  · rw [serve_mClientVec, serve_clientLoops, listed.names, List.map_append]
    rfl
  · intro loop member
    rw [serve_clientLoops] at member
    rw [session]
    rcases List.mem_append.mp member with old | new
    · have accepted := listed.accepted loop old
      obtain ⟨inside, _⟩ := List.getElem?_eq_some_iff.mp accepted
      rw [List.getElem?_append_left inside]
      exact accepted
    · obtain rfl := List.mem_singleton.mp new
      rw [← listed.counted]
      exact List.getElem?_concat_length
  · rw [session, nextConn, List.length_append, listed.counted]
    rfl
  · rw [liveSockets, serve_clientLoops, List.map_append, List.nodup_append']
    refine ⟨listed.distinct, List.nodup_singleton _, ?_⟩
    intro socket old new
    obtain rfl : socket = connSock := by
      simpa [TcpServer.acceptedItem] using new
    exact fresh old

theorem Listed.split {world : World} (listed : world.Listed) {j : Nat}
    {loop : ClientLoop} (found : world.clientLoops[j]? = some loop) :
    ∃ before after : List ClientLoop,
      world.clientLoops = before ++ loop :: after ∧
      world.clientLoops.take j = before ∧
      world.clientLoops.eraseIdx j = before ++ after ∧
      world.dlg.mServer.mClientVec =
        before.map ClientLoop.client ++
          loop.client :: after.map ClientLoop.client := by
  obtain ⟨before, after, loops_eq, length, _, erase_eq⟩ :=
    split_at_index found
  refine ⟨before, after, loops_eq, ?_, erase_eq, ?_⟩
  · rw [loops_eq, ← length, List.take_left]
  · rw [listed.names, loops_eq, List.map_append, List.map_cons]

theorem Listed.deleteClient_own {world : World} (listed : world.Listed)
    {j : Nat} {loop : ClientLoop}
    (found : world.clientLoops[j]? = some loop)
    (ownFirst : ∀ earlier ∈ world.clientLoops.take j,
      earlier.client.cPort ≠ loop.client.cPort) :
    removeFirst CClientItem.cPort loop.client.cPort
        world.dlg.mServer.mClientVec =
      (world.clientLoops.eraseIdx j).map ClientLoop.client := by
  obtain ⟨before, after, _, take_eq, erase_eq, entries_eq⟩ :=
    listed.split found
  rw [take_eq] at ownFirst
  rw [entries_eq, erase_eq, List.map_append]
  apply removeFirst_own
  intro earlier member
  obtain ⟨other, otherMember, rfl⟩ := List.mem_map.mp member
  exact ownFirst other otherMember

theorem Listed.dismiss {world : World} (listed : world.Listed) {j : Nat}
    {loop : ClientLoop} (found : world.clientLoops[j]? = some loop)
    (ownFirst : ∀ earlier ∈ world.clientLoops.take j,
      earlier.client.cPort ≠ loop.client.cPort) :
    (world.dismiss j loop).Listed where
  names := by
    rw [dismiss_mClientVec, dismiss_clientLoops]
    exact listed.deleteClient_own found ownFirst
  accepted := by
    intro other member
    rw [dismiss_clientLoops] at member
    exact listed.accepted other (List.mem_of_mem_eraseIdx member)
  counted := listed.counted
  distinct := by
    rw [liveSockets, dismiss_clientLoops]
    exact listed.distinct.sublist ((List.eraseIdx_sublist _ _).map _)

/-- When an older connection has the same port, the own entry stays. -/
theorem Listed.not_registered_dismiss {world : World}
    (listed : world.Listed) {j : Nat} {loop earlier : ClientLoop}
    (found : world.clientLoops[j]? = some loop)
    (isEarlier : earlier ∈ world.clientLoops.take j)
    (samePort : earlier.client.cPort = loop.client.cPort) :
    ¬(world.dismiss j loop).Registered := by
  obtain ⟨before, after, loops_eq, take_eq, erase_eq, entries_eq⟩ :=
    listed.split found
  intro registered
  rw [take_eq] at isEarlier
  have foundEarlier : 0 < countKey CClientItem.cPort loop.client.cPort
      (before.map ClientLoop.client) :=
    (countKey_pos _ _).mpr
      ⟨earlier.client, List.mem_map_of_mem isEarlier, samePort⟩
  have ownStays : loop.client ∈
      (world.dismiss j loop).dlg.mServer.mClientVec := by
    rw [dismiss_mClientVec, entries_eq,
      removeFirst_append_of_pos foundEarlier]
    simp
  have isLive := registered.subset ownStays
  rw [liveItems, dismiss_clientLoops, erase_eq] at isLive
  obtain ⟨other, otherMember, otherItem⟩ := List.mem_filterMap.mp isLive
  have otherLive : other ∈ world.clientLoops := by
    rw [loops_eq]
    simp only [List.mem_append, List.mem_cons] at otherMember ⊢
    tauto
  have sameClient : other.client = loop.client :=
    Option.some.inj ((listed.accepted other otherLive).symm.trans otherItem)
  have distinct := listed.distinct
  rw [liveSockets, loops_eq, List.map_append, List.map_cons,
    List.nodup_middle, List.nodup_cons, ← List.map_append] at distinct
  apply distinct.1
  rw [← sameClient]
  exact List.mem_map_of_mem otherMember

end World

def sequential : System World Handler :=
  { step := World.handle }

namespace World

theorem Listed.handle {world next : World} {handler : Handler}
    (listed : world.Listed) (ownFirst : world.OwnPortFirst handler)
    (taken : world.handle handler = some next) : next.Listed := by
  cases handler with
  | accept clientAddr connSock =>
      simp only [World.handle, Option.ite_none_right_eq_some,
        Option.some.injEq] at taken
      obtain ⟨fresh, rfl⟩ := taken
      exact listed.serve fresh
  | disconnect j =>
      obtain ⟨loop, found, rfl⟩ := Option.map_eq_some_iff.mp taken
      exact listed.dismiss found (ownFirst loop found)

theorem Listed.handle_broken {world next : World} {handler : Handler}
    (listed : world.Listed) (missed : ¬world.OwnPortFirst handler)
    (taken : world.handle handler = some next) : ¬next.Registered := by
  cases handler with
  | accept clientAddr connSock => exact (missed trivial).elim
  | disconnect j =>
      obtain ⟨loop, found, rfl⟩ := Option.map_eq_some_iff.mp taken
      simp only [OwnPortFirst, Option.mem_def, found, Option.some.injEq,
        forall_eq', not_forall, not_not] at missed
      obtain ⟨earlier, isEarlier, samePort⟩ := missed
      exact listed.not_registered_dismiss found isEarlier samePort

theorem Listed.removesOwn {world : World} {handler : Handler}
    (listed : world.Listed) (ownFirst : world.OwnPortFirst handler) :
    world.RemovesOwn handler := by
  cases handler with
  | accept clientAddr connSock => trivial
  | disconnect j =>
      intro loop found
      refine ⟨loop.client,
        listed.accepted loop (List.mem_of_getElem? found), ?_⟩
      obtain ⟨before, after, _, _, erase_eq, entries_eq⟩ :=
        listed.split found
      rw [TcpServer.deleteClient_mClientVec,
        listed.deleteClient_own found (ownFirst loop found), erase_eq,
        entries_eq, List.map_append]
      exact List.perm_middle

/-- In a run of whole accepts and disconnects on an open server, the registry
has exactly one entry for each live connection in every state, and every
disconnect removes its own entry, exactly if nobody leaves while a live
connection accepted earlier has the same port. -/
theorem registry_names_clients_iff {listenSock : Socket}
    {handlers : List Handler} {world : World}
    (run : sequential.Run (initial.openServer (.listens listenSock))
      handlers world) :
    (sequential.Always Registered
        (initial.openServer (.listens listenSock)) handlers ∧
      sequential.StepsMeet RemovesOwn
        (initial.openServer (.listens listenSock)) handlers) ↔
      sequential.StepsMeet OwnPortFirst
        (initial.openServer (.listens listenSock)) handlers := by
  have exactly : sequential.Always Registered
        (initial.openServer (.listens listenSock)) handlers ↔
      sequential.StepsMeet OwnPortFirst
        (initial.openServer (.listens listenSock)) handlers := by
    apply System.always_iff_stepsMeet _ _ _ (listed_opened listenSock) run
    · intro world listed
      exact listed.registered
    · intro world handler next listed
      exact listed.handle
    · intro world handler next listed
      exact listed.handle_broken
  constructor
  · intro both
    exact exactly.mp both.1
  · intro ownFirst
    have always : sequential.Always Listed
        (initial.openServer (.listens listenSock)) handlers := by
      apply System.always_of_guarded _ (listed_opened listenSock) ownFirst
      intro world handler next listed
      exact listed.handle
    refine ⟨exactly.mpr ownFirst, ownFirst.mono_of_always ?_ always⟩
    intro world handler listed
    exact listed.removesOwn

private def firstPeer : SockaddrIn :=
  { sinPort := 0x8813, sinAddr := { b1 := 10, b2 := 0, b3 := 0, b4 := 1 } }

private def secondPeer : SockaddrIn :=
  { sinPort := 0x8813, sinAddr := { b1 := 10, b2 := 0, b3 := 0, b4 := 2 } }

/-- Two peers with one port number join, and the older one leaves. -/
def olderLeaves : List Handler :=
  [.accept firstPeer 8, .accept secondPeer 12, .disconnect 0]

theorem olderLeaves_enabled :
    (sequential.exec (initial.openServer (.listens 4)) olderLeaves).isSome :=
  by decide

theorem registered_through_olderLeaves :
    sequential.Always Registered (initial.openServer (.listens 4))
      olderLeaves :=
  ((registry_names_clients_iff (System.run_get olderLeaves_enabled)).mpr
    (by decide)).1

/-- Two peers with one port number join, and the younger one leaves. -/
def youngerLeaves : List Handler :=
  [.accept firstPeer 8, .accept secondPeer 12, .disconnect 1]

theorem youngerLeaves_enabled :
    (sequential.exec (initial.openServer (.listens 4))
      youngerLeaves).isSome := by decide

theorem disconnect_removes_other_entry :
    ¬∀ listenSock handlers, sequential.Always Registered
      (initial.openServer (.listens listenSock)) handlers := by
  intro registered
  have last := registered 4 youngerLeaves _ _ (List.prefix_refl _)
    (System.run_get youngerLeaves_enabled)
  have entryIsLive := last.subset (List.mem_singleton.mpr rfl)
  exact absurd entryIsLive (by decide)

end World

end OpenChat.Server
