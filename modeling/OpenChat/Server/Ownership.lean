import OpenChat.Server.Registry

/-!
# The sockets the server holds

`Start`, `Stop`, accepts and disconnects, one after another.  What is open is
compared with what the members name: the listening socket while `mRun` is set,
and the socket of every entry.  `Stop` closes all of it, and an accept enters
what it opens; a `Start` over a running server or one that fails after
`socket()`, and a disconnect that erases an entry, lose a socket.
-/

namespace OpenChat.Server

open Platform Foundation Foundation.KeyedList

inductive Operation where
  | start (outcome : InitOutcome)
  | stop
  | accept (clientAddr : SockaddrIn) (connSock : Socket)
  | disconnect (j : Nat)
deriving DecidableEq

namespace World

/-- Handlers one after another.  A client is accepted on a listening socket,
and a loop ends when `recv` on its open socket says so. -/
def operate (world : World) : Operation → Option World
  | .start outcome =>
      if ∀ socket ∈ outcome.leavesOpen, world.Fresh socket.1 then
        some (world.openServer outcome)
      else none
  | .stop => some world.closeServer
  | .accept clientAddr connSock =>
      if world.IsListening ∧ world.Fresh connSock then
        some (world.serve clientAddr connSock)
      else none
  | .disconnect j =>
      match world.clientLoops[j]? with
      | some loop =>
          if world.IsOpen loop.client.cSocket then
            some (world.dismiss j loop)
          else none
      | none => none

def operations : System World Operation :=
  { step := operate }

def openHandles (world : World) : List Socket :=
  world.openSockets.map Prod.fst

def trackedHandles (world : World) : List Socket :=
  (if world.dlg.mServer.mRun then [world.dlg.mServer.mLisSock] else []) ++
    world.dlg.mServer.mClientVec.map CClientItem.cSocket

/-- The process holds exactly the sockets the members name. -/
def OwnsTracked (world : World) : Prop :=
  ∀ handle, handle ∈ world.openHandles ↔ handle ∈ world.trackedHandles

/-- A `Start` on a stopped server which gets no socket or gets through, and a
disconnect which finds no entry to erase. -/
def LosesNone (world : World) : Operation → Prop
  | .start outcome =>
      world.dlg.mServer.mRun = false ∧
        ∀ socket ∈ outcome.leavesOpen, socket.2 = .listening
  | .disconnect j =>
      ∀ loop ∈ world.clientLoops[j]?, ∀ entry ∈ world.dlg.mServer.mClientVec,
        entry.cPort ≠ loop.client.cPort
  | _ => True

instance (world : World) : DecidablePred world.LosesNone
  | .start _ => inferInstanceAs (Decidable (_ ∧ _))
  | .stop => inferInstanceAs (Decidable True)
  | .accept _ _ => inferInstanceAs (Decidable True)
  | .disconnect j =>
      inferInstanceAs (Decidable (∀ loop ∈ world.clientLoops[j]?, _))

/-- What is open is named, each socket once. -/
structure Owned (world : World) : Prop where
  named : world.openHandles.Perm world.trackedHandles
  distinct : world.openHandles.Nodup
  valid : invalidSocket ∉ world.openHandles

theorem Owned.ownsTracked {world : World} (owned : world.Owned) :
    world.OwnsTracked :=
  fun _ => owned.named.mem_iff

theorem owned_initial : initial.Owned where
  named := .nil
  distinct := List.nodup_nil
  valid := List.not_mem_nil

section Effects

variable (world : World)

theorem openServer_openHandles (outcome : InitOutcome) :
    (world.openServer outcome).openHandles =
      world.openHandles ++ outcome.leavesOpen.map Prod.fst := by
  simp only [openHandles, openServer, List.map_append]

theorem serve_openHandles (clientAddr : SockaddrIn) (connSock : Socket) :
    (world.serve clientAddr connSock).openHandles =
      world.openHandles ++ [connSock] := by
  simp only [openHandles, serve, startClient, TcpServer.getClient_last,
    addClient, TcpServer.addClient_mClientVec, List.getLast?_concat,
    insertClient, accept, List.map_append, List.map_cons, List.map_nil]

theorem serve_trackedHandles (clientAddr : SockaddrIn) (connSock : Socket) :
    (world.serve clientAddr connSock).trackedHandles =
      world.trackedHandles ++ [connSock] := by
  have running : (world.serve clientAddr connSock).dlg.mServer.mRun =
      world.dlg.mServer.mRun := by
    simp only [serve, startClient, TcpServer.getClient_last, addClient,
      TcpServer.addClient_mClientVec, List.getLast?_concat]
    rfl
  have listening : (world.serve clientAddr connSock).dlg.mServer.mLisSock =
      world.dlg.mServer.mLisSock := by
    simp only [serve, startClient, TcpServer.getClient_last, addClient,
      TcpServer.addClient_mClientVec, List.getLast?_concat]
    rfl
  rw [trackedHandles, running, listening, serve_mClientVec, List.map_append,
    ← List.append_assoc]
  rfl

theorem dismiss_openHandles (j : Nat) (loop : ClientLoop) :
    (world.dismiss j loop).openHandles = world.openHandles := rfl

theorem dismiss_trackedHandles (j : Nat) (loop : ClientLoop) :
    (world.dismiss j loop).trackedHandles =
      (if world.dlg.mServer.mRun then [world.dlg.mServer.mLisSock] else []) ++
        (removeFirst CClientItem.cPort loop.client.cPort
          world.dlg.mServer.mClientVec).map CClientItem.cSocket := by
  have server : (world.hangUp j loop).dlg.mServer = world.dlg.mServer :=
    PCServerDlg.removeClient_mServer world.dlg loop.client
  have running : (world.dismiss j loop).dlg.mServer.mRun =
      world.dlg.mServer.mRun := by
    simp only [dismiss, deleteClient, PCServerDlg.notifyUi,
      TcpServer.deleteClient, server]
  have listening : (world.dismiss j loop).dlg.mServer.mLisSock =
      world.dlg.mServer.mLisSock := by
    simp only [dismiss, deleteClient, PCServerDlg.notifyUi,
      TcpServer.deleteClient, server]
  rw [trackedHandles, running, listening, dismiss_mClientVec]

/-- `Stop` closes at least what the members name, and names nothing
afterwards. -/
theorem closeServer_handles {world : World}
    (named : ∀ handle ∈ world.openHandles, handle ∈ world.trackedHandles) :
    world.closeServer.openHandles = [] ∧
      world.closeServer.trackedHandles = [] := by
  refine ⟨?_, rfl⟩
  rw [openHandles, List.map_eq_nil_iff, closeServer, closeSockets,
    List.filter_eq_nil_iff]
  intro socket member
  have tracked := named socket.1 (List.mem_map_of_mem member)
  rw [trackedHandles, List.mem_append] at tracked
  have closes : socket.1 ∈ world.dlg.mServer.unInitCloses := by
    rw [TcpServer.unInitCloses, List.mem_append]
    rcases tracked with listening | entry
    · split at listening
      · exact .inr listening
      · cases listening
    · exact .inl entry
  simp [closes]

end Effects

def trackedAfterStart (world : World) : InitOutcome → List Socket
  | .socketFails =>
      (if world.dlg.mServer.mRun then [invalidSocket] else []) ++
        world.dlg.mServer.mClientVec.map CClientItem.cSocket
  | .bindFails handle =>
      (if world.dlg.mServer.mRun then [handle] else []) ++
        world.dlg.mServer.mClientVec.map CClientItem.cSocket
  | .listenFails handle =>
      (if world.dlg.mServer.mRun then [handle] else []) ++
        world.dlg.mServer.mClientVec.map CClientItem.cSocket
  | .listens handle =>
      handle :: world.dlg.mServer.mClientVec.map CClientItem.cSocket

theorem openServer_trackedHandles (world : World) (outcome : InitOutcome) :
    (world.openServer outcome).trackedHandles =
      world.trackedAfterStart outcome := by
  cases outcome <;> rfl

theorem Owned.start {world : World} (owned : world.Owned)
    {outcome : InitOutcome}
    (fresh : ∀ socket ∈ outcome.leavesOpen, world.Fresh socket.1)
    (losesNone : world.LosesNone (.start outcome)) :
    (world.openServer outcome).Owned := by
  obtain ⟨stopped, getsThrough⟩ := losesNone
  have named := owned.named
  rw [trackedHandles, stopped] at named
  cases outcome with
  | socketFails =>
      constructor
      · rw [openServer_openHandles, openServer_trackedHandles,
          trackedAfterStart, stopped]
        simpa [InitOutcome.leavesOpen] using named
      · rw [openServer_openHandles]
        simpa [InitOutcome.leavesOpen] using owned.distinct
      · rw [openServer_openHandles]
        simpa [InitOutcome.leavesOpen] using owned.valid
  | listens handle =>
      obtain ⟨notInvalid, notOpen⟩ := fresh (handle, .listening) (.head _)
      constructor
      · rw [openServer_openHandles, openServer_trackedHandles]
        exact (List.perm_append_singleton _ _).trans (named.cons handle)
      · rw [openServer_openHandles]
        exact owned.distinct.append (List.nodup_singleton _)
          (List.disjoint_singleton.mpr notOpen)
      · rw [openServer_openHandles, List.mem_append]
        rintro (old | new)
        · exact owned.valid old
        · exact notInvalid (List.mem_singleton.mp new).symm
  | bindFails handle =>
      cases getsThrough (handle, .idle) (.head _)
  | listenFails handle =>
      cases getsThrough (handle, .idle) (.head _)

theorem Owned.stop {world : World} (owned : world.Owned) :
    world.closeServer.Owned := by
  obtain ⟨noneOpen, noneTracked⟩ := closeServer_handles
    fun handle isOpen => owned.named.subset isOpen
  constructor
  · rw [noneOpen, noneTracked]
  · rw [noneOpen]
    exact List.nodup_nil
  · rw [noneOpen]
    exact List.not_mem_nil

theorem Owned.accept {world : World} (owned : world.Owned)
    (clientAddr : SockaddrIn) {connSock : Socket}
    (fresh : world.Fresh connSock) :
    (world.serve clientAddr connSock).Owned where
  named := by
    rw [serve_openHandles, serve_trackedHandles]
    exact owned.named.append_right [connSock]
  distinct := by
    rw [serve_openHandles]
    exact owned.distinct.append (List.nodup_singleton _)
      (List.disjoint_singleton.mpr fresh.2)
  valid := by
    rw [serve_openHandles, List.mem_append]
    rintro (old | new)
    · exact owned.valid old
    · exact fresh.1 (List.mem_singleton.mp new).symm

theorem Owned.disconnect {world : World} (owned : world.Owned) {j : Nat}
    {loop : ClientLoop} (noEntry : ∀ entry ∈ world.dlg.mServer.mClientVec,
      entry.cPort ≠ loop.client.cPort) :
    (world.dismiss j loop).Owned where
  named := by
    rw [dismiss_openHandles, dismiss_trackedHandles, removeFirst,
      List.eraseP_of_forall_not (by simpa using noEntry)]
    exact owned.named
  distinct := owned.distinct
  valid := owned.valid

theorem Owned.tracked_nodup {world : World} (owned : world.Owned) :
    world.trackedHandles.Nodup :=
  owned.named.nodup_iff.mp owned.distinct

theorem Owned.not_ownsTracked_dismiss {world : World}
    (owned : world.Owned) {j : Nat} {loop : ClientLoop} {entry : CClientItem}
    (member : entry ∈ world.dlg.mServer.mClientVec)
    (samePort : entry.cPort = loop.client.cPort) :
    ¬(world.dismiss j loop).OwnsTracked := by
  intro owns
  obtain ⟨erased, before, after, _, _, entries_eq, erase_eq⟩ :=
    List.exists_of_eraseP (p := fun item : CClientItem =>
      item.cPort = loop.client.cPort) member (by simpa using samePort)
  have isOpen : erased.cSocket ∈ world.openHandles := by
    apply owned.named.symm.subset
    rw [trackedHandles, entries_eq]
    simp
  have stillNamed := (owns erased.cSocket).mp isOpen
  rw [dismiss_trackedHandles, removeFirst, erase_eq, List.map_append,
    ← List.append_assoc] at stillNamed
  have distinct := owned.tracked_nodup
  rw [trackedHandles, entries_eq, List.map_append, List.map_cons,
    ← List.append_assoc, List.nodup_middle, List.nodup_cons] at distinct
  exact distinct.1 stillNamed

/-- While `mRun` is set, `Start` forgets the socket in use: `mLisSock` names
another one, or none. -/
theorem Owned.not_ownsTracked_of_running {world : World}
    (owned : world.Owned) {outcome : InitOutcome}
    (fresh : ∀ socket ∈ outcome.leavesOpen, world.Fresh socket.1)
    (running : world.dlg.mServer.mRun = true) :
    ¬(world.openServer outcome).OwnsTracked := by
  intro owns
  have isOpen : world.dlg.mServer.mLisSock ∈ world.openHandles := by
    apply owned.named.symm.subset
    simp [trackedHandles, running]
  have notEntry : world.dlg.mServer.mLisSock ∉
      world.dlg.mServer.mClientVec.map CClientItem.cSocket := by
    have distinct := owned.tracked_nodup
    rw [trackedHandles, if_pos running, List.singleton_append,
      List.nodup_cons] at distinct
    exact distinct.1
  obtain ⟨other, notOpen, named⟩ : ∃ other, other ∉ world.openHandles ∧
      world.trackedAfterStart outcome =
        other :: world.dlg.mServer.mClientVec.map CClientItem.cSocket := by
    cases outcome with
    | socketFails =>
        exact ⟨invalidSocket, owned.valid, by
          rw [trackedAfterStart, if_pos running, List.singleton_append]⟩
    | bindFails handle =>
        exact ⟨handle, (fresh (handle, .idle) (.head _)).2, by
          rw [trackedAfterStart, if_pos running, List.singleton_append]⟩
    | listenFails handle =>
        exact ⟨handle, (fresh (handle, .idle) (.head _)).2, by
          rw [trackedAfterStart, if_pos running, List.singleton_append]⟩
    | listens handle =>
        exact ⟨handle, (fresh (handle, .listening) (.head _)).2, rfl⟩
  have stillNamed := (owns world.dlg.mServer.mLisSock).mp (by
    rw [openServer_openHandles]
    exact List.mem_append_left _ isOpen)
  rw [openServer_trackedHandles, named] at stillNamed
  rcases List.mem_cons.mp stillNamed with same | isEntry
  · exact notOpen (same ▸ isOpen)
  · exact notEntry isEntry

/-- A `Start` which fails after `socket()` leaves a socket nobody names. -/
theorem Owned.not_ownsTracked_of_idle {world : World} (owned : world.Owned)
    {outcome : InitOutcome} {handle : Socket} (fresh : world.Fresh handle)
    (stopped : world.dlg.mServer.mRun = false)
    (leaves : outcome.leavesOpen = [(handle, .idle)]) :
    ¬(world.openServer outcome).OwnsTracked := by
  intro owns
  have named := (owns handle).mp (by
    rw [openServer_openHandles, leaves]
    exact List.mem_append_right _ (.head _))
  have onlyEntries : world.trackedAfterStart outcome =
      world.trackedHandles := by
    cases outcome with
    | listens other => cases leaves
    | socketFails => cases leaves
    | _ => simp [trackedAfterStart, trackedHandles, stopped]
  rw [openServer_trackedHandles, onlyEntries] at named
  exact fresh.2 (owned.named.symm.subset named)

theorem Owned.not_ownsTracked_openServer {world : World}
    (owned : world.Owned) {outcome : InitOutcome}
    (fresh : ∀ socket ∈ outcome.leavesOpen, world.Fresh socket.1)
    (loses : ¬world.LosesNone (.start outcome)) :
    ¬(world.openServer outcome).OwnsTracked := by
  cases running : world.dlg.mServer.mRun with
  | true => exact owned.not_ownsTracked_of_running fresh running
  | false =>
      cases outcome with
      | socketFails =>
          exact (loses ⟨running, by simp [InitOutcome.leavesOpen]⟩).elim
      | listens handle =>
          exact (loses ⟨running, by simp [InitOutcome.leavesOpen]⟩).elim
      | bindFails handle =>
          exact owned.not_ownsTracked_of_idle
            (fresh (handle, .idle) (.head _)) running rfl
      | listenFails handle =>
          exact owned.not_ownsTracked_of_idle
            (fresh (handle, .idle) (.head _)) running rfl

inductive Operates : World → Operation → World → Prop where
  | start {world : World} {outcome : InitOutcome} :
      (∀ socket ∈ outcome.leavesOpen, world.Fresh socket.1) →
      Operates world (.start outcome) (world.openServer outcome)
  | stop {world : World} : Operates world .stop world.closeServer
  | accept {world : World} {clientAddr : SockaddrIn} {connSock : Socket} :
      world.Fresh connSock →
      Operates world (.accept clientAddr connSock)
        (world.serve clientAddr connSock)
  | disconnect {world : World} {j : Nat} {loop : ClientLoop} :
      world.clientLoops[j]? = some loop →
      Operates world (.disconnect j) (world.dismiss j loop)

theorem operates_of_operate {world next : World} {operation : Operation}
    (taken : world.operate operation = some next) :
    Operates world operation next := by
  cases operation with
  | start outcome =>
      simp only [operate, Option.ite_none_right_eq_some,
        Option.some.injEq] at taken
      obtain ⟨fresh, rfl⟩ := taken
      exact .start fresh
  | stop =>
      obtain rfl := Option.some.inj taken
      exact .stop
  | accept clientAddr connSock =>
      simp only [operate, Option.ite_none_right_eq_some,
        Option.some.injEq] at taken
      obtain ⟨⟨_, fresh⟩, rfl⟩ := taken
      exact .accept fresh
  | disconnect j =>
      simp only [operate] at taken
      split at taken <;> rename_i found
      · simp only [Option.ite_none_right_eq_some,
          Option.some.injEq] at taken
        obtain ⟨_, rfl⟩ := taken
        exact .disconnect found
      · simp at taken

theorem Owned.operate {world next : World} {operation : Operation}
    (owned : world.Owned) (losesNone : world.LosesNone operation)
    (taken : world.operate operation = some next) : next.Owned := by
  cases operates_of_operate taken with
  | start fresh => exact owned.start fresh losesNone
  | stop => exact owned.stop
  | accept fresh => exact owned.accept _ fresh
  | disconnect found => exact owned.disconnect (losesNone _ found)

theorem Owned.not_ownsTracked {world next : World} {operation : Operation}
    (owned : world.Owned) (loses : ¬world.LosesNone operation)
    (taken : world.operate operation = some next) : ¬next.OwnsTracked := by
  cases operates_of_operate taken with
  | start fresh => exact owned.not_ownsTracked_openServer fresh loses
  | stop => exact (loses trivial).elim
  | accept fresh => exact (loses trivial).elim
  | disconnect found =>
      simp only [LosesNone, found, Option.mem_some_iff, forall_eq',
        not_forall, not_not] at loses
      obtain ⟨entry, member, samePort⟩ := loses
      exact owned.not_ownsTracked_dismiss member samePort

/-- In every run of handlers the open sockets are always the named ones exactly
if every `Start` finds the server stopped and either gets no socket or gets
through, and every disconnect finds no entry with the port of its loop. -/
theorem owns_tracked_iff {history : List Operation} {finish : World}
    (run : operations.Run initial history finish) :
    operations.Always OwnsTracked initial history ↔
      operations.StepsMeet LosesNone initial history := by
  apply System.always_iff_stepsMeet _ _ _ owned_initial run
  · intro world owned
    exact owned.ownsTracked
  · intro world operation next owned losesNone taken
    exact owned.operate losesNone taken
  · intro world operation next owned loses taken
    exact owned.not_ownsTracked loses taken

def oneVisit : List Operation :=
  let clientAddr : SockaddrIn :=
    { sinPort := 0x8813, sinAddr := { b1 := 10, b2 := 0, b3 := 0, b4 := 1 } }
  [.start (.listens 4), .accept clientAddr 8, .disconnect 0]

theorem socket_stays_open :
    ¬∀ history finish, operations.Run initial history finish →
      operations.Always OwnsTracked initial history := by
  intro owns
  have run : operations.Run initial oneVisit _ :=
    System.run_get (by decide +kernel)
  have named := owns _ _ run oneVisit _ List.prefix_rfl run 8
  exact absurd named (by decide +kernel)

/-- A `Start` that gets no socket, one that gets through, a client, and a
`Stop`. -/
def oneSession : List Operation :=
  let clientAddr : SockaddrIn :=
    { sinPort := 0x8813, sinAddr := { b1 := 10, b2 := 0, b3 := 0, b4 := 1 } }
  [.start .socketFails, .start (.listens 4), .accept clientAddr 8, .stop]

theorem owns_tracked_in_oneSession :
    operations.Always OwnsTracked initial oneSession :=
  (owns_tracked_iff (System.run_get (by decide +kernel))).mpr
    (by decide +kernel)

end World

end OpenChat.Server
