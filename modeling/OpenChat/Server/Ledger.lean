import OpenChat.Foundation.Positions
import OpenChat.Server.Sessions

/-!
# Counting rows and entries by port

Both stores of the server are searched by port alone.  What keeps the
searches honest is a balance for every port: as many rows as loops that still
have to remove one, as many entries as loops that still have to delete one.
The balance survives every step except a close that cuts handlers short and
an `AddClient` that comes between another loop's `AddClient` and its start of
`ClientFunc`.
-/

namespace OpenChat.Server

open Platform Foundation Foundation.KeyedList Foundation.Positions

def AcceptPhase.hasRow (port : Nat) : AcceptPhase → Bool
  | .inserted _ clientAddr connSock | .added _ clientAddr connSock =>
      (TcpServer.acceptedItem clientAddr connSock).cPort = port
  | _ => false

/-- An accepted connection with this port is in the registry and its
`ClientFunc` is not started. -/
def AcceptPhase.hasEntry (port : Nat) : AcceptPhase → Bool
  | .added _ clientAddr connSock =>
      (TcpServer.acceptedItem clientAddr connSock).cPort = port
  | _ => false

def AcceptPhase.midway : AcceptPhase → Bool
  | .testing | .polling => false
  | _ => true

def AcceptPhase.isAdded : AcceptPhase → Bool
  | .added _ _ _ => true
  | _ => false

def ClientLoop.hasRow (port : Nat) (loop : ClientLoop) : Bool :=
  !loop.leaving && loop.client.cPort = port

def ClientLoop.hasEntry (port : Nat) (loop : ClientLoop) : Bool :=
  loop.client.cPort = port

namespace World

def rowDemand (world : World) (port : Nat) : Nat :=
  world.clientLoops.countP (ClientLoop.hasRow port) +
    world.acceptLoops.countP (AcceptPhase.hasRow port)

def entryDemand (world : World) (port : Nat) : Nat :=
  world.clientLoops.countP (ClientLoop.hasEntry port) +
    world.acceptLoops.countP (AcceptPhase.hasEntry port)

/-- Rows and entries are in balance with the loops, and an item added by a
loop stays the last entry until its `ClientFunc` is started. -/
structure Balanced (world : World) : Prop where
  rows : ∀ port : Nat,
    countKey rowPort (port : Int) world.dlg.mClientList =
      world.rowDemand port
  entries : ∀ port : Nat,
    countKey CClientItem.cPort port world.dlg.mServer.mClientVec =
      world.entryDemand port
  lastAdded : ∀ conn clientAddr connSock,
    AcceptPhase.added conn clientAddr connSock ∈ world.acceptLoops →
      world.dlg.mServer.mClientVec.getLast? =
        some (TcpServer.acceptedItem clientAddr connSock)
  addedAlone : world.acceptLoops.countP AcceptPhase.isAdded ≤ 1

/-- The steps which keep the balance: a close when no client loop runs and no
accept handler is midway, and an `AddClient` while no other loop is between
its `AddClient` and its start of `ClientFunc`. -/
def Undisturbed (world : World) : Event → Prop
  | .closeServer =>
      world.clientLoops = [] ∧
        ∀ phase ∈ world.acceptLoops, phase.midway = false
  | .addClient _ =>
      ∀ phase ∈ world.acceptLoops, phase.isAdded = false
  | _ => True

instance (world : World) : DecidablePred world.Undisturbed
  | .closeServer => inferInstanceAs (Decidable (_ ∧ _))
  | .addClient _ =>
      inferInstanceAs (Decidable (∀ phase ∈ world.acceptLoops, _))
  | .openServer _ | .testRun _ | .pollNothing _ | .accept _ _ _
  | .insertClient _ | .startClient _ | .receive _ _ | .hangUp _
  | .deleteClient _ => inferInstanceAs (Decidable True)

theorem balanced_initial : Balanced initial where
  rows := by
    intro port
    rfl
  entries := by
    intro port
    rfl
  lastAdded := by
    intro conn clientAddr connSock member
    simp [initial] at member
  addedAlone := by simp [initial]

private theorem hasEntry_false_of_not_midway {phase : AcceptPhase}
    (idle : phase.midway = false) (port : Nat) :
    phase.hasEntry port = false := by
  cases phase with
  | testing | polling => rfl
  | accepted | inserted | added => cases idle

/-- The entry a loop added stays last when another loop's entry with a port
of its own is deleted. -/
private theorem getLast?_deleteLoop {entries : List CClientItem}
    {item : CClientItem} {port : Nat}
    (last : entries.getLast? = some item)
    (enough : item.cPort = port →
      2 ≤ countKey CClientItem.cPort port entries) :
    (removeFirst CClientItem.cPort port entries).getLast? = some item := by
  obtain ⟨front, rfl⟩ := List.getLast?_eq_some_iff.mp last
  by_cases same : item.cPort = port
  · have remaining : 0 < countKey CClientItem.cPort port front := by
      have := enough same
      simp [countKey_append, countKey_cons, same] at this
      omega
    rw [removeFirst_append_of_pos remaining]
    simp
  · rw [removeFirst_append_of_other same]
    simp

/-- A step which changes neither store, and one loop's phase only between
phases that owe the same, keeps the balance. -/
private theorem Balanced.of_set {world next : World} {i : Nat}
    {old new : AcceptPhase} (balanced : world.Balanced)
    (found : world.acceptLoops[i]? = some old)
    (rowsEq : next.dlg.mClientList = world.dlg.mClientList)
    (entriesEq :
      next.dlg.mServer.mClientVec = world.dlg.mServer.mClientVec)
    (clientLoopsEq : next.clientLoops = world.clientLoops)
    (acceptLoopsEq : next.acceptLoops = world.acceptLoops.set i new)
    (sameRow : ∀ port, new.hasRow port = old.hasRow port)
    (sameEntry : ∀ port, new.hasEntry port = old.hasEntry port)
    (notAdded : new.isAdded = false) (wasNotAdded : old.isAdded = false) :
    next.Balanced where
  rows := by
    intro port
    rw [rowsEq, balanced.rows, rowDemand, rowDemand, clientLoopsEq,
      acceptLoopsEq, countP_set_of_eq found (sameRow port)]
  entries := by
    intro port
    rw [entriesEq, balanced.entries, entryDemand, entryDemand,
      clientLoopsEq, acceptLoopsEq, countP_set_of_eq found (sameEntry port)]
  lastAdded := by
    intro conn clientAddr connSock member
    rw [acceptLoopsEq] at member
    rw [entriesEq]
    rcases List.mem_or_eq_of_mem_set member with old | rfl
    · exact balanced.lastAdded conn clientAddr connSock old
    · simp [AcceptPhase.isAdded] at notAdded
  addedAlone := by
    rw [acceptLoopsEq,
      countP_set_of_eq found (notAdded.trans wasNotAdded.symm)]
    exact balanced.addedAlone

private theorem countP_openServer {passes : AcceptPhase → Bool}
    (notTesting : passes .testing = false) (world : World)
    (outcome : InitOutcome) :
    (world.openServer outcome).acceptLoops.countP passes =
      world.acceptLoops.countP passes := by
  rcases world.openServer_acceptLoops outcome with same | appended
  · rw [same]
  · simp [appended, notTesting]

private theorem Balanced.openServer {world : World}
    (balanced : world.Balanced) (outcome : InitOutcome) :
    (world.openServer outcome).Balanced where
  rows := by
    intro port
    rw [openServer_mClientList, balanced.rows, rowDemand, rowDemand,
      countP_openServer rfl]
    rfl
  entries := by
    intro port
    rw [openServer_mClientVec, balanced.entries, entryDemand, entryDemand,
      countP_openServer rfl]
    rfl
  lastAdded := by
    intro conn clientAddr connSock member
    rw [openServer_mClientVec]
    apply balanced.lastAdded conn clientAddr connSock
    rcases world.openServer_acceptLoops outcome with same | appended
    · rwa [same] at member
    · simpa [appended] using member
  addedAlone := by
    rw [countP_openServer rfl]
    exact balanced.addedAlone

theorem Balanced.closeServer {world : World}
    (balanced : world.Balanced) (noLoops : world.clientLoops = [])
    (noneMidway : ∀ phase ∈ world.acceptLoops, phase.midway = false) :
    world.closeServer.Balanced where
  rows := balanced.rows
  entries := by
    intro port
    have noEntries :
        world.acceptLoops.countP (AcceptPhase.hasEntry port) = 0 := by
      rw [List.countP_eq_zero]
      intro phase member
      simp [hasEntry_false_of_not_midway (noneMidway phase member)]
    simp [World.closeServer, PCServerDlg.onBtnClose, TcpServer.stop,
      TcpServer.unInit, entryDemand, noLoops, noEntries]
  lastAdded := by
    intro conn clientAddr connSock member
    have idle := noneMidway _ member
    simp [AcceptPhase.midway] at idle
  addedAlone := balanced.addedAlone

private theorem Balanced.endLoop {world : World} {i : Nat}
    (balanced : world.Balanced)
    (found : world.acceptLoops[i]? = some .testing) :
    Balanced
      { world with acceptLoops := world.acceptLoops.eraseIdx i } where
  rows := by
    intro port
    have counts := countP_eraseIdx (AcceptPhase.hasRow port) found
    simp only [AcceptPhase.hasRow, Bool.false_eq_true, if_false,
      Nat.add_zero] at counts
    simp only [balanced.rows, rowDemand, counts]
  entries := by
    intro port
    have counts := countP_eraseIdx (AcceptPhase.hasEntry port) found
    simp only [AcceptPhase.hasEntry, Bool.false_eq_true, if_false,
      Nat.add_zero] at counts
    simp only [balanced.entries, entryDemand, counts]
  lastAdded := by
    intro conn clientAddr connSock member
    exact balanced.lastAdded conn clientAddr connSock
      (List.mem_of_mem_eraseIdx member)
  addedAlone := by
    have counts := countP_eraseIdx AcceptPhase.isAdded found
    have alone := balanced.addedAlone
    simp only
    omega

theorem countKey_insertClient (dlg : PCServerDlg) (clientAddr : SockaddrIn)
    (connSock : Socket) (port : Nat) :
    countKey rowPort (port : Int)
        (dlg.insertClient clientAddr connSock).mClientList =
      countKey rowPort (port : Int) dlg.mClientList +
        if (TcpServer.acceptedItem clientAddr connSock).cPort = port then 1
        else 0 := by
  have permuted := List.perm_insertIdx (rowOf clientAddr connSock)
    dlg.mClientList
    (min_le_right dlg.mServer.clientNum dlg.mClientList.length)
  rw [PCServerDlg.insertClient_mClientList, countKey,
    permuted.countP_eq, List.countP_cons]
  simp only [countKey, rowPort_rowOf, Nat.cast_inj, decide_eq_true_eq]

private theorem Balanced.insertClient {world : World} {i conn : Nat}
    {clientAddr : SockaddrIn} {connSock : Socket}
    (balanced : world.Balanced)
    (found : world.acceptLoops[i]? =
      some (.accepted conn clientAddr connSock)) :
    (world.insertClient i conn clientAddr connSock).Balanced where
  rows := by
    intro port
    have counts := countP_set (AcceptPhase.hasRow port) found
      (.inserted conn clientAddr connSock)
    have inserted := countKey_insertClient world.dlg clientAddr connSock
      port
    simp only [AcceptPhase.hasRow, decide_eq_true_eq, Bool.false_eq_true,
      if_false, Nat.add_zero] at counts
    simp only [World.insertClient, PCServerDlg.notifyUi, rowDemand, inserted,
      balanced.rows, counts]
    omega
  entries := by
    intro port
    have counts := countP_set (AcceptPhase.hasEntry port) found
      (.inserted conn clientAddr connSock)
    simp only [AcceptPhase.hasEntry, Bool.false_eq_true, if_false,
      Nat.add_zero] at counts
    simp only [World.insertClient, PCServerDlg.notifyUi, entryDemand,
      PCServerDlg.insertClient_mServer, balanced.entries, counts]
  lastAdded := by
    intro conn' clientAddr' connSock' member
    rcases List.mem_or_eq_of_mem_set member with old | impossible
    · exact balanced.lastAdded conn' clientAddr' connSock' old
    · simp at impossible
  addedAlone := by
    have counts := countP_set AcceptPhase.isAdded found
      (.inserted conn clientAddr connSock)
    have alone := balanced.addedAlone
    simp only [AcceptPhase.isAdded, Bool.false_eq_true, if_false,
      Nat.add_zero] at counts
    simpa only [World.insertClient, counts] using alone

private theorem Balanced.addClient {world : World} {i conn : Nat}
    {clientAddr : SockaddrIn} {connSock : Socket}
    (balanced : world.Balanced)
    (found : world.acceptLoops[i]? =
      some (.inserted conn clientAddr connSock))
    (noneAdded : ∀ phase ∈ world.acceptLoops, phase.isAdded = false) :
    (world.addClient i conn clientAddr connSock).Balanced where
  rows := by
    intro port
    have counts : (world.acceptLoops.set i
        (.added conn clientAddr connSock)).countP (AcceptPhase.hasRow port) =
          world.acceptLoops.countP (AcceptPhase.hasRow port) :=
      countP_set_of_eq found rfl
    simp only [World.addClient, rowDemand, balanced.rows, counts]
  entries := by
    intro port
    have counts := countP_set (AcceptPhase.hasEntry port) found
      (.added conn clientAddr connSock)
    simp only [AcceptPhase.hasEntry, decide_eq_true_eq, Bool.false_eq_true,
      if_false, Nat.add_zero] at counts
    simp only [World.addClient, entryDemand, TcpServer.addClient_mClientVec,
      countKey_append, countKey_cons, countKey_nil, balanced.entries, counts]
    omega
  lastAdded := by
    intro conn' clientAddr' connSock' member
    rcases List.mem_or_eq_of_mem_set member with old | isNew
    · have notAdded := noneAdded _ old
      simp [AcceptPhase.isAdded] at notAdded
    · obtain ⟨rfl, rfl, rfl⟩ := AcceptPhase.added.inj isNew
      simp [World.addClient]
  addedAlone := by
    have counts := countP_set AcceptPhase.isAdded found
      (.added conn clientAddr connSock)
    have none : world.acceptLoops.countP AcceptPhase.isAdded = 0 := by
      rw [List.countP_eq_zero]
      intro phase member
      simp [noneAdded phase member]
    simp only [AcceptPhase.isAdded, if_true, Bool.false_eq_true, if_false,
      Nat.add_zero, none] at counts
    simp only [World.addClient, counts]
    omega

/-- The item handed to a new `ClientFunc` is the one its accept loop added. -/
theorem Balanced.startClient_eq {world : World} {i conn : Nat}
    {clientAddr : SockaddrIn} {connSock : Socket}
    (balanced : world.Balanced)
    (found : world.acceptLoops[i]? =
      some (.added conn clientAddr connSock)) :
    world.startClient i conn =
      { world with
        acceptLoops := world.acceptLoops.set i .testing
        clientLoops := world.clientLoops ++
          [{ conn := conn
             client := TcpServer.acceptedItem clientAddr connSock
             leaving := false }] } := by
  have last := balanced.lastAdded conn clientAddr connSock
    (List.mem_of_getElem? found)
  simp only [World.startClient, TcpServer.getClient_last, last]

private theorem Balanced.startClient {world : World} {i conn : Nat}
    {clientAddr : SockaddrIn} {connSock : Socket}
    (balanced : world.Balanced)
    (found : world.acceptLoops[i]? =
      some (.added conn clientAddr connSock)) :
    (world.startClient i conn).Balanced := by
  rw [balanced.startClient_eq found]
  refine ⟨?_, ?_, ?_, ?_⟩
  · intro port
    have counts := countP_set (AcceptPhase.hasRow port) found .testing
    simp only [AcceptPhase.hasRow, decide_eq_true_eq, Bool.false_eq_true,
      if_false, Nat.add_zero] at counts
    simp only [rowDemand, balanced.rows, List.countP_append,
      List.countP_singleton, ClientLoop.hasRow, Bool.not_false, Bool.true_and,
      decide_eq_true_eq]
    omega
  · intro port
    have counts := countP_set (AcceptPhase.hasEntry port) found .testing
    simp only [AcceptPhase.hasEntry, decide_eq_true_eq, Bool.false_eq_true,
      if_false, Nat.add_zero] at counts
    simp only [entryDemand, balanced.entries, List.countP_append,
      List.countP_singleton, ClientLoop.hasEntry, decide_eq_true_eq]
    omega
  · intro conn' clientAddr' connSock' member
    rcases List.mem_or_eq_of_mem_set member with old | impossible
    · exact balanced.lastAdded conn' clientAddr' connSock' old
    · simp at impossible
  · have counts := countP_set AcceptPhase.isAdded found .testing
    have alone := balanced.addedAlone
    simp only [AcceptPhase.isAdded, if_true, Bool.false_eq_true, if_false,
      Nat.add_zero] at counts
    simp only
    omega

private theorem Balanced.hangUp {world : World} {j : Nat} {loop : ClientLoop}
    (balanced : world.Balanced)
    (found : world.clientLoops[j]? = some loop)
    (notLeaving : loop.leaving = false) : (world.hangUp j loop).Balanced where
  rows := by
    intro port
    have counts := countP_set (ClientLoop.hasRow port) found
      { loop with leaving := true }
    have own := balanced.rows loop.client.cPort
    simp only [ClientLoop.hasRow, notLeaving, Bool.not_false, Bool.true_and,
      decide_eq_true_eq, Bool.not_true, Bool.false_and, Bool.false_eq_true,
      if_false, Nat.add_zero] at counts
    simp only [World.hangUp, PCServerDlg.removeClient_mClientList,
      countKey_removeFirst, rowDemand, balanced.rows, Nat.cast_inj]
    by_cases same : port = loop.client.cPort
    · subst same
      simp only [if_true] at counts ⊢
      omega
    · simp only [if_neg same, if_neg (Ne.symm same)] at counts ⊢
      omega
  entries := by
    intro port
    have counts : (world.clientLoops.set j
        { loop with leaving := true }).countP (ClientLoop.hasEntry port) =
          world.clientLoops.countP (ClientLoop.hasEntry port) :=
      countP_set_of_eq found rfl
    simp only [World.hangUp, PCServerDlg.removeClient_mServer, entryDemand,
      balanced.entries, counts]
  lastAdded := by
    simpa only [World.hangUp, PCServerDlg.removeClient_mServer] using
      balanced.lastAdded
  addedAlone := balanced.addedAlone

private theorem Balanced.deleteClient {world : World} {j : Nat}
    {loop : ClientLoop} (balanced : world.Balanced)
    (found : world.clientLoops[j]? = some loop)
    (leaving : loop.leaving = true) :
    (world.deleteClient j loop).Balanced where
  rows := by
    intro port
    have counts := countP_eraseIdx (ClientLoop.hasRow port) found
    simp only [ClientLoop.hasRow, leaving, Bool.not_true, Bool.false_and,
      Bool.false_eq_true, if_false, Nat.add_zero] at counts
    simp only [World.deleteClient, PCServerDlg.notifyUi, rowDemand,
      balanced.rows, counts]
  entries := by
    intro port
    have counts := countP_eraseIdx (ClientLoop.hasEntry port) found
    simp only [ClientLoop.hasEntry, decide_eq_true_eq] at counts
    simp only [World.deleteClient, PCServerDlg.notifyUi,
      TcpServer.deleteClient_mClientVec, countKey_removeFirst, entryDemand,
      balanced.entries]
    by_cases same : port = loop.client.cPort
    · subst same
      simp only [if_true] at counts ⊢
      omega
    · simp only [if_neg same, if_neg (Ne.symm same)] at counts ⊢
      omega
  lastAdded := by
    intro conn clientAddr connSock member
    simp only [World.deleteClient, PCServerDlg.notifyUi,
      TcpServer.deleteClient_mClientVec]
    refine getLast?_deleteLoop
      (balanced.lastAdded conn clientAddr connSock member) ?_
    intro same
    have ofLoop : 0 < world.clientLoops.countP
        (ClientLoop.hasEntry loop.client.cPort) :=
      countP_pos_of_getElem? found (by simp [ClientLoop.hasEntry])
    have ofHandler : 0 < world.acceptLoops.countP
        (AcceptPhase.hasEntry loop.client.cPort) :=
      List.countP_pos_iff.mpr
        ⟨_, member, by simp [AcceptPhase.hasEntry, same]⟩
    rw [balanced.entries, entryDemand]
    omega
  addedAlone := balanced.addedAlone

theorem Balanced.steps {world next : World} {event : Event}
    (balanced : world.Balanced) (undisturbed : world.Undisturbed event)
    (taken : Steps world event next) : next.Balanced := by
  cases taken with
  | openServer enabled fresh => exact balanced.openServer _
  | closeServer enabled =>
      exact balanced.closeServer undisturbed.1 undisturbed.2
  | testRun found running =>
      exact balanced.of_set found rfl rfl rfl rfl (fun _ => rfl)
        (fun _ => rfl) rfl rfl
  | endLoop found stopped => exact balanced.endLoop found
  | pollNothing found =>
      exact balanced.of_set found rfl rfl rfl rfl (fun _ => rfl)
        (fun _ => rfl) rfl rfl
  | accept found listening fresh =>
      exact balanced.of_set found rfl rfl rfl rfl (fun _ => rfl)
        (fun _ => rfl) rfl rfl
  | insertClient found => exact balanced.insertClient found
  | addClient found => exact balanced.addClient found undisturbed
  | startClient found => exact balanced.startClient found
  | receive found notLeaving isOpen read =>
      exact ⟨balanced.1, balanced.2, balanced.3, balanced.4⟩
  | hangUp found notLeaving isOpen => exact balanced.hangUp found notLeaving
  | deleteClient found leaving => exact balanced.deleteClient found leaving

end World

end OpenChat.Server
