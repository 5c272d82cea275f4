import OpenChat.Server.Ledger

/-!
# The client list agrees with the registry

Without a close there is one accept loop, so rows and entries are appended in
the same order; client loops remove a row first and the entry of the same port
later.  The list is therefore always the registry without the first few
entries of every port, one for each client loop which is between its two
removals, followed by the row whose entry is still to come.
-/

namespace OpenChat.Server

open Platform Foundation Foundation.KeyedList Foundation.Positions

def rowTexts (row : ListRow) : Text × Text × Text :=
  (row.port, row.ip, row.socket)

/-- The texts a row of this entry shows. -/
def entryTexts (entry : CClientItem) : Text × Text × Text :=
  (formatD entry.cPort, entry.cAddr, formatLd entry.cSocket)

/-- The item of an accepted connection between `InsertClient` and
`AddClient`. -/
def AcceptPhase.pendingEntry : AcceptPhase → Option CClientItem
  | .inserted _ clientAddr connSock =>
      some (TcpServer.acceptedItem clientAddr connSock)
  | _ => none

def ClientLoop.leavesPort (port : Nat) (loop : ClientLoop) : Bool :=
  loop.leaving && loop.client.cPort = port

namespace World

/-- How many client loops with this port have removed their row but not yet
their entry. -/
def leavingCount (world : World) (port : Nat) : Nat :=
  world.clientLoops.countP (ClientLoop.leavesPort port)

def Settled (world : World) : Prop :=
  (∀ phase ∈ world.acceptLoops, phase.pendingEntry = none) ∧
    ∀ loop ∈ world.clientLoops, loop.leaving = false

instance (world : World) : Decidable world.Settled :=
  inferInstanceAs (Decidable (_ ∧ _))

structure InStep (world : World) : Prop where
  balanced : world.Balanced
  oneLoop : world.acceptLoops.length ≤ 1
  unopened : world.dlg.mToolBar.button1 = true → world.acceptLoops = []
  agrees : world.dlg.mClientList.map rowTexts =
    (leaveOut CClientItem.cPort world.leavingCount
        world.dlg.mServer.mClientVec ++
      world.acceptLoops.filterMap AcceptPhase.pendingEntry).map entryTexts

theorem inStep_initial : initial.InStep where
  balanced := balanced_initial
  oneLoop := by simp [initial]
  unopened := fun _ => rfl
  agrees := rfl

private theorem acceptLoops_eq_singleton {world : World} {i : Nat}
    {phase : AcceptPhase} (oneLoop : world.acceptLoops.length ≤ 1)
    (found : world.acceptLoops[i]? = some phase) :
    i = 0 ∧ world.acceptLoops = [phase] := by
  match loops : world.acceptLoops with
  | [] => simp [loops] at found
  | [only] =>
      cases i with
      | zero =>
          obtain rfl : only = phase := by simpa [loops] using found
          exact ⟨rfl, rfl⟩
      | succ i => simp [loops] at found
  | first :: second :: rest => simp [loops] at oneLoop

private theorem leavingCount_le_entries {world : World}
    (balanced : world.Balanced) (port : Nat) :
    world.leavingCount port ≤
      countKey CClientItem.cPort port world.dlg.mServer.mClientVec := by
  have weaker : world.leavingCount port ≤
      world.clientLoops.countP (ClientLoop.hasEntry port) := by
    apply List.countP_mono_left
    intro loop _ leaves
    simp only [ClientLoop.leavesPort, Bool.and_eq_true] at leaves
    exact leaves.2
  rw [balanced.entries, entryDemand]
  omega

/-- A loop which has not removed its row yet owns an entry that is not left
out. -/
private theorem leavingCount_lt_entries {world : World}
    (balanced : world.Balanced) {j : Nat} {loop : ClientLoop}
    (found : world.clientLoops[j]? = some loop)
    (notLeaving : loop.leaving = false) :
    world.leavingCount loop.client.cPort <
      countKey CClientItem.cPort loop.client.cPort
        world.dlg.mServer.mClientVec := by
  obtain ⟨before, after, loops_eq, _, _, _⟩ := split_at_index found
  have weaker : ∀ loops : List ClientLoop,
      loops.countP (ClientLoop.leavesPort loop.client.cPort) ≤
        loops.countP (ClientLoop.hasEntry loop.client.cPort) := by
    intro loops
    apply List.countP_mono_left
    intro other _ leaves
    simp only [ClientLoop.leavesPort, Bool.and_eq_true] at leaves
    exact leaves.2
  have inBefore := weaker before
  have inAfter := weaker after
  rw [balanced.entries, entryDemand, leavingCount, loops_eq]
  simp only [List.countP_append, List.countP_cons, ClientLoop.leavesPort,
    ClientLoop.hasEntry, notLeaving, Bool.false_and, decide_true,
    Bool.false_eq_true, if_false, if_true] at inBefore inAfter ⊢
  omega

private theorem map_rowTexts_removeFirst (port : Int) (rows : List ListRow) :
    (removeFirst rowPort port rows).map rowTexts =
      removeFirst (fun texts => ttoi texts.1) port (rows.map rowTexts) :=
  (removeFirst_map rowTexts (fun texts => ttoi texts.1) port rows).symm

private theorem map_entryTexts_removeFirst (port : Nat)
    (entries : List CClientItem) :
    (removeFirst CClientItem.cPort port entries).map entryTexts =
      removeFirst (fun texts => ttoi texts.1) (port : Int)
        (entries.map entryTexts) := by
  rw [removeFirst_map]
  congr 1
  simp [removeFirst, entryTexts]

private theorem leavesPort_set {world : World} {j : Nat} {loop : ClientLoop}
    (found : world.clientLoops[j]? = some loop)
    (notLeaving : loop.leaving = false) (port : Nat) :
    (world.clientLoops.set j { loop with leaving := true }).countP
        (ClientLoop.leavesPort port) =
      bump world.leavingCount loop.client.cPort port := by
  obtain ⟨before, after, loops_eq, _, set_eq, _⟩ := split_at_index found
  rw [set_eq]
  by_cases same : port = loop.client.cPort
  · subst same
    simp [bump, leavingCount, loops_eq, ClientLoop.leavesPort, notLeaving]
    omega
  · have other : loop.client.cPort ≠ port := Ne.symm same
    simp [bump, leavingCount, loops_eq, ClientLoop.leavesPort, notLeaving,
      same, other]

private theorem leavesPort_eraseIdx {world : World} {j : Nat}
    {loop : ClientLoop} (found : world.clientLoops[j]? = some loop)
    (leaving : loop.leaving = true) :
    world.leavingCount =
      bump (fun port => (world.clientLoops.eraseIdx j).countP
        (ClientLoop.leavesPort port)) loop.client.cPort := by
  obtain ⟨before, after, loops_eq, _, _, erase_eq⟩ := split_at_index found
  funext port
  rw [erase_eq]
  by_cases same : port = loop.client.cPort
  · subst same
    simp [bump, leavingCount, loops_eq, ClientLoop.leavesPort, leaving]
    omega
  · have other : loop.client.cPort ≠ port := Ne.symm same
    simp [bump, leavingCount, loops_eq, ClientLoop.leavesPort, leaving, same,
      other]

/-- When the accept loop is about to call `InsertClient` there are no more
rows than entries, so the new row goes to the end. -/
theorem InStep.insert_appends {world : World} (inStep : world.InStep)
    {i conn : Nat} {clientAddr : SockaddrIn} {connSock : Socket}
    (found : world.acceptLoops[i]? =
      some (.accepted conn clientAddr connSock)) :
    (world.dlg.insertClient clientAddr connSock).mClientList =
      world.dlg.mClientList ++ [rowOf clientAddr connSock] := by
  apply PCServerDlg.insertClient_appends
  obtain ⟨_, only⟩ := acceptLoops_eq_singleton inStep.oneLoop found
  have lengths := congrArg List.length inStep.agrees
  have fewer := (leaveOut_sublist CClientItem.cPort world.leavingCount
    world.dlg.mServer.mClientVec).length_le
  rw [only] at lengths
  simp only [List.length_map, List.filterMap_cons, List.filterMap_nil,
    AcceptPhase.pendingEntry, List.append_nil] at lengths
  rw [TcpServer.clientNum]
  omega

private theorem InStep.openServer {world : World} (inStep : world.InStep)
    (enabled : world.dlg.mToolBar.button1 = true) (outcome : InitOutcome)
    (balanced : (world.openServer outcome).Balanced) :
    (world.openServer outcome).InStep := by
  have noLoops := inStep.unopened enabled
  have agrees := inStep.agrees
  have sameCount : (world.openServer outcome).leavingCount =
      world.leavingCount := rfl
  rw [noLoops] at agrees
  rcases world.openServer_acceptLoops outcome with same | appended
  · refine ⟨balanced, by simp [same, noLoops], fun _ => ?_, ?_⟩
    · rw [same, noLoops]
    · rw [same, noLoops, sameCount, openServer_mClientList,
        openServer_mClientVec, agrees]
  · refine ⟨balanced, by simp [appended, noLoops], fun impossible => ?_, ?_⟩
    · cases impossible
    · rw [appended, noLoops, sameCount, openServer_mClientList,
        openServer_mClientVec, agrees]
      rfl

/-- A step of the only accept loop between phases without a pending entry. -/
private theorem InStep.of_set {world next : World} {i : Nat}
    {old new : AcceptPhase} (inStep : world.InStep)
    (balanced : next.Balanced)
    (found : world.acceptLoops[i]? = some old)
    (dlgList : next.dlg.mClientList = world.dlg.mClientList)
    (dlgVec : next.dlg.mServer.mClientVec = world.dlg.mServer.mClientVec)
    (dlgBar : next.dlg.mToolBar = world.dlg.mToolBar)
    (leavingEq : next.leavingCount = world.leavingCount)
    (acceptLoopsEq : next.acceptLoops = world.acceptLoops.set i new)
    (oldNone : old.pendingEntry = none) (newNone : new.pendingEntry = none) :
    next.InStep where
  balanced := balanced
  oneLoop := by
    rw [acceptLoopsEq, List.length_set]
    exact inStep.oneLoop
  unopened := by
    rw [dlgBar]
    intro enabled
    rw [inStep.unopened enabled] at found
    simp at found
  agrees := by
    obtain ⟨rfl, only⟩ := acceptLoops_eq_singleton inStep.oneLoop found
    have agrees := inStep.agrees
    rw [only] at agrees
    rw [dlgList, dlgVec, leavingEq, acceptLoopsEq, only]
    simpa [oldNone, newNone] using agrees

private theorem InStep.insertClient {world : World} {i conn : Nat}
    {clientAddr : SockaddrIn} {connSock : Socket} (inStep : world.InStep)
    (found : world.acceptLoops[i]? =
      some (.accepted conn clientAddr connSock))
    (balanced : (world.insertClient i conn clientAddr connSock).Balanced) :
    (world.insertClient i conn clientAddr connSock).InStep where
  balanced := balanced
  oneLoop := by simpa [World.insertClient] using inStep.oneLoop
  unopened := by
    intro enabled
    rw [inStep.unopened enabled] at found
    simp at found
  agrees := by
    have appended := inStep.insert_appends found
    have agrees := inStep.agrees
    obtain ⟨rfl, only⟩ := acceptLoops_eq_singleton inStep.oneLoop found
    rw [only] at agrees
    simp only [List.filterMap_cons, List.filterMap_nil,
      AcceptPhase.pendingEntry, List.append_nil] at agrees
    calc
      ((world.insertClient 0 conn clientAddr
          connSock).dlg.mClientList).map rowTexts =
        world.dlg.mClientList.map rowTexts ++
          [rowTexts (rowOf clientAddr connSock)] := by
        simp only [World.insertClient, PCServerDlg.notifyUi, appended,
          List.map_append, List.map_cons, List.map_nil]
      _ = (leaveOut CClientItem.cPort world.leavingCount
            world.dlg.mServer.mClientVec ++
          [TcpServer.acceptedItem clientAddr connSock]).map entryTexts := by
        rw [agrees, List.map_append]
        rfl
      _ = _ := by
        simp [World.insertClient, PCServerDlg.notifyUi, only,
          AcceptPhase.pendingEntry]
        rfl

private theorem InStep.addClient {world : World} {i conn : Nat}
    {clientAddr : SockaddrIn} {connSock : Socket} (inStep : world.InStep)
    (found : world.acceptLoops[i]? =
      some (.inserted conn clientAddr connSock))
    (balanced : (world.addClient i conn clientAddr connSock).Balanced) :
    (world.addClient i conn clientAddr connSock).InStep where
  balanced := balanced
  oneLoop := by simpa [World.addClient] using inStep.oneLoop
  unopened := by
    intro enabled
    rw [inStep.unopened enabled] at found
    simp at found
  agrees := by
    have agrees := inStep.agrees
    obtain ⟨rfl, only⟩ := acceptLoops_eq_singleton inStep.oneLoop found
    have kept := leaveOut_append_singleton CClientItem.cPort
      (leavingCount_le_entries inStep.balanced
        (TcpServer.acceptedItem clientAddr connSock).cPort)
    rw [only] at agrees
    have sameCount :
        (world.addClient 0 conn clientAddr connSock).leavingCount =
          world.leavingCount := rfl
    rw [sameCount]
    simp only [World.addClient, TcpServer.addClient_mClientVec, kept, only,
      agrees]
    simp [AcceptPhase.pendingEntry]

private theorem InStep.startClient {world : World} {i conn : Nat}
    {clientAddr : SockaddrIn} {connSock : Socket} (inStep : world.InStep)
    (found : world.acceptLoops[i]? =
      some (.added conn clientAddr connSock))
    (balanced : (world.startClient i conn).Balanced) :
    (world.startClient i conn).InStep := by
  rw [inStep.balanced.startClient_eq found] at balanced ⊢
  refine inStep.of_set balanced found rfl rfl rfl ?_ rfl rfl rfl
  funext port
  simp [leavingCount, ClientLoop.leavesPort]

private theorem InStep.hangUp {world : World} {j : Nat} {loop : ClientLoop}
    (inStep : world.InStep) (found : world.clientLoops[j]? = some loop)
    (notLeaving : loop.leaving = false)
    (balanced : (world.hangUp j loop).Balanced) :
    (world.hangUp j loop).InStep where
  balanced := balanced
  oneLoop := inStep.oneLoop
  unopened := by
    intro enabled
    apply inStep.unopened
    simpa [World.hangUp, PCServerDlg.removeClient_mToolBar] using enabled
  agrees := by
    have remaining :=
      leavingCount_lt_entries inStep.balanced found notLeaving
    have present : 0 < countKey CClientItem.cPort loop.client.cPort
        (leaveOut CClientItem.cPort world.leavingCount
          world.dlg.mServer.mClientVec) := by
      rw [countKey_leaveOut]
      omega
    have count : (world.hangUp j loop).leavingCount =
        bump world.leavingCount loop.client.cPort := by
      funext port
      exact leavesPort_set found notLeaving port
    rw [count]
    simp only [World.hangUp, PCServerDlg.removeClient_mClientList,
      PCServerDlg.removeClient_mServer]
    rw [map_rowTexts_removeFirst, inStep.agrees, ← map_entryTexts_removeFirst,
      removeFirst_append_of_pos present, removeFirst_leaveOut _ remaining]

private theorem InStep.deleteClient {world : World} {j : Nat}
    {loop : ClientLoop} (inStep : world.InStep)
    (found : world.clientLoops[j]? = some loop)
    (leaving : loop.leaving = true)
    (balanced : (world.deleteClient j loop).Balanced) :
    (world.deleteClient j loop).InStep where
  balanced := balanced
  oneLoop := inStep.oneLoop
  unopened := inStep.unopened
  agrees := by
    have owned : 0 < countKey CClientItem.cPort loop.client.cPort
        world.dlg.mServer.mClientVec := by
      have leaves := leavesPort_eraseIdx found leaving
      have most :=
        leavingCount_le_entries inStep.balanced loop.client.cPort
      rw [leaves] at most
      simp only [bump, Function.update_self] at most
      omega
    have agrees := inStep.agrees
    rw [leavesPort_eraseIdx found leaving,
      ← leaveOut_removeFirst CClientItem.cPort _ owned] at agrees
    simp only [World.deleteClient, PCServerDlg.notifyUi,
      TcpServer.deleteClient_mClientVec]
    exact agrees

theorem InStep.steps {world next : World} {event : Event}
    (inStep : world.InStep) (noClose : event ≠ .closeServer)
    (taken : Steps world event next) : next.InStep := by
  have undisturbed : world.Undisturbed event := by
    cases taken with
    | closeServer enabled => exact (noClose rfl).elim
    | addClient found =>
        obtain ⟨_, only⟩ := acceptLoops_eq_singleton inStep.oneLoop found
        simp [Undisturbed, only, AcceptPhase.isAdded]
    | _ => trivial
  have balanced := inStep.balanced.steps undisturbed taken
  cases taken with
  | openServer enabled fresh => exact inStep.openServer enabled _ balanced
  | closeServer enabled => exact (noClose rfl).elim
  | testRun found running =>
      exact inStep.of_set balanced found rfl rfl rfl rfl rfl rfl rfl
  | endLoop found stopped =>
      obtain ⟨rfl, only⟩ := acceptLoops_eq_singleton inStep.oneLoop found
      have agrees := inStep.agrees
      rw [only] at agrees
      refine ⟨balanced, by simp [only], fun _ => by simp [only], ?_⟩
      simp only [only, List.eraseIdx_zero, List.tail_cons]
      exact agrees
  | pollNothing found =>
      exact inStep.of_set balanced found rfl rfl rfl rfl rfl rfl rfl
  | accept found listening fresh =>
      exact inStep.of_set balanced found rfl rfl rfl rfl rfl rfl rfl
  | insertClient found => exact inStep.insertClient found balanced
  | addClient found => exact inStep.addClient found balanced
  | startClient found => exact inStep.startClient found balanced
  | receive found notLeaving isOpen read =>
      exact ⟨balanced, inStep.oneLoop, inStep.unopened, inStep.agrees⟩
  | hangUp found notLeaving isOpen =>
      exact inStep.hangUp found notLeaving balanced
  | deleteClient found leaving =>
      exact inStep.deleteClient found leaving balanced

theorem InStep.run {world next : World} {events : List Event}
    (inStep : world.InStep) (noClose : Event.closeServer ∉ events)
    (run : process.Run world events next) : next.InStep := by
  induction run with
  | nil => exact inStep
  | cons step _ induction =>
      simp only [List.mem_cons, not_or] at noClose
      exact induction
        (inStep.steps (Ne.symm noClose.1) (steps_of_step step)) noClose.2

/-- In a run without a close every removal finds an item with its port, every
insertion appends, and whenever no thread is between its two steps the rows
show exactly the registry entries in the same order. -/
theorem list_agrees_with_registry {events : List Event} {world : World}
    (noClose : Event.closeServer ∉ events)
    (run : process.Run initial events world) :
    (∀ loop ∈ world.clientLoops, loop.leaving = false →
      ∃ row ∈ world.dlg.mClientList,
        rowPort row = (loop.client.cPort : Int)) ∧
    (∀ loop ∈ world.clientLoops, loop.leaving = true →
      ∃ entry ∈ world.dlg.mServer.mClientVec,
        entry.cPort = loop.client.cPort) ∧
    (∀ conn clientAddr connSock,
      AcceptPhase.accepted conn clientAddr connSock ∈ world.acceptLoops →
        (world.dlg.insertClient clientAddr connSock).mClientList =
          world.dlg.mClientList ++ [rowOf clientAddr connSock]) ∧
    (world.Settled →
      world.dlg.mClientList.map rowTexts =
        world.dlg.mServer.mClientVec.map entryTexts) := by
  have inStep := inStep_initial.run noClose run
  refine ⟨?_, ?_, ?_, ?_⟩
  · intro loop member notLeaving
    apply (countKey_pos rowPort (loop.client.cPort : Int)).mp
    rw [inStep.balanced.rows, rowDemand]
    have owes : 0 < world.clientLoops.countP
        (ClientLoop.hasRow loop.client.cPort) :=
      List.countP_pos_iff.mpr
        ⟨loop, member, by simp [ClientLoop.hasRow, notLeaving]⟩
    omega
  · intro loop member leaving
    apply (countKey_pos CClientItem.cPort loop.client.cPort).mp
    rw [inStep.balanced.entries, entryDemand]
    have owes : 0 < world.clientLoops.countP
        (ClientLoop.hasEntry loop.client.cPort) :=
      List.countP_pos_iff.mpr ⟨loop, member, by simp [ClientLoop.hasEntry]⟩
    omega
  · intro conn clientAddr connSock member
    obtain ⟨i, found⟩ := List.mem_iff_getElem?.mp member
    exact inStep.insert_appends found
  · rintro ⟨noneInserted, noneLeaving⟩
    have nothingPending :
        world.acceptLoops.filterMap AcceptPhase.pendingEntry = [] := by
      rw [List.filterMap_eq_nil_iff]
      exact noneInserted
    have nothingLeftOut : ∀ port, world.leavingCount port = 0 := by
      intro port
      rw [leavingCount, List.countP_eq_zero]
      intro loop member
      simp [ClientLoop.leavesPort, noneLeaving loop member]
    rw [inStep.agrees, nothingPending, leaveOut_of_zero _ nothingLeftOut,
      List.append_nil]

/-- Two peers with one port number join, and the first one leaves. -/
def sharedPortRun : List Event :=
  let first : SockaddrIn :=
    { sinPort := 0x8813, sinAddr := { b1 := 10, b2 := 0, b3 := 0, b4 := 1 } }
  let second : SockaddrIn :=
    { sinPort := 0x8813, sinAddr := { b1 := 10, b2 := 0, b3 := 0, b4 := 2 } }
  [.openServer (.listens 4),
    .testRun 0, .accept 0 first 8, .insertClient 0, .addClient 0,
    .startClient 0,
    .testRun 0, .accept 0 second 12, .insertClient 0, .addClient 0,
    .startClient 0,
    .hangUp 0, .deleteClient 0]

theorem sharedPortRun_enabled :
    (process.exec initial sharedPortRun).isSome := by decide

theorem list_agrees_after_sharedPortRun :
    ∃ world, process.Run initial sharedPortRun world ∧
      world.dlg.mClientList.length = 1 ∧
      world.dlg.mClientList.map rowTexts =
        world.dlg.mServer.mClientVec.map entryTexts :=
  ⟨_, System.run_get sharedPortRun_enabled, by decide,
    (list_agrees_with_registry (by decide)
      (System.run_get sharedPortRun_enabled)).2.2.2 (by decide)⟩

end World

end OpenChat.Server
