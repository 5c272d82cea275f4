import Mathlib.Data.List.Perm.Subperm
import OpenChat.Server.ListAgreement

/-!
# Closing the server separates sessions

`UnInit` closes the sockets and clears the registry, but it neither ends the
client loops nor deletes rows.  A close therefore separates two sessions only
when nothing of the old one is left to end or delete.  In runs which close
only then, every open socket has at most the loop of its own connection, and
rows and entries always belong to the current session.
-/

namespace OpenChat.Server

open Platform Foundation Foundation.KeyedList Foundation.Positions

def AcceptPhase.handled : AcceptPhase → Option (Nat × CClientItem)
  | .accepted conn clientAddr connSock
  | .inserted conn clientAddr connSock
  | .added conn clientAddr connSock =>
      some (conn, TcpServer.acceptedItem clientAddr connSock)
  | _ => none

def AcceptPhase.pendingRow : AcceptPhase → Option CClientItem
  | .accepted _ clientAddr connSock =>
      some (TcpServer.acceptedItem clientAddr connSock)
  | _ => none

def AcceptPhase.unregistered : AcceptPhase → Option CClientItem
  | .accepted _ clientAddr connSock | .inserted _ clientAddr connSock =>
      some (TcpServer.acceptedItem clientAddr connSock)
  | _ => none

theorem AcceptPhase.idle_of_handled {phase : AcceptPhase}
    (nothing : phase.handled = none) :
    phase = .testing ∨ phase = .polling := by
  cases phase with
  | testing => exact .inl rfl
  | polling => exact .inr rfl
  | accepted | inserted | added => cases nothing

theorem AcceptPhase.handled_of_not_midway {phase : AcceptPhase}
    (idle : phase.midway = false) : phase.handled = none := by
  cases phase with
  | testing | polling => rfl
  | accepted | inserted | added => cases idle

def ClientLoop.reads (handle : Socket) (loop : ClientLoop) : Bool :=
  !loop.leaving && loop.client.cSocket = handle

namespace World

/-- Every open socket is read by at most one client loop, the one started for
its connection. -/
def OneReader (world : World) : Prop :=
  ∀ socket ∈ world.openSockets,
    (∀ loop ∈ world.clientLoops, loop.reads socket.1 = true →
      socket.2 = .connection loop.conn) ∧
    world.clientLoops.countP (ClientLoop.reads socket.1) ≤ 1

/-- No accept handler and no disconnect handler is midway. -/
def NoHandlerMidway (world : World) : Prop :=
  (∀ phase ∈ world.acceptLoops, phase.midway = false) ∧
    ∀ loop ∈ world.clientLoops, loop.leaving = false

/-- Rows and entries belong, one to one, to connections accepted since the
last `OnBtn_Open`; a stopped server has neither. -/
def OnlyThisSession (world : World) : Prop :=
  (world.dlg.mClientList.map rowTexts).Subperm
      (world.session.map entryTexts) ∧
    world.dlg.mServer.mClientVec.Subperm world.session ∧
    (world.dlg.mServer.mRun = false →
      world.dlg.mClientList = [] ∧ world.dlg.mServer.mClientVec = [])

def Separated (world : World) : Prop :=
  world.OneReader ∧ (world.NoHandlerMidway → world.OnlyThisSession)

/-- The connections some loop is serving, with the items they were accepted
as: first those of the client loops, then those in accept handlers. -/
def inService (world : World) : List (Nat × CClientItem) :=
  world.clientLoops.map (fun loop => (loop.conn, loop.client)) ++
    world.acceptLoops.filterMap AcceptPhase.handled

structure Sealed (world : World) : Prop where
  balanced : world.Balanced
  handles : (world.openSockets.map Prod.fst).Nodup
  valid : invalidSocket ∉ world.openSockets.map Prod.fst
  distinct : (world.inService.map Prod.fst).Nodup
  owns : ∀ service ∈ world.inService, service.1 < world.nextConn ∧
    (service.2.cSocket, SocketUse.connection service.1) ∈ world.openSockets
  rowsInSession :
    (world.dlg.mClientList.map rowTexts ++
      (world.acceptLoops.filterMap AcceptPhase.pendingRow).map
        entryTexts).Subperm (world.session.map entryTexts)
  entriesInSession :
    (world.dlg.mServer.mClientVec ++
      world.acceptLoops.filterMap AcceptPhase.unregistered).Subperm
        world.session
  listening : world.IsListening → world.dlg.mServer.mRun = true
  stopped : world.dlg.mServer.mRun = false → world.inService = []
  unopened : world.dlg.mToolBar.button1 = true →
    world.dlg.mServer.mRun = false

theorem sealed_initial : initial.Sealed where
  balanced := balanced_initial
  handles := List.nodup_nil
  valid := List.not_mem_nil
  distinct := List.nodup_nil
  owns := by
    intro service member
    simp [inService, initial] at member
  rowsInSession := List.nil_subperm
  entriesInSession := List.nil_subperm
  listening := by
    intro listening
    simp [IsListening, initial] at listening
  stopped := fun _ => rfl
  unopened := fun _ => rfl

theorem Sealed.stopped_empty {world : World} (sealed_ : world.Sealed)
    (stopped : world.dlg.mServer.mRun = false) :
    world.dlg.mClientList = [] ∧ world.dlg.mServer.mClientVec = [] := by
  have idle := sealed_.stopped stopped
  obtain ⟨noLoops, noHandled⟩ := List.append_eq_nil_iff.mp idle
  rw [List.map_eq_nil_iff] at noLoops
  rw [List.filterMap_eq_nil_iff] at noHandled
  have noRowOwed : ∀ port, world.rowDemand port = 0 := by
    intro port
    rw [rowDemand, noLoops, List.countP_nil, Nat.zero_add,
      List.countP_eq_zero]
    intro phase member
    rcases AcceptPhase.idle_of_handled (noHandled phase member) with rfl | rfl
    · exact Bool.false_ne_true
    · exact Bool.false_ne_true
  have noEntryOwed : ∀ port, world.entryDemand port = 0 := by
    intro port
    rw [entryDemand, noLoops, List.countP_nil, Nat.zero_add,
      List.countP_eq_zero]
    intro phase member
    rcases AcceptPhase.idle_of_handled (noHandled phase member) with rfl | rfl
    · exact Bool.false_ne_true
    · exact Bool.false_ne_true
  constructor
  · rw [List.eq_nil_iff_forall_not_mem]
    intro row member
    have inSession : rowTexts row ∈ world.session.map entryTexts :=
      sealed_.rowsInSession.subset
        (List.mem_append_left _ (List.mem_map_of_mem member))
    obtain ⟨item, _, texts⟩ := List.mem_map.mp inSession
    have shows : rowPort row = (item.cPort : Int) := by
      have portText : formatD item.cPort = row.port :=
        congrArg Prod.fst texts
      rw [rowPort, ← portText, ttoi_formatD]
    have counted := (countKey_pos rowPort (item.cPort : Int)).mpr
      ⟨row, member, shows⟩
    rw [sealed_.balanced.rows, noRowOwed] at counted
    exact Nat.lt_irrefl 0 counted
  · rw [List.eq_nil_iff_forall_not_mem]
    intro entry member
    have counted := (countKey_pos CClientItem.cPort entry.cPort).mpr
      ⟨entry, member, rfl⟩
    rw [sealed_.balanced.entries, noEntryOwed] at counted
    exact Nat.lt_irrefl 0 counted

theorem Sealed.separated {world : World} (sealed_ : world.Sealed) :
    world.Separated := by
  refine ⟨?_, ?_⟩
  · intro socket member
    have own : ∀ loop ∈ world.clientLoops, loop.reads socket.1 = true →
        socket.2 = .connection loop.conn := by
      intro loop loopMember reads
      simp only [ClientLoop.reads, Bool.and_eq_true,
        decide_eq_true_eq] at reads
      have owned := (sealed_.owns (loop.conn, loop.client)
        (List.mem_append_left _ (List.mem_map.mpr
          ⟨loop, loopMember, rfl⟩))).2
      exact congrArg Prod.snd (List.inj_on_of_nodup_map sealed_.handles
        member owned reads.2.symm)
    refine ⟨own, ?_⟩
    have conns : (world.clientLoops.map ClientLoop.conn).Nodup := by
      have distinct := sealed_.distinct
      rw [inService, List.map_append, List.map_map] at distinct
      exact distinct.sublist (List.sublist_append_left _ _)
    apply countP_le_one_of_nodup_map _ conns
    intro left leftMember right rightMember leftReads rightReads
    have leftOwn := own left leftMember leftReads
    rw [own right rightMember rightReads] at leftOwn
    exact (SocketUse.connection.inj leftOwn).symm
  · intro _
    exact ⟨(List.sublist_append_left _ _).subperm.trans
        sealed_.rowsInSession,
      (List.sublist_append_left _ _).subperm.trans sealed_.entriesInSession,
      sealed_.stopped_empty⟩

private theorem filterMap_openServer {β : Type*}
    {collect : AcceptPhase → Option β} (skips : collect .testing = none)
    (world : World) (outcome : InitOutcome) :
    (world.openServer outcome).acceptLoops.filterMap collect =
      world.acceptLoops.filterMap collect := by
  rcases world.openServer_acceptLoops outcome with same | appended
  · rw [same]
  · simp [appended, skips]

private theorem leavesOpen_nodup (outcome : InitOutcome) :
    (outcome.leavesOpen.map Prod.fst).Nodup := by
  cases outcome <;> simp [InitOutcome.leavesOpen]

private theorem listening_openServer {world : World}
    (sealed_ : world.Sealed) {outcome : InitOutcome}
    (fresh : ∀ socket ∈ outcome.leavesOpen, world.Fresh socket.1)
    (listening : (world.openServer outcome).IsListening) :
    (world.openServer outcome).dlg.mServer.mRun = true := by
  have old : ∀ handle, handle ∉ world.openSockets.map Prod.fst →
      (handle, SocketUse.listening) ∉ world.openSockets := by
    intro handle absent member
    exact absent (List.mem_map_of_mem member)
  cases outcome with
  | listens handle => rfl
  | socketFails =>
      have member : (invalidSocket, SocketUse.listening) ∈
          world.openSockets ++ [] := listening
      rw [List.append_nil] at member
      exact (old _ sealed_.valid member).elim
  | bindFails handle =>
      have member : (handle, SocketUse.listening) ∈
          world.openSockets ++ [(handle, .idle)] := listening
      have absent := (fresh (handle, .idle) (by
        simp [InitOutcome.leavesOpen])).2
      rcases List.mem_append.mp member with before | new
      · exact (old handle absent before).elim
      · simp at new
  | listenFails handle =>
      have member : (handle, SocketUse.listening) ∈
          world.openSockets ++ [(handle, .idle)] := listening
      have absent := (fresh (handle, .idle) (by
        simp [InitOutcome.leavesOpen])).2
      rcases List.mem_append.mp member with before | new
      · exact (old handle absent before).elim
      · simp at new

private theorem Sealed.openServer {world : World} (sealed_ : world.Sealed)
    {outcome : InitOutcome}
    (enabled : world.dlg.mToolBar.button1 = true)
    (fresh : ∀ socket ∈ outcome.leavesOpen, world.Fresh socket.1)
    (balanced : (world.openServer outcome).Balanced) :
    (world.openServer outcome).Sealed := by
  have stopped := sealed_.unopened enabled
  have idle := sealed_.stopped stopped
  obtain ⟨noRows, noEntries⟩ := sealed_.stopped_empty stopped
  have idleAfter : (world.openServer outcome).inService = [] := by
    rw [inService, filterMap_openServer rfl]
    exact idle
  have noHandled := (List.append_eq_nil_iff.mp idle).2
  have noPending : ∀ {β : Type} (collect : AcceptPhase → Option β),
      collect .testing = none → collect .polling = none →
      (world.openServer outcome).acceptLoops.filterMap collect = [] := by
    intro β collect skipsTesting skipsPolling
    rw [filterMap_openServer skipsTesting, List.filterMap_eq_nil_iff]
    intro phase member
    have nothing := List.filterMap_eq_nil_iff.mp noHandled phase member
    rcases AcceptPhase.idle_of_handled nothing with rfl | rfl
    · exact skipsTesting
    · exact skipsPolling
  have noPendingRow := noPending AcceptPhase.pendingRow rfl rfl
  have noUnregistered := noPending AcceptPhase.unregistered rfl rfl
  constructor
  · exact balanced
  · change ((world.openSockets ++ outcome.leavesOpen).map Prod.fst).Nodup
    rw [List.map_append, List.nodup_append']
    refine ⟨sealed_.handles, leavesOpen_nodup outcome, ?_⟩
    intro handle old new
    obtain ⟨socket, member, rfl⟩ := List.mem_map.mp new
    exact (fresh socket member).2 old
  · change invalidSocket ∉
      (world.openSockets ++ outcome.leavesOpen).map Prod.fst
    rw [List.map_append, List.mem_append, not_or]
    refine ⟨sealed_.valid, ?_⟩
    intro new
    obtain ⟨socket, member, isInvalid⟩ := List.mem_map.mp new
    exact (fresh socket member).1 isInvalid
  · rw [idleAfter]
    exact List.nodup_nil
  · rw [idleAfter]
    intro service member
    cases member
  · rw [openServer_mClientList, noRows, noPendingRow]
    exact List.nil_subperm
  · rw [openServer_mClientVec, noEntries, noUnregistered]
    exact List.nil_subperm
  · exact listening_openServer sealed_ fresh
  · exact fun _ => idleAfter
  · intro impossible
    cases impossible

/-- What a step may do to a sealed state without further thought: lose
connections in service, rows and entries. -/
private theorem Sealed.of_fewer {world next : World} (sealed_ : world.Sealed)
    (balanced : next.Balanced)
    (serverRun : next.dlg.mServer.mRun = world.dlg.mServer.mRun)
    (lisSock : next.dlg.mServer.mLisSock = world.dlg.mServer.mLisSock)
    (toolBar : next.dlg.mToolBar = world.dlg.mToolBar)
    (sockets : next.openSockets = world.openSockets)
    (conns : next.nextConn = world.nextConn)
    (session : next.session = world.session)
    (services : next.inService.Subperm world.inService)
    (rows : (next.dlg.mClientList.map rowTexts ++
      (next.acceptLoops.filterMap AcceptPhase.pendingRow).map
        entryTexts).Subperm
      (world.dlg.mClientList.map rowTexts ++
        (world.acceptLoops.filterMap AcceptPhase.pendingRow).map entryTexts))
    (entries : (next.dlg.mServer.mClientVec ++
      next.acceptLoops.filterMap AcceptPhase.unregistered).Subperm
      (world.dlg.mServer.mClientVec ++
        world.acceptLoops.filterMap AcceptPhase.unregistered)) :
    next.Sealed where
  balanced := balanced
  handles := by
    rw [sockets]
    exact sealed_.handles
  valid := by
    rw [sockets]
    exact sealed_.valid
  distinct := by
    obtain ⟨kept, permuted, sublist⟩ := services
    rw [← (permuted.map Prod.fst).nodup_iff]
    exact sealed_.distinct.sublist (sublist.map Prod.fst)
  owns := by
    intro service member
    rw [sockets, conns]
    exact sealed_.owns service (services.subset member)
  rowsInSession := by
    rw [session]
    exact rows.trans sealed_.rowsInSession
  entriesInSession := by
    rw [session]
    exact entries.trans sealed_.entriesInSession
  listening := by
    rw [IsListening, lisSock, sockets, serverRun]
    exact sealed_.listening
  stopped := by
    intro stopped
    rw [serverRun] at stopped
    rw [sealed_.stopped stopped] at services
    exact List.subperm_nil.mp services
  unopened := by
    rw [toolBar, serverRun]
    exact sealed_.unopened

private theorem Sealed.of_idle {world next : World} (sealed_ : world.Sealed)
    (balanced : next.Balanced) (dlg : next.dlg = world.dlg)
    (sockets : next.openSockets = world.openSockets)
    (conns : next.nextConn = world.nextConn)
    (session : next.session = world.session)
    (clientLoops : next.clientLoops = world.clientLoops)
    (handled : next.acceptLoops.filterMap AcceptPhase.handled =
      world.acceptLoops.filterMap AcceptPhase.handled)
    (pendingRows : next.acceptLoops.filterMap AcceptPhase.pendingRow =
      world.acceptLoops.filterMap AcceptPhase.pendingRow)
    (unregistered : next.acceptLoops.filterMap AcceptPhase.unregistered =
      world.acceptLoops.filterMap AcceptPhase.unregistered) :
    next.Sealed := by
  apply sealed_.of_fewer balanced
  · rw [dlg]
  · rw [dlg]
  · rw [dlg]
  · exact sockets
  · exact conns
  · exact session
  · rw [inService, inService, clientLoops, handled]
  · rw [dlg, pendingRows]
  · rw [dlg, unregistered]

private theorem Sealed.closeServer {world : World} (sealed_ : world.Sealed)
    (balanced : world.closeServer.Balanced)
    (noLoops : world.clientLoops = [])
    (noneMidway : ∀ phase ∈ world.acceptLoops, phase.midway = false) :
    world.closeServer.Sealed := by
  have noHandled : world.acceptLoops.filterMap AcceptPhase.handled = [] := by
    rw [List.filterMap_eq_nil_iff]
    intro phase member
    exact AcceptPhase.handled_of_not_midway (noneMidway phase member)
  have idle : world.closeServer.inService = [] := by
    simp only [inService, World.closeServer, noLoops, noHandled,
      List.map_nil, List.append_nil]
  have remaining : (world.closeServer.openSockets.map Prod.fst).Sublist
      (world.openSockets.map Prod.fst) :=
    List.filter_sublist.map Prod.fst
  have unregistered := (List.sublist_append_right
    world.dlg.mServer.mClientVec
    (world.acceptLoops.filterMap AcceptPhase.unregistered)).subperm
  constructor
  · exact balanced
  · exact sealed_.handles.sublist remaining
  · exact fun member => sealed_.valid (remaining.subset member)
  · rw [idle]
    exact List.nodup_nil
  · rw [idle]
    intro service member
    cases member
  · exact sealed_.rowsInSession
  · exact unregistered.trans sealed_.entriesInSession
  · intro listening
    have isOpen := remaining.subset (List.mem_map_of_mem listening)
    exact (sealed_.valid isOpen).elim
  · exact fun _ => idle
  · exact fun _ => rfl

private theorem pendingRow_accepted (conn : Nat) (clientAddr : SockaddrIn)
    (connSock : Socket) :
    (AcceptPhase.accepted conn clientAddr connSock).pendingRow =
      some (TcpServer.acceptedItem clientAddr connSock) := rfl

private theorem unregistered_accepted (conn : Nat) (clientAddr : SockaddrIn)
    (connSock : Socket) :
    (AcceptPhase.accepted conn clientAddr connSock).unregistered =
      some (TcpServer.acceptedItem clientAddr connSock) := rfl

private theorem unregistered_inserted (conn : Nat) (clientAddr : SockaddrIn)
    (connSock : Socket) :
    (AcceptPhase.inserted conn clientAddr connSock).unregistered =
      some (TcpServer.acceptedItem clientAddr connSock) := rfl

private theorem handled_added (conn : Nat) (clientAddr : SockaddrIn)
    (connSock : Socket) :
    (AcceptPhase.added conn clientAddr connSock).handled =
      some (conn, TcpServer.acceptedItem clientAddr connSock) := rfl

private theorem Sealed.accept {world : World} (sealed_ : world.Sealed)
    {i : Nat} {clientAddr : SockaddrIn} {connSock : Socket}
    (balanced : (world.accept i clientAddr connSock).Balanced)
    (found : world.acceptLoops[i]? = some .polling)
    (listening : world.IsListening) (fresh : world.Fresh connSock) :
    (world.accept i clientAddr connSock).Sealed := by
  let item := TcpServer.acceptedItem clientAddr connSock
  have services : (world.accept i clientAddr connSock).inService.Perm
      ((world.nextConn, item) :: world.inService) :=
    ((filterMap_set_perm_cons AcceptPhase.handled found rfl
      rfl).append_left _).trans List.perm_middle
  have olderConns : world.nextConn ∉ world.inService.map Prod.fst := by
    intro member
    obtain ⟨service, inService, same⟩ := List.mem_map.mp member
    exact Nat.lt_irrefl _ (same ▸ (sealed_.owns service inService).1)
  constructor
  · exact balanced
  · change ((world.openSockets ++
      [(connSock, SocketUse.connection world.nextConn)]).map Prod.fst).Nodup
    rw [List.map_append, List.nodup_append']
    refine ⟨sealed_.handles, List.nodup_singleton _, ?_⟩
    intro handle old new
    obtain rfl : handle = connSock := by simpa using new
    exact fresh.2 old
  · change invalidSocket ∉ (world.openSockets ++
      [(connSock, SocketUse.connection world.nextConn)]).map Prod.fst
    rw [List.map_append, List.mem_append, not_or]
    refine ⟨sealed_.valid, ?_⟩
    intro new
    obtain isInvalid : invalidSocket = connSock := by simpa using new
    exact fresh.1 isInvalid.symm
  · rw [(services.map Prod.fst).nodup_iff, List.map_cons, List.nodup_cons]
    exact ⟨olderConns, sealed_.distinct⟩
  · intro service member
    rcases List.mem_cons.mp (services.subset member) with rfl | old
    · exact ⟨Nat.lt_succ_self _,
        List.mem_append_right _ (List.mem_singleton.mpr rfl)⟩
    · obtain ⟨older, owned⟩ := sealed_.owns service old
      exact ⟨Nat.lt_succ_of_lt older, List.mem_append_left _ owned⟩
  · have pending := filterMap_set_perm_cons AcceptPhase.pendingRow found rfl
      (pendingRow_accepted world.nextConn clientAddr connSock)
    have rows := ((pending.map entryTexts).append_left
      (world.dlg.mClientList.map rowTexts)).trans List.perm_middle
    refine rows.subperm.trans ?_
    change (entryTexts item :: _).Subperm
      ((world.session ++ [item]).map entryTexts)
    rw [List.map_append]
    exact ((List.subperm_cons _).mpr sealed_.rowsInSession).trans
      (List.perm_append_singleton _ _).symm.subperm
  · have pending := filterMap_set_perm_cons AcceptPhase.unregistered found rfl
      (unregistered_accepted world.nextConn clientAddr connSock)
    have entries := (pending.append_left
      world.dlg.mServer.mClientVec).trans List.perm_middle
    refine entries.subperm.trans ?_
    exact ((List.subperm_cons _).mpr sealed_.entriesInSession).trans
      (List.perm_append_singleton _ _).symm.subperm
  · exact fun _ => sealed_.listening listening
  · intro stopped
    have running := sealed_.listening listening
    rw [show world.dlg.mServer.mRun = false from stopped] at running
    cases running
  · exact sealed_.unopened

private theorem Sealed.insertClient {world : World} {i conn : Nat}
    {clientAddr : SockaddrIn} {connSock : Socket} (sealed_ : world.Sealed)
    (found : world.acceptLoops[i]? =
      some (.accepted conn clientAddr connSock))
    (balanced : (world.insertClient i conn clientAddr connSock).Balanced) :
    (world.insertClient i conn clientAddr connSock).Sealed := by
  have services : (world.insertClient i conn clientAddr connSock).inService =
      world.inService :=
    congrArg (_ ++ ·) (filterMap_set_of_eq AcceptPhase.handled found rfl)
  have inserted : (world.insertClient i conn clientAddr
      connSock).dlg.mClientList.Perm
        (rowOf clientAddr connSock :: world.dlg.mClientList) := by
    change (world.dlg.insertClient clientAddr connSock).mClientList.Perm _
    rw [PCServerDlg.insertClient_mClientList]
    exact List.perm_insertIdx _ _ (min_le_right _ _)
  have pending := filterMap_perm_cons_set AcceptPhase.pendingRow found
    (.inserted conn clientAddr connSock)
    (pendingRow_accepted conn clientAddr connSock) rfl
  have rows := ((inserted.map rowTexts).append_right _).trans
    (List.perm_middle.symm.trans
      ((pending.map entryTexts).symm.append_left _))
  refine sealed_.of_fewer balanced rfl rfl rfl rfl rfl rfl ?_ rows.subperm ?_
  · rw [services]
  · have unregistered : (world.acceptLoops.set i (.inserted conn clientAddr
        connSock)).filterMap AcceptPhase.unregistered =
          world.acceptLoops.filterMap AcceptPhase.unregistered :=
      filterMap_set_of_eq _ found rfl
    change (_ ++ (world.acceptLoops.set i (.inserted conn clientAddr
        connSock)).filterMap AcceptPhase.unregistered).Subperm _
    rw [unregistered]
    exact List.Subperm.refl _

private theorem Sealed.addClient {world : World} {i conn : Nat}
    {clientAddr : SockaddrIn} {connSock : Socket} (sealed_ : world.Sealed)
    (found : world.acceptLoops[i]? =
      some (.inserted conn clientAddr connSock))
    (balanced : (world.addClient i conn clientAddr connSock).Balanced) :
    (world.addClient i conn clientAddr connSock).Sealed := by
  have services : (world.addClient i conn clientAddr connSock).inService =
      world.inService :=
    congrArg (_ ++ ·) (filterMap_set_of_eq AcceptPhase.handled found rfl)
  have pendingRows : (world.addClient i conn clientAddr
      connSock).acceptLoops.filterMap AcceptPhase.pendingRow =
        world.acceptLoops.filterMap AcceptPhase.pendingRow :=
    filterMap_set_of_eq _ found rfl
  have unregistered := filterMap_perm_cons_set AcceptPhase.unregistered
    found (.added conn clientAddr connSock)
    (unregistered_inserted conn clientAddr connSock) rfl
  refine sealed_.of_fewer balanced rfl rfl rfl rfl rfl rfl ?_ ?_ ?_
  · rw [services]
  · rw [pendingRows]
    exact List.Subperm.refl _
  · change ((world.dlg.mServer.mClientVec ++
      [TcpServer.acceptedItem clientAddr connSock]) ++ _).Subperm _
    rw [List.append_assoc]
    exact (unregistered.symm.append_left _).subperm

private theorem Sealed.startClient {world : World} {i conn : Nat}
    {clientAddr : SockaddrIn} {connSock : Socket} (sealed_ : world.Sealed)
    (found : world.acceptLoops[i]? =
      some (.added conn clientAddr connSock))
    (balanced : (world.startClient i conn).Balanced) :
    (world.startClient i conn).Sealed := by
  rw [sealed_.balanced.startClient_eq found] at balanced ⊢
  have handled := filterMap_perm_cons_set AcceptPhase.handled found .testing
    (handled_added conn clientAddr connSock) rfl
  have pendingRows : (world.acceptLoops.set i .testing).filterMap
      AcceptPhase.pendingRow =
        world.acceptLoops.filterMap AcceptPhase.pendingRow :=
    filterMap_set_of_eq _ found rfl
  have unregistered : (world.acceptLoops.set i .testing).filterMap
      AcceptPhase.unregistered =
        world.acceptLoops.filterMap AcceptPhase.unregistered :=
    filterMap_set_of_eq _ found rfl
  refine sealed_.of_fewer balanced rfl rfl rfl rfl rfl rfl ?_ ?_ ?_
  · simp only [inService, List.map_append, List.map_cons, List.map_nil,
      List.append_assoc]
    exact (handled.symm.append_left _).subperm
  · simp only [pendingRows]
    exact List.Subperm.refl _
  · simp only [unregistered]
    exact List.Subperm.refl _

private theorem Sealed.hangUp {world : World} {j : Nat} {loop : ClientLoop}
    (sealed_ : world.Sealed) (found : world.clientLoops[j]? = some loop)
    (balanced : (world.hangUp j loop).Balanced) :
    (world.hangUp j loop).Sealed := by
  have server : (world.hangUp j loop).dlg.mServer = world.dlg.mServer :=
    PCServerDlg.removeClient_mServer world.dlg loop.client
  have toolBar : (world.hangUp j loop).dlg.mToolBar = world.dlg.mToolBar :=
    PCServerDlg.removeClient_mToolBar world.dlg loop.client
  have services : (world.hangUp j loop).inService = world.inService :=
    congrArg (· ++ _) (map_set_of_eq found rfl)
  have rows : ((world.hangUp j loop).dlg.mClientList.map rowTexts).Sublist
      (world.dlg.mClientList.map rowTexts) := by
    change ((world.dlg.removeClient loop.client).mClientList.map
      rowTexts).Sublist _
    rw [PCServerDlg.removeClient_mClientList]
    exact (removeFirst_sublist _ _ _).map rowTexts
  refine sealed_.of_fewer balanced ?_ ?_ toolBar rfl rfl rfl ?_ ?_ ?_
  · rw [server]
  · rw [server]
  · rw [services]
  · exact (rows.append_right _).subperm
  · rw [server]
    exact List.Subperm.refl _

private theorem Sealed.deleteClient {world : World} {j : Nat}
    {loop : ClientLoop} (sealed_ : world.Sealed)
    (balanced : (world.deleteClient j loop).Balanced) :
    (world.deleteClient j loop).Sealed := by
  refine sealed_.of_fewer balanced rfl rfl rfl rfl rfl rfl ?_
    (List.Subperm.refl _) ?_
  · have fewer := List.eraseIdx_sublist world.clientLoops j
    exact ((fewer.map _).append_right _).subperm
  · have fewer := removeFirst_sublist CClientItem.cPort loop.client.cPort
      world.dlg.mServer.mClientVec
    rw [← TcpServer.deleteClient_mClientVec] at fewer
    exact (fewer.append_right _).subperm

theorem Sealed.steps {world next : World} {event : Event}
    (sealed_ : world.Sealed) (undisturbed : world.Undisturbed event)
    (taken : Steps world event next) : next.Sealed := by
  have balanced := sealed_.balanced.steps undisturbed taken
  cases taken with
  | openServer enabled fresh =>
      exact sealed_.openServer enabled fresh balanced
  | closeServer enabled =>
      exact sealed_.closeServer balanced undisturbed.1 undisturbed.2
  | testRun found running =>
      exact sealed_.of_idle balanced rfl rfl rfl rfl rfl
        (filterMap_set_of_eq _ found rfl) (filterMap_set_of_eq _ found rfl)
        (filterMap_set_of_eq _ found rfl)
  | endLoop found stopped =>
      exact sealed_.of_idle balanced rfl rfl rfl rfl rfl
        (filterMap_eraseIdx_of_none _ found rfl)
        (filterMap_eraseIdx_of_none _ found rfl)
        (filterMap_eraseIdx_of_none _ found rfl)
  | pollNothing found =>
      exact sealed_.of_idle balanced rfl rfl rfl rfl rfl
        (filterMap_set_of_eq _ found rfl) (filterMap_set_of_eq _ found rfl)
        (filterMap_set_of_eq _ found rfl)
  | accept found listening fresh =>
      exact sealed_.accept balanced found listening fresh
  | insertClient found => exact sealed_.insertClient found balanced
  | addClient found => exact sealed_.addClient found balanced
  | startClient found => exact sealed_.startClient found balanced
  | receive found notLeaving isOpen read =>
      exact sealed_.of_fewer balanced rfl rfl rfl rfl rfl rfl
        (List.Subperm.refl _) (List.Subperm.refl _) (List.Subperm.refl _)
  | hangUp found notLeaving isOpen => exact sealed_.hangUp found balanced
  | deleteClient found leaving => exact sealed_.deleteClient balanced

/-- While no handler is midway, a close keeps the sessions apart only when no
client loop runs: otherwise rows outlive the close. -/
theorem Sealed.closeServer_separated_iff {world : World}
    (sealed_ : world.Sealed) (settled : world.NoHandlerMidway) :
    world.closeServer.Separated ↔ world.Undisturbed .closeServer := by
  constructor
  · intro separated
    refine ⟨?_, settled.1⟩
    have noRows : world.dlg.mClientList = [] :=
      ((separated.2 settled).2.2 rfl).1
    rw [List.eq_nil_iff_forall_not_mem]
    intro loop member
    have notLeaving := settled.2 loop member
    have owes : 0 < world.clientLoops.countP
        (ClientLoop.hasRow loop.client.cPort) :=
      List.countP_pos_iff.mpr
        ⟨loop, member, by simp [ClientLoop.hasRow, notLeaving]⟩
    have rows := sealed_.balanced.rows loop.client.cPort
    rw [noRows, countKey_nil, rowDemand] at rows
    omega
  · rintro ⟨noLoops, noneMidway⟩
    have balanced := sealed_.balanced.closeServer noLoops noneMidway
    exact (sealed_.closeServer balanced noLoops noneMidway).separated

/-- In a run which closes the server only while no client loop runs and no
accept handler is midway, and in which no `AddClient` comes between another
loop's `AddClient` and its start of `ClientFunc`, the sessions are separated
in every state. -/
theorem close_separates_sessions {events : List Event}
    (undisturbed : process.StepsMeet Undisturbed initial events) :
    process.Always Separated initial events := by
  have always : process.Always Sealed initial events := by
    apply System.always_of_guarded _ sealed_initial undisturbed
    intro world event next sealed_ guard taken
    exact sealed_.steps guard (steps_of_step taken)
  exact always.mono fun world sealed_ => sealed_.separated

private def peer : SockaddrIn :=
  { sinPort := 0x8813, sinAddr := { b1 := 10, b2 := 0, b3 := 0, b4 := 1 } }

def servedRun : List Event :=
  [.openServer (.listens 4), .testRun 0, .accept 0 peer 8, .insertClient 0,
    .addClient 0, .startClient 0]

def quietCloseRun : List Event :=
  servedRun ++
    [.hangUp 0, .deleteClient 0, .closeServer, .openServer (.listens 12)]

theorem quietCloseRun_enabled :
    (process.exec initial quietCloseRun).isSome := by decide

theorem separated_after_quietCloseRun :
    ∃ world, process.Run initial quietCloseRun world ∧
      world.dlg.mServer.mRun = true ∧ world.Separated :=
  ⟨_, System.run_get quietCloseRun_enabled, by decide,
    close_separates_sessions (by decide) _ _ (List.prefix_refl _)
      (System.run_get quietCloseRun_enabled)⟩

/-- The server is closed and opened again while the peer is served, and the
next peer gets the handle of the first. -/
def reusedHandleRun : List Event :=
  servedRun ++
    [.closeServer, .openServer (.listens 4), .testRun 0, .accept 0 peer 8,
      .insertClient 0, .addClient 0, .startClient 0]

theorem reusedHandleRun_enabled :
    (process.exec initial reusedHandleRun).isSome := by decide

/-- A close while a client is served leaves its loop behind, which then reads
the connection that gets its handle next. -/
theorem close_mixes_sessions :
    ¬∀ events, process.Always Separated initial events := by
  intro separated
  have reached := System.run_get reusedHandleRun_enabled
  have oneReader := (separated reusedHandleRun _ _ (List.prefix_refl _)
    reached).1
  have twoReaders := (oneReader (8, .connection 1) (by decide)).2
  exact absurd twoReaders (by decide)

end World

end OpenChat.Server
