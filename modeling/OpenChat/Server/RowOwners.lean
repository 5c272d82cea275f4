import OpenChat.Server.ListAgreement

/-!
# Rows and the loops that will remove them

A row is filled for one connection and removed by a search for a port.  Over
all runs, with opens, closes and any number of accept loops, the rows are
those of the connections whose loops still have to remove one, as long as each
removal finds the loop's own row and each `ClientFunc` is handed the item of
its own connection.
-/

namespace OpenChat.Server

open Platform Foundation Foundation.KeyedList Foundation.Positions

/-- An accepted connection with a row and no `ClientFunc` yet. -/
def AcceptPhase.rowItem : AcceptPhase → Option CClientItem
  | .inserted _ clientAddr connSock | .added _ clientAddr connSock =>
      some (TcpServer.acceptedItem clientAddr connSock)
  | _ => none

def ClientLoop.rowItem (loop : ClientLoop) : Option CClientItem :=
  if loop.leaving then none else some loop.client

def AcceptPhase.rowService : AcceptPhase → Option (Nat × CClientItem)
  | .inserted conn clientAddr connSock | .added conn clientAddr connSock =>
      some (conn, TcpServer.acceptedItem clientAddr connSock)
  | _ => none

def ClientLoop.rowService (loop : ClientLoop) : Option (Nat × CClientItem) :=
  if loop.leaving then none else some (loop.conn, loop.client)

namespace World

/-- The items whose loops or handlers still have a row in the list. -/
def rowOwners (world : World) : List CClientItem :=
  world.clientLoops.filterMap ClientLoop.rowItem ++
    world.acceptLoops.filterMap AcceptPhase.rowItem

def rowServices (world : World) : List (Nat × CClientItem) :=
  world.clientLoops.filterMap ClientLoop.rowService ++
    world.acceptLoops.filterMap AcceptPhase.rowService

/-- There is one row for each owner, with its texts, and no other row. -/
def RowsOwned (world : World) : Prop :=
  (world.dlg.mClientList.map rowTexts).Perm
    (world.rowOwners.map entryTexts)

instance (world : World) : Decidable world.RowsOwned :=
  inferInstanceAs (Decidable (List.Perm _ _))

/-- The row a leaving loop finds shows its own texts, and the item a new
`ClientFunc` is handed shows those of the accepted connection. -/
def MindsOwnRow (world : World) : Event → Prop
  | .hangUp j =>
      ∀ loop ∈ world.clientLoops[j]?,
        ∀ row ∈ world.dlg.mClientList.find? (fun row =>
          rowPort row = (loop.client.cPort : Int)),
          rowTexts row = entryTexts loop.client
  | .startClient i =>
      ∀ phase ∈ world.acceptLoops[i]?, ∀ item ∈ phase.rowItem,
        ∀ entry ∈ world.dlg.mServer.mClientVec.getLast?,
          entryTexts entry = entryTexts item
  | _ => True

instance (world : World) : DecidablePred world.MindsOwnRow
  | .hangUp j =>
      inferInstanceAs (Decidable (∀ loop ∈ world.clientLoops[j]?, _))
  | .startClient i =>
      inferInstanceAs (Decidable (∀ phase ∈ world.acceptLoops[i]?, _))
  | .openServer _ | .closeServer | .testRun _ | .pollNothing _
  | .accept _ _ _ | .insertClient _ | .addClient _ | .receive _ _
  | .deleteClient _ => inferInstanceAs (Decidable True)

theorem rowsOwned_initial : initial.RowsOwned := .nil

theorem rowServices_snd (world : World) :
    world.rowServices.map Prod.snd = world.rowOwners := by
  rw [rowServices, rowOwners, List.map_append, List.map_filterMap,
    List.map_filterMap]
  congr 1
  · congr 1
    funext loop
    unfold ClientLoop.rowService ClientLoop.rowItem
    split <;> rfl
  · congr 1
    funext phase
    cases phase <;> rfl

section Effects

variable {world : World}

theorem RowsOwned.of_same {next : World} (owned : world.RowsOwned)
    (list : next.dlg.mClientList = world.dlg.mClientList)
    (services : next.rowServices = world.rowServices) : next.RowsOwned := by
  rw [RowsOwned, list, ← rowServices_snd, services, rowServices_snd]
  exact owned

theorem rowServices_openServer (world : World) (outcome : InitOutcome) :
    (world.openServer outcome).rowServices = world.rowServices := by
  have loops : (world.openServer outcome).clientLoops =
      world.clientLoops := rfl
  rw [rowServices, rowServices, loops]
  rcases world.openServer_acceptLoops outcome with same | appended
  · rw [same]
  · rw [appended, List.filterMap_append]
    simp [AcceptPhase.rowService]

theorem rowServices_of_accept {next : World} {i : Nat}
    {old new : AcceptPhase} (found : world.acceptLoops[i]? = some old)
    (accepts : next.acceptLoops = world.acceptLoops.set i new)
    (loops : next.clientLoops = world.clientLoops)
    (same : new.rowService = old.rowService) :
    next.rowServices = world.rowServices := by
  rw [rowServices, rowServices, loops, accepts,
    filterMap_set_of_eq _ found same]

theorem rowServices_endLoop {i : Nat}
    (found : world.acceptLoops[i]? = some .testing) :
    rowServices { world with acceptLoops := world.acceptLoops.eraseIdx i } =
      world.rowServices := by
  rw [rowServices, rowServices]
  rw [filterMap_eraseIdx_of_none _ found rfl]

theorem rowServices_insertClient {i conn : Nat} {clientAddr : SockaddrIn}
    {connSock : Socket}
    (found : world.acceptLoops[i]? =
      some (.accepted conn clientAddr connSock)) :
    (world.insertClient i conn clientAddr connSock).rowServices.Perm
      ((conn, TcpServer.acceptedItem clientAddr connSock) ::
        world.rowServices) := by
  have phases := filterMap_set_perm_cons AcceptPhase.rowService found rfl
    (show (AcceptPhase.inserted conn clientAddr connSock).rowService =
      some (conn, TcpServer.acceptedItem clientAddr connSock) from rfl)
  exact (phases.append_left _).trans List.perm_middle

theorem rowServices_hangUp {j : Nat} {loop : ClientLoop}
    (found : world.clientLoops[j]? = some loop)
    (notLeaving : loop.leaving = false) :
    world.rowServices.Perm
      ((loop.conn, loop.client) :: (world.hangUp j loop).rowServices) := by
  have some_ : loop.rowService = some (loop.conn, loop.client) := by
    simp [ClientLoop.rowService, notLeaving]
  have loops := filterMap_perm_cons_set ClientLoop.rowService found
    { loop with leaving := true } some_ rfl
  exact loops.append_right _

theorem rowServices_deleteClient {j : Nat} {loop : ClientLoop}
    (found : world.clientLoops[j]? = some loop)
    (leaving : loop.leaving = true) :
    (world.deleteClient j loop).rowServices = world.rowServices := by
  have nothing : loop.rowService = none := by
    rw [ClientLoop.rowService, if_pos leaving]
  rw [rowServices, rowServices, deleteClient,
    filterMap_eraseIdx_of_none _ found nothing]

theorem rowServices_startClient {i conn : Nat} {clientAddr : SockaddrIn}
    {connSock : Socket} {entry : CClientItem}
    (found : world.acceptLoops[i]? =
      some (.added conn clientAddr connSock))
    (last : world.dlg.mServer.mClientVec.getLast? = some entry) :
    ∃ others, world.rowServices.Perm
        ((conn, TcpServer.acceptedItem clientAddr connSock) :: others) ∧
      (world.startClient i conn).rowServices.Perm
        ((conn, entry) :: others) := by
  have handled := filterMap_perm_cons_set AcceptPhase.rowService found
    .testing
    (show (AcceptPhase.added conn clientAddr connSock).rowService =
      some (conn, TcpServer.acceptedItem clientAddr connSock) from rfl) rfl
  refine ⟨world.clientLoops.filterMap ClientLoop.rowService ++
    (world.acceptLoops.set i .testing).filterMap AcceptPhase.rowService,
    ?_, ?_⟩
  · exact (handled.append_left _).trans List.perm_middle
  · simp only [startClient, TcpServer.getClient_last, last, rowServices,
      List.filterMap_append, List.append_assoc]
    exact List.perm_middle

theorem rowOwners_insertClient {i conn : Nat} {clientAddr : SockaddrIn}
    {connSock : Socket}
    (found : world.acceptLoops[i]? =
      some (.accepted conn clientAddr connSock)) :
    (world.insertClient i conn clientAddr connSock).rowOwners.Perm
      (TcpServer.acceptedItem clientAddr connSock :: world.rowOwners) := by
  have services := (rowServices_insertClient found).map Prod.snd
  rwa [List.map_cons, rowServices_snd, rowServices_snd] at services

theorem rowOwners_hangUp {j : Nat} {loop : ClientLoop}
    (found : world.clientLoops[j]? = some loop)
    (notLeaving : loop.leaving = false) :
    world.rowOwners.Perm
      (loop.client :: (world.hangUp j loop).rowOwners) := by
  have services := (rowServices_hangUp found notLeaving).map Prod.snd
  rwa [List.map_cons, rowServices_snd, rowServices_snd] at services

theorem rowOwners_startClient {i conn : Nat} {clientAddr : SockaddrIn}
    {connSock : Socket} {entry : CClientItem}
    (found : world.acceptLoops[i]? =
      some (.added conn clientAddr connSock))
    (last : world.dlg.mServer.mClientVec.getLast? = some entry) :
    ∃ others, world.rowOwners.Perm
        (TcpServer.acceptedItem clientAddr connSock :: others) ∧
      (world.startClient i conn).rowOwners.Perm (entry :: others) := by
  obtain ⟨others, before, after⟩ := rowServices_startClient found last
  refine ⟨others.map Prod.snd, ?_, ?_⟩
  · rw [← rowServices_snd]
    exact before.map Prod.snd
  · rw [← rowServices_snd]
    exact after.map Prod.snd

end Effects

theorem RowsOwned.exists_found {world : World} (owned : world.RowsOwned)
    {j : Nat} {loop : ClientLoop} (found : world.clientLoops[j]? = some loop)
    (notLeaving : loop.leaving = false) :
    ∃ row, world.dlg.mClientList.find? (fun row =>
      rowPort row = (loop.client.cPort : Int)) = some row := by
  have owner := (rowOwners_hangUp found notLeaving).symm.subset
    List.mem_cons_self
  have shown := owned.symm.subset (List.mem_map_of_mem owner)
  obtain ⟨own, member, texts⟩ := List.mem_map.mp shown
  rw [← Option.isSome_iff_exists, List.find?_isSome]
  refine ⟨own, member, ?_⟩
  have portText : own.port = formatD loop.client.cPort :=
    congrArg Prod.fst texts
  simp [rowPort, portText, ttoi_formatD]

theorem RowsOwned.insertClient {world : World} {i conn : Nat}
    {clientAddr : SockaddrIn} {connSock : Socket} (owned : world.RowsOwned)
    (found : world.acceptLoops[i]? =
      some (.accepted conn clientAddr connSock)) :
    (world.insertClient i conn clientAddr connSock).RowsOwned := by
  have rows : (world.insertClient i conn clientAddr
      connSock).dlg.mClientList.Perm
        (rowOf clientAddr connSock :: world.dlg.mClientList) := by
    change (world.dlg.insertClient clientAddr connSock).mClientList.Perm _
    rw [PCServerDlg.insertClient_mClientList]
    exact List.perm_insertIdx _ _ (min_le_right _ _)
  have owners := rowOwners_insertClient found
  exact (rows.map rowTexts).trans
    ((owned.cons _).trans (owners.map entryTexts).symm)

theorem mindsOwnRow_startClient {world : World} {i conn : Nat}
    {clientAddr : SockaddrIn} {connSock : Socket} {entry : CClientItem}
    (found : world.acceptLoops[i]? =
      some (.added conn clientAddr connSock))
    (last : world.dlg.mServer.mClientVec.getLast? = some entry) :
    world.MindsOwnRow (.startClient i) ↔
      entryTexts (TcpServer.acceptedItem clientAddr connSock) =
        entryTexts entry := by
  constructor
  · intro minds
    exact (minds _ found _ rfl entry last).symm
  · intro same phase phaseFound item isItem other otherLast
    obtain rfl := Option.some.inj (found.symm.trans phaseFound)
    obtain rfl := Option.some.inj (last.symm.trans otherLast)
    obtain rfl := Option.some.inj isItem
    exact same.symm

/-- The new loop owns the row of its connection only if it was handed an item
with the same texts. -/
theorem RowsOwned.startClient_iff {world : World} {i conn : Nat}
    {clientAddr : SockaddrIn} {connSock : Socket} (owned : world.RowsOwned)
    (found : world.acceptLoops[i]? =
      some (.added conn clientAddr connSock)) :
    (world.startClient i conn).RowsOwned ↔
      world.MindsOwnRow (.startClient i) := by
  cases last : world.dlg.mServer.mClientVec.getLast? with
  | none =>
      -- the exception ends the process; the window stays as it was
      have ends : world.startClient i conn =
          { world with terminated := true } := by
        simp only [World.startClient, TcpServer.getClient_last, last]
      rw [ends]
      refine iff_of_true owned ?_
      intro phase _ item _ entry isLast
      rw [last] at isLast
      cases isLast
  | some entry =>
      have list : (world.startClient i conn).dlg.mClientList =
          world.dlg.mClientList := by
        simp only [World.startClient, TcpServer.getClient_last, last]
      obtain ⟨others, before, after⟩ := rowOwners_startClient found last
      have rows := owned.trans (before.map entryTexts)
      rw [mindsOwnRow_startClient found last, RowsOwned, list]
      constructor
      · intro still
        have both := rows.symm.trans (still.trans (after.map entryTexts))
        exact (perm_tails_iff both).mp (List.Perm.refl _)
      · intro same
        have heads : ((TcpServer.acceptedItem clientAddr connSock ::
            others).map entryTexts).Perm ((entry :: others).map
              entryTexts) := by
          rw [List.map_cons, List.map_cons, same]
        exact rows.trans (heads.trans (after.map entryTexts).symm)

/-- A leaving loop takes its own row away only if the row it finds shows its
texts. -/
theorem RowsOwned.hangUp_iff {world : World} {j : Nat} {loop : ClientLoop}
    (owned : world.RowsOwned) (found : world.clientLoops[j]? = some loop)
    (notLeaving : loop.leaving = false) :
    (world.hangUp j loop).RowsOwned ↔ world.MindsOwnRow (.hangUp j) := by
  obtain ⟨row, search⟩ := owned.exists_found found notLeaving
  have list : (world.hangUp j loop).dlg.mClientList =
      removeFirst rowPort (loop.client.cPort : Int)
        world.dlg.mClientList :=
    PCServerDlg.removeClient_mClientList world.dlg loop.client
  have minds : world.MindsOwnRow (.hangUp j) ↔
      rowTexts row = entryTexts loop.client := by
    constructor
    · intro minds
      exact minds loop found row search
    · intro same other otherFound otherRow otherSearch
      obtain rfl := Option.some.inj (found.symm.trans otherFound)
      obtain rfl := Option.some.inj (search.symm.trans otherSearch)
      exact same
  have rows := (perm_cons_removeFirst search).map rowTexts
  have owners := (rowOwners_hangUp found notLeaving).map entryTexts
  rw [minds, RowsOwned, list]
  exact perm_tails_iff (rows.symm.trans (owned.trans owners))

/-- One step: the rows have their owners afterwards exactly if the step minds
its own row. -/
theorem RowsOwned.steps_iff {world next : World} {event : Event}
    (owned : world.RowsOwned) (taken : Steps world event next) :
    next.RowsOwned ↔ world.MindsOwnRow event := by
  cases taken with
  | openServer enabled fresh =>
      exact iff_of_true (owned.of_same (openServer_mClientList _ _)
        (rowServices_openServer _ _)) trivial
  | closeServer enabled => exact iff_of_true owned trivial
  | testRun found running =>
      exact iff_of_true
        (owned.of_same rfl (rowServices_of_accept found rfl rfl rfl)) trivial
  | endLoop found stopped =>
      exact iff_of_true (owned.of_same rfl (rowServices_endLoop found)) trivial
  | pollNothing found =>
      exact iff_of_true
        (owned.of_same rfl (rowServices_of_accept found rfl rfl rfl)) trivial
  | accept found listening fresh =>
      exact iff_of_true
        (owned.of_same rfl (rowServices_of_accept found rfl rfl rfl)) trivial
  | insertClient found =>
      exact iff_of_true (owned.insertClient found) trivial
  | addClient found =>
      exact iff_of_true
        (owned.of_same rfl (rowServices_of_accept found rfl rfl rfl)) trivial
  | startClient found => exact owned.startClient_iff found
  | receive found notLeaving isOpen read => exact iff_of_true owned trivial
  | hangUp found notLeaving isOpen => exact owned.hangUp_iff found notLeaving
  | deleteClient found leaving =>
      exact iff_of_true
        (owned.of_same rfl (rowServices_deleteClient found leaving)) trivial

/-- In every run of the server the rows are throughout those of the
connections whose loops have not removed theirs, exactly if every leaving loop
finds a row with its own texts and every `ClientFunc` is handed an item with
the texts of its connection. -/
theorem rows_owned_iff {events : List Event} {world : World}
    (run : process.Run initial events world) :
    process.Always RowsOwned initial events ↔
      process.StepsMeet MindsOwnRow initial events := by
  apply System.always_iff_stepsMeet (fun _ owned => owned) _ _
    rowsOwned_initial run
  · intro world event next owned minds taken
    exact (owned.steps_iff (steps_of_step taken)).mpr minds
  · intro world event next owned strays taken still
    exact strays ((owned.steps_iff (steps_of_step taken)).mp still)

/-- Two peers with one port number join, and the second one leaves first. -/
def secondLeavesRun : List Event :=
  let first : SockaddrIn :=
    { sinPort := 0x8913, sinAddr := { b1 := 10, b2 := 0, b3 := 0, b4 := 3 } }
  let second : SockaddrIn :=
    { sinPort := 0x8913, sinAddr := { b1 := 10, b2 := 0, b3 := 0, b4 := 4 } }
  [.openServer (.listens 20),
    .testRun 0, .accept 0 first 24, .insertClient 0, .addClient 0,
    .startClient 0,
    .testRun 0, .accept 0 second 28, .insertClient 0, .addClient 0,
    .startClient 0,
    .hangUp 1]

theorem secondLeavesRun_enabled :
    (process.exec initial secondLeavesRun).isSome := by decide

theorem second_peer_takes_first_row :
    ¬process.Always RowsOwned initial secondLeavesRun := by
  rw [rows_owned_iff (System.run_get secondLeavesRun_enabled)]
  decide

end World

end OpenChat.Server
