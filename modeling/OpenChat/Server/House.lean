import OpenChat.Foundation.Simulation
import OpenChat.Server.ChatRoom
import OpenChat.Server.Delivery

/-!
# The server as a chat room

The server process, its operator and the byte streams of its clients make one
system.  Where rows have their owners and sessions are kept apart it is
simulated by a chat room: a connection is a visitor when it is accepted, a
member from `InsertClient` until `RemoveClient`, heard by its loop, and told
what is sent while its row is checked.
-/

namespace OpenChat.Server

open Platform Foundation Foundation.KeyedList Foundation.Positions

abbrev RowTexts := Text × Text × Text

/-- The chat room this server is: members are known by the texts of their
rows. -/
abbrev ServerRoom := ChatRoom Byte RowTexts (List Byte)

abbrev serverRoom :
    System ServerRoom (ChatAct Byte RowTexts (List Byte)) :=
  chatRoom Byte RowTexts (List Byte)

def AcceptPhase.waits : AcceptPhase → Option Nat
  | .accepted conn _ _ => some conn
  | _ => none

namespace World

def waitingConns (world : World) : List Nat :=
  world.acceptLoops.filterMap AcceptPhase.waits

def withTexts (services : List (Nat × CClientItem)) :
    List (Nat × RowTexts) :=
  services.map fun service => (service.1, entryTexts service.2)

end World

/-- The server with its operator, and a channel for each connection. -/
structure House where
  office : Office
  wires : Switchboard Byte

inductive HouseEvent where
  | room (event : RoomEvent)
  | operator (gesture : Gesture)

namespace House

def initial (answer : Nat → Int) : House :=
  { office := .initial answer, wires := .empty }

def world (house : House) : World :=
  house.office.world

def room (house : House) : Room :=
  { world := house.world, wires := house.wires }

def withRoom (house : House) (room : Room) : House :=
  { office := { house.office with world := room.world }
    wires := room.wires }

def step (page : CodePage) (house : House) : HouseEvent → Option House
  | .room event => (house.room.step event).map house.withRoom
  | .operator gesture =>
      (house.office.step page (.operator gesture)).map fun office =>
        { house with office := office }

def everyone (page : CodePage) : System House HouseEvent :=
  { step := step page }

def Orderly (house : House) : HouseEvent → Prop
  | .room (.server event) => house.world.Orderly event
  | _ => True

instance (house : House) : DecidablePred house.Orderly
  | .room (.server event) =>
      inferInstanceAs (Decidable (house.world.Orderly event))
  | .room (.clientSends _ _) | .room (.recv _ _) | .operator _ =>
      inferInstanceAs (Decidable True)

/-- The list shows the members, the info box a line for every chunk that was
heard of them, and each connection has been handed what was told to it. -/
structure Shows (house : House) (room : ServerRoom) : Prop where
  rows : (house.world.dlg.mClientList.map rowTexts).Perm
    (room.members.map Prod.snd)
  wires : house.wires = room.wires
  box : house.world.dlg.mInfoBox = Room.boxLines room.wires
  carried : ∀ conn, house.office.carriedTo conn = room.toldTo conn

structure Kept (house : House) : Prop where
  inOrder : house.world.InOrder
  attributed : house.room.Attributed
  delivered : house.office.Delivered

/-- The chat room has the same visitors, waiting or with a row, and the same
has been said, heard and told. -/
structure Mirrors (house : House) (room : ServerRoom) : Prop where
  kept : house.Kept
  arrived : room.arrived = house.world.nextConn
  waiting : room.waiting.Perm house.world.waitingConns
  members : room.members.Perm (World.withTexts house.world.rowServices)
  wires : room.wires = house.wires
  told : room.told = house.office.addressed

end House

namespace World

section Rows

variable {world : World}

theorem InOrder.mem_rowServices (inOrder : world.InOrder)
    {service : Nat × CClientItem} (served : service ∈ world.inService)
    (checks : world.ChecksItem service.2) : service ∈ world.rowServices := by
  obtain ⟨row, member, _, texts⟩ := checks
  have shown := inOrder.owned.subset (List.mem_map_of_mem member)
  rw [← rowServices_snd, List.map_map] at shown
  obtain ⟨other, isOther, otherTexts⟩ := List.mem_map.mp shown
  have otherServed := world.rowServices_sublist.subset isOther
  have sameText : formatLd other.2.cSocket = formatLd service.2.cSocket :=
    congrArg (fun texts => texts.2.2) (otherTexts.trans texts)
  have small : ∀ service ∈ world.inService,
      service.2.cSocket < 2 ^ 32 := by
    intro service served
    exact inOrder.small _ _ (inOrder.sealed_.owns service served).2
  have same := inOrder.sealed_.eq_of_cSocket_eq otherServed served
    (formatLd_injective (small other otherServed) (small service served)
      sameText)
  exact same ▸ isOther

theorem waitingConns_of_accept {next : World} {i : Nat}
    {old new : AcceptPhase} (found : world.acceptLoops[i]? = some old)
    (accepts : next.acceptLoops = world.acceptLoops.set i new)
    (same : new.waits = old.waits) :
    next.waitingConns = world.waitingConns := by
  rw [waitingConns, waitingConns, accepts, filterMap_set_of_eq _ found same]

theorem waitingConns_openServer (world : World) (outcome : InitOutcome) :
    (world.openServer outcome).waitingConns = world.waitingConns := by
  rw [waitingConns, waitingConns]
  rcases world.openServer_acceptLoops outcome with same | appended
  · rw [same]
  · rw [appended, List.filterMap_append]
    simp [AcceptPhase.waits]

theorem withTexts_startClient {i conn : Nat} {clientAddr : SockaddrIn}
    {connSock : Socket}
    (found : world.acceptLoops[i]? =
      some (.added conn clientAddr connSock))
    (minds : world.MindsOwnRow (.startClient i)) :
    (withTexts (world.startClient i conn).rowServices).Perm
      (withTexts world.rowServices) := by
  cases last : world.dlg.mServer.mClientVec.getLast? with
  | none =>
      -- the exception ends the process; nobody's row is touched
      have ends : world.startClient i conn =
          { world with terminated := true } := by
        simp only [World.startClient, TcpServer.getClient_last, last]
      rw [ends]
      exact .refl _
  | some entry =>
      have texts := (mindsOwnRow_startClient found last).mp minds
      obtain ⟨others, before, after⟩ := rowServices_startClient found last
      have same : withTexts ((conn, entry) :: others) =
          withTexts ((conn, TcpServer.acceptedItem clientAddr connSock) ::
            others) := by
        rw [withTexts, withTexts, List.map_cons, List.map_cons, texts]
      exact (after.map _).trans (.trans (.of_eq same) (before.map _).symm)

end Rows

end World

theorem act_gesture_box (page : CodePage) (desk : Desk) (gesture : Gesture) :
    (desk.act page gesture.action).dlg.mInfoBox = desk.dlg.mInfoBox := by
  cases gesture with
  | edit text | file lines buf | setCheck nRow checked => rfl
  | message msg =>
      cases msg with
      | other => rfl
      | keyDown wParam =>
          simp only [Gesture.action, Desk.act,
            PCServerDlg.preTranslateMessage]
          split
          · rfl
          · split <;> rfl

namespace House

theorem kept_initial (answer : Nat → Int) : (initial answer).Kept where
  inOrder := World.inOrder_initial
  attributed := Room.attributed_initial
  delivered := by
    constructor
    · intro conn
      rfl
    · intro entry member
      cases member

theorem Kept.operate {house : House} (kept : house.Kept) (page : CodePage)
    (gesture : Gesture) :
    Kept { house with office := house.office.operate page gesture } where
  inOrder := Office.inOrder_operate page kept.inOrder gesture
  attributed := by
    refine ⟨?_, kept.attributed.numbered, kept.attributed.faithful⟩
    have box := act_gesture_box page house.office.desk gesture
    exact box.trans kept.attributed.box
  delivered := kept.delivered.operate page gesture kept.inOrder

theorem Kept.hearsOwn {house : House} (kept : house.Kept) {j : Nat}
    {loop : ClientLoop} {conn : Nat}
    (found : house.world.clientLoops[j]? = some loop)
    (reading : loop.leaving = false)
    (named : house.world.connectionOf loop.client.cSocket = some conn) :
    conn = loop.conn :=
  kept.inOrder.sealed_.connectionOf (List.mem_of_getElem? found) reading
    named

theorem Kept.room {house : House} {next : Room} {event : RoomEvent}
    (kept : house.Kept) (orderly : house.Orderly (.room event))
    (taken : house.room.step event = some next) :
    (house.withRoom next).Kept := by
  have delivered : (house.withRoom next).office.Delivered :=
    ⟨kept.delivered.exactly, kept.delivered.reached⟩
  cases event with
  | server event =>
      obtain ⟨steps, _⟩ := Room.step_server taken
      exact ⟨kept.inOrder.steps orderly steps,
        (kept.attributed.step_iff taken).mpr trivial, delivered⟩
  | clientSends conn bytes =>
      have still := (kept.attributed.step_iff taken).mpr trivial
      obtain rfl := Room.sends_of_step taken
      exact ⟨kept.inOrder, still, delivered⟩
  | recv j count =>
      obtain ⟨loop, conn, chunk, _, found, reading, named, _, _, steps, _⟩ :=
        Room.step_recv taken
      have own : house.room.HearsOwn (.recv j count) := by
        intro same isSame
        obtain rfl := Option.some.inj (found.symm.trans isSame)
        rw [named, kept.hearsOwn found reading named]
      have quiet : house.world.Orderly (.receive j chunk) :=
        ⟨trivial, trivial, trivial⟩
      exact ⟨kept.inOrder.steps quiet steps,
        (kept.attributed.step_iff taken).mpr own, delivered⟩

theorem mirrors_initial (answer : Nat → Int) :
    (initial answer).Mirrors ChatRoom.empty where
  kept := kept_initial answer
  arrived := rfl
  waiting := .nil
  members := .nil
  wires := rfl
  told := rfl

theorem Mirrors.shows {house : House} {room : ServerRoom}
    (mirrors : house.Mirrors room) : house.Shows room where
  rows := by
    have texts := mirrors.members.map Prod.snd
    have owners : (World.withTexts house.world.rowServices).map Prod.snd =
        house.world.rowOwners.map entryTexts := by
      rw [← World.rowServices_snd, World.withTexts, List.map_map,
        List.map_map]
      rfl
    rw [owners] at texts
    exact mirrors.kept.inOrder.owned.trans texts.symm
  wires := mirrors.wires.symm
  box := by
    rw [mirrors.wires]
    exact mirrors.kept.attributed.box
  carried := by
    intro conn
    rw [mirrors.kept.delivered.exactly, ChatRoom.toldTo, mirrors.told]
    rfl

theorem Mirrors.isMember {house : House} {room : ServerRoom}
    (mirrors : house.Mirrors room) {service : Nat × CClientItem}
    (shown : service ∈ house.world.rowServices) :
    room.IsMember service.1 := by
  have member : (service.1, entryTexts service.2) ∈ room.members :=
    mirrors.members.symm.subset (List.mem_map_of_mem shown)
  exact List.mem_map_of_mem member

/-- A step of the server that no member and no visitor notices. -/
theorem Mirrors.unseen {house : House} {room : ServerRoom} {next : Room}
    (mirrors : house.Mirrors room) (kept : (house.withRoom next).Kept)
    (nextConn : next.world.nextConn = house.world.nextConn)
    (waiting : next.world.waitingConns = house.world.waitingConns)
    (members : (World.withTexts next.world.rowServices).Perm
      (World.withTexts house.world.rowServices))
    (wires : next.wires = house.wires) :
    (house.withRoom next).Mirrors room where
  kept := kept
  arrived := mirrors.arrived.trans nextConn.symm
  waiting := mirrors.waiting.trans (.of_eq waiting.symm)
  members := mirrors.members.trans members.symm
  wires := mirrors.wires.trans wires.symm
  told := mirrors.told

/-- An accepted connection is a new visitor. -/
theorem Mirrors.accept {house : House} {room : ServerRoom} {i : Nat}
    {clientAddr : SockaddrIn} {connSock : Socket}
    (mirrors : house.Mirrors room) {next : Room}
    (kept : (house.withRoom next).Kept)
    (found : house.world.acceptLoops[i]? = some .polling)
    (world : next.world = house.world.accept i clientAddr connSock)
    (wires : next.wires = house.wires.connect) :
    serverRoom.Leads room (house.withRoom next).Mirrors := by
  have waiting := filterMap_set_perm_cons AcceptPhase.waits found rfl
    (show (AcceptPhase.accepted house.world.nextConn clientAddr
      connSock).waits = some house.world.nextConn from rfl)
  refine .act .arrive rfl ⟨kept, ?_, ?_, ?_, ?_, mirrors.told⟩
  · change room.arrived + 1 = next.world.nextConn
    rw [world, mirrors.arrived]
    rfl
  · change (room.waiting ++ [room.arrived]).Perm next.world.waitingConns
    rw [world, mirrors.arrived]
    refine (List.perm_append_singleton _ _).trans ?_
    exact (mirrors.waiting.cons _).trans waiting.symm
  · change room.members.Perm (World.withTexts next.world.rowServices)
    have same : (house.world.accept i clientAddr connSock).rowServices =
        house.world.rowServices :=
      World.rowServices_of_accept found rfl rfl rfl
    rw [world, same]
    exact mirrors.members
  · change room.wires.connect = next.wires
    rw [wires, mirrors.wires]

/-- With its row a visitor becomes a member. -/
theorem Mirrors.insertClient {house : House} {room : ServerRoom}
    {i conn : Nat} {clientAddr : SockaddrIn} {connSock : Socket}
    (mirrors : house.Mirrors room) {next : Room}
    (kept : (house.withRoom next).Kept)
    (found : house.world.acceptLoops[i]? =
      some (.accepted conn clientAddr connSock))
    (world : next.world =
      house.world.insertClient i conn clientAddr connSock)
    (wires : next.wires = house.wires) :
    serverRoom.Leads room (house.withRoom next).Mirrors := by
  have waiting := filterMap_perm_cons_set AcceptPhase.waits found
    (.inserted conn clientAddr connSock)
    (show (AcceptPhase.accepted conn clientAddr connSock).waits = some conn
      from rfl) rfl
  have shown := (World.rowServices_insertClient found).map
    fun service => (service.1, entryTexts service.2)
  have queue := mirrors.waiting.trans waiting
  have waits : conn ∈ room.waiting := queue.symm.subset List.mem_cons_self
  refine .act (.join conn (entryTexts
    (TcpServer.acceptedItem clientAddr connSock))) (if_pos waits)
    ⟨kept, ?_, ?_, ?_, ?_, mirrors.told⟩
  · change room.arrived = next.world.nextConn
    rw [world]
    exact mirrors.arrived
  · change (room.waiting.erase conn).Perm next.world.waitingConns
    have rest := queue.erase conn
    rw [List.erase_cons_head] at rest
    rw [world]
    exact rest
  · refine (List.perm_append_singleton _ _).trans ?_
    change List.Perm _ (World.withTexts next.world.rowServices)
    rw [world]
    exact (mirrors.members.cons _).trans shown.symm
  · exact mirrors.wires.trans wires.symm

/-- With its row a member leaves. -/
theorem Mirrors.hangUp {house : House} {room : ServerRoom} {j : Nat}
    {loop : ClientLoop} (mirrors : house.Mirrors room) {next : Room}
    (kept : (house.withRoom next).Kept)
    (found : house.world.clientLoops[j]? = some loop)
    (notLeaving : loop.leaving = false)
    (world : next.world = house.world.hangUp j loop)
    (wires : next.wires = house.wires) :
    serverRoom.Leads room (house.withRoom next).Mirrors := by
  have shown := World.rowServices_hangUp found notLeaving
  have isMember : room.IsMember loop.conn :=
    mirrors.isMember (shown.symm.subset List.mem_cons_self)
  have distinct : (loop.conn ::
      (house.world.hangUp j loop).rowServices.map Prod.fst).Nodup := by
    have services := house.world.rowServices_sublist.map Prod.fst
    rw [← List.map_cons (f := Prod.fst) (a := (loop.conn, loop.client)),
      ← (shown.map Prod.fst).nodup_iff]
    exact mirrors.kept.inOrder.sealed_.distinct.sublist services
  have others : (World.withTexts
      (house.world.hangUp j loop).rowServices).filter
        (fun visitor => visitor.1 ≠ loop.conn) =
      World.withTexts (house.world.hangUp j loop).rowServices := by
    rw [List.filter_eq_self]
    intro visitor member
    obtain ⟨service, isService, rfl⟩ := List.mem_map.mp member
    refine decide_eq_true ?_
    intro same
    apply (List.nodup_cons.mp distinct).1
    rw [← same]
    exact List.mem_map_of_mem isService
  refine .act (.leave loop.conn) (if_pos isMember)
    ⟨kept, ?_, ?_, ?_, ?_, mirrors.told⟩
  · change room.arrived = next.world.nextConn
    rw [world]
    exact mirrors.arrived
  · change room.waiting.Perm next.world.waitingConns
    rw [world]
    exact mirrors.waiting
  · change (room.members.filter fun visitor => visitor.1 ≠ loop.conn).Perm
      (World.withTexts next.world.rowServices)
    have remaining := (mirrors.members.trans (shown.map _)).filter
      fun visitor => visitor.1 ≠ loop.conn
    rw [List.map_cons, List.filter_cons_of_neg (by simp)] at remaining
    rw [world, ← others]
    exact remaining
  · exact mirrors.wires.trans wires.symm

/-- A step of the server is one act of a visitor, or nobody notices it. -/
theorem Mirrors.server {house : House} {room : ServerRoom} {next : Room}
    {event : Event} (mirrors : house.Mirrors room)
    (orderly : house.world.Orderly event)
    (taken : house.room.step (.server event) = some next) :
    serverRoom.Leads room (house.withRoom next).Mirrors := by
  have kept : (house.withRoom next).Kept :=
    @Kept.room house next (.server event) mirrors.kept orderly taken
  obtain ⟨steps, notReceive, accepts | others⟩ := Room.step_server taken
  · obtain ⟨i, clientAddr, connSock, rfl, wires⟩ := accepts
    obtain ⟨world, nextWires⟩ := next
    cases steps with
    | accept found listening fresh =>
        exact mirrors.accept kept found rfl wires
  · obtain ⟨notAccept, wires⟩ := others
    obtain ⟨world, nextWires⟩ := next
    cases steps with
    | accept => exact (notAccept _ _ _ rfl).elim
    | receive => exact (notReceive _ _ rfl).elim
    | insertClient found =>
        exact mirrors.insertClient kept found rfl wires
    | hangUp found notLeaving isOpen =>
        exact mirrors.hangUp kept found notLeaving rfl wires
    | openServer enabled fresh =>
        exact .stay (mirrors.unseen kept rfl
          (World.waitingConns_openServer _ _)
          (.of_eq (congrArg _ (World.rowServices_openServer _ _))) wires)
    | closeServer enabled =>
        exact .stay (mirrors.unseen kept rfl rfl (.refl _) wires)
    | endLoop found stopped =>
        have waiting := filterMap_eraseIdx_of_none AcceptPhase.waits found rfl
        have phases :=
          filterMap_eraseIdx_of_none AcceptPhase.rowService found rfl
        exact .stay (mirrors.unseen kept rfl waiting
          (.of_eq (congrArg (fun phases => World.withTexts
            (house.world.clientLoops.filterMap ClientLoop.rowService ++
              phases)) phases)) wires)
    | testRun found running | pollNothing found | addClient found =>
        exact .stay (mirrors.unseen kept rfl
          (World.waitingConns_of_accept found rfl rfl)
          (.of_eq (congrArg _
            (World.rowServices_of_accept found rfl rfl rfl))) wires)
    | startClient found =>
        refine .stay (mirrors.unseen kept ?_ ?_
          (World.withTexts_startClient found orderly.2.1) wires)
        · dsimp only
          split <;> rfl
        · dsimp only
          split
          · exact World.waitingConns_of_accept found rfl rfl
          · rfl
    | deleteClient found leaving =>
        exact .stay (mirrors.unseen kept rfl rfl
          (.of_eq (congrArg _ (World.rowServices_deleteClient found leaving)))
          wires)

theorem Mirrors.clientSends {house : House} {room : ServerRoom}
    {next : Room} {conn : Nat} {bytes : List Byte}
    (mirrors : house.Mirrors room)
    (taken : house.room.step (.clientSends conn bytes) = some next) :
    serverRoom.Leads room (house.withRoom next).Mirrors := by
  have kept : (house.withRoom next).Kept :=
    @Kept.room house next (.clientSends conn bytes) mirrors.kept trivial
      taken
  obtain ⟨known, _⟩ := Option.ite_none_right_eq_some.mp taken
  obtain rfl := Room.sends_of_step taken
  have arrived : conn < room.arrived := by
    rw [mirrors.arrived]
    exact Nat.lt_of_lt_of_eq known mirrors.kept.attributed.numbered
  refine .act (.say conn bytes) (if_pos arrived) ⟨kept, mirrors.arrived,
    mirrors.waiting, mirrors.members, ?_, mirrors.told⟩
  exact congrArg (fun wires => wires.send conn bytes) mirrors.wires

theorem Mirrors.recv {house : House} {room : ServerRoom} {next : Room}
    {j count : Nat} (mirrors : house.Mirrors room)
    (taken : house.room.step (.recv j count) = some next) :
    serverRoom.Leads room (house.withRoom next).Mirrors := by
  have kept : (house.withRoom next).Kept :=
    @Kept.room house next (.recv j count) mirrors.kept trivial taken
  obtain ⟨loop, conn, chunk, strMsg, found, reading, named, front, _, _,
    rfl⟩ := Room.step_recv taken
  obtain rfl := mirrors.kept.hearsOwn found reading named
  have shown : (loop.conn, loop.client) ∈ house.world.rowServices := by
    apply List.mem_append_left
    apply List.mem_filterMap.mpr
    refine ⟨loop, List.mem_of_getElem? found, ?_⟩
    rw [ClientLoop.rowService, reading]
    rfl
  have isMember : room.IsMember loop.conn := mirrors.isMember shown
  have same : room.wires.front loop.conn count = some chunk := by
    rw [mirrors.wires]
    exact front
  have heard : serverRoom.step room (.hear loop.conn count) = some
      { room with wires := room.wires.deliver loop.conn loop.conn chunk } := by
    refine (if_pos isMember).trans ?_
    rw [same]
    rfl
  refine .act _ heard ⟨kept, mirrors.arrived, mirrors.waiting,
    mirrors.members, ?_, mirrors.told⟩
  exact congrArg (fun wires => wires.deliver loop.conn loop.conn chunk)
    mirrors.wires

/-- What the operator does at the window is told to the members whose rows
are checked. -/
theorem Mirrors.operate {house : House} {room : ServerRoom}
    (mirrors : house.Mirrors room) (page : CodePage) (gesture : Gesture) :
    serverRoom.Leads room (Mirrors
      { house with office := house.office.operate page gesture }) := by
  have checked : ∀ k ∈ house.world.checkedConnections, room.IsMember k := by
    intro k isChecked
    obtain ⟨service, member, rfl⟩ := List.mem_map.mp isChecked
    obtain ⟨served, checks⟩ := List.mem_filter.mp member
    exact mirrors.isMember (mirrors.kept.inOrder.mem_rowServices served
      (of_decide_eq_true checks))
  refine .act (.tell house.world.checkedConnections
    (handed page house.world.dlg.mEditSend gesture.action))
    (if_pos checked) ⟨mirrors.kept.operate page gesture, mirrors.arrived,
      mirrors.waiting, mirrors.members, mirrors.wires, ?_⟩
  exact congrArg (fun told => told ++ [(house.world.checkedConnections,
    handed page house.world.dlg.mEditSend gesture.action)]) mirrors.told

theorem simulated (page : CodePage) :
    (everyone page).SimulatedBy serverRoom Orderly Mirrors := by
  intro house event next room mirrors orderly taken
  cases event with
  | room event =>
      obtain ⟨after, stepped, rfl⟩ := Option.map_eq_some_iff.mp taken
      cases event with
      | server event => exact mirrors.server orderly stepped
      | clientSends conn bytes => exact mirrors.clientSends stepped
      | recv j count => exact mirrors.recv stepped
  | operator gesture =>
      obtain ⟨office, operated, rfl⟩ := Option.map_eq_some_iff.mp taken
      obtain ⟨_, result⟩ := Option.ite_none_left_eq_some.mp operated
      obtain rfl := Option.some.inj result
      exact mirrors.operate page gesture

/-- In every run of clients, server and operator whose server steps are
orderly, every state shows a sound chat room that a run of the chat room leads
to. -/
theorem house_is_chat_room (page : CodePage) (answer : Nat → Int)
    {events : List HouseEvent}
    (orderly : (everyone page).StepsMeet Orderly (initial answer) events) :
    (everyone page).Always
      (fun house => ∃ acts room, serverRoom.Run .empty acts room ∧
        room.Sound ∧ house.Shows room)
      (initial answer) events := by
  have always := (simulated page).always orderly (mirrors_initial answer)
  refine always.mono ?_
  intro house leads
  obtain ⟨acts, room, run, mirrors⟩ := leads
  exact ⟨acts, room, run, ChatRoom.sound_of_run run, mirrors.shows⟩

private def guest (host : UInt8) : SockaddrIn :=
  { sinPort := 0x9213
    sinAddr := { b1 := 10, b2 := 0, b3 := 0, b4 := host } }

/-- A guest joins, is heard in two pieces, is told `o` while another one is
being accepted, and leaves. -/
def guestRun : List HouseEvent :=
  [.room (.server (.openServer (.listens 132))),
    .room (.server (.testRun 0)),
    .room (.server (.accept 0 (guest 15) 136)),
    .room (.clientSends 0 [97, 98, 99]),
    .room (.server (.insertClient 0)), .room (.server (.addClient 0)),
    .room (.server (.startClient 0)), .room (.recv 0 2),
    .operator (.setCheck 0 true), .operator (.edit [111]),
    .room (.server (.testRun 0)),
    .room (.server (.accept 0 (guest 16) 140)),
    .operator (.message (.keyDown vkReturn)), .room (.recv 0 1),
    .room (.server (.hangUp 0)), .room (.server (.insertClient 0)),
    .room (.server (.deleteClient 0))]

theorem guestRun_enabled :
    ((everyone .ascii).exec (initial fun _ => 1) guestRun).isSome := by
  decide

theorem guests_make_chat_room :
    ∃ acts room, serverRoom.Run .empty acts room ∧ room.Sound ∧
      (((everyone .ascii).exec (initial fun _ => 1) guestRun).get
        guestRun_enabled).Shows room :=
  house_is_chat_room .ascii (fun _ => 1) (by decide) _ _
    (List.prefix_refl _) (System.run_get guestRun_enabled)

end House

end OpenChat.Server
