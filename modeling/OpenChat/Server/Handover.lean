import OpenChat.Foundation.Run
import OpenChat.Server.TcpServer

/-!
# From an accepted connection to its loop

The accept handler adds an item to `mClientVec` and finds it again by
position: it evaluates `ClientNum()-1`, then `GetClient` of that index, then
starts `ClientFunc` with the result.  In between the loops of other clients
erase entries, and `Stop` clears the vector.
-/

namespace OpenChat.Server

open Platform Foundation Foundation.KeyedList

/-- What the accept handler has done for the connection it is at. -/
inductive HandoverPhase where
  | idle
  | added (item : CClientItem)
  | indexed (item : CClientItem) (cIndex : Nat)
  | fetched (item client : CClientItem)
deriving DecidableEq

/-- The registry, the accept handler, the items of the running `ClientFunc`
loops, all items added and all items loops were started with, and whether
`GetClient` threw. -/
structure Handover where
  server : TcpServer
  phase : HandoverPhase
  loops : List CClientItem
  accepted : List CClientItem
  started : List CClientItem
  thrown : Bool
deriving DecidableEq

inductive HandoverEvent where
  | addClient (cliAddr : SockaddrIn) (connSock : Socket)
  | clientNum
  | getClient
  | startClient
  | deleteClient (j : Nat)
  | stop
deriving DecidableEq

def HandoverPhase.pending : HandoverPhase → List CClientItem
  | .idle => []
  | .added item => [item]
  | .indexed item _ => [item]
  | .fetched item _ => [item]

def HandoverPhase.searching : HandoverPhase → Bool
  | .idle => false
  | .added _ => true
  | .indexed _ _ => true
  | .fetched _ _ => false

namespace Handover

def start (server : TcpServer) (loops : List CClientItem) : Handover :=
  { server := server
    phase := .idle
    loops := loops
    accepted := []
    started := []
    thrown := false }

def addClient (world : Handover) (cliAddr : SockaddrIn)
    (connSock : Socket) : Handover :=
  let item := TcpServer.acceptedItem cliAddr connSock
  { world with
    server := world.server.addClient cliAddr connSock
    phase := .added item
    accepted := world.accepted ++ [item] }

def getClient (world : Handover) (item : CClientItem) (cIndex : Nat) :
    Handover :=
  match world.server.getClient cIndex with
  | some client => { world with phase := .fetched item client }
  | none => { world with thrown := true }

def startClient (world : Handover) (client : CClientItem) : Handover :=
  { world with
    phase := .idle
    loops := world.loops ++ [client]
    started := world.started ++ [client] }

def deleteClient (world : Handover) (j : Nat) (client : CClientItem) :
    Handover :=
  { world with
    server := world.server.deleteClient client.cPort
    loops := world.loops.eraseIdx j }

def step (world : Handover) (event : HandoverEvent) : Option Handover :=
  if world.thrown then none else
  match event, world.phase with
  | .addClient cliAddr connSock, .idle =>
      some (world.addClient cliAddr connSock)
  | .clientNum, .added item =>
      some
        { world with
          phase := .indexed item
            (TcpServer.unsignedPred world.server.clientNum) }
  | .getClient, .indexed item cIndex => some (world.getClient item cIndex)
  | .startClient, .fetched _ client => some (world.startClient client)
  | .deleteClient j, _ =>
      (world.loops[j]?).map fun client => world.deleteClient j client
  | .stop, _ => some { world with server := world.server.stop }
  | _, _ => none

def process : System Handover HandoverEvent :=
  { step := step }

inductive Steps : Handover → HandoverEvent → Handover → Prop where
  | addClient {world : Handover} {cliAddr : SockaddrIn} {connSock : Socket} :
      world.phase = .idle →
      Steps world (.addClient cliAddr connSock)
        (world.addClient cliAddr connSock)
  | clientNum {world : Handover} {item : CClientItem} :
      world.phase = .added item →
      Steps world .clientNum
        { world with
          phase := .indexed item
            (TcpServer.unsignedPred world.server.clientNum) }
  | getClient {world : Handover} {item : CClientItem} {cIndex : Nat} :
      world.phase = .indexed item cIndex →
      Steps world .getClient (world.getClient item cIndex)
  | startClient {world : Handover} {item client : CClientItem} :
      world.phase = .fetched item client →
      Steps world .startClient (world.startClient client)
  | deleteClient {world : Handover} {j : Nat} {client : CClientItem} :
      world.loops[j]? = some client →
      Steps world (.deleteClient j) (world.deleteClient j client)
  | stop {world : Handover} :
      Steps world .stop { world with server := world.server.stop }

theorem steps_of_step {world next : Handover} {event : HandoverEvent}
    (taken : world.step event = some next) :
    world.thrown = false ∧ Steps world event next := by
  simp only [step, Option.ite_none_left_eq_some, Bool.not_eq_true] at taken
  obtain ⟨running, taken⟩ := taken
  refine ⟨running, ?_⟩
  split at taken
  · rename_i phase
    obtain rfl := Option.some.inj taken
    exact .addClient phase
  · rename_i phase
    obtain rfl := Option.some.inj taken
    exact .clientNum phase
  · rename_i phase
    obtain rfl := Option.some.inj taken
    exact .getClient phase
  · rename_i phase
    obtain rfl := Option.some.inj taken
    exact .startClient phase
  · obtain ⟨client, found, rfl⟩ := Option.map_eq_some_iff.mp taken
    exact .deleteClient found
  · obtain rfl := Option.some.inj taken
    exact .stop
  · simp at taken

/-- Every call of `GetClient` was in range, the item in hand is the one just
added, and every connection before it has its own loop. -/
structure Served (world : Handover) : Prop where
  inRange : world.thrown = false
  own : ∀ item client, world.phase = .fetched item client → client = item
  oneLoop : world.accepted = world.started ++ world.phase.pending

/-- The handler's item is where its next step looks for it. -/
def Locates (server : TcpServer) : HandoverPhase → Prop
  | .idle => True
  | .added item => server.mClientVec.getLast? = some item
  | .indexed item cIndex =>
      server.getClient cIndex = some item ∧ cIndex + 1 = server.clientNum
  | .fetched item client => client = item

/-- Erasing the first entry with the port leaves the handler's item where it
is. -/
def SurvivesDelete (entries : List CClientItem) (port : Nat) :
    HandoverPhase → Prop
  | .added item =>
      item.cPort = port → ∃ earlier ∈ entries.dropLast, earlier.cPort = port
  | .indexed _ _ => ∀ entry ∈ entries, entry.cPort ≠ port
  | _ => True

instance (entries : List CClientItem) (port : Nat) :
    DecidablePred (SurvivesDelete entries port)
  | .idle => inferInstanceAs (Decidable True)
  | .added _ => inferInstanceAs (Decidable (_ → _))
  | .indexed _ _ => inferInstanceAs (Decidable (∀ entry ∈ entries, _))
  | .fetched _ _ => inferInstanceAs (Decidable True)

/-- Between `AddClient` and `GetClient` nobody stops the server or moves the
handler's item. -/
def Spares (world : Handover) : HandoverEvent → Prop
  | .deleteClient j =>
      ∀ client ∈ world.loops[j]?, SurvivesDelete world.server.mClientVec
        client.cPort world.phase
  | .stop => world.phase.searching = false
  | _ => True

instance (world : Handover) : DecidablePred world.Spares
  | .addClient _ _ => inferInstanceAs (Decidable True)
  | .clientNum => inferInstanceAs (Decidable True)
  | .getClient => inferInstanceAs (Decidable True)
  | .startClient => inferInstanceAs (Decidable True)
  | .deleteClient j =>
      inferInstanceAs (Decidable (∀ client ∈ world.loops[j]?, _))
  | .stop => inferInstanceAs (Decidable (_ = _))

/-- The handler's item is out of reach of its next `GetClient`. -/
def Doomed (world : Handover) : Prop :=
  match world.phase with
  | .added item => item ∉ world.server.mClientVec
  | .indexed item cIndex =>
      item ∉ world.server.mClientVec ∨ world.server.clientNum ≤ cIndex
  | _ => False

structure OnCourse (world : Handover) : Prop where
  inRange : world.thrown = false
  locates : Locates world.server world.phase
  oneLoop : world.accepted = world.started ++ world.phase.pending

theorem OnCourse.served {world : Handover} (onCourse : world.OnCourse) :
    world.Served where
  inRange := onCourse.inRange
  own := by
    intro item client phase
    have locates := onCourse.locates
    rw [phase] at locates
    exact locates
  oneLoop := onCourse.oneLoop

theorem onCourse_start (server : TcpServer) (loops : List CClientItem) :
    (start server loops).OnCourse where
  inRange := rfl
  locates := trivial
  oneLoop := rfl

/-- Erasing an entry with the port of the last one erases the last one only if
no earlier entry has the port. -/
theorem getLast?_removeFirst {entries : List CClientItem}
    {item : CClientItem} {port : Nat} (last : entries.getLast? = some item)
    (survives : item.cPort = port →
      ∃ earlier ∈ entries.dropLast, earlier.cPort = port) :
    (removeFirst CClientItem.cPort port entries).getLast? = some item := by
  obtain ⟨before, rfl⟩ := List.getLast?_eq_some_iff.mp last
  rw [List.dropLast_concat] at survives
  by_cases same : item.cPort = port
  · rw [removeFirst_append_of_pos
      ((countKey_pos _ _).mpr (survives same)), List.getLast?_concat]
  · rw [removeFirst_append_of_other same, List.getLast?_concat]

theorem removeFirst_of_absent {entries : List CClientItem} {port : Nat}
    (absent : ∀ entry ∈ entries, entry.cPort ≠ port) :
    removeFirst CClientItem.cPort port entries = entries :=
  List.eraseP_of_forall_not (by simpa using absent)

theorem Locates.deleteClient {server : TcpServer} {phase : HandoverPhase}
    {port : Nat} (locates : Locates server phase)
    (survives : SurvivesDelete server.mClientVec port phase) :
    Locates (server.deleteClient port) phase := by
  cases phase with
  | idle => trivial
  | added item =>
      rw [Locates, TcpServer.deleteClient_mClientVec]
      exact getLast?_removeFirst locates survives
  | indexed item cIndex =>
      have same : server.deleteClient port = server := by
        rw [TcpServer.deleteClient, TcpServer.deleteLoop_eq_removeFirst,
          removeFirst_of_absent survives]
      rw [same]
      exact locates
  | fetched item client => exact locates

theorem OnCourse.getClient {world : Handover} (onCourse : world.OnCourse)
    {item : CClientItem} {cIndex : Nat}
    (phase : world.phase = .indexed item cIndex) :
    (world.getClient item cIndex).OnCourse := by
  have locates := onCourse.locates
  have oneLoop := onCourse.oneLoop
  rw [phase] at locates oneLoop
  rw [Handover.getClient, locates.1]
  exact ⟨onCourse.inRange, rfl, oneLoop⟩

theorem locates_clientNum {server : TcpServer} {item : CClientItem}
    (last : server.mClientVec.getLast? = some item) :
    Locates server
      (.indexed item (TcpServer.unsignedPred server.clientNum)) := by
  have nonempty : server.clientNum ≠ 0 := by
    intro empty
    rw [List.eq_nil_of_length_eq_zero empty] at last
    cases last
  refine ⟨(server.getClient_last).trans last, ?_⟩
  rw [TcpServer.unsignedPred, if_neg nonempty]
  omega

theorem OnCourse.step {world next : Handover} {event : HandoverEvent}
    (onCourse : world.OnCourse) (spares : world.Spares event)
    (taken : world.step event = some next) : next.OnCourse := by
  have locates := onCourse.locates
  have oneLoop := onCourse.oneLoop
  cases (steps_of_step taken).2 with
  | addClient phase =>
      rw [phase] at oneLoop
      refine ⟨onCourse.inRange, ?_, ?_⟩
      · exact List.getLast?_concat
      · simp only [Handover.addClient, oneLoop, HandoverPhase.pending,
          List.append_nil]
  | clientNum phase =>
      rw [phase] at locates oneLoop
      exact ⟨onCourse.inRange, locates_clientNum locates, oneLoop⟩
  | getClient phase => exact onCourse.getClient phase
  | startClient phase =>
      rw [phase] at locates oneLoop
      obtain rfl := locates
      refine ⟨onCourse.inRange, trivial, ?_⟩
      simp only [Handover.startClient, oneLoop, HandoverPhase.pending,
        List.append_nil]
  | deleteClient found =>
      exact ⟨onCourse.inRange, locates.deleteClient (spares _ found), oneLoop⟩
  | stop =>
      refine ⟨onCourse.inRange, ?_, oneLoop⟩
      cases phase : world.phase with
      | idle => trivial
      | fetched item client =>
          rw [phase] at locates
          exact locates
      | added item => simp [Spares, phase, HandoverPhase.searching] at spares
      | indexed item cIndex =>
          simp [Spares, phase, HandoverPhase.searching] at spares

/-- A `DeleteClient` which does not leave the handler's item where it is
erases it, or moves it in front of the index. -/
theorem OnCourse.doomed_deleteClient {world : Handover}
    (onCourse : world.OnCourse) {j : Nat} {client : CClientItem}
    (moves : ¬SurvivesDelete world.server.mClientVec client.cPort
      world.phase) :
    (world.deleteClient j client).Doomed := by
  have locates := onCourse.locates
  have entries : (world.deleteClient j client).server.mClientVec =
      removeFirst CClientItem.cPort client.cPort world.server.mClientVec :=
    TcpServer.deleteClient_mClientVec _ _
  cases phase : world.phase with
  | idle =>
      rw [phase] at moves
      exact (moves trivial).elim
  | fetched item fetchedClient =>
      rw [phase] at moves
      exact (moves trivial).elim
  | added item =>
      rw [phase] at locates moves
      simp only [SurvivesDelete, not_forall, not_exists, not_and] at moves
      obtain ⟨samePort, noEarlier⟩ := moves
      obtain ⟨before, split⟩ := List.getLast?_eq_some_iff.mp locates
      rw [split, List.dropLast_concat, ← samePort] at noEarlier
      have erased : removeFirst CClientItem.cPort client.cPort
          world.server.mClientVec = before := by
        rw [split, ← samePort, removeFirst_own noEarlier, List.append_nil]
      simp only [Doomed, entries, erased]
      rw [show (world.deleteClient j client).phase = .added item from phase]
      intro member
      exact noEarlier item member rfl
  | indexed item cIndex =>
      rw [phase] at locates moves
      simp only [SurvivesDelete, not_forall, not_not] at moves
      obtain ⟨entry, member, samePort⟩ := moves
      have shorter := List.length_eraseP_of_mem
        (p := fun item : CClientItem => item.cPort = client.cPort) member
        (by simpa using samePort)
      simp only [Doomed]
      rw [show (world.deleteClient j client).phase = .indexed item cIndex
        from phase]
      right
      have index := locates.2
      rw [TcpServer.clientNum] at index
      rw [TcpServer.clientNum, entries, removeFirst, shorter]
      omega

theorem OnCourse.doomed {world next : Handover} {event : HandoverEvent}
    (onCourse : world.OnCourse) (disturbs : ¬world.Spares event)
    (taken : world.step event = some next) : next.Doomed := by
  cases (steps_of_step taken).2 with
  | deleteClient found =>
      simp only [Spares, found, Option.mem_some_iff, forall_eq'] at disturbs
      exact onCourse.doomed_deleteClient disturbs
  | stop =>
      simp only [Spares, Bool.not_eq_false] at disturbs
      cases phase : world.phase with
      | added item => simp [Doomed, TcpServer.stop, TcpServer.unInit]
      | indexed item cIndex =>
          simp [Doomed, TcpServer.stop, TcpServer.unInit]
      | _ => simp [phase, HandoverPhase.searching] at disturbs
  | _ => exact (disturbs trivial).elim

theorem Doomed.not_served_getClient {world : Handover}
    (doomed : world.Doomed) {item : CClientItem} {cIndex : Nat}
    (phase : world.phase = .indexed item cIndex) :
    ¬(world.getClient item cIndex).Served := by
  intro served
  rw [Doomed, phase] at doomed
  cases result : world.server.getClient cIndex with
  | none =>
      have inRange := served.inRange
      simp [Handover.getClient, result] at inRange
  | some client =>
      have own := served.own item client (by
        simp [Handover.getClient, result])
      obtain ⟨inside, found⟩ := List.getElem?_eq_some_iff.mp result
      rcases doomed with gone | outside
      · exact gone (own ▸ found ▸ List.getElem_mem inside)
      · exact absurd inside (Nat.not_lt.mpr outside)

theorem Doomed.of_fewer {world next : Handover} (doomed : world.Doomed)
    (samePhase : next.phase = world.phase)
    (fewer : next.server.mClientVec.Sublist world.server.mClientVec) :
    next.Doomed := by
  rw [Doomed] at doomed ⊢
  rw [samePhase]
  cases phase : world.phase with
  | idle => simp [phase] at doomed
  | fetched item client => simp [phase] at doomed
  | added item =>
      rw [phase] at doomed
      exact fun member => doomed (fewer.subset member)
  | indexed item cIndex =>
      rw [phase] at doomed
      rcases doomed with gone | outside
      · exact .inl fun member => gone (fewer.subset member)
      · exact .inr (fewer.length_le.trans outside)

theorem Doomed.step {world next : Handover} {event : HandoverEvent}
    (doomed : world.Doomed) (taken : world.step event = some next) :
    next.Doomed ∨ ¬next.Served := by
  cases (steps_of_step taken).2 with
  | addClient phase => simp [Doomed, phase] at doomed
  | clientNum phase =>
      rw [Doomed, phase] at doomed
      exact .inl (.inl doomed)
  | getClient phase => exact .inr (doomed.not_served_getClient phase)
  | startClient phase => simp [Doomed, phase] at doomed
  | deleteClient found =>
      refine .inl (doomed.of_fewer rfl ?_)
      rw [Handover.deleteClient, TcpServer.deleteClient_mClientVec]
      exact removeFirst_sublist _ _ _
  | stop => exact .inl (doomed.of_fewer rfl (List.nil_sublist _))

theorem Doomed.searching {world : Handover} (doomed : world.Doomed) :
    world.phase.searching = true := by
  cases phase : world.phase with
  | idle => simp [Doomed, phase] at doomed
  | fetched item client => simp [Doomed, phase] at doomed
  | _ => rfl

/-- From any registry, in every run whose steps all spare the handler's item,
every connection gets its own loop; and a run which does not end between
`AddClient` and `GetClient` serves every connection only if its steps do. -/
theorem served_by_own_loop {server : TcpServer} {loops : List CClientItem}
    {events : List HandoverEvent} {finish : Handover}
    (run : process.Run (start server loops) events finish) :
    (process.StepsMeet Spares (start server loops) events →
        process.Always Served (start server loops) events) ∧
      (finish.phase.searching = false →
        process.Always Served (start server loops) events →
        process.StepsMeet Spares (start server loops) events) := by
  have initially := onCourse_start server loops
  have served : ∀ world, OnCourse world → Served world :=
    fun world onCourse => onCourse.served
  have preserved : ∀ world event next, OnCourse world → Spares world event →
      process.step world event = some next → OnCourse next :=
    fun world event next onCourse spares taken => onCourse.step spares taken
  constructor
  · intro meets
    exact (System.always_of_guarded preserved initially meets).mono served
  · intro settled
    have broken : ∀ world event next, OnCourse world →
        ¬Spares world event → process.step world event = some next →
          Doomed next ∨ ¬Served next :=
      fun world event next onCourse disturbs taken =>
        .inl (onCourse.doomed disturbs taken)
    have stays : ∀ world event next, Doomed world →
        process.step world event = some next → Doomed next ∨ ¬Served next :=
      fun world event next doomed taken => doomed.step taken
    have notDoomed : ¬Doomed finish := by
      intro doomed
      simp [doomed.searching] at settled
    exact (System.always_iff_stepsMeet_of_doomed served preserved broken
      stays initially run notDoomed).mp

/-- Two clients join, and the first leaves between the evaluation of
`ClientNum()-1` for the second and its `GetClient`. -/
def leavesBetween : List HandoverEvent :=
  let first : SockaddrIn :=
    { sinPort := 0x8813, sinAddr := { b1 := 10, b2 := 0, b3 := 0, b4 := 1 } }
  let second : SockaddrIn :=
    { sinPort := 0x8913, sinAddr := { b1 := 10, b2 := 0, b3 := 0, b4 := 2 } }
  [.addClient first 8, .clientNum, .getClient, .startClient,
    .addClient second 12, .clientNum, .deleteClient 0, .getClient]

theorem getClient_out_of_range :
    ¬∀ server loops events finish,
      process.Run (start server loops) events finish →
        process.Always Served (start server loops) events := by
  intro served
  have run : process.Run (start (TcpServer.create 8888) []) leavesBetween _ :=
    System.run_get (by decide)
  have always := served _ _ _ _ run leavesBetween _ List.prefix_rfl run
  exact absurd always.inRange (by decide)

def leavesBefore : List HandoverEvent :=
  let first : SockaddrIn :=
    { sinPort := 0x8813, sinAddr := { b1 := 10, b2 := 0, b3 := 0, b4 := 1 } }
  let second : SockaddrIn :=
    { sinPort := 0x8913, sinAddr := { b1 := 10, b2 := 0, b3 := 0, b4 := 2 } }
  [.addClient first 8, .clientNum, .getClient, .startClient,
    .deleteClient 0, .addClient second 12, .clientNum, .getClient,
    .startClient, .stop]

theorem served_in_leavesBefore :
    process.Always Served (start (TcpServer.create 8888) []) leavesBefore :=
  (served_by_own_loop (System.run_get (by decide))).1 (by decide)

end Handover

end OpenChat.Server
