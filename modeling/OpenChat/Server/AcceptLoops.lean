import OpenChat.Foundation.Run
import OpenChat.Server.ServerDlg

/-!
# Accept loops across restarts

`Stop` ends an accept loop only by clearing `mRun`; the loop has to see that
before the next `Start` sets the flag again, and until then it accepts on
whatever socket `mLisSock` names.  Calls of `Start` are numbered, and every
loop and every listening socket carries the number of the call it comes from.
-/

namespace OpenChat.Server

open Platform Foundation

/-- A running `SelectFunc`: the `Start` it comes from, and whether it has
tested `IsRun()` and is in the body of its loop. -/
structure SelectLoop where
  start : Nat
  inBody : Bool
deriving DecidableEq

/-- The window, the number of calls of `Start`, the open sockets (a listening
one with the `Start` that created it), the running loops, the accepts so far
(the `Start` of the loop and that of the listening socket), and the items
given to new `ClientFunc` threads. -/
structure Acceptors where
  dlg : PCServerDlg
  starts : Nat
  openSockets : List (Socket × Option Nat)
  loops : List SelectLoop
  accepts : List (Nat × Nat)
  readers : List CClientItem
deriving DecidableEq

/-- What a pass of the loop body finds: no connection in time or none that can
be accepted, or an accepted one. -/
inductive Iteration where
  | nothing
  | accepts (clientAddr : SockaddrIn) (connSock : Socket)
deriving DecidableEq

inductive LoopEvent where
  | openServer (outcome : InitOutcome)
  | closeServer
  | testRun (i : Nat)
  | iterate (i : Nat) (iteration : Iteration)
deriving DecidableEq

namespace Acceptors

def initial : Acceptors :=
  { dlg := PCServerDlg.create
    starts := 0
    openSockets := []
    loops := []
    accepts := []
    readers := [] }

def Unused (world : Acceptors) (handle : Socket) : Prop :=
  handle ≠ invalidSocket ∧ handle ∉ world.openSockets.map Prod.fst

instance (world : Acceptors) (handle : Socket) :
    Decidable (world.Unused handle) :=
  inferInstanceAs (Decidable (_ ∧ _))

def created (start : Nat) : InitOutcome → List (Socket × Option Nat)
  | .socketFails => []
  | .bindFails handle => [(handle, none)]
  | .listenFails handle => [(handle, none)]
  | .listens handle => [(handle, some start)]

def openServer (world : Acceptors) (outcome : InitOutcome) : Acceptors :=
  let (started, dlg) := world.dlg.onBtnOpen outcome
  { world with
    dlg := dlg
    starts := world.starts + 1
    openSockets := world.openSockets ++ created world.starts outcome
    loops :=
      if started then
        world.loops ++ [{ start := world.starts, inBody := false }]
      else world.loops }

def closeServer (world : Acceptors) : Acceptors :=
  { world with
    dlg := world.dlg.onBtnClose
    openSockets := world.openSockets.filter fun socket =>
      socket.1 ∉ world.dlg.mServer.unInitCloses }

/-- The `Start` that created the listening socket `mLisSock` names. -/
def creator (world : Acceptors) : Option Nat :=
  world.openSockets.findSome? fun socket =>
    if socket.1 = world.dlg.mServer.mLisSock then socket.2 else none

/-- The body of the loop for an accepted connection. -/
def serve (dlg : PCServerDlg) (clientAddr : SockaddrIn) (connSock : Socket) :
    PCServerDlg :=
  let dlg := (dlg.insertClient clientAddr connSock).notifyUi
    ("[SYS] ".toList ++ formatD (ntohs clientAddr.sinPort).toNat ++
      "已登录".toList)
  { dlg with mServer := dlg.mServer.addClient clientAddr connSock }

def passOver (world : Acceptors) (i : Nat) (loop : SelectLoop) : Acceptors :=
  { world with loops := world.loops.set i { loop with inBody := false } }

/-- A pass of the body of loop `i` which accepts a connection on the socket
that the `Start` numbered `start` created. -/
def accept (world : Acceptors) (i : Nat) (loop : SelectLoop) (start : Nat)
    (clientAddr : SockaddrIn) (connSock : Socket) : Acceptors :=
  let dlg := serve world.dlg clientAddr connSock
  let client := dlg.mServer.getClient
    (TcpServer.unsignedPred dlg.mServer.clientNum)
  { world with
    dlg := dlg
    openSockets := world.openSockets ++ [(connSock, none)]
    loops := world.loops.set i { loop with inBody := false }
    accepts := world.accepts ++ [(loop.start, start)]
    readers := world.readers ++ client.toList }

def step (world : Acceptors) : LoopEvent → Option Acceptors
  | .openServer outcome =>
      if world.dlg.mToolBar.button1 = true ∧
          ∀ socket ∈ created world.starts outcome, world.Unused socket.1 then
        some (world.openServer outcome)
      else none
  | .closeServer =>
      if world.dlg.mToolBar.button2 = true then some world.closeServer
      else none
  | .testRun i =>
      match world.loops[i]? with
      | some loop =>
          if loop.inBody then none
          else if world.dlg.mServer.mRun then
            some
              { world with
                loops := world.loops.set i { loop with inBody := true } }
          else
            some { world with loops := world.loops.eraseIdx i }
      | none => none
  | .iterate i iteration =>
      match world.loops[i]? with
      | some loop =>
          if loop.inBody then
            match iteration with
            | .nothing => some (world.passOver i loop)
            | .accepts clientAddr connSock =>
                if world.Unused connSock then
                  world.creator.map fun start =>
                    world.accept i loop start clientAddr connSock
                else none
          else none
      | none => none

def process : System Acceptors LoopEvent :=
  { step := step }

inductive Steps : Acceptors → LoopEvent → Acceptors → Prop where
  | openServer {world : Acceptors} {outcome : InitOutcome} :
      Steps world (.openServer outcome) (world.openServer outcome)
  | closeServer {world : Acceptors} :
      Steps world .closeServer world.closeServer
  | enter {world : Acceptors} {i : Nat} {loop : SelectLoop} :
      world.loops[i]? = some loop →
      Steps world (.testRun i)
        { world with loops := world.loops.set i { loop with inBody := true } }
  | endLoop {world : Acceptors} {i : Nat} :
      Steps world (.testRun i)
        { world with loops := world.loops.eraseIdx i }
  | passOver {world : Acceptors} {i : Nat} {loop : SelectLoop} :
      world.loops[i]? = some loop →
      Steps world (.iterate i .nothing) (world.passOver i loop)
  | accept {world : Acceptors} {i start : Nat} {loop : SelectLoop}
      {clientAddr : SockaddrIn} {connSock : Socket} :
      world.loops[i]? = some loop → world.creator = some start →
      Steps world (.iterate i (.accepts clientAddr connSock))
        (world.accept i loop start clientAddr connSock)

theorem steps_of_step {world next : Acceptors} {event : LoopEvent}
    (taken : world.step event = some next) : Steps world event next := by
  cases event with
  | openServer outcome =>
      simp only [step, Option.ite_none_right_eq_some,
        Option.some.injEq] at taken
      obtain ⟨_, rfl⟩ := taken
      exact .openServer
  | closeServer =>
      simp only [step, Option.ite_none_right_eq_some,
        Option.some.injEq] at taken
      obtain ⟨_, rfl⟩ := taken
      exact .closeServer
  | testRun i =>
      simp only [step] at taken
      split at taken <;> rename_i found
      · simp only [Option.ite_none_left_eq_some] at taken
        obtain ⟨_, tested⟩ := taken
        split at tested
        · obtain rfl := Option.some.inj tested
          exact .enter found
        · obtain rfl := Option.some.inj tested
          exact .endLoop
      · simp at taken
  | iterate i iteration =>
      simp only [step] at taken
      split at taken <;> rename_i found
      · simp only [Option.ite_none_right_eq_some] at taken
        obtain ⟨_, passed⟩ := taken
        cases iteration with
        | nothing =>
            obtain rfl := Option.some.inj passed
            exact .passOver found
        | accepts clientAddr connSock =>
            simp only [Option.ite_none_right_eq_some,
              Option.map_eq_some_iff] at passed
            obtain ⟨_, start, created, rfl⟩ := passed
            exact .accept found created
      · simp at taken

/-- At most one loop runs while `mRun` is set, and no loop has accepted on a
listening socket of a later `Start`. -/
structure OneLoop (world : Acceptors) : Prop where
  single : world.dlg.mServer.mRun = true → world.loops.length ≤ 1
  own : ∀ accept ∈ world.accepts, ¬accept.1 < accept.2

/-- A `Start` which succeeds finds no loop of an earlier one. -/
def FindsNoLoop (world : Acceptors) : LoopEvent → Prop
  | .openServer (.listens _) => world.loops = []
  | _ => True

instance (world : Acceptors) : DecidablePred world.FindsNoLoop
  | .openServer (.listens _) => inferInstanceAs (Decidable (_ = _))
  | .openServer .socketFails => inferInstanceAs (Decidable True)
  | .openServer (.bindFails _) => inferInstanceAs (Decidable True)
  | .openServer (.listenFails _) => inferInstanceAs (Decidable True)
  | .closeServer => inferInstanceAs (Decidable True)
  | .testRun _ => inferInstanceAs (Decidable True)
  | .iterate _ _ => inferInstanceAs (Decidable True)

/-- There is at most one loop, and it is as young as every listening
socket. -/
structure Single (world : Acceptors) : Prop where
  single : world.loops.length ≤ 1
  youngest : ∀ loop ∈ world.loops, ∀ handle start,
    (handle, some start) ∈ world.openSockets → start ≤ loop.start
  numbered : ∀ handle start,
    (handle, some start) ∈ world.openSockets → start < world.starts
  own : ∀ accept ∈ world.accepts, ¬accept.1 < accept.2

theorem Single.oneLoop {world : Acceptors} (single : world.Single) :
    world.OneLoop where
  single := fun _ => single.single
  own := single.own

theorem single_initial : initial.Single where
  single := by decide
  youngest := by
    intro loop member
    cases member
  numbered := by
    intro handle start member
    cases member
  own := by
    intro accept member
    cases member

theorem Single.of_fewer {world next : Acceptors} (single : world.Single)
    (fewer : next.loops.length ≤ world.loops.length)
    (oldLoops : ∀ loop ∈ next.loops,
      ∃ old ∈ world.loops, old.start = loop.start)
    (oldSockets : ∀ handle start, (handle, some start) ∈ next.openSockets →
      (handle, some start) ∈ world.openSockets)
    (later : world.starts ≤ next.starts)
    (own : ∀ accept ∈ next.accepts, ¬accept.1 < accept.2) :
    next.Single where
  single := fewer.trans single.single
  youngest := by
    intro loop member handle start isOpen
    obtain ⟨old, oldMember, sameStart⟩ := oldLoops loop member
    rw [← sameStart]
    exact single.youngest old oldMember handle start
      (oldSockets handle start isOpen)
  numbered := by
    intro handle start isOpen
    exact (single.numbered handle start
      (oldSockets handle start isOpen)).trans_le later
  own := own

theorem mem_set_start {loops : List SelectLoop} {i : Nat} {loop : SelectLoop}
    (found : loops[i]? = some loop) (inBody : Bool) :
    ∀ other ∈ loops.set i { loop with inBody := inBody },
      ∃ old ∈ loops, old.start = other.start := by
  intro other member
  rcases List.mem_or_eq_of_mem_set member with old | rfl
  · exact ⟨other, old, rfl⟩
  · exact ⟨loop, List.mem_of_getElem? found, rfl⟩

theorem Single.set {world : Acceptors} (single : world.Single) {i : Nat}
    {loop : SelectLoop} (found : world.loops[i]? = some loop)
    (inBody : Bool) :
    Single { world with
      loops := world.loops.set i { loop with inBody := inBody } } :=
  single.of_fewer (List.length_set ..).le (mem_set_start found inBody)
    (fun _ _ isOpen => isOpen) le_rfl single.own

theorem creator_isOpen {world : Acceptors} {start : Nat}
    (creator : world.creator = some start) :
    (world.dlg.mServer.mLisSock, some start) ∈ world.openSockets := by
  obtain ⟨socket, member, names⟩ := List.exists_of_findSome?_eq_some creator
  simp only [Option.ite_none_right_eq_some] at names
  rw [← names.1, ← names.2]
  exact member

theorem Single.accept {world : Acceptors} (single : world.Single)
    {i start : Nat} {loop : SelectLoop} {clientAddr : SockaddrIn}
    {connSock : Socket} (found : world.loops[i]? = some loop)
    (creator : world.creator = some start) :
    (world.accept i loop start clientAddr connSock).Single := by
  refine single.of_fewer (List.length_set ..).le (mem_set_start found false)
    ?_ le_rfl ?_
  · intro handle start isOpen
    simpa [Acceptors.accept] using isOpen
  · intro accept member
    rcases List.mem_append.mp member with old | new
    · exact single.own accept old
    · obtain rfl := List.mem_singleton.mp new
      exact Nat.not_lt.mpr (single.youngest loop
        (List.mem_of_getElem? found) _ _ (creator_isOpen creator))

theorem Single.openServer_of_fails {world : Acceptors}
    (single : world.Single) {outcome : InitOutcome}
    (fails : (world.dlg.onBtnOpen outcome).1 = false) :
    (world.openServer outcome).Single := by
  have noListener : ∀ handle start,
      (handle, some start) ∉ created world.starts outcome := by
    intro handle start
    cases outcome with
    | listens other => simp [PCServerDlg.onBtnOpen, TcpServer.start,
        TcpServer.init] at fails
    | _ => simp [created]
  have loops : (world.openServer outcome).loops = world.loops := by
    simp [openServer, fails]
  refine single.of_fewer (loops ▸ le_rfl) ?_ ?_ (Nat.le_succ _) single.own
  · intro loop member
    exact ⟨loop, loops ▸ member, rfl⟩
  · intro handle start isOpen
    rcases List.mem_append.mp isOpen with old | new
    · exact old
    · exact (noListener handle start new).elim

theorem Single.openServer_of_listens {world : Acceptors}
    (single : world.Single) (handle : Socket) (noLoop : world.loops = []) :
    (world.openServer (.listens handle)).Single := by
  have loops : (world.openServer (.listens handle)).loops =
      [{ start := world.starts, inBody := false }] := by
    simp [openServer, noLoop, PCServerDlg.onBtnOpen, TcpServer.start,
      TcpServer.init]
  have atMost : ∀ other start, (other, some start) ∈
      (world.openServer (.listens handle)).openSockets →
        start ≤ world.starts := by
    intro other start isOpen
    rcases List.mem_append.mp isOpen with old | new
    · exact (single.numbered other start old).le
    · simp only [created, List.mem_singleton, Prod.mk.injEq,
        Option.some.injEq] at new
      exact new.2.le
  constructor
  · rw [loops]
    exact le_rfl
  · intro loop member other start isOpen
    rw [loops, List.mem_singleton] at member
    rw [member]
    exact atMost other start isOpen
  · intro other start isOpen
    exact Nat.lt_succ_of_le (atMost other start isOpen)
  · exact single.own

theorem Single.step {world next : Acceptors} {event : LoopEvent}
    (single : world.Single) (findsNoLoop : world.FindsNoLoop event)
    (taken : world.step event = some next) : next.Single := by
  cases steps_of_step taken with
  | @openServer outcome =>
      cases outcome with
      | listens handle => exact single.openServer_of_listens handle findsNoLoop
      | _ => exact single.openServer_of_fails rfl
  | closeServer =>
      refine single.of_fewer le_rfl (fun loop member => ⟨loop, member, rfl⟩)
        ?_ le_rfl single.own
      intro handle start isOpen
      exact (List.mem_filter.mp isOpen).1
  | enter found => exact single.set found true
  | endLoop =>
      refine single.of_fewer (List.length_eraseIdx_le ..) ?_
        (fun _ _ isOpen => isOpen) le_rfl single.own
      intro loop member
      exact ⟨loop, List.mem_of_mem_eraseIdx member, rfl⟩
  | passOver found => exact single.set found false
  | accept found creator => exact single.accept found creator

theorem not_oneLoop_of_second {world next : Acceptors} {event : LoopEvent}
    (second : ¬world.FindsNoLoop event)
    (taken : world.step event = some next) : ¬next.OneLoop := by
  intro oneLoop
  cases event with
  | openServer outcome =>
      cases outcome with
      | listens handle =>
          cases steps_of_step taken with
          | openServer =>
              have single := oneLoop.single rfl
              simp only [openServer, PCServerDlg.onBtnOpen, TcpServer.start,
                TcpServer.init, if_true, List.length_append,
                List.length_singleton] at single
              apply second
              exact List.eq_nil_of_length_eq_zero (by omega)
      | _ => exact second trivial
  | _ => exact second trivial

/-- In every run at most one loop accepts for each `Start`, and only for its
own, exactly if every successful `Start` finds that the loops of earlier ones
have ended. -/
theorem one_loop_iff {events : List LoopEvent} {finish : Acceptors}
    (run : process.Run initial events finish) :
    process.Always OneLoop initial events ↔
      process.StepsMeet FindsNoLoop initial events := by
  apply System.always_iff_stepsMeet _ _ _ single_initial run
  · intro world single
    exact single.oneLoop
  · intro world event next single findsNoLoop taken
    exact single.step findsNoLoop taken
  · intro world event next _ second taken
    exact not_oneLoop_of_second second taken

/-- The server is opened, closed, and opened again before the first loop has
tested `IsRun()`; then that loop accepts on the new socket. -/
def reopenedEarly : List LoopEvent :=
  let clientAddr : SockaddrIn :=
    { sinPort := 0x8813, sinAddr := { b1 := 10, b2 := 0, b3 := 0, b4 := 1 } }
  [.openServer (.listens 4), .testRun 0, .closeServer,
    .openServer (.listens 8), .iterate 0 (.accepts clientAddr 12)]

theorem old_loop_accepts :
    ¬∀ events finish, process.Run initial events finish →
      process.Always OneLoop initial events := by
  intro oneLoop
  have run : process.Run initial reopenedEarly _ :=
    System.run_get (by decide)
  have always := oneLoop _ _ run reopenedEarly _ List.prefix_rfl run
  have single := always.single (by decide)
  exact absurd single (by decide)

/-- The loop ends before the server is opened again. -/
def reopenedLate : List LoopEvent :=
  [.openServer (.listens 4), .closeServer, .testRun 0,
    .openServer (.listens 8)]

theorem one_loop_after_reopenedLate :
    process.Always OneLoop initial reopenedLate :=
  (one_loop_iff (System.run_get (by decide))).mpr (by decide)

end Acceptors

end OpenChat.Server
