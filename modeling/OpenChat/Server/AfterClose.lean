import OpenChat.Foundation.Positions
import OpenChat.Server.Sessions

/-!
# What runs on after a close

`UnInit` closes the listening socket and the sockets in the registry and
clears `mRun`.  The accept loops test `mRun` and end after a few steps.  The
client loops test nothing: `select` fails on a closed socket, which `Select`
reports like a pause, so they go on until the system gives the handle value to
a new socket.  A loop whose `Select` has returned just before the close is not
among them, as `Select` and `recv` are one step here; its `recv` fails and it
ends.
-/

namespace OpenChat.Server

open Platform Foundation Foundation.Positions

namespace Event

def handsOut : Event → List Socket
  | .openServer outcome => outcome.leavesOpen.map Prod.fst
  | .accept _ _ connSock => [connSock]
  | _ => []

def isOpening : Event → Bool
  | .openServer _ => true
  | _ => false

def isAcceptStep : Event → Bool
  | .testRun _ | .pollNothing _ | .accept _ _ _ | .insertClient _
  | .addClient _ | .startClient _ => true
  | _ => false

end Event

/-- The steps a `SelectFunc` loop still takes when `IsRun()` is `FALSE` and no
connection arrives. -/
def AcceptPhase.stepsLeft : AcceptPhase → Nat
  | .testing => 1
  | .polling => 2
  | .added _ _ _ => 2
  | .inserted _ _ _ => 3
  | .accepted _ _ _ => 4

theorem AcceptPhase.stepsLeft_le (phase : AcceptPhase) :
    phase.stepsLeft ≤ 4 := by
  cases phase <;> simp [AcceptPhase.stepsLeft]

namespace World

section ClientLoops

/-- The loop is running and reads a handle which names no open socket. -/
structure Abandoned (loop : ClientLoop) (world : World) : Prop where
  runs : loop ∈ world.clientLoops
  reading : loop.leaving = false
  closed : ¬world.IsOpen loop.client.cSocket

theorem not_isOpen_append {world : World} {handle : Socket}
    (closed : ¬world.IsOpen handle) {more : List (Socket × SocketUse)}
    (others : handle ∉ more.map Prod.fst) :
    handle ∉ (world.openSockets ++ more).map Prod.fst := by
  rw [List.map_append, List.mem_append, not_or]
  exact ⟨closed, others⟩

/-- A loop can only be taken out of its passes by a `recv` on an open
socket. -/
theorem Abandoned.steps {loop : ClientLoop} {world next : World}
    {event : Event} (abandoned : world.Abandoned loop)
    (others : loop.client.cSocket ∉ event.handsOut)
    (taken : Steps world event next) : next.Abandoned loop := by
  obtain ⟨runs, reading, closed⟩ := abandoned
  cases taken with
  | openServer enabled fresh =>
      exact ⟨runs, reading, not_isOpen_append closed others⟩
  | closeServer enabled =>
      refine ⟨runs, reading, fun isOpen => closed ?_⟩
      exact (List.filter_sublist.map Prod.fst).subset isOpen
  | accept found listening fresh =>
      exact ⟨runs, reading, not_isOpen_append closed others⟩
  | @startClient i conn clientAddr connSock found =>
      simp only [World.startClient]
      split
      · exact ⟨List.mem_append_left _ runs, reading, closed⟩
      · exact ⟨runs, reading, closed⟩
  | @hangUp j other found notLeaving isOpen =>
      refine ⟨?_, reading, closed⟩
      have different : loop ≠ other := by
        rintro rfl
        exact closed isOpen
      exact (mem_set_iff_of_found found _ loop).mpr
        (.inr (mem_eraseIdx_of_ne found runs different))
  | @deleteClient j other found leaving =>
      refine ⟨?_, reading, closed⟩
      have different : loop ≠ other := by
        rintro rfl
        rw [reading] at leaving
        cases leaving
      exact mem_eraseIdx_of_ne found runs different
  | testRun | endLoop | pollNothing | insertClient | addClient | receive =>
      exact ⟨runs, reading, closed⟩

private def closePeer : SockaddrIn :=
  { sinPort := 0x8B13, sinAddr := { b1 := 10, b2 := 0, b3 := 0, b4 := 6 } }

/-- A peer is being accepted on handle 44. -/
def acceptingRun : List Event :=
  [.openServer (.listens 40), .testRun 0, .accept 0 closePeer 44]

end ClientLoops

section AcceptLoops

def ValidHandles (world : World) : Prop :=
  invalidSocket ∉ world.openSockets.map Prod.fst

theorem ValidHandles.steps {world next : World} {event : Event}
    (valid : world.ValidHandles) (taken : Steps world event next) :
    next.ValidHandles := by
  cases taken with
  | openServer enabled fresh =>
      apply not_isOpen_append valid
      intro given
      obtain ⟨socket, member, same⟩ := List.mem_map.mp given
      exact (fresh socket member).1 same
  | closeServer enabled =>
      exact fun isOpen =>
        valid ((List.filter_sublist.map Prod.fst).subset isOpen)
  | accept found listening fresh =>
      apply not_isOpen_append valid
      intro given
      exact fresh.1 (List.mem_singleton.mp given).symm
  | @startClient i conn clientAddr connSock found =>
      simp only [World.startClient]
      split
      · exact valid
      · exact valid
  | testRun | endLoop | pollNothing | insertClient | addClient | receive
  | hangUp | deleteClient => exact valid

structure Halted (world : World) : Prop where
  stopped : world.dlg.mServer.mRun = false
  noSocket : world.dlg.mServer.mLisSock = invalidSocket
  valid : world.ValidHandles

theorem Halted.not_isListening {world : World} (halted : world.Halted) :
    ¬world.IsListening := by
  intro listening
  rw [IsListening, halted.noSocket] at listening
  exact halted.valid (List.mem_map_of_mem listening)

theorem halted_closeServer {world : World} (valid : world.ValidHandles) :
    world.closeServer.Halted where
  stopped := rfl
  noSocket := rfl
  valid := fun isOpen =>
    valid ((List.filter_sublist.map Prod.fst).subset isOpen)

theorem Halted.steps {world next : World} {event : Event}
    (halted : world.Halted) (noOpening : event.isOpening = false)
    (taken : Steps world event next) : next.Halted := by
  have valid := halted.valid.steps taken
  cases taken with
  | openServer => cases noOpening
  | closeServer enabled => exact ⟨rfl, rfl, valid⟩
  | @startClient i conn clientAddr connSock found =>
      refine ⟨?_, ?_, valid⟩
      · simp only [World.startClient]
        split <;> exact halted.stopped
      · simp only [World.startClient]
        split <;> exact halted.noSocket
  | @hangUp j loop found notLeaving isOpen =>
      have server : (world.hangUp j loop).dlg.mServer = world.dlg.mServer :=
        PCServerDlg.removeClient_mServer world.dlg loop.client
      exact ⟨server ▸ halted.stopped, server ▸ halted.noSocket, valid⟩
  | testRun | endLoop | pollNothing | accept | insertClient | addClient
  | receive | deleteClient => exact ⟨halted.stopped, halted.noSocket, valid⟩

/-- The steps the accept loops of a stopped server still take. -/
def acceptStepsLeft (world : World) : Nat :=
  if world.terminated then 0 else total AcceptPhase.stepsLeft world.acceptLoops

theorem Halted.uses {world next : World} {event : Event}
    (halted : world.Halted) (noOpening : event.isOpening = false)
    (taken : world.step event = some next) :
    (if event.isAcceptStep then 1 else 0) + next.acceptStepsLeft ≤
      world.acceptStepsLeft := by
  have alive : world.terminated = false := by
    by_contra ended
    rw [Bool.not_eq_false] at ended
    simp [World.step, ended] at taken
  have before : world.acceptStepsLeft =
      total AcceptPhase.stepsLeft world.acceptLoops := by
    simp [acceptStepsLeft, alive]
  have atMost : next.acceptStepsLeft ≤
      total AcceptPhase.stepsLeft next.acceptLoops := by
    unfold acceptStepsLeft
    split
    · exact Nat.zero_le _
    · exact Nat.le_refl _
  rw [before]
  cases steps_of_step taken with
  | openServer => cases noOpening
  | testRun found running =>
      rw [halted.stopped] at running
      cases running
  | endLoop found stopped =>
      have left := total_eraseIdx AcceptPhase.stepsLeft found
      simp only [AcceptPhase.stepsLeft] at left
      dsimp only at atMost
      simp only [Event.isAcceptStep, if_true]
      omega
  | pollNothing found =>
      have left := total_set AcceptPhase.stepsLeft found .testing
      simp only [AcceptPhase.stepsLeft] at left
      dsimp only at atMost
      simp only [Event.isAcceptStep, if_true]
      omega
  | accept found listening fresh =>
      exact (halted.not_isListening listening).elim
  | @insertClient i conn clientAddr connSock found =>
      have left := total_set AcceptPhase.stepsLeft found
        (.inserted conn clientAddr connSock)
      simp only [AcceptPhase.stepsLeft] at left
      simp only [World.insertClient] at atMost
      simp only [Event.isAcceptStep, if_true, World.insertClient]
      omega
  | @addClient i conn clientAddr connSock found =>
      have left := total_set AcceptPhase.stepsLeft found
        (.added conn clientAddr connSock)
      simp only [AcceptPhase.stepsLeft] at left
      simp only [World.addClient] at atMost
      simp only [Event.isAcceptStep, if_true, World.addClient]
      omega
  | @startClient i conn clientAddr connSock found =>
      have left := total_set AcceptPhase.stepsLeft found .testing
      simp only [AcceptPhase.stepsLeft] at left
      simp only [Event.isAcceptStep, if_true]
      cases last : world.dlg.mServer.mClientVec.getLast? with
      | some entry =>
          simp only [World.startClient, TcpServer.getClient_last,
            last] at atMost ⊢
          omega
      | none =>
          simp only [World.startClient, TcpServer.getClient_last, last,
            acceptStepsLeft, if_true]
          omega
  | closeServer | receive | hangUp | deleteClient =>
      simp only [Event.isAcceptStep, Bool.false_eq_true, if_false,
        Nat.zero_add]
      exact atMost

theorem exists_acceptStep {world : World} (alive : world.terminated = false)
    (some_ : world.acceptLoops ≠ []) :
    ∃ event, event.isAcceptStep = true ∧ world.step event ≠ none := by
  obtain ⟨phase, phases, loops⟩ := List.exists_cons_of_ne_nil some_
  have found : world.acceptLoops[0]? = some phase := by simp [loops]
  cases phase with
  | testing =>
      refine ⟨.testRun 0, rfl, ?_⟩
      simp only [World.step, alive, found, Bool.false_eq_true, if_false]
      split <;> simp
  | polling =>
      refine ⟨.pollNothing 0, rfl, ?_⟩
      simp [World.step, alive, found]
  | accepted conn clientAddr connSock =>
      refine ⟨.insertClient 0, rfl, ?_⟩
      simp [World.step, alive, found]
  | inserted conn clientAddr connSock =>
      refine ⟨.addClient 0, rfl, ?_⟩
      simp [World.step, alive, found]
  | added conn clientAddr connSock =>
      refine ⟨.startClient 0, rfl, ?_⟩
      simp [World.step, alive, found]

/-- After `OnBtn_Close`, as long as the server is not opened again, the accept
loops together take at most four steps for each of them, and where none of
them can take another one they have ended, unless an exception has ended the
process. -/
theorem accept_loops_wind_down {past later : List Event}
    {world finish : World} (reached : process.Run initial past world)
    (run : process.Run world.closeServer later finish)
    (noOpening : ∀ event ∈ later, event.isOpening = false) :
    later.countP Event.isAcceptStep ≤ 4 * world.acceptLoops.length ∧
      ((∀ event, event.isAcceptStep = true →
          process.step finish event = none) →
        finish.acceptLoops = [] ∨ finish.terminated = true) := by
  have valid : world.ValidHandles := by
    apply reached.invariant _ (List.not_mem_nil (a := invalidSocket))
    intro world event next valid taken
    exact valid.steps (steps_of_step taken)
  constructor
  · have counted := (run.countP_add_le_of_invariant Event.isAcceptStep
      acceptStepsLeft
      (fun _ _ _ halted noOpening taken =>
        ⟨Halted.steps halted noOpening (steps_of_step taken),
          Halted.uses halted noOpening taken⟩)
      (halted_closeServer valid) noOpening).2
    have few := total_le AcceptPhase.stepsLeft_le world.acceptLoops
    have atMost : world.closeServer.acceptStepsLeft ≤
        total AcceptPhase.stepsLeft world.acceptLoops := by
      unfold acceptStepsLeft
      split
      · exact Nat.zero_le _
      · exact Nat.le_refl _
    omega
  · intro stuck
    by_contra goesOn
    rw [not_or, Bool.not_eq_true] at goesOn
    obtain ⟨event, isAcceptStep, enabled⟩ :=
      exists_acceptStep goesOn.2 goesOn.1
    exact enabled (stuck event isAcceptStep)

theorem acceptingRun_enabled : (process.exec initial acceptingRun).isSome := by
  decide

def acceptingWorld : World :=
  (process.exec initial acceptingRun).get acceptingRun_enabled

def lastSteps : List Event :=
  [.insertClient 0, .addClient 0, .startClient 0, .testRun 0]

theorem lastSteps_enabled :
    (process.exec acceptingWorld.closeServer lastSteps).isSome := by decide

theorem midway_handler_winds_down :
    lastSteps.countP Event.isAcceptStep ≤
      4 * acceptingWorld.acceptLoops.length :=
  (accept_loops_wind_down (System.run_get acceptingRun_enabled)
    (System.run_get lastSteps_enabled) (by decide)).1

end AcceptLoops

end World

end OpenChat.Server
