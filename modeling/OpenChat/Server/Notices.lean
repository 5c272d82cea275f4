import OpenChat.Server.Ledger

/-!
# Announced arrivals and departures

Every accepted connection is announced by `NotifyUi` once its row is filled,
and every `ClientFunc` that ends announces a departure.  The texts name a port
alone.  Over all runs the arrivals at every port are its departures and the
loops and handlers that have not come to their end, exactly as long as each
`ClientFunc` is handed an item with the port of the connection that was
announced.
-/

namespace OpenChat.Server

open Platform Foundation Foundation.Positions

def loggedIn (port : Nat) : Text :=
  "[SYS] ".toList ++ formatD port ++ "已登录".toList

def loggedOut (port : Nat) : Text :=
  "[SYS] ".toList ++ formatD port ++ " 已离开".toList

private theorem around_formatD_injective (front back : Text) :
    Function.Injective fun number => front ++ formatD number ++ back := by
  intro left right same
  have digits : formatD left = formatD right :=
    List.append_cancel_left (List.append_cancel_right same)
  have numbers := congrArg ttoi digits
  rw [ttoi_formatD, ttoi_formatD] at numbers
  exact Int.ofNat.inj numbers

theorem loggedIn_injective : Function.Injective loggedIn :=
  around_formatD_injective _ _

theorem loggedOut_injective : Function.Injective loggedOut :=
  around_formatD_injective _ _

private theorem getLast?_append_of_eq {front back rest : Text} {char : Char}
    (ends : back = rest ++ [char]) :
    (front ++ back).getLast? = some char := by
  rw [ends, ← List.append_assoc, List.getLast?_concat]

/-- The two kinds of texts end differently. -/
theorem loggedIn_ne_loggedOut (left right : Nat) :
    loggedIn left ≠ loggedOut right := by
  intro same
  have inEnd : "已登录".toList = "已登".toList ++ ['录'] := by decide
  have outEnd : " 已离开".toList = " 已离".toList ++ ['开'] := by decide
  have arrival : (loggedIn left).getLast? = some '录' :=
    getLast?_append_of_eq inEnd
  have departure : (loggedOut right).getLast? = some '开' :=
    getLast?_append_of_eq outEnd
  rw [same, departure] at arrival
  exact absurd arrival (by decide)

theorem count_append_of_injective {text : Nat → Text}
    (injective : Function.Injective text) (texts : List Text)
    (number other : Nat) :
    (texts ++ [text other]).count (text number) =
      texts.count (text number) + if other = number then 1 else 0 := by
  rw [List.count_append, List.count_singleton]
  simp only [beq_iff_eq, injective.eq_iff]

theorem count_append_of_ne {text other : Text} (different : other ≠ text)
    (texts : List Text) :
    (texts ++ [other]).count text = texts.count text := by
  rw [List.count_append, List.count_singleton, if_neg, Nat.add_zero]
  simpa using different

namespace World

/-- The client loops and the accept handlers behind `InsertClient` with this
port that have not come to their end, whatever became of their sockets. -/
def unfinished (world : World) (port : Nat) : Nat :=
  world.clientLoops.countP (ClientLoop.hasEntry port) +
    world.acceptLoops.countP (AcceptPhase.hasRow port)

theorem unfinished_openServer (world : World) (outcome : InitOutcome)
    (port : Nat) : (world.openServer outcome).unfinished port =
      world.unfinished port := by
  rw [unfinished, unfinished]
  rcases world.openServer_acceptLoops outcome with same | appended
  · rw [same]
    rfl
  · rw [appended, List.countP_append]
    rfl

/-- A handler that goes on without being announced or started. -/
theorem unfinished_of_set {world next : World} {i port : Nat}
    {old new : AcceptPhase} (found : world.acceptLoops[i]? = some old)
    (accepts : next.acceptLoops = world.acceptLoops.set i new)
    (loops : next.clientLoops = world.clientLoops)
    (same : new.hasRow port = old.hasRow port) :
    next.unfinished port = world.unfinished port := by
  rw [unfinished, unfinished, loops, accepts, countP_set_of_eq found same]

theorem unfinished_endLoop {world : World} {i : Nat}
    (found : world.acceptLoops[i]? = some .testing) (port : Nat) :
    unfinished { world with acceptLoops := world.acceptLoops.eraseIdx i } port =
      world.unfinished port := by
  have counts := countP_eraseIdx (AcceptPhase.hasRow port) found
  simp only [AcceptPhase.hasRow, Bool.false_eq_true, if_false,
    Nat.add_zero] at counts
  rw [unfinished, unfinished, counts]

theorem unfinished_insertClient {world : World} {i conn : Nat}
    {clientAddr : SockaddrIn} {connSock : Socket}
    (found : world.acceptLoops[i]? =
      some (.accepted conn clientAddr connSock)) (port : Nat) :
    (world.insertClient i conn clientAddr connSock).unfinished port =
      world.unfinished port +
        if (TcpServer.acceptedItem clientAddr connSock).cPort = port then 1
        else 0 := by
  have counts := countP_set (AcceptPhase.hasRow port) found
    (.inserted conn clientAddr connSock)
  simp only [AcceptPhase.hasRow, Bool.false_eq_true, if_false,
    decide_eq_true_eq] at counts
  simp only [unfinished, World.insertClient]
  omega

theorem unfinished_startClient {world : World} {i conn : Nat}
    {clientAddr : SockaddrIn} {connSock : Socket} {entry : CClientItem}
    (found : world.acceptLoops[i]? = some (.added conn clientAddr connSock))
    (last : world.dlg.mServer.mClientVec.getLast? = some entry)
    (port : Nat) :
    (world.startClient i conn).unfinished port +
        (if (TcpServer.acceptedItem clientAddr connSock).cPort = port then 1
        else 0) =
      world.unfinished port + if entry.cPort = port then 1 else 0 := by
  have counts := countP_set (AcceptPhase.hasRow port) found .testing
  simp only [AcceptPhase.hasRow, Bool.false_eq_true, if_false,
    decide_eq_true_eq] at counts
  simp only [unfinished, World.startClient, TcpServer.getClient_last, last,
    List.countP_append, List.countP_singleton, ClientLoop.hasEntry,
    decide_eq_true_eq]
  omega

/-- Without any entry the exception ends the process before anything is
started. -/
theorem unfinished_startClient_empty {world : World} {i conn : Nat}
    (empty : world.dlg.mServer.mClientVec.getLast? = none) (port : Nat) :
    (world.startClient i conn).unfinished port = world.unfinished port := by
  simp only [unfinished, World.startClient, TcpServer.getClient_last, empty]

theorem unfinished_hangUp {world : World} {j : Nat} {loop : ClientLoop}
    (found : world.clientLoops[j]? = some loop) (port : Nat) :
    (world.hangUp j loop).unfinished port = world.unfinished port := by
  have same : ClientLoop.hasEntry port { loop with leaving := true } =
    loop.hasEntry port := rfl
  rw [unfinished, unfinished]
  simp only [World.hangUp, countP_set_of_eq found same]

theorem unfinished_deleteClient {world : World} {j : Nat} {loop : ClientLoop}
    (found : world.clientLoops[j]? = some loop) (port : Nat) :
    (world.deleteClient j loop).unfinished port +
        (if loop.client.cPort = port then 1 else 0) =
      world.unfinished port := by
  have counts := countP_eraseIdx (ClientLoop.hasEntry port) found
  simp only [ClientLoop.hasEntry, decide_eq_true_eq] at counts
  simp only [unfinished, World.deleteClient]
  omega

end World

def Event.notifies : Event → Bool
  | .insertClient _ | .deleteClient _ => true
  | _ => false

/-- The server process and the texts of all its calls of `NotifyUi`. -/
structure Announcer where
  world : World
  notified : List Text
deriving DecidableEq

namespace Announcer

def initial : Announcer :=
  { world := World.initial, notified := [] }

/-- `NotifyUi` has left its text in `info`. -/
def step (announcer : Announcer) (event : Event) : Option Announcer :=
  (announcer.world.step event).map fun next =>
    { world := next
      notified :=
        if event.notifies then announcer.notified ++ [next.dlg.info]
        else announcer.notified }

/-- For every port as many arrivals were announced as departures, and as loops
and handlers have not come to their end. -/
def Accounted (announcer : Announcer) : Prop :=
  ∀ port, announcer.notified.count (loggedIn port) =
    announcer.notified.count (loggedOut port) + announcer.world.unfinished port

/-- A `ClientFunc` is handed an item with the port of the connection it is
started for. -/
def HandsOwnPort (announcer : Announcer) : Event → Prop
  | .startClient i =>
      ∀ phase ∈ announcer.world.acceptLoops[i]?,
        ∀ entry ∈ announcer.world.dlg.mServer.mClientVec.getLast?,
          phase.hasRow entry.cPort = true
  | _ => True

instance (announcer : Announcer) : DecidablePred announcer.HandsOwnPort
  | .startClient i =>
      inferInstanceAs
        (Decidable (∀ phase ∈ announcer.world.acceptLoops[i]?, _))
  | .openServer _ | .closeServer | .testRun _ | .pollNothing _
  | .accept _ _ _ | .insertClient _ | .addClient _ | .receive _ _
  | .hangUp _ | .deleteClient _ => inferInstanceAs (Decidable True)

/-- A step which announces nothing and lets nobody come or go. -/
theorem Accounted.of_same {announcer next : Announcer}
    (accounted : announcer.Accounted)
    (notified : next.notified = announcer.notified)
    (same : ∀ port,
      next.world.unfinished port = announcer.world.unfinished port) :
    next.Accounted := by
  intro port
  rw [notified, same]
  exact accounted port

theorem Accounted.step_iff {announcer next : Announcer} {event : Event}
    (accounted : announcer.Accounted)
    (taken : announcer.step event = some next) :
    next.Accounted ↔ announcer.HandsOwnPort event := by
  obtain ⟨world, notified⟩ := announcer
  obtain ⟨later, stepped, rfl⟩ := Option.map_eq_some_iff.mp taken
  have steps := World.steps_of_step stepped
  have quietly : event.notifies = false →
      (∀ port, later.unfinished port = world.unfinished port) →
      Accounted
        { world := later
          notified :=
            if event.notifies then notified ++ [later.dlg.info]
            else notified } := by
    intro silent same
    rw [silent]
    exact accounted.of_same rfl same
  cases steps with
  | openServer enabled fresh =>
      exact iff_of_true (quietly rfl (world.unfinished_openServer _)) trivial
  | closeServer enabled =>
      exact iff_of_true (quietly rfl fun _ => rfl) trivial
  | testRun found running =>
      exact iff_of_true
        (quietly rfl fun _ => World.unfinished_of_set found rfl rfl rfl) trivial
  | endLoop found stopped =>
      exact iff_of_true (quietly rfl (World.unfinished_endLoop found)) trivial
  | pollNothing found =>
      exact iff_of_true
        (quietly rfl fun _ => World.unfinished_of_set found rfl rfl rfl) trivial
  | accept found listening fresh =>
      exact iff_of_true
        (quietly rfl fun _ => World.unfinished_of_set found rfl rfl rfl) trivial
  | @insertClient i conn clientAddr connSock found =>
      refine iff_of_true ?_ trivial
      intro port
      have before : notified.count (loggedIn port) =
        notified.count (loggedOut port) + world.unfinished port := accounted port
      have arrived := World.unfinished_insertClient found port
      have text : (world.insertClient i conn clientAddr connSock).dlg.info =
        loggedIn (TcpServer.acceptedItem clientAddr connSock).cPort := rfl
      simp only [Event.notifies, if_true, text, arrived,
        count_append_of_injective loggedIn_injective,
        count_append_of_ne (loggedIn_ne_loggedOut _ port)]
      omega
  | addClient found =>
      exact iff_of_true
        (quietly rfl fun _ => World.unfinished_of_set found rfl rfl rfl) trivial
  | @startClient i conn clientAddr connSock found =>
      cases last : world.dlg.mServer.mClientVec.getLast? with
      | none =>
          refine iff_of_true
            (quietly rfl (World.unfinished_startClient_empty last)) ?_
          intro phase _ entry isLast
          rw [last] at isLast
          cases isLast
      | some entry =>
          have started : ∀ port, (world.startClient i conn).unfinished port +
              (if (TcpServer.acceptedItem clientAddr connSock).cPort = port
              then 1 else 0) =
                world.unfinished port + if entry.cPort = port then 1 else 0 :=
            World.unfinished_startClient found last
          have hands : HandsOwnPort { world := world, notified := notified }
              (.startClient i) ↔
                (TcpServer.acceptedItem clientAddr connSock).cPort =
                  entry.cPort := by
            simp only [HandsOwnPort, found, last, Option.mem_some,
              forall_eq', AcceptPhase.hasRow, decide_eq_true_eq]
          rw [hands]
          constructor
          · intro still
            by_contra other
            let port := (TcpServer.acceptedItem clientAddr connSock).cPort
            have before : notified.count (loggedIn port) =
              notified.count (loggedOut port) + world.unfinished port :=
                accounted port
            have after : notified.count (loggedIn port) =
              notified.count (loggedOut port) +
                (world.startClient i conn).unfinished port := still port
            have moved := started port
            rw [if_pos rfl, if_neg (Ne.symm other)] at moved
            omega
          · intro same
            refine quietly rfl fun port => ?_
            have moved := started port
            rw [same] at moved
            exact Nat.add_right_cancel moved
  | receive => exact iff_of_true (quietly rfl fun _ => rfl) trivial
  | hangUp found notLeaving isOpen =>
      exact iff_of_true (quietly rfl (World.unfinished_hangUp found)) trivial
  | @deleteClient j loop found leaving =>
      refine iff_of_true ?_ trivial
      intro port
      have before : notified.count (loggedIn port) =
        notified.count (loggedOut port) + world.unfinished port := accounted port
      have departed : (world.deleteClient j loop).unfinished port +
          (if loop.client.cPort = port then 1 else 0) =
            world.unfinished port := World.unfinished_deleteClient found port
      have text : (world.deleteClient j loop).dlg.info =
        loggedOut loop.client.cPort := rfl
      simp only [Event.notifies, if_true, text,
        count_append_of_injective loggedOut_injective,
        count_append_of_ne (loggedIn_ne_loggedOut port _).symm]
      omega

end Announcer

end OpenChat.Server
