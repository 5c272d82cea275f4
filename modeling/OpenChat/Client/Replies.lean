import OpenChat.Client.Connections

/-!
# What the receive loops send back

A pass of `ClientFunc` receives, shows the text and then sends its array back,
and each of these calls reads `m_socket` anew.  The array returns to the
connection it was received from as long as that connection is neither replaced
nor shut down in between.
-/

namespace OpenChat.Client

open Platform Foundation

/-- A pass of `ClientFunc` from its `recv` on: the loop, the connection it
received from, and the array `msg`. -/
structure Pass where
  reader : Nat
  source : Nat
  msg : List Byte
deriving DecidableEq

/-- The client process, the passes which still have to send, and those which
have sent, each with the connection its `send` reached. -/
structure Replies where
  process : Process
  held : List Pass
  sent : List (Pass × Option Nat)
deriving DecidableEq

inductive ReplyEvent where
  | click (outcome : ConnectOutcome) (localAddr : Option SockaddrIn)
  | serverClose (k : Nat)
  | idle (i : Nat)
  | receive (i : Nat) (chunk : List Byte)
  | reply (j : Nat)
  | lose (i : Nat)
deriving DecidableEq

def Connection.seen (connection : Connection) : Nat × Socket × Bool :=
  (connection.conn, connection.socket, connection.seenClosed)

namespace Process

/-- The connection a `send` on `m_socket` reaches.  It fails when there is no
connection on that socket, and after `shutdown`. -/
def reached (process : Process) : Option Nat :=
  process.current.bind fun connection =>
    if connection.seenClosed = true then none else some connection.conn

/-- No `send` reaches the connection: `m_socket` names another socket, or the
connection has been shut down. -/
def Lost (process : Process) (conn : Nat) : Prop :=
  ∀ connection ∈ process.connections, connection.conn = conn →
    connection.socket = process.mSocket → connection.seenClosed = true

/-- Every connection has its open socket and a number given out before. -/
structure Registered (process : Process) : Prop where
  opened : ∀ connection ∈ process.connections,
    connection.socket ∈ process.openSockets
  valid : invalidSocket ∉ process.openSockets
  numbered : ∀ connection ∈ process.connections,
    connection.conn < process.nextConn

end Process

namespace Replies

def initial : Replies :=
  { process := .initial
    held := []
    sent := [] }

def withProcess (replies : Replies) (process : Process) : Replies :=
  { replies with process := process }

def Ready (replies : Replies) (i : Nat) : Prop :=
  ∀ pass ∈ replies.held, replies.process.loops[i]? ≠ some pass.reader

instance (replies : Replies) (i : Nat) : Decidable (replies.Ready i) :=
  inferInstanceAs (Decidable (∀ _ ∈ _, _))

/-- One step; `none` when the event cannot happen in this state. -/
def step (replies : Replies) : ReplyEvent → Option Replies
  | .click outcome localAddr =>
      (replies.process.step (.click outcome localAddr)).map
        replies.withProcess
  | .serverClose k =>
      (replies.process.step (.serverClose k)).map replies.withProcess
  | .idle i =>
      if replies.Ready i then
        (replies.process.step (.idle i)).map replies.withProcess
      else none
  | .receive i chunk =>
      if replies.Ready i then
        match replies.process.loops[i]?, replies.process.current,
            replies.process.step (.receive i chunk) with
        | some reader, some connection, some process =>
            some
              { replies with
                process := process
                held := replies.held ++
                  [{ reader := reader
                     source := connection.conn
                     msg := (TcpClient.clientFunc chunk).2 }] }
        | _, _, _ => none
      else none
  | .reply j =>
      (replies.held[j]?).map fun pass =>
        { replies with
          held := replies.held.eraseIdx j
          sent := replies.sent ++ [(pass, replies.process.reached)] }
  | .lose i =>
      if replies.Ready i then
        (replies.process.step (.lose i)).map replies.withProcess
      else none

/-- Every array sent back has reached the connection it came from. -/
def Returned (replies : Replies) : Prop :=
  ∀ entry ∈ replies.sent, entry.2 = some entry.1.source

/-- A connection is replaced or shut down only while no pass still has to
send. -/
def Undisturbed (replies : Replies) : ReplyEvent → Prop
  | .click _ _ | .lose _ => replies.held = []
  | _ => True

instance (replies : Replies) : DecidablePred replies.Undisturbed
  | .click _ _ | .lose _ => inferInstanceAs (Decidable (_ = _))
  | .serverClose _ | .idle _ | .receive _ _ | .reply _ =>
      inferInstanceAs (Decidable True)

end Replies

def clientReplies : System Replies ReplyEvent :=
  { step := Replies.step }

namespace Process

theorem exists_of_reached {process : Process} {conn : Nat}
    (reached : process.reached = some conn) :
    ∃ connection ∈ process.connections, connection.conn = conn ∧
      connection.socket = process.mSocket ∧
        connection.seenClosed = false := by
  obtain ⟨connection, found, open_conn⟩ := Option.bind_eq_some_iff.mp reached
  refine ⟨connection, List.mem_of_find?_eq_some found, ?_⟩
  have onSocket := List.find?_some found
  simp only [decide_eq_true_eq] at onSocket
  simp only [Option.ite_none_left_eq_some, Option.some.injEq,
    Bool.not_eq_true] at open_conn
  exact ⟨open_conn.2, onSocket, open_conn.1⟩

theorem reached_of_current {process : Process} {connection : Connection}
    (found : process.current = some connection)
    (notSeen : connection.seenClosed = false) :
    process.reached = some connection.conn := by
  simp [reached, found, notSeen]

theorem Lost.not_reached {process : Process} {conn : Nat}
    (lost : process.Lost conn) : process.reached ≠ some conn := by
  intro reached
  obtain ⟨connection, member, named, onSocket, notSeen⟩ :=
    exists_of_reached reached
  rw [lost connection member named onSocket] at notSeen
  cases notSeen

theorem registered_initial : initial.Registered where
  opened := by
    intro connection member
    cases member
  valid := List.not_mem_nil
  numbered := by
    intro connection member
    cases member

/-- A click takes `m_socket` away from every connection there was. -/
theorem Registered.lost_click {process : Process}
    (registered : process.Registered) {outcome : ConnectOutcome}
    (fresh : ∀ handle ∈ outcome.obtained, process.Fresh handle)
    (localAddr : Option SockaddrIn) {conn : Nat}
    (earlier : conn < process.nextConn) :
    (process.click outcome localAddr).Lost conn := by
  have elsewhere : ∀ connection ∈ process.connections,
      connection.socket ≠ (process.click outcome localAddr).mSocket := by
    intro connection member same
    have isOpen := registered.opened connection member
    rw [same, click_mSocket] at isOpen
    cases outcome with
    | socketFails => exact registered.valid isOpen
    | connectFails handle => exact (fresh handle (.head _)).2 isOpen
    | connects handle => exact (fresh handle (.head _)).2 isOpen
  intro connection member named onSocket
  cases outcome with
  | socketFails => exact (elsewhere connection member onSocket).elim
  | connectFails handle => exact (elsewhere connection member onSocket).elim
  | connects handle =>
      rcases List.mem_append.mp member with old | new
      · exact (elsewhere connection old onSocket).elim
      · rw [List.mem_singleton.mp new] at named
        exact absurd named (Nat.ne_of_gt earlier)

theorem Registered.click {process : Process}
    (registered : process.Registered) {outcome : ConnectOutcome}
    (fresh : ∀ handle ∈ outcome.obtained, process.Fresh handle)
    (localAddr : Option SockaddrIn) :
    (process.click outcome localAddr).Registered := by
  have valid : invalidSocket ∉
      (process.click outcome localAddr).openSockets := by
    rw [click_openSockets, List.mem_append]
    rintro (old | new)
    · exact registered.valid old
    · exact (fresh invalidSocket new).1 rfl
  cases outcome with
  | socketFails =>
      refine ⟨?_, valid, registered.numbered⟩
      intro connection member
      exact List.mem_append_left _ (registered.opened connection member)
  | connectFails handle =>
      refine ⟨?_, valid, registered.numbered⟩
      intro connection member
      exact List.mem_append_left _ (registered.opened connection member)
  | connects handle =>
      refine ⟨?_, valid, ?_⟩
      · intro connection member
        rcases List.mem_append.mp member with old | new
        · exact List.mem_append_left _ (registered.opened connection old)
        · rw [List.mem_singleton.mp new]
          exact List.mem_append_right _ (.head _)
      · intro connection member
        rcases List.mem_append.mp member with old | new
        · exact Nat.lt_succ_of_lt (registered.numbered connection old)
        · rw [List.mem_singleton.mp new]
          exact Nat.lt_succ_self process.nextConn

/-- What a `send` can reach, and what is open, is the same before and
after. -/
structure Alike (before after : Process) : Prop where
  mSocket : after.mSocket = before.mSocket
  openSockets : after.openSockets = before.openSockets
  nextConn : after.nextConn = before.nextConn
  connections : after.connections.map Connection.seen = before.connections.map Connection.seen

theorem alike_serverClose {process next : Process} {k : Nat}
    (taken : process.step (.serverClose k) = some next) :
    process.Alike next := by
  obtain ⟨connection, found, rfl⟩ := Option.map_eq_some_iff.mp taken
  exact ⟨rfl, rfl, rfl, Positions.map_set_of_eq found rfl⟩

theorem alike_idle {process next : Process} {i : Nat}
    (taken : process.step (.idle i) = some next) : process.Alike next := by
  obtain ⟨_, _, rfl⟩ := Option.map_eq_some_iff.mp taken
  exact ⟨rfl, rfl, rfl, rfl⟩

theorem alike_receive {process next : Process} {i : Nat} {chunk : List Byte}
    (taken : process.step (.receive i chunk) = some next) :
    process.Alike next := by
  obtain ⟨info, _, rfl⟩ := eq_of_step_receive taken
  exact ⟨rfl, rfl, rfl, rfl⟩

theorem reached_of_receive {process next : Process} {i : Nat}
    {chunk : List Byte} {connection : Connection}
    (taken : process.step (.receive i chunk) = some next)
    (found : process.current = some connection) :
    process.reached = some connection.conn := by
  simp only [Process.step, found] at taken
  split at taken
  · rename_i found_again
    obtain rfl := Option.some.inj found_again
    simp only [Option.ite_none_right_eq_some] at taken
    exact reached_of_current found taken.1.1
  · cases taken

theorem Alike.reached {before after : Process} (alike : before.Alike after) :
    after.reached = before.reached := by
  have through : ∀ process : Process, process.reached =
      ((process.connections.map Connection.seen).find? fun entry =>
        entry.2.1 = process.mSocket).bind fun entry =>
          if entry.2.2 = true then none else some entry.1 := by
    intro process
    rw [List.find?_map, Option.bind_map]
    rfl
  rw [through, through, alike.mSocket, alike.connections]

theorem Alike.lost {before after : Process} (alike : before.Alike after)
    {conn : Nat} (lost : before.Lost conn) : after.Lost conn := by
  have entries : ∀ entry ∈ before.connections.map Connection.seen, entry.1 = conn →
      entry.2.1 = before.mSocket → entry.2.2 = true :=
    List.forall_mem_map.mpr lost
  intro connection member named onSocket
  have entry : connection.seen ∈ before.connections.map Connection.seen := by
    rw [← alike.connections]
    exact List.mem_map_of_mem member
  rw [alike.mSocket] at onSocket
  exact entries connection.seen entry named onSocket

theorem Alike.registered {before after : Process}
    (alike : before.Alike after) (registered : before.Registered) :
    after.Registered := by
  have opened : ∀ entry ∈ before.connections.map Connection.seen,
      entry.2.1 ∈ before.openSockets :=
    List.forall_mem_map.mpr registered.opened
  have numbered : ∀ entry ∈ before.connections.map Connection.seen,
      entry.1 < before.nextConn :=
    List.forall_mem_map.mpr registered.numbered
  rw [← alike.connections, ← alike.openSockets] at opened
  rw [← alike.connections, ← alike.nextConn] at numbered
  constructor
  · intro connection member
    exact opened _ (List.mem_map_of_mem member)
  · rw [alike.openSockets]
    exact registered.valid
  · intro connection member
    exact numbered _ (List.mem_map_of_mem member)

theorem lost_lose (process : Process) (i conn : Nat) :
    (process.lose i).Lost conn := by
  intro connection member _ onSocket
  obtain ⟨earlier, _, rfl⟩ := List.mem_map.mp member
  split
  · rfl
  · rename_i elsewhere
    rw [if_neg elsewhere] at onSocket
    exact (elsewhere onSocket).elim

theorem Registered.lose {process : Process}
    (registered : process.Registered) (i : Nat) :
    (process.lose i).Registered := by
  refine ⟨?_, registered.valid, ?_⟩
  · intro connection member
    obtain ⟨earlier, old, rfl⟩ := List.mem_map.mp member
    have isOpen := registered.opened earlier old
    split <;> exact isOpen
  · intro connection member
    obtain ⟨earlier, old, rfl⟩ := List.mem_map.mp member
    have numbered := registered.numbered earlier old
    split <;> exact numbered

theorem nextConn_le_click (process : Process) (outcome : ConnectOutcome)
    (localAddr : Option SockaddrIn) :
    process.nextConn ≤ (process.click outcome localAddr).nextConn := by
  cases outcome with
  | socketFails | connectFails handle => exact Nat.le_refl process.nextConn
  | connects handle => exact Nat.le_succ process.nextConn

end Process

namespace Replies

inductive Taken (replies : Replies) : ReplyEvent → Replies → Prop where
  | click {outcome : ConnectOutcome} {localAddr : Option SockaddrIn}
      (fresh : ∀ handle ∈ outcome.obtained, replies.process.Fresh handle) :
      Taken replies (.click outcome localAddr)
        (replies.withProcess (replies.process.click outcome localAddr))
  | serverClose {k : Nat} {process : Process}
      (alike : replies.process.Alike process) :
      Taken replies (.serverClose k) (replies.withProcess process)
  | idle {i : Nat} {process : Process}
      (alike : replies.process.Alike process) :
      Taken replies (.idle i) (replies.withProcess process)
  | receive {i : Nat} {chunk : List Byte} {process : Process} {pass : Pass}
      (alike : replies.process.Alike process)
      (source : replies.process.reached = some pass.source) :
      Taken replies (.receive i chunk)
        { replies with
          process := process
          held := replies.held ++ [pass] }
  | reply {j : Nat} {pass : Pass} (found : replies.held[j]? = some pass) :
      Taken replies (.reply j)
        { replies with
          held := replies.held.eraseIdx j
          sent := replies.sent ++ [(pass, replies.process.reached)] }
  | lose {i : Nat} :
      Taken replies (.lose i) (replies.withProcess (replies.process.lose i))

theorem taken_of_step {replies next : Replies} {event : ReplyEvent}
    (step : replies.step event = some next) : replies.Taken event next := by
  cases event with
  | click outcome localAddr =>
      obtain ⟨process, taken, rfl⟩ := Option.map_eq_some_iff.mp step
      obtain ⟨fresh, rfl⟩ := Process.eq_of_step_click taken
      exact .click fresh
  | serverClose k =>
      obtain ⟨process, taken, rfl⟩ := Option.map_eq_some_iff.mp step
      exact .serverClose (Process.alike_serverClose taken)
  | idle i =>
      simp only [Replies.step, Option.ite_none_right_eq_some] at step
      obtain ⟨process, taken, rfl⟩ := Option.map_eq_some_iff.mp step.2
      exact .idle (Process.alike_idle taken)
  | receive i chunk =>
      simp only [Replies.step, Option.ite_none_right_eq_some] at step
      have received := step.2
      split at received
      · rename_i reader connection process running found taken
        obtain rfl := Option.some.inj received
        exact .receive (Process.alike_receive taken)
          (Process.reached_of_receive taken found)
      · cases received
  | reply j =>
      obtain ⟨pass, found, rfl⟩ := Option.map_eq_some_iff.mp step
      exact .reply found
  | lose i =>
      simp only [Replies.step, Option.ite_none_right_eq_some] at step
      obtain ⟨process, taken, rfl⟩ := Option.map_eq_some_iff.mp step.2
      obtain ⟨_, _, _, _, _, rfl⟩ := Process.eq_of_step_lose taken
      exact .lose

/-- Everything sent has returned, and so would everything held. -/
structure Steady (replies : Replies) : Prop where
  registered : replies.process.Registered
  returned : replies.Returned
  awaited : ∀ pass ∈ replies.held,
    replies.process.reached = some pass.source

/-- Some pass holds bytes of a connection that is out of reach for good. -/
structure Stranded (replies : Replies) : Prop where
  registered : replies.process.Registered
  holding : ∃ pass ∈ replies.held,
    pass.source < replies.process.nextConn ∧
      replies.process.Lost pass.source

theorem steady_initial : initial.Steady where
  registered := Process.registered_initial
  returned := by
    intro entry member
    cases member
  awaited := by
    intro pass member
    cases member

theorem Steady.step {replies next : Replies} {event : ReplyEvent}
    (steady : replies.Steady) (undisturbed : replies.Undisturbed event)
    (taken : replies.Taken event next) : next.Steady := by
  cases taken with
  | click fresh =>
      refine ⟨steady.registered.click fresh _, steady.returned, ?_⟩
      intro pass member
      have noneHeld : replies.held = [] := undisturbed
      have impossible : pass ∈ replies.held := member
      rw [noneHeld] at impossible
      cases impossible
  | serverClose alike | idle alike =>
      refine ⟨alike.registered steady.registered, steady.returned, ?_⟩
      intro pass member
      exact alike.reached.trans (steady.awaited pass member)
  | receive alike source =>
      refine ⟨alike.registered steady.registered, steady.returned, ?_⟩
      intro pass member
      rcases List.mem_append.mp member with earlier | new
      · exact alike.reached.trans (steady.awaited pass earlier)
      · rw [List.mem_singleton.mp new]
        exact alike.reached.trans source
  | @reply j pass found =>
      refine ⟨steady.registered, ?_, ?_⟩
      · intro entry member
        rcases List.mem_append.mp member with earlier | new
        · exact steady.returned entry earlier
        · rw [List.mem_singleton.mp new]
          exact steady.awaited pass (List.mem_of_getElem? found)
      · intro other member
        exact steady.awaited other (List.mem_of_mem_eraseIdx member)
  | lose =>
      refine ⟨steady.registered.lose _, steady.returned, ?_⟩
      intro pass member
      have noneHeld : replies.held = [] := undisturbed
      have impossible : pass ∈ replies.held := member
      rw [noneHeld] at impossible
      cases impossible

/-- A click or a `shutdown` in between strands whatever is held. -/
theorem Steady.step_missed {replies next : Replies} {event : ReplyEvent}
    (steady : replies.Steady) (missed : ¬replies.Undisturbed event)
    (taken : replies.Taken event next) : next.Stranded := by
  have holding : replies.held ≠ [] →
      ∃ pass ∈ replies.held, pass.source < replies.process.nextConn := by
    intro someHeld
    obtain ⟨pass, member⟩ := List.exists_mem_of_ne_nil _ someHeld
    obtain ⟨connection, known, named, _, _⟩ :=
      Process.exists_of_reached (steady.awaited pass member)
    refine ⟨pass, member, ?_⟩
    rw [← named]
    exact steady.registered.numbered connection known
  cases taken with
  | click fresh =>
      obtain ⟨pass, member, earlier⟩ := holding missed
      refine ⟨steady.registered.click fresh _, pass, member, ?_, ?_⟩
      · exact Nat.lt_of_lt_of_le earlier (Process.nextConn_le_click _ _ _)
      · exact steady.registered.lost_click fresh _ earlier
  | lose =>
      obtain ⟨pass, member, earlier⟩ := holding missed
      exact ⟨steady.registered.lose _, pass, member, earlier,
        Process.lost_lose _ _ _⟩
  | serverClose | idle | receive | reply => exact (missed trivial).elim

/-- Stranded bytes stay stranded until they are sent somewhere else. -/
theorem Stranded.step {replies next : Replies} {event : ReplyEvent}
    (stranded : replies.Stranded) (taken : replies.Taken event next) :
    next.Stranded ∨ ¬next.Returned := by
  obtain ⟨registered, pass, member, earlier, lost⟩ := stranded
  cases taken with
  | click fresh =>
      refine .inl ⟨registered.click fresh _, pass, member, ?_, ?_⟩
      · exact Nat.lt_of_lt_of_le earlier (Process.nextConn_le_click _ _ _)
      · exact registered.lost_click fresh _ earlier
  | serverClose alike | idle alike =>
      refine .inl ⟨alike.registered registered, pass, member, ?_,
        alike.lost lost⟩
      exact Nat.lt_of_lt_of_eq earlier alike.nextConn.symm
  | receive alike source =>
      refine .inl ⟨alike.registered registered, pass,
        List.mem_append_left _ member, ?_, alike.lost lost⟩
      exact Nat.lt_of_lt_of_eq earlier alike.nextConn.symm
  | @reply j sending found =>
      by_cases same : pass = sending
      · right
        intro returned
        have entry := returned (sending, replies.process.reached)
          (List.mem_append_right _ (.head _))
        rw [same] at lost
        exact lost.not_reached entry
      · exact .inl ⟨registered, pass,
          Positions.mem_eraseIdx_of_ne found member same, earlier, lost⟩
  | lose =>
      exact .inl ⟨registered.lose _, pass, member, earlier,
        Process.lost_lose _ _ _⟩

/-- In every run which ends with no pass still to send, every array sent back
reaches the connection it came from exactly if a connection is replaced or
shut down only while no pass still has to send. -/
theorem replies_return_iff {events : List ReplyEvent} {replies : Replies}
    (run : clientReplies.Run initial events replies)
    (allSent : replies.held = []) :
    clientReplies.Always Returned initial events ↔
      clientReplies.StepsMeet Undisturbed initial events := by
  have returned : ∀ replies : Replies, replies.Steady → replies.Returned :=
    fun _ steady => steady.returned
  have preserved : ∀ (replies : Replies) (event : ReplyEvent)
      (next : Replies), replies.Steady → replies.Undisturbed event →
        clientReplies.step replies event = some next → next.Steady :=
    fun _ _ _ steady undisturbed step =>
      steady.step undisturbed (taken_of_step step)
  have broken : ∀ (replies : Replies) (event : ReplyEvent)
      (next : Replies), replies.Steady → ¬replies.Undisturbed event →
        clientReplies.step replies event = some next →
          next.Stranded ∨ ¬next.Returned :=
    fun _ _ _ steady missed step =>
      .inl (steady.step_missed missed (taken_of_step step))
  have stays : ∀ (replies : Replies) (event : ReplyEvent)
      (next : Replies), replies.Stranded →
        clientReplies.step replies event = some next →
          next.Stranded ∨ ¬next.Returned :=
    fun _ _ _ stranded step => stranded.step (taken_of_step step)
  have settled : ¬replies.Stranded := by
    rintro ⟨_, pass, member, _⟩
    rw [allSent] at member
    cases member
  exact System.always_iff_stepsMeet_of_doomed returned preserved broken
    stays steady_initial run settled

private def localAddress : SockaddrIn :=
  { sinPort := 0x9013, sinAddr := { b1 := 127, b2 := 0, b3 := 0, b4 := 1 } }

/-- Both loops answer on the second connection, the later one first, and leave
when the server closes it. -/
def answeredInTurn : List ReplyEvent :=
  [.click (.connects 112) (some localAddress), .receive 0 [104, 105],
    .reply 0, .click (.connects 116) (some localAddress),
    .receive 0 [111], .receive 1 [107], .reply 1, .reply 0,
    .serverClose 1, .lose 0, .lose 0]

theorem answeredInTurn_enabled :
    (clientReplies.exec initial answeredInTurn).isSome := by decide

theorem replies_return_in_answeredInTurn :
    clientReplies.Always Returned initial answeredInTurn :=
  (replies_return_iff (System.run_get answeredInTurn_enabled)
    (by decide)).mpr (by decide)

end Replies

end OpenChat.Client
