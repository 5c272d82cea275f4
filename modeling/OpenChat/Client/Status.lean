import OpenChat.Client.Connections

/-!
# The connection status of the client

`Connect` starts the receive loop before `ConnectToServer` writes that the
connection is up, so the two write the status and the info box in any order.
What they say stays right as long as `ConnectToServer` does not write behind
the loop's own notice.
-/

namespace OpenChat.Client

open Platform Foundation Foundation.Positions

inductive ConnectStatement where
  | getSockName
  | messageBox
  | returnFalse
  | setPort (cliAddr : SockaddrIn)
  | setSel
  | replaceSel
  | setOn
  | returnTrue
deriving DecidableEq

/-- The statements of the branch a `ClientFunc` loop takes when `recv` reports
the end of the connection. -/
inductive LeaveStatement where
  | addInfo
  | setServerState
  | shutdown
  | leaveLoop
deriving DecidableEq

namespace LeaveStatement

def place : LeaveStatement → Nat
  | .addInfo => 0
  | .setServerState => 1
  | .shutdown => 2
  | .leaveLoop => 3

def next : LeaveStatement → Option LeaveStatement
  | .addInfo => some .setServerState
  | .setServerState => some .shutdown
  | .shutdown => some .leaveLoop
  | .leaveLoop => none

theorem next_of_place_lt {now later : LeaveStatement}
    (before : now.place < later.place) :
    ∃ following, now.next = some following ∧
      following.place ≤ later.place := by
  cases now <;> cases later <;> simp [place, next] at before ⊢

theorem place_injective {left right : LeaveStatement}
    (same : left.place = right.place) : left = right := by
  cases left <;> cases right <;> first | rfl | cases same

end LeaveStatement

def connectedLine : InfoText :=
  .wide "连接服务器成功\n".toList

def offlineLine : InfoText :=
  .wide "已断线，请重新连接\n".toList

def isStatusLine (line : InfoText) : Bool :=
  line = connectedLine || line = offlineLine

/-- The status line written last to the info box. -/
def lastStatusLine (dlg : PCClientDlg) : Option InfoText :=
  (dlg.mInfoBox.filter isStatusLine).getLast?

theorem lastStatusLine_of_status (dlg : PCClientDlg) {line : InfoText}
    (isStatus : isStatusLine line = true) :
    lastStatusLine (dlg.addInfo line) = some line := by
  simp [lastStatusLine, PCClientDlg.addInfo, isStatus]

theorem lastStatusLine_narrow (dlg : PCClientDlg) (bytes : List Byte) :
    lastStatusLine (dlg.addInfo (.narrow bytes)) = lastStatusLine dlg := by
  simp [lastStatusLine, PCClientDlg.addInfo, isStatusLine, connectedLine,
    offlineLine]

/-- The client process, the statement a running `ConnectToServer` is about to
execute, the loop the latest successful `Connect` started, and the loops that
are in their disconnect branch, each with its next statement. -/
structure Threads where
  process : Process
  connecting : Option ConnectStatement
  latest : Option Nat
  leaving : List (Nat × LeaveStatement)
deriving DecidableEq

inductive ThreadEvent where
  | connect (outcome : ConnectOutcome)
  | statement (localAddr : Option SockaddrIn)
  | serverClose (k : Nat)
  | idle (i : Nat)
  | receive (i : Nat) (chunk : List Byte)
  | lose (i : Nat)
  | leave (j : Nat)
deriving DecidableEq

/-- What a statement of `ConnectToServer` does to the window, and the
statement behind it; `localAddr` is what `getsockname` writes, if it
succeeds. -/
def PCClientDlg.connectStatement (dlg : PCClientDlg)
    (localAddr : Option SockaddrIn) :
    ConnectStatement → PCClientDlg × Option ConnectStatement
  | .getSockName =>
      match localAddr with
      | none => (dlg, some .messageBox)
      | some cliAddr => (dlg, some (.setPort cliAddr))
  | .messageBox => (dlg, some .returnFalse)
  | .returnFalse => (dlg, none)
  | .setPort cliAddr =>
      ({ dlg with mPort := (ntohs cliAddr.sinPort).toNat }, some .setSel)
  | .setSel => (dlg, some .replaceSel)
  | .replaceSel => (dlg.addInfo connectedLine, some .setOn)
  | .setOn => (dlg.setServerState .on, some .returnTrue)
  | .returnTrue => (dlg, none)

/-- What a statement of the disconnect branch does. -/
def Process.leaveStatement (process : Process) : LeaveStatement → Process
  | .addInfo => { process with dlg := process.dlg.addInfo offlineLine }
  | .setServerState => { process with dlg := process.dlg.setServerState .off }
  | .shutdown =>
      { process with
        connections := process.connections.map fun connection =>
          if connection.socket = process.mSocket then
            { connection with seenClosed := true }
          else connection }
  | .leaveLoop => process

namespace Threads

def initial : Threads :=
  { process := .initial
    connecting := none
    latest := none
    leaving := [] }

def withProcess (threads : Threads) (process : Process) : Threads :=
  { threads with process := process }

/-- `SetPort`, `SetIp` and `Connect`, which are what a click does that learns
no local address. -/
def connect (threads : Threads) (outcome : ConnectOutcome) : Threads :=
  let process := threads.process.click outcome none
  match outcome with
  | .connects _ =>
      { threads with
        process := process
        connecting := some .getSockName
        latest := some threads.process.nextConn }
  | _ => { threads with process := process }

def connectStatement (threads : Threads) (localAddr : Option SockaddrIn)
    (statement : ConnectStatement) : Threads :=
  let (dlg, connecting) :=
    threads.process.dlg.connectStatement localAddr statement
  { threads with
    process := { threads.process with dlg := dlg }
    connecting := connecting }

def lose (threads : Threads) (i : Nat) (conn : Nat) : Threads :=
  { threads with
    process := { threads.process with loops := threads.process.loops.eraseIdx i }
    leaving := threads.leaving ++ [(conn, .addInfo)] }

def leave (threads : Threads) (j : Nat) (conn : Nat)
    (statement : LeaveStatement) : Threads :=
  { threads with
    process := threads.process.leaveStatement statement
    leaving :=
      match statement.next with
      | some following => threads.leaving.set j (conn, following)
      | none => threads.leaving.eraseIdx j }

/-- One step; `none` when the event cannot happen in this state. -/
def step (threads : Threads) : ThreadEvent → Option Threads
  | .connect outcome =>
      if threads.connecting = none ∧
          ∀ handle ∈ outcome.obtained, threads.process.Fresh handle then
        some (threads.connect outcome)
      else none
  | .statement localAddr =>
      threads.connecting.map fun statement =>
        threads.connectStatement localAddr statement
  | .serverClose k =>
      (threads.process.step (.serverClose k)).map threads.withProcess
  | .idle i => (threads.process.step (.idle i)).map threads.withProcess
  | .receive i chunk =>
      (threads.process.step (.receive i chunk)).map threads.withProcess
  | .lose i =>
      if (threads.process.step (.lose i)).isSome then
        (threads.process.loops[i]?).map fun conn => threads.lose i conn
      else none
  | .leave j =>
      (threads.leaving[j]?).map fun entry =>
        threads.leave j entry.1 entry.2

/-- The loop has a statement of the branch still ahead of it. -/
def Ahead (threads : Threads) (conn : Nat) (statement : LeaveStatement) :
    Prop :=
  conn ∈ threads.process.loops ∨
    ∃ entry ∈ threads.leaving,
      entry.1 = conn ∧ entry.2.place ≤ statement.place

instance (threads : Threads) (conn : Nat) (statement : LeaveStatement) :
    Decidable (threads.Ahead conn statement) :=
  inferInstanceAs (Decidable (_ ∨ _))

def Ended (threads : Threads) (conn : Nat) : Prop :=
  conn ∉ threads.process.loops ∧
    ∀ entry ∈ threads.leaving, entry.1 ≠ conn

instance (threads : Threads) (conn : Nat) : Decidable (threads.Ended conn) :=
  inferInstanceAs (Decidable (_ ∧ _))

/-- Once no `ConnectToServer` is in progress and the loop of the latest
connection has left, status and info box say so. -/
def Truthful (threads : Threads) : Prop :=
  threads.connecting = none →
    ∀ conn, threads.latest = some conn → threads.Ended conn →
      threads.process.dlg.mServerStatus = .off ∧
        lastStatusLine threads.process.dlg = some offlineLine

/-- `ConnectToServer` writes that the connection is up only while the loop of
that connection has not yet written the opposite. -/
def WritesInTime (threads : Threads) : ThreadEvent → Prop
  | .statement _ =>
      (threads.connecting = some .replaceSel →
        ∀ conn ∈ threads.latest, threads.Ahead conn .addInfo) ∧
      (threads.connecting = some .setOn →
        ∀ conn ∈ threads.latest, threads.Ahead conn .setServerState)
  | _ => True

instance (threads : Threads) : DecidablePred threads.WritesInTime
  | .statement _ => inferInstanceAs (Decidable (_ ∧ _))
  | .connect _ | .serverClose _ | .idle _ | .receive _ _ | .lose _ |
    .leave _ => inferInstanceAs (Decidable True)

end Threads

def clientThreads : System Threads ThreadEvent :=
  { step := Threads.step }

namespace Threads

theorem not_ahead_of_ended {threads : Threads} {conn : Nat}
    (ended : threads.Ended conn) (statement : LeaveStatement) :
    ¬threads.Ahead conn statement := by
  intro ahead
  rcases ahead with running | ⟨entry, member, same, _⟩
  · exact ended.1 running
  · exact ended.2 entry member same

/-- What the loop of the latest connection has got done can be read off the
info box and the status. -/
structure Recorded (threads : Threads) : Prop where
  line : ∀ conn, threads.latest = some conn →
    ¬threads.Ahead conn .addInfo →
      lastStatusLine threads.process.dlg = some offlineLine
  status : ∀ conn, threads.latest = some conn →
    ¬threads.Ahead conn .setServerState →
      threads.process.dlg.mServerStatus = .off

theorem recorded_initial : initial.Recorded where
  line := by
    intro conn isLatest
    cases isLatest
  status := by
    intro conn isLatest
    cases isLatest

theorem Recorded.truthful {threads : Threads} (recorded : threads.Recorded) :
    threads.Truthful := by
  intro _ conn isLatest ended
  constructor
  · exact recorded.status conn isLatest (not_ahead_of_ended ended _)
  · exact recorded.line conn isLatest (not_ahead_of_ended ended _)

theorem Recorded.frame {threads next : Threads} (recorded : threads.Recorded)
    (latest : next.latest = threads.latest)
    (ahead : ∀ conn statement, threads.Ahead conn statement →
      next.Ahead conn statement)
    (line : lastStatusLine next.process.dlg =
      lastStatusLine threads.process.dlg)
    (status : next.process.dlg.mServerStatus =
      threads.process.dlg.mServerStatus) : next.Recorded := by
  constructor
  · intro conn isLatest passed
    rw [line]
    apply recorded.line conn (latest.symm.trans isLatest)
    intro before
    exact passed (ahead conn .addInfo before)
  · intro conn isLatest passed
    rw [status]
    apply recorded.status conn (latest.symm.trans isLatest)
    intro before
    exact passed (ahead conn .setServerState before)

theorem Recorded.connect {threads : Threads} (recorded : threads.Recorded)
    (outcome : ConnectOutcome) : (threads.connect outcome).Recorded := by
  cases outcome with
  | socketFails =>
      apply recorded.frame
      · rfl
      · intro conn statement ahead
        exact ahead
      · rfl
      · rfl
  | connectFails handle =>
      apply recorded.frame
      · rfl
      · intro conn statement ahead
        exact ahead
      · rfl
      · rfl
  | connects handle =>
      have started (conn : Nat) (statement : LeaveStatement)
          (isLatest : (threads.connect (.connects handle)).latest =
            some conn) :
          (threads.connect (.connects handle)).Ahead conn statement := by
        obtain rfl := Option.some.inj isLatest
        exact .inl (List.mem_append_right _ (.head _))
      constructor
      · intro conn isLatest passed
        exact (passed (started conn .addInfo isLatest)).elim
      · intro conn isLatest passed
        exact (passed (started conn .setServerState isLatest)).elim

theorem Recorded.connectStatement {threads : Threads}
    (recorded : threads.Recorded) {statement : ConnectStatement}
    (localAddr : Option SockaddrIn)
    (inProgress : threads.connecting = some statement)
    (inTime : threads.WritesInTime (.statement localAddr)) :
    (threads.connectStatement localAddr statement).Recorded := by
  cases statement with
  | getSockName =>
      cases localAddr with
      | none => exact ⟨recorded.line, recorded.status⟩
      | some cliAddr => exact ⟨recorded.line, recorded.status⟩
  | messageBox => exact ⟨recorded.line, recorded.status⟩
  | returnFalse => exact ⟨recorded.line, recorded.status⟩
  | setPort cliAddr => exact ⟨recorded.line, recorded.status⟩
  | setSel => exact ⟨recorded.line, recorded.status⟩
  | replaceSel =>
      constructor
      · intro conn isLatest passed
        exact (passed (inTime.1 inProgress conn isLatest)).elim
      · exact recorded.status
  | setOn =>
      constructor
      · exact recorded.line
      · intro conn isLatest passed
        exact (passed (inTime.2 inProgress conn isLatest)).elim
  | returnTrue => exact ⟨recorded.line, recorded.status⟩

theorem ahead_lose {threads : Threads} {i entering : Nat}
    (running : threads.process.loops[i]? = some entering) {conn : Nat}
    {statement : LeaveStatement} (ahead : threads.Ahead conn statement) :
    (threads.lose i entering).Ahead conn statement := by
  rcases ahead with inLoop | ⟨entry, member, found⟩
  · by_cases same : conn = entering
    · refine .inr ⟨(entering, .addInfo), ?_, same.symm, Nat.zero_le _⟩
      exact List.mem_append_right _ (.head _)
    · exact .inl (mem_eraseIdx_of_ne running inLoop same)
  · exact .inr ⟨entry, List.mem_append_left _ member, found⟩

theorem ahead_leave {threads : Threads} {j leaver : Nat}
    {now : LeaveStatement} (found : threads.leaving[j]? = some (leaver, now))
    {conn : Nat} {statement : LeaveStatement}
    (ahead : threads.Ahead conn statement) (other : statement ≠ now) :
    (threads.leave j leaver now).Ahead conn statement := by
  rcases ahead with inLoop | ⟨entry, member, same, notBehind⟩
  · refine .inl ?_
    cases now <;> exact inLoop
  · right
    by_cases here : entry = (leaver, now)
    · subst here
      have before : now.place < statement.place := by
        apply Nat.lt_of_le_of_ne notBehind
        intro samePlace
        exact other (LeaveStatement.place_injective samePlace).symm
      obtain ⟨following, next_eq, stillNotBehind⟩ :=
        LeaveStatement.next_of_place_lt before
      refine ⟨(leaver, following), ?_, same, stillNotBehind⟩
      simp only [leave, next_eq]
      exact (mem_set_iff_of_found found _ _).mpr (.inl rfl)
    · have stays := mem_eraseIdx_of_ne found member here
      refine ⟨entry, ?_, same, notBehind⟩
      cases next_eq : now.next with
      | none =>
          simp only [leave, next_eq]
          exact stays
      | some following =>
          simp only [leave, next_eq]
          exact (mem_set_iff_of_found found _ _).mpr (.inr stays)

theorem Recorded.leave {threads : Threads} (recorded : threads.Recorded)
    {j leaver : Nat} {now : LeaveStatement}
    (found : threads.leaving[j]? = some (leaver, now)) :
    (threads.leave j leaver now).Recorded := by
  have kept (conn : Nat) (statement : LeaveStatement)
      (other : statement ≠ now)
      (passed : ¬(threads.leave j leaver now).Ahead conn statement) :
      ¬threads.Ahead conn statement := by
    intro ahead
    exact passed (ahead_leave found ahead other)
  cases now with
  | addInfo =>
      constructor
      · intro conn _ _
        exact lastStatusLine_of_status _ (by decide)
      · intro conn isLatest passed
        exact recorded.status conn isLatest
          (kept conn .setServerState (by decide) passed)
  | setServerState =>
      constructor
      · intro conn isLatest passed
        exact recorded.line conn isLatest
          (kept conn .addInfo (by decide) passed)
      · intro conn _ _
        rfl
  | shutdown =>
      constructor
      · intro conn isLatest passed
        exact recorded.line conn isLatest
          (kept conn .addInfo (by decide) passed)
      · intro conn isLatest passed
        exact recorded.status conn isLatest
          (kept conn .setServerState (by decide) passed)
  | leaveLoop =>
      constructor
      · intro conn isLatest passed
        exact recorded.line conn isLatest
          (kept conn .addInfo (by decide) passed)
      · intro conn isLatest passed
        exact recorded.status conn isLatest
          (kept conn .setServerState (by decide) passed)

theorem receive_frame {process next : Process} {i : Nat} {chunk : List Byte}
    (taken : process.step (.receive i chunk) = some next) :
    next.loops = process.loops ∧
      lastStatusLine next.dlg = lastStatusLine process.dlg ∧
      next.dlg.mServerStatus = process.dlg.mServerStatus := by
  obtain ⟨info, _, rfl⟩ := Process.eq_of_step_receive taken
  exact ⟨rfl, lastStatusLine_narrow process.dlg info, rfl⟩

theorem Recorded.step {threads next : Threads} {event : ThreadEvent}
    (recorded : threads.Recorded) (inTime : threads.WritesInTime event)
    (taken : threads.step event = some next) : next.Recorded := by
  cases event with
  | connect outcome =>
      simp only [Threads.step, Option.ite_none_right_eq_some,
        Option.some.injEq] at taken
      obtain ⟨_, rfl⟩ := taken
      exact recorded.connect outcome
  | statement localAddr =>
      obtain ⟨statement, inProgress, rfl⟩ :=
        Option.map_eq_some_iff.mp taken
      exact recorded.connectStatement localAddr inProgress inTime
  | serverClose k =>
      obtain ⟨process, closed, rfl⟩ := Option.map_eq_some_iff.mp taken
      obtain ⟨connection, _, rfl⟩ := Option.map_eq_some_iff.mp closed
      exact ⟨recorded.line, recorded.status⟩
  | idle i =>
      obtain ⟨process, idled, rfl⟩ := Option.map_eq_some_iff.mp taken
      obtain ⟨_, _, rfl⟩ := Option.map_eq_some_iff.mp idled
      exact recorded
  | receive i chunk =>
      obtain ⟨process, received, rfl⟩ := Option.map_eq_some_iff.mp taken
      obtain ⟨loops, line, status⟩ := receive_frame received
      apply recorded.frame
      · rfl
      · intro conn statement ahead
        rcases ahead with running | inBranch
        · rw [← loops] at running
          exact .inl running
        · exact .inr inBranch
      · exact line
      · exact status
  | lose i =>
      simp only [Threads.step, Option.ite_none_right_eq_some,
        Option.map_eq_some_iff] at taken
      obtain ⟨_, entering, running, rfl⟩ := taken
      apply recorded.frame
      · rfl
      · intro conn statement ahead
        exact ahead_lose running ahead
      · rfl
      · rfl
  | leave j =>
      obtain ⟨⟨leaver, now⟩, found, rfl⟩ := Option.map_eq_some_iff.mp taken
      exact recorded.leave found

/-- In every run in which `ConnectToServer` writes in time, status and info
box are never left stale. -/
theorem status_not_stale {events : List ThreadEvent}
    (inTime : clientThreads.StepsMeet WritesInTime initial events) :
    clientThreads.Always Truthful initial events := by
  have recorded : clientThreads.Always Recorded initial events := by
    apply System.always_of_guarded _ recorded_initial inTime
    intro threads event next recorded writesInTime taken
    exact recorded.step writesInTime taken
  refine recorded.mono ?_
  intro threads atState
  exact atState.truthful

private def ownAddress : SockaddrIn :=
  { sinPort := 0x8a13, sinAddr := { b1 := 127, b2 := 0, b3 := 0, b4 := 1 } }

def connectCall (handle : Socket) : Option SockaddrIn → List ThreadEvent
  | none =>
      [.connect (.connects handle), .statement none, .statement none,
        .statement none]
  | some cliAddr =>
      .connect (.connects handle) ::
        List.replicate 6 (.statement (some cliAddr))

/-- Uninterrupted, the statements of `ConnectToServer` make a click. -/
theorem exec_connectCall {threads : Threads} {handle : Socket}
    (noCall : threads.connecting = none)
    (fresh : threads.process.Fresh handle) (localAddr : Option SockaddrIn) :
    clientThreads.exec threads (connectCall handle localAddr) =
      some
        { threads with
          process := threads.process.click (.connects handle) localAddr
          latest := some threads.process.nextConn } := by
  have connected : threads.step (.connect (.connects handle)) =
      some (threads.connect (.connects handle)) := by
    simp [step, noCall, fresh, ConnectOutcome.obtained]
  cases localAddr with
  | none =>
      simp only [connectCall, System.exec, clientThreads, connected,
        Option.bind_some]
      rw [noCall]
      rfl
  | some cliAddr =>
      simp only [connectCall, List.replicate, System.exec, clientThreads,
        connected, Option.bind_some]
      rw [noCall]
      rfl

theorem exec_leave_last (process : Process)
    (connecting : Option ConnectStatement) (latest : Option Nat)
    (others : List (Nat × LeaveStatement)) (conn : Nat)
    (now : LeaveStatement) (events : List ThreadEvent) :
    clientThreads.exec
        { process := process
          connecting := connecting
          latest := latest
          leaving := others ++ [(conn, now)] }
        (.leave others.length :: events) =
      clientThreads.exec
        { process := process.leaveStatement now
          connecting := connecting
          latest := latest
          leaving := others ++
            (now.next.map fun following => (conn, following)).toList }
        events := by
  have found : (others ++ [(conn, now)])[others.length]? =
      some (conn, now) := List.getElem?_concat_length
  simp only [System.exec, clientThreads, step, found, Option.map_some,
    Option.bind_some, leave]
  have erased : (others ++ [(conn, now)]).eraseIdx others.length = others := by
    rw [List.eraseIdx_append_of_length_le (Nat.le_refl _)]
    simp
  cases now <;> simp [LeaveStatement.next, erased]

/-- Uninterrupted, the statements of the branch make the step of a loop that
loses its connection. -/
theorem exec_loseCall {threads : Threads} {i : Nat} {process : Process}
    (lost : threads.process.step (.lose i) = some process) :
    clientThreads.exec threads
        (.lose i :: List.replicate 4 (.leave threads.leaving.length)) =
      some (threads.withProcess process) := by
  obtain ⟨conn, connection, running, _, _, rfl⟩ :=
    Process.eq_of_step_lose lost
  have entered : clientThreads.step threads (.lose i) =
      some (threads.lose i conn) := by
    simp [clientThreads, step, lost, running]
  rw [System.exec, entered, Option.bind_some]
  calc
    _ = _ := exec_leave_last _ _ _ threads.leaving conn .addInfo _
    _ = _ := exec_leave_last _ _ _ threads.leaving conn .setServerState _
    _ = _ := exec_leave_last _ _ _ threads.leaving conn .shutdown _
    _ = _ := exec_leave_last _ _ _ threads.leaving conn .leaveLoop []
    _ = some (threads.withProcess (threads.process.lose i)) := by
      simp only [System.exec, LeaveStatement.next, Option.map_none,
        Option.toList_none, List.append_nil]
      rfl

def recordedFirst : List ThreadEvent :=
  connectCall 28 (some ownAddress) ++
    [.receive 0 [104, 111], .serverClose 0, .lose 0, .leave 0, .leave 0,
      .leave 0, .leave 0]

theorem recordedFirst_enabled :
    (clientThreads.exec initial recordedFirst).isSome := by decide

theorem status_not_stale_in_recordedFirst :
    (clientThreads.exec initial recordedFirst).isSome ∧
      clientThreads.Always Truthful initial recordedFirst :=
  ⟨recordedFirst_enabled, status_not_stale (by decide)⟩

/-- The server closes the connection at once, and the loop has left before
`ConnectToServer` writes that the connection is up. -/
def closedFirst : List ThreadEvent :=
  [.connect (.connects 28), .serverClose 0, .lose 0, .leave 0, .leave 0,
    .leave 0, .leave 0] ++
      List.replicate 6 (.statement (some ownAddress))

theorem closedFirst_enabled :
    (clientThreads.exec initial closedFirst).isSome := by decide

theorem closed_connection_shown_up :
    ¬∀ events, clientThreads.Always Truthful initial events := by
  intro truthful
  have last := truthful closedFirst closedFirst _ (List.prefix_refl _)
    (System.run_get closedFirst_enabled)
  have shown := last (by decide) 0 (by decide) (by decide)
  exact absurd shown.1 (by decide)

end Threads

end OpenChat.Client
