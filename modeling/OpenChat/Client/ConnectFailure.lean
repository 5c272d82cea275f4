import OpenChat.Client.Connections

/-!
# A connect that fails

`Connect` overwrites `m_socket` before it knows whether it will succeed, and
starts its receive loop before `ConnectToServer` asks for the local address.
A call that returns false therefore leaves the process as it was only when
`socket` fails and there was no socket to lose.
-/

namespace OpenChat.Client

open Platform Foundation

/-- The socket, the open sockets, the loops with what they read, and what can
be received and sent are the same before and after. -/
structure SameConnections (before after : Process) : Prop where
  mSocket : after.mSocket = before.mSocket
  openSockets : ∀ handle,
    handle ∈ after.openSockets ↔ handle ∈ before.openSockets
  loops : after.loops = before.loops
  current : after.current = before.current
  receives : ∀ i chunk, (after.step (.receive i chunk)).isSome =
    (before.step (.receive i chunk)).isSome
  sends : ∀ page message, (after.dlg.preTranslateMessage page message).2.2 =
    (before.dlg.preTranslateMessage page message).2.2

namespace Process

theorem receive_isSome_congr {before after : Process}
    (loops : after.loops = before.loops)
    (current : after.current = before.current) (i : Nat)
    (chunk : List Byte) :
    (after.step (.receive i chunk)).isSome =
      (before.step (.receive i chunk)).isSome := by
  simp only [step, loops, current]
  cases before.loops[i]? with
  | none => rfl
  | some conn =>
      cases before.current with
      | none => rfl
      | some connection =>
          simp only
          split
          · rw [Option.isSome_map, Option.isSome_map]
          · rfl

theorem sameConnections_socketFails {process : Process}
    (noSocket : process.mSocket = invalidSocket)
    (localAddr : Option SockaddrIn) :
    SameConnections process (process.click .socketFails localAddr) := by
  have mSocket :
      (process.click .socketFails localAddr).mSocket = process.mSocket := by
    rw [noSocket]
    rfl
  have current :
      (process.click .socketFails localAddr).current = process.current := by
    rw [Process.current, mSocket]
    rfl
  constructor
  · exact mSocket
  · intro handle
    rw [click_openSockets, ConnectOutcome.obtained, List.append_nil]
  · rfl
  · exact current
  · exact receive_isSome_congr rfl current
  · intro page message
    have sendsOn : (process.click .socketFails localAddr).dlg.mClient.mSocket =
        process.dlg.mClient.mSocket := mSocket
    cases message with
    | keyDown wParam =>
        simp only [PCClientDlg.preTranslateMessage, sendsOn]
        split
        · rfl
        · split <;> rfl
    | other => rfl

theorem not_sameConnections_of_obtained {process : Process}
    {outcome : ConnectOutcome} {handle : Socket}
    (obtained : handle ∈ outcome.obtained)
    (fresh : process.Fresh handle) (localAddr : Option SockaddrIn) :
    ¬SameConnections process (process.click outcome localAddr) := by
  intro same
  apply fresh.2
  apply (same.openSockets handle).mp
  rw [click_openSockets]
  exact List.mem_append_right _ obtained

/-- `ConnectToServer` returns true exactly if the connection is established
and its local address is known. -/
theorem connectToServer_connected (dlg : PCClientDlg)
    (outcome : ConnectOutcome) (localAddr : Option SockaddrIn) :
    (dlg.connectToServer outcome localAddr).1 = true ↔
      (∃ handle, outcome = .connects handle) ∧ localAddr.isSome := by
  cases outcome with
  | socketFails => simp [PCClientDlg.connectToServer, TcpClient.connect]
  | connectFails handle =>
      simp [PCClientDlg.connectToServer, TcpClient.connect]
  | connects handle =>
      cases localAddr <;>
        simp [PCClientDlg.connectToServer, TcpClient.connect]

def FailureHarmless (process : Process) : ClientEvent → Prop
  | .click outcome localAddr =>
      (process.dlg.connectToServer outcome localAddr).1 = false →
        SameConnections process (process.click outcome localAddr)
  | _ => True

/-- A call fails only at `socket`, and only while there is no socket. -/
def FailsWithoutSocket (process : Process) : ClientEvent → Prop
  | .click .socketFails _ => process.mSocket = invalidSocket
  | .click (.connectFails _) _ => False
  | .click (.connects _) localAddr => localAddr.isSome
  | _ => True

instance (process : Process) : DecidablePred process.FailsWithoutSocket
  | .click .socketFails _ => inferInstanceAs (Decidable (_ = _))
  | .click (.connectFails _) _ => inferInstanceAs (Decidable False)
  | .click (.connects _) localAddr =>
      inferInstanceAs (Decidable (localAddr.isSome = true))
  | .serverClose _ | .idle _ | .receive _ _ | .lose _ =>
      inferInstanceAs (Decidable True)

theorem failureHarmless_iff {process next : Process} {event : ClientEvent}
    (taken : process.step event = some next) :
    process.FailureHarmless event ↔ process.FailsWithoutSocket event := by
  cases event with
  | click outcome localAddr =>
      have fresh := (eq_of_step_click taken).1
      cases outcome with
      | socketFails =>
          constructor
          · intro harmless
            exact (harmless rfl).mSocket.symm
          · intro noSocket _
            exact sameConnections_socketFails noSocket localAddr
      | connectFails handle =>
          constructor
          · intro harmless
            exact not_sameConnections_of_obtained (.head _)
              (fresh handle (.head _)) localAddr (harmless rfl)
          · intro impossible
            exact impossible.elim
      | connects handle =>
          constructor
          · intro harmless
            cases localAddr with
            | none =>
                exact (not_sameConnections_of_obtained (.head _)
                  (fresh handle (.head _)) none (harmless rfl)).elim
            | some cliAddr => rfl
          · intro known failed
            have connected := (connectToServer_connected process.dlg
              (.connects handle) localAddr).mpr ⟨⟨handle, rfl⟩, known⟩
            rw [connected] at failed
            cases failed
  | _ => exact Iff.rfl

/-- In every run of the client, no failed call changes anything about the
connections exactly if every call that fails does so at `socket` while
`m_socket` is invalid. -/
theorem failed_connect_harmless_iff {events : List ClientEvent}
    {process : Process} (run : clientProcess.Run initial events process) :
    clientProcess.StepsMeet FailureHarmless initial events ↔
      clientProcess.StepsMeet FailsWithoutSocket initial events := by
  apply System.stepsMeet_congr _ run
  intro state event next taken
  exact failureHarmless_iff taken

private def boundAddress : SockaddrIn :=
  { sinPort := 0x8913, sinAddr := { b1 := 127, b2 := 0, b3 := 0, b4 := 1 } }

def lateSocket : List ClientEvent :=
  [.click .socketFails none, .click (.connects 20) (some boundAddress),
    .receive 0 [111, 107]]

theorem lateSocket_enabled :
    (clientProcess.exec initial lateSocket).isSome := by decide

theorem failed_connect_harmless_in_lateSocket :
    clientProcess.StepsMeet FailureHarmless initial lateSocket :=
  (failed_connect_harmless_iff (System.run_get lateSocket_enabled)).mpr
    (by decide)

def firstClick : List ClientEvent :=
  [.click (.connects 20) (some boundAddress)]

theorem firstClick_enabled :
    (clientProcess.exec initial firstClick).isSome := by decide

/-- While one connection is up a second call fails to connect, and the loop of
the first reads the socket that never connected. -/
theorem refused_click_orphans_connection :
    ¬∀ events, clientProcess.StepsMeet FailureHarmless initial events := by
  intro harmless
  have same := harmless (firstClick ++ [.click (.connectFails 24) none])
    firstClick _ _ (List.prefix_refl _) (System.run_get firstClick_enabled) rfl
  exact absurd same.mSocket (by decide)

end Process

end OpenChat.Client
