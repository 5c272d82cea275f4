import OpenChat.Client.ClientDlg
import OpenChat.Foundation.Run
import OpenChat.Server.TcpServer

/-!
# Receiving until nothing is on the way

A server and a client whose users do nothing any more, over a connection that
stays open.  The client answers every chunk with its whole array, so a receive
can put more bytes on the way than it takes off it; but the server answers
nothing, and each byte towards the client is received once.
-/

namespace OpenChat.Chat

open Platform Client Server Foundation

/-- The bytes on the way in both directions and the texts both windows have
shown. -/
structure Echo where
  toClient : List Byte
  toServer : List Byte
  clientInfo : List (Option (List Byte))
  serverInfo : List (Option (List Byte))
deriving DecidableEq

/-- A `recv` which returns `k` bytes, at the client or at the server. -/
inductive Receive where
  | client (k : Nat)
  | server (k : Nat)
deriving DecidableEq

namespace Receive

def isClient : Receive → Bool
  | .client _ => true
  | .server _ => false

def isServer : Receive → Bool
  | .client _ => false
  | .server _ => true

theorem isServer_eq_not (event : Receive) :
    event.isServer = !event.isClient := by
  cases event <;> rfl

end Receive

namespace Echo

/-- One pass of one of the two `ClientFunc` loops; the text of an array without
a NUL is left open. -/
def step (echo : Echo) : Receive → Option Echo
  | .client k =>
      if 0 < k ∧ k ≤ TcpClient.bufSize ∧ k ≤ echo.toClient.length then
        let (info, msg) := TcpClient.clientFunc (echo.toClient.take k)
        some
          { echo with
            toClient := echo.toClient.drop k
            toServer := echo.toServer ++ msg
            clientInfo := echo.clientInfo ++ [info] }
      else none
  | .server k =>
      if 0 < k ∧ k ≤ TcpServer.maxBuff ∧ k ≤ echo.toServer.length then
        let info := TcpServer.clientFunc (echo.toServer.take k)
        some
          { echo with
            toServer := echo.toServer.drop k
            serverInfo := echo.serverInfo ++ [info] }
      else none

def loops : System Echo Receive :=
  { step := step }

theorem step_client {echo next : Echo} {k : Nat}
    (taken : echo.step (.client k) = some next) :
    0 < k ∧ next.toClient.length + k = echo.toClient.length ∧
      next.toServer.length = echo.toServer.length + 256 := by
  simp only [step, Option.ite_none_right_eq_some, Option.some.injEq] at taken
  obtain ⟨⟨positive, bounded, available⟩, rfl⟩ := taken
  have chunk : (echo.toClient.take k).length ≤ TcpClient.bufSize := by
    rw [List.length_take]
    omega
  refine ⟨positive, ?_, ?_⟩
  · rw [List.length_drop]
    omega
  · rw [List.length_append, TcpClient.length_clientFunc chunk]
    rfl

theorem step_server {echo next : Echo} {k : Nat}
    (taken : echo.step (.server k) = some next) :
    0 < k ∧ next.toClient = echo.toClient ∧
      next.toServer.length + k = echo.toServer.length := by
  simp only [step, Option.ite_none_right_eq_some, Option.some.injEq] at taken
  obtain ⟨⟨positive, _, available⟩, rfl⟩ := taken
  refine ⟨positive, rfl, ?_⟩
  rw [List.length_drop]
  omega

/-- Every byte on the way to the client is good for one receive there. -/
theorem clientReceives_le {start finish : Echo} {events : List Receive}
    (run : loops.Run start events finish) :
    events.countP Receive.isClient ≤ start.toClient.length := by
  have uses : ∀ echo event next, loops.step echo event = some next →
      (if event.isClient then 1 else 0) + next.toClient.length ≤
        echo.toClient.length := by
    intro echo event next taken
    cases event with
    | client k =>
        obtain ⟨positive, fewer, _⟩ := step_client taken
        simp only [Receive.isClient, if_true]
        omega
    | server k =>
        obtain ⟨_, same, _⟩ := step_server taken
        simp [Receive.isClient, same]
  have counted := run.countP_add_le Receive.isClient _ uses
  omega

/-- Every byte on the way to the server is good for one receive there, and
every byte on the way to the client for as many as the array it can bring
back. -/
theorem serverReceives_le {start finish : Echo} {events : List Receive}
    (run : loops.Run start events finish) :
    events.countP Receive.isServer ≤
      start.toServer.length + 256 * start.toClient.length := by
  have uses : ∀ echo event next, loops.step echo event = some next →
      (if event.isServer then 1 else 0) +
          (next.toServer.length + 256 * next.toClient.length) ≤
        echo.toServer.length + 256 * echo.toClient.length := by
    intro echo event next taken
    cases event with
    | client k =>
        obtain ⟨positive, fewer, more⟩ := step_client taken
        simp only [Receive.isServer, Bool.false_eq_true, if_false]
        omega
    | server k =>
        obtain ⟨positive, same, fewer⟩ := step_server taken
        simp only [Receive.isServer, if_true, same]
        omega
  have counted := run.countP_add_le Receive.isServer _ uses
  omega

theorem not_endless (start : Echo) : ¬loops.Endless start := by
  apply System.not_endless_of_bounded
    (start.toClient.length +
      (start.toServer.length + 256 * start.toClient.length))
  intro events finish run
  have atClient := clientReceives_le run
  have atServer := serverReceives_le run
  have others : (events.countP fun event => !event.isClient) =
      events.countP Receive.isServer := by
    congr 1
    funext event
    exact event.isServer_eq_not.symm
  rw [List.length_eq_countP_add_countP Receive.isClient]
  simp only [Bool.not_eq_true, Bool.decide_eq_false, others]
  omega

theorem stuck_iff (echo : Echo) :
    loops.Stuck echo ↔ echo.toClient = [] ∧ echo.toServer = [] := by
  have small : 1 ≤ TcpClient.bufSize ∧ 1 ≤ TcpServer.maxBuff := by decide
  constructor
  · intro stuck
    have clientWaits := stuck (.client 1)
    have serverWaits := stuck (.server 1)
    simp only [loops, step, ite_eq_right_iff, reduceCtorEq,
      imp_false] at clientWaits serverWaits
    constructor
    · apply List.eq_nil_of_length_eq_zero
      omega
    · apply List.eq_nil_of_length_eq_zero
      omega
  · rintro ⟨noneToClient, noneToServer⟩ event
    cases event with
    | client k =>
        simp only [loops, step, noneToClient, List.length_nil,
          ite_eq_right_iff, reduceCtorEq, imp_false]
        omega
    | server k =>
        simp only [loops, step, noneToServer, List.length_nil,
          ite_eq_right_iff, reduceCtorEq, imp_false]
        omega

end Echo

/-- From every state the receive loops come to rest: there is no endless run,
a run has at most one client receive for each byte on the way to the client
and at most one server receive for each byte on the way to the server and 256
for each byte on the way to the client, and where no receive is possible any
more everything has been taken. -/
theorem echo_comes_to_rest (start : Echo) :
    ¬Echo.loops.Endless start ∧
      ∀ events finish, Echo.loops.Run start events finish →
        events.countP Receive.isClient ≤ start.toClient.length ∧
          events.countP Receive.isServer ≤
            start.toServer.length + 256 * start.toClient.length ∧
          (Echo.loops.Stuck finish ↔
            finish.toClient = [] ∧ finish.toServer = []) := by
  refine ⟨Echo.not_endless start, ?_⟩
  intro events finish run
  exact ⟨Echo.clientReceives_le run, Echo.serverReceives_le run,
    Echo.stuck_iff finish⟩

def twoBytesUnderway : Echo :=
  { toClient := [104, 105]
    toServer := []
    clientInfo := []
    serverInfo := [] }

theorem two_bytes_come_to_rest :
    [Receive.client 2, .server 256].countP Receive.isServer ≤ 512 :=
  ((echo_comes_to_rest twoBytesUnderway).2 _ _
    (System.run_get (by decide +kernel))).2.1

end OpenChat.Chat
