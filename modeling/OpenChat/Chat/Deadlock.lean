import OpenChat.Chat.FileTransfer
import OpenChat.Foundation.EchoLoop

/-!
# Who waits for whom while a file is sent

The window thread of the server is inside `OnBtn_File`, whose `send` blocks
while the connection towards the client is full.  The client sends 256 bytes
back for every chunk it receives and shows.  The server's `ClientFunc` thread
takes them, but its `AddInfo` needs the window thread.  `Select` with its
timeout is left out: a loop it keeps waiting changes nothing.
-/

namespace OpenChat.Chat

open Platform Client Server Foundation

variable {page : CodePage}

/-- The bytes a connection can hold towards the client and back. -/
structure Link where
  toClient : Nat
  toServer : Nat
  toClient_pos : 0 < toClient
  toServer_pos : 0 < toServer

/-- The client's `ClientFunc`: in `recv`, in `AddInfo`, or in `send` with
some bytes of its array left.  There is no text for an array without a
NUL. -/
inductive ClientThread where
  | receiving
  | adding (info : Option (List Byte)) (msg : List Byte)
  | sending (rest : List Byte)
deriving DecidableEq

inductive ServerThread where
  | receiving
  | adding (info : Option (List Byte))
deriving DecidableEq

/-- The state of the three threads and of the connection between them: what
the calls of `send` in `OnBtn_File` have still to hand over, whether the
handler has returned, the bytes on the way, and the texts shown so far. -/
structure Exchange where
  unsent : List (List Byte)
  finished : Bool
  toClient : List Byte
  client : ClientThread
  clientInfo : List (Option (List Byte))
  toServer : List Byte
  server : ServerThread
  serverInfo : List (Option (List Byte))
deriving DecidableEq

inductive ExchangeEvent where
  | send (k : Nat)
  | leave
  | clientRecv (k : Nat)
  | clientAddInfo
  | clientSend (k : Nat)
  | serverRecv (k : Nat)
  | serverAddInfo
deriving DecidableEq

namespace Exchange

def start (transfer : FileTransfer page) : Exchange :=
  { unsent := transfer.calls
    finished := false
    toClient := []
    client := .receiving
    clientInfo := []
    toServer := []
    server := .receiving
    serverInfo := [] }

/-- One step of one thread; `none` while the thread has to wait. -/
def step (link : Link) (exchange : Exchange) :
    ExchangeEvent → Option Exchange
  | .send k =>
      match exchange.unsent with
      | [] => none
      | buf :: rest =>
          if 0 < k ∧ k ≤ buf.length ∧
              exchange.toClient.length + k ≤ link.toClient then
            some
              { exchange with
                unsent :=
                  if buf.drop k = [] then rest else buf.drop k :: rest
                toClient := exchange.toClient ++ buf.take k }
          else none
  | .leave =>
      if exchange.unsent = [] ∧ exchange.finished = false then
        some { exchange with finished := true }
      else none
  | .clientRecv k =>
      match exchange.client with
      | .receiving =>
          if 0 < k ∧ k ≤ TcpClient.bufSize ∧
              k ≤ exchange.toClient.length then
            let (info, msg) := TcpClient.clientFunc (exchange.toClient.take k)
            some
              { exchange with
                toClient := exchange.toClient.drop k
                client := .adding info msg }
          else none
      | _ => none
  | .clientAddInfo =>
      match exchange.client with
      | .adding info msg =>
          some
            { exchange with
              client := .sending msg
              clientInfo := exchange.clientInfo ++ [info] }
      | _ => none
  | .clientSend k =>
      match exchange.client with
      | .sending rest =>
          if 0 < k ∧ k ≤ rest.length ∧
              exchange.toServer.length + k ≤ link.toServer then
            some
              { exchange with
                client :=
                  if rest.drop k = [] then .receiving
                  else .sending (rest.drop k)
                toServer := exchange.toServer ++ rest.take k }
          else none
      | _ => none
  | .serverRecv k =>
      match exchange.server with
      | .receiving =>
          if 0 < k ∧ k ≤ TcpServer.maxBuff ∧
              k ≤ exchange.toServer.length then
            some
              { exchange with
                toServer := exchange.toServer.drop k
                server :=
                  .adding (TcpServer.clientFunc (exchange.toServer.take k)) }
          else none
      | _ => none
  | .serverAddInfo =>
      match exchange.server with
      | .adding info =>
          if exchange.finished = true then
            some
              { exchange with
                server := .receiving
                serverInfo := exchange.serverInfo ++ [info] }
          else none
      | _ => none

end Exchange

def Link.exchange (link : Link) : System Exchange ExchangeEvent :=
  { step := Exchange.step link }

def Link.shape (link : Link) : EchoLoop.Shape :=
  { forward := link.toClient
    backward := link.toServer
    answer := TcpClient.bufSize
    taken := TcpClient.bufSize
    collected := TcpServer.maxBuff
    forward_pos := link.toClient_pos
    backward_pos := link.toServer_pos
    answer_pos := by decide
    taken_pos := by decide
    collected_pos := by decide }

/-- The part a thread's step has in the echo loop. -/
def ExchangeEvent.role : ExchangeEvent → EchoLoop.Event
  | .send k => .put k
  | .leave => .finish
  | .clientRecv k => .take k
  | .clientAddInfo => .handle
  | .clientSend k => .reply k
  | .serverRecv k => .collect k
  | .serverAddInfo => .release

theorem ExchangeEvent.role_surjective : Function.Surjective role := by
  intro event
  cases event with
  | put k => exact ⟨.send k, rfl⟩
  | finish => exact ⟨.leave, rfl⟩
  | take k => exact ⟨.clientRecv k, rfl⟩
  | handle => exact ⟨.clientAddInfo, rfl⟩
  | reply k => exact ⟨.clientSend k, rfl⟩
  | collect k => exact ⟨.serverRecv k, rfl⟩
  | release => exact ⟨.serverAddInfo, rfl⟩

def ClientThread.counts : ClientThread → EchoLoop.Responder
  | .receiving => .receiving
  | .adding _ msg => .handling msg.length
  | .sending rest => .replying rest.length

/-- The exchange with every list of bytes replaced by its length. -/
def Exchange.counts (exchange : Exchange) : EchoLoop.State :=
  { pending := exchange.unsent.map List.length
    finished := exchange.finished
    forward := exchange.toClient.length
    responder := exchange.client.counts
    backward := exchange.toServer.length
    waiting := exchange.server ≠ .receiving }

theorem map_length_unsent (buf : List Byte) (rest : List (List Byte))
    (k : Nat) :
    (if buf.drop k = [] then rest else buf.drop k :: rest).map List.length =
      EchoLoop.remainder (buf.length - k) (rest.map List.length) := by
  rw [EchoLoop.remainder, ← List.length_drop]
  by_cases last : buf.drop k = []
  · rw [if_pos last, if_pos (List.length_eq_zero_iff.mpr last)]
  · rw [if_neg last, if_neg (List.length_eq_zero_iff.not.mpr last),
      List.map_cons]

theorem counts_sending (rest : List Byte) (k : Nat) :
    (if rest.drop k = [] then ClientThread.receiving
      else .sending (rest.drop k)).counts =
      EchoLoop.Responder.withDue (rest.length - k) := by
  rw [EchoLoop.Responder.withDue, ← List.length_drop]
  by_cases last : rest.drop k = []
  · rw [if_pos last, if_pos (List.length_eq_zero_iff.mpr last)]
    rfl
  · rw [if_neg last, if_neg (List.length_eq_zero_iff.not.mpr last)]
    rfl

private theorem map_guarded {α β : Type} {guard same : Prop}
    [Decidable guard] [Decidable same] {f : α → β} {next : α} {image : β}
    (agree : guard ↔ same) (viewed : guard → f next = image) :
    (if guard then some next else none).map f =
      if same then some image else none := by
  by_cases holds : guard
  · rw [if_pos holds, if_pos (agree.mp holds), Option.map_some, viewed holds]
  · rw [if_neg holds, if_neg (agree.not.mp holds), Option.map_none]

namespace Exchange

variable (link : Link) (exchange : Exchange)

theorem counts_send (k : Nat) :
    (exchange.step link (.send k)).map counts =
      EchoLoop.step link.shape exchange.counts (.put k) := by
  cases unsent : exchange.unsent with
  | nil => simp [step, EchoLoop.step, counts, unsent]
  | cons buf rest =>
      have pending : exchange.counts.pending =
          buf.length :: rest.map List.length := by
        simp [counts, unsent]
      simp only [step, EchoLoop.step, unsent, pending]
      apply map_guarded Iff.rfl
      intro room
      rw [counts, counts, map_length_unsent, List.length_append,
        List.length_take, Nat.min_eq_left room.2.1]

theorem counts_leave :
    (exchange.step link .leave).map counts =
      EchoLoop.step link.shape exchange.counts .finish := by
  apply map_guarded
  · simp [counts]
  · exact fun _ => rfl

theorem counts_clientRecv (k : Nat) :
    (exchange.step link (.clientRecv k)).map counts =
      EchoLoop.step link.shape exchange.counts (.take k) := by
  cases client : exchange.client with
  | receiving =>
      simp only [step, EchoLoop.step, counts, client, ClientThread.counts]
      apply map_guarded Iff.rfl
      intro available
      have bounded :
          (exchange.toClient.take k).length ≤ TcpClient.bufSize := by
        rw [List.length_take]
        omega
      rw [counts, ClientThread.counts, TcpClient.length_clientFunc bounded,
        List.length_drop]
      rfl
  | adding info msg =>
      simp [step, EchoLoop.step, counts, client, ClientThread.counts]
  | sending rest =>
      simp [step, EchoLoop.step, counts, client, ClientThread.counts]

theorem counts_clientAddInfo :
    (exchange.step link .clientAddInfo).map counts =
      EchoLoop.step link.shape exchange.counts .handle := by
  cases client : exchange.client <;>
    simp [step, EchoLoop.step, counts, client, ClientThread.counts]

theorem counts_clientSend (k : Nat) :
    (exchange.step link (.clientSend k)).map counts =
      EchoLoop.step link.shape exchange.counts (.reply k) := by
  cases client : exchange.client with
  | receiving =>
      simp [step, EchoLoop.step, counts, client, ClientThread.counts]
  | adding info msg =>
      simp [step, EchoLoop.step, counts, client, ClientThread.counts]
  | sending rest =>
      simp only [step, EchoLoop.step, counts, client, ClientThread.counts]
      apply map_guarded Iff.rfl
      intro room
      rw [counts, counts_sending, List.length_append, List.length_take,
        Nat.min_eq_left room.2.1]

theorem counts_serverRecv (k : Nat) :
    (exchange.step link (.serverRecv k)).map counts =
      EchoLoop.step link.shape exchange.counts (.collect k) := by
  cases server : exchange.server with
  | receiving =>
      simp only [step, EchoLoop.step, counts, server]
      apply map_guarded
      · simp [Link.shape]
      · intro _
        rw [counts, List.length_drop]
        rfl
  | adding info => simp [step, EchoLoop.step, counts, server]

theorem counts_serverAddInfo :
    (exchange.step link .serverAddInfo).map counts =
      EchoLoop.step link.shape exchange.counts .release := by
  cases server : exchange.server with
  | receiving => simp [step, EchoLoop.step, counts, server]
  | adding info =>
      simp only [step, EchoLoop.step, counts, server]
      apply map_guarded
      · simp
      · exact fun _ => rfl

end Exchange

/-- Counting bytes turns the transfer into the echo loop. -/
theorem Link.exchange_viewedAs (link : Link) :
    link.exchange.ViewedAs (EchoLoop.system link.shape) Exchange.counts
      ExchangeEvent.role where
  step := by
    intro exchange event
    cases event with
    | send k => exact exchange.counts_send link k
    | leave => exact exchange.counts_leave link
    | clientRecv k => exact exchange.counts_clientRecv link k
    | clientAddInfo => exact exchange.counts_clientAddInfo link
    | clientSend k => exact exchange.counts_clientSend link k
    | serverRecv k => exact exchange.counts_serverRecv link k
    | serverAddInfo => exact exchange.counts_serverAddInfo link
  named := ExchangeEvent.role_surjective

theorem length_of_mem_records {buf : Buffer 512} {lines : List FileLine}
    {record : List Byte} (member : record ∈ records page buf lines) :
    record.length = 512 := by
  induction lines generalizing buf with
  | nil => cases member
  | cons line lines induction =>
      rcases List.mem_cons.mp member with rfl | later
      · exact (PCServerDlg.fillRecord page line buf).length_eq
      · exact induction later

theorem FileTransfer.map_length_calls (transfer : FileTransfer page) :
    transfer.calls.map List.length =
      List.replicate transfer.lines.length 512 := by
  rw [transfer.calls_eq, List.eq_replicate_iff]
  constructor
  · rw [List.length_map, length_records]
  · intro length member
    obtain ⟨record, isRecord, rfl⟩ := List.mem_map.mp member
    exact length_of_mem_records isRecord

/-- A transfer can come to a halt exactly if the file is longer than the
buffer towards the client and as many bytes as the client has to receive
before its echoes overflow the way back. -/
theorem exists_stuck_iff (link : Link) (transfer : FileTransfer page) :
    (∃ exchange, link.exchange.Reaches (.start transfer) exchange ∧
        link.exchange.Stuck exchange ∧ exchange.finished = false) ↔
      link.toClient + (link.toServer + 257) / 256 <
        512 * transfer.lines.length := by
  have start_counts : (Exchange.start transfer).counts =
      EchoLoop.start (List.replicate transfer.lines.length 512) := by
    rw [EchoLoop.start, ← transfer.map_length_calls]
    rfl
  have nonempty : ∀ message ∈ List.replicate transfer.lines.length 512,
      0 < message := by
    intro message member
    rw [List.eq_of_mem_replicate member]
    decide
  have loop := EchoLoop.exists_deadlock_iff link.shape nonempty
  rw [← start_counts, List.sum_replicate_nat, Nat.mul_comm] at loop
  exact (link.exchange_viewedAs.exists_stuck_iff (.start transfer)
    fun counts => counts.finished = false).trans loop

/-- While `OnBtn_File` has not returned some thread can always go on exactly
if 512 bytes for each line fit into the buffer towards the client, with one
more byte for each echo needed to overflow the buffer back. -/
theorem transfer_never_stuck_iff (link : Link)
    (transfer : FileTransfer page) :
    (∀ exchange, link.exchange.Reaches (.start transfer) exchange →
        exchange.finished = false → ¬link.exchange.Stuck exchange) ↔
      512 * transfer.lines.length ≤
        link.toClient + (link.toServer + 257) / 256 := by
  rw [← Nat.not_lt, ← exists_stuck_iff link transfer]
  constructor
  · intro goesOn found
    obtain ⟨exchange, reaches, stuck, unfinished⟩ := found
    exact goesOn exchange reaches unfinished stuck
  · intro noneStuck exchange reaches unfinished stuck
    exact noneStuck ⟨exchange, reaches, stuck, unfinished⟩

def plainLink : Link where
  toClient := 8192
  toServer := 8192
  toClient_pos := by decide
  toServer_pos := by decide

def eighteenLines : FileTransfer .ascii :=
  { twoLines with lines := (List.replicate 9 twoLines.lines).flatten }

/-- The client takes 33 bytes one at a time and stays in the `send` of the
last echo, the server's `ClientFunc` holds the first byte of the first one,
and `OnBtn_File` fills the buffer towards the client before its lines end. -/
theorem transfer_can_deadlock :
    ¬∀ (link : Link) (page : CodePage) (transfer : FileTransfer page)
      (exchange : Exchange),
      link.exchange.Reaches (.start transfer) exchange →
      exchange.finished = false → ¬link.exchange.Stuck exchange := by
  intro neverStuck
  have long : plainLink.toClient + (plainLink.toServer + 257) / 256 <
      512 * eighteenLines.lines.length := by decide
  obtain ⟨exchange, reaches, stuck, unfinished⟩ :=
    (exists_stuck_iff plainLink eighteenLines).mpr long
  exact neverStuck plainLink .ascii eighteenLines exchange reaches
    unfinished stuck

end OpenChat.Chat
