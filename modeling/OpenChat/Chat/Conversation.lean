import OpenChat.Chat.Reception
import OpenChat.Foundation.Run
import OpenChat.Server.ServerDlg

/-!
# A conversation over one connection

Both users send whenever they like, both receive loops run on their own, and
TCP decides how many bytes a `recv` returns.  In every state a window should
have shown what was sent to it except for what is still on the way; it has, as
long as no chunk was read beyond its array or hid text behind a NUL.
-/

namespace OpenChat.Chat

open Platform Client Server Foundation Foundation.CutStream

/-- Bytes which are not padding. -/
def isVisible (byte : Byte) : Bool :=
  !isNul byte

def visible (bytes : List Byte) : List Byte :=
  bytes.filter isVisible

theorem visible_append (left right : List Byte) :
    visible (left ++ right) = visible left ++ visible right :=
  List.filter_append left right

theorem visible_recvBuffer (size : Nat) (chunk : List Byte) :
    visible (recvBuffer size chunk) = visible chunk := by
  have padding : visible (List.replicate (size - chunk.length) 0) = [] := by
    rw [visible, List.filter_eq_nil_iff]
    intro byte member
    rw [List.eq_of_mem_replicate member]
    decide
  rw [recvBuffer, visible_append, padding, List.append_nil]

theorem visible_shown (chunk : List Byte) :
    visible (shown isNul chunk) = shown isNul chunk := by
  rw [visible, List.filter_eq_self]
  intro byte member
  exact List.mem_takeWhile_imp member

theorem shown_eq_visible_iff (chunk : List Byte) :
    shown isNul chunk = visible chunk ↔ ¬Hides isNul isVisible chunk := by
  have visible_shows : ∀ byte : Byte, isVisible byte = true →
      isNul byte = false := by
    intro byte seen
    simpa [isVisible] using seen
  rw [← filter_shown_eq_iff visible_shows, ← visible, ← visible,
    visible_shown]

/-- A chunk is read inside the array, and as a whole. -/
def ReadsAll (chunk : List Byte) : Prop :=
  LeavesTerminator chunk ∧ ¬Hides isNul isVisible chunk

theorem readsAll_iff (chunk : List Byte) :
    ReadsAll chunk ↔
      LeavesTerminator chunk ∧ shown isNul chunk = visible chunk := by
  rw [ReadsAll, shown_eq_visible_iff]

instance (chunk : List Byte) : Decidable (ReadsAll chunk) :=
  decidable_of_iff _ (readsAll_iff chunk).symm

theorem clientFunc_eq {chunk : List Byte} (bounded : chunk.length ≤ 256) :
    TcpServer.clientFunc chunk =
      if LeavesTerminator chunk then some (shown isNul chunk ++ [newline])
      else none := by
  by_cases leaves : LeavesTerminator chunk
  · have reads : TcpServer.clientFunc chunk ≠ none :=
      ((readInside_iff bounded).mpr leaves).serverReads
    obtain ⟨strMsg, read⟩ := Option.ne_none_iff_exists'.mp reads
    rw [if_pos leaves, read, clientFunc_eq_some read]
  · rw [if_neg leaves, TcpServer.clientFunc, TcpServer.maxBuff,
      (cString_eq_none_iff bounded).mpr leaves]
    rfl

/-- The texts passed to `AddInfo`, without the newline behind each; none once
an array was read beyond its end. -/
def shownText (info : List (Option (List Byte))) : Option (List Byte) :=
  info.foldl (fun before text? => before.bind fun before =>
    text?.map fun text => before ++ text.dropLast) (some [])

theorem shownText_append (info : List (Option (List Byte)))
    (text? : Option (List Byte)) :
    shownText (info ++ [text?]) =
      (shownText info).bind fun before =>
        text?.map fun text => before ++ text.dropLast := by
  rw [shownText, List.foldl_append]
  rfl

/-- What was shown and what is on the way is what was sent. -/
def Told (info : List (Option (List Byte))) (underway sent : List Byte) :
    Prop :=
  ∃ text, shownText info = some text ∧ text ++ visible underway = sent

theorem Told.send {info : List (Option (List Byte))}
    {underway sent : List Byte} (told : Told info underway sent)
    (bytes : List Byte) :
    Told info (underway ++ bytes) (sent ++ visible bytes) := by
  obtain ⟨text, shownSoFar, rfl⟩ := told
  refine ⟨text, shownSoFar, ?_⟩
  rw [visible_append, List.append_assoc]

theorem Told.receive_iff {info : List (Option (List Byte))}
    {underway sent : List Byte} (told : Told info underway sent) {k : Nat}
    (bounded : k ≤ 256) :
    Told (info ++ [TcpServer.clientFunc (underway.take k)])
        (underway.drop k) sent ↔
      ReadsAll (underway.take k) := by
  obtain ⟨text, shownSoFar, rfl⟩ := told
  have fits : (underway.take k).length ≤ 256 := by
    rw [List.length_take]
    omega
  have split : visible underway =
      visible (underway.take k) ++ visible (underway.drop k) := by
    rw [← visible_append, List.take_append_drop]
  rw [readsAll_iff, Told, shownText_append, shownSoFar, clientFunc_eq fits]
  by_cases leaves : LeavesTerminator (underway.take k)
  · rw [if_pos leaves, Option.bind_some, Option.map_some,
      List.dropLast_concat]
    simp only [Option.some.injEq, exists_eq_left', leaves, true_and, split,
      List.append_assoc, List.append_cancel_left_eq,
      List.append_cancel_right_eq]
  · simp [leaves]

/-- What the server sends on a connection: a typed text, or one record of a
file. -/
inductive ServerMessage where
  | typed (text : List WChar)
  | record (line : FileLine) (buf : Buffer 512)

def ServerMessage.bytes (page : CodePage) : ServerMessage → List Byte
  | .typed text => page.ct2a text
  | .record line buf => (PCServerDlg.fillRecord page line buf).bytes

/-- The bytes on the way, the chunk the client's loop has not sent back yet,
what both windows have shown, and the visible bytes sent to each. -/
structure Conversation where
  toClient : List Byte
  toServer : List Byte
  holding : Option (List Byte)
  clientInfo : List (Option (List Byte))
  serverInfo : List (Option (List Byte))
  sentToClient : List Byte
  sentToServer : List Byte

/-- What the two receive loops do: `recv` returns `k` bytes and the text is
shown, or the client sends its array back. -/
inductive Delivery where
  | clientReceives (k : Nat)
  | clientEchoes
  | serverReceives (k : Nat)
deriving DecidableEq

inductive Turn where
  | serverSends (message : ServerMessage)
  | clientTypes (text : List WChar)
  | loop (delivery : Delivery)

namespace Conversation

def start : Conversation :=
  { toClient := []
    toServer := []
    holding := none
    clientInfo := []
    serverInfo := []
    sentToClient := []
    sentToServer := [] }

def deliver (conv : Conversation) : Delivery → Option Conversation
  | .clientReceives k =>
      if conv.holding = none ∧ 0 < k ∧ k ≤ TcpClient.bufSize ∧
          k ≤ conv.toClient.length then
        let chunk := conv.toClient.take k
        some
          { conv with
            toClient := conv.toClient.drop k
            holding := some chunk
            clientInfo := conv.clientInfo ++ [(TcpClient.clientFunc chunk).1] }
      else none
  | .clientEchoes =>
      match conv.holding with
      | some chunk =>
          some
            { conv with
              toServer := conv.toServer ++ (TcpClient.clientFunc chunk).2
              holding := none
              sentToServer := conv.sentToServer ++ visible chunk }
      | none => none
  | .serverReceives k =>
      if 0 < k ∧ k ≤ TcpServer.maxBuff ∧ k ≤ conv.toServer.length then
        let chunk := conv.toServer.take k
        some
          { conv with
            toServer := conv.toServer.drop k
            serverInfo := conv.serverInfo ++ [TcpServer.clientFunc chunk] }
      else none

def step (page : CodePage) (conv : Conversation) : Turn → Option Conversation
  | .serverSends message =>
      some
        { conv with
          toClient := conv.toClient ++ message.bytes page
          sentToClient :=
            conv.sentToClient ++ visible (message.bytes page) }
  | .clientTypes text =>
      some
        { conv with
          toServer := conv.toServer ++ page.ct2a text
          sentToServer := conv.sentToServer ++ visible (page.ct2a text) }
  | .loop delivery => conv.deliver delivery

def exchange (page : CodePage) : System Conversation Turn :=
  { step := step page }

/-- In both directions what was shown and what is on the way is what was
sent. -/
structure BothTold (conv : Conversation) : Prop where
  client : Told conv.clientInfo conv.toClient conv.sentToClient
  server : Told conv.serverInfo conv.toServer conv.sentToServer

theorem bothTold_start : start.BothTold :=
  ⟨⟨[], rfl, rfl⟩, ⟨[], rfl, rfl⟩⟩

/-- A `recv` returns a chunk which is read inside the array and hides
nothing. -/
def ReceivesWhole (conv : Conversation) : Turn → Prop
  | .loop (.clientReceives k) => ReadsAll (conv.toClient.take k)
  | .loop (.serverReceives k) => ReadsAll (conv.toServer.take k)
  | _ => True

instance (conv : Conversation) : DecidablePred conv.ReceivesWhole
  | .loop (.clientReceives _) => inferInstanceAs (Decidable (ReadsAll _))
  | .loop (.serverReceives _) => inferInstanceAs (Decidable (ReadsAll _))
  | .loop .clientEchoes => isTrue trivial
  | .serverSends _ => isTrue trivial
  | .clientTypes _ => isTrue trivial

theorem BothTold.step_iff {page : CodePage} {conv next : Conversation}
    {turn : Turn} (told : conv.BothTold)
    (taken : (exchange page).step conv turn = some next) :
    next.BothTold ↔ conv.ReceivesWhole turn := by
  cases turn with
  | serverSends message =>
      obtain rfl := Option.some.inj taken
      exact iff_of_true ⟨told.client.send _, told.server⟩ trivial
  | clientTypes text =>
      obtain rfl := Option.some.inj taken
      exact iff_of_true ⟨told.client, told.server.send _⟩ trivial
  | loop delivery =>
      cases delivery with
      | clientReceives k =>
          simp only [exchange, step, deliver, Option.ite_none_right_eq_some,
            Option.some.injEq] at taken
          obtain ⟨⟨_, _, bounded, _⟩, rfl⟩ := taken
          rw [ReceivesWhole, ← told.client.receive_iff bounded]
          exact ⟨BothTold.client, fun client => ⟨client, told.server⟩⟩
      | clientEchoes =>
          simp only [exchange, step, deliver] at taken
          split at taken
          · rename_i chunk holds
            obtain rfl := Option.some.inj taken
            have echoed := told.server.send (TcpClient.clientFunc chunk).2
            rw [TcpClient.clientFunc, visible_recvBuffer] at echoed
            exact iff_of_true ⟨told.client, echoed⟩ trivial
          · simp at taken
      | serverReceives k =>
          simp only [exchange, step, deliver, Option.ite_none_right_eq_some,
            Option.some.injEq] at taken
          obtain ⟨⟨_, bounded, _⟩, rfl⟩ := taken
          rw [ReceivesWhole, ← told.server.receive_iff bounded]
          exact ⟨BothTold.server, fun server => ⟨told.client, server⟩⟩

end Conversation

/-- However the two users and the two loops take turns and however TCP cuts
the streams: throughout a conversation each window has shown, in order, what
was sent to it except for what is still on the way, exactly if every `recv`
returns a chunk which leaves its array terminated and has no NUL in front of
text. -/
theorem conversation_told_iff (page : CodePage) {turns : List Turn}
    {conv : Conversation}
    (run : (Conversation.exchange page).Run .start turns conv) :
    (Conversation.exchange page).Always Conversation.BothTold .start turns ↔
      (Conversation.exchange page).StepsMeet Conversation.ReceivesWhole
        .start turns := by
  apply System.always_iff_stepsMeet (fun _ told => told) _ _
    Conversation.bothTold_start run
  · intro conv turn next told whole taken
    exact (told.step_iff taken).mpr whole
  · intro conv turn next told partly taken still
    exact partly ((told.step_iff taken).mp still)

/-- The client echoes `hi` and then types `a`; the letter reaches the server
in one chunk with padding. -/
def paddedLetter : List Turn :=
  [.serverSends (.typed [104, 105]), .loop (.clientReceives 2),
    .loop .clientEchoes, .clientTypes [97], .loop (.serverReceives 2),
    .loop (.serverReceives 255)]

theorem paddedLetter_enabled :
    ((Conversation.exchange .ascii).exec .start paddedLetter).isSome =
      true := by
  decide +kernel

theorem paddedLetter_is_not_told :
    ¬(Conversation.exchange .ascii).Always Conversation.BothTold .start
      paddedLetter := by
  rw [conversation_told_iff .ascii (System.run_get paddedLetter_enabled)]
  decide +kernel

namespace Conversation

def deliveries : System Conversation Delivery :=
  { step := deliver }

/-- Nothing is on the way and nothing waits to be sent back. -/
def AtRest (conv : Conversation) : Prop :=
  conv.toClient = [] ∧ conv.holding = none ∧ conv.toServer = []

/-- How many receives of single bytes and how many echoes are still to come,
at most. -/
def remaining (conv : Conversation) : Nat :=
  258 * conv.toClient.length +
    (conv.holding.elim 0 fun chunk =>
      (TcpClient.clientFunc chunk).2.length + 1) +
    conv.toServer.length

theorem readsAll_take_one {bytes : List Byte} (some_ : bytes ≠ []) :
    ReadsAll (bytes.take 1) := by
  obtain ⟨byte, rest, rfl⟩ := List.exists_cons_of_ne_nil some_
  exact ⟨.inl (by simp), not_hides_unit byte⟩

theorem BothTold.deliver {conv next : Conversation} (told : conv.BothTold)
    (delivery : Delivery) (whole : conv.ReceivesWhole (.loop delivery))
    (taken : conv.deliver delivery = some next) : next.BothTold := by
  have step : (exchange .ascii).step conv (.loop delivery) = some next :=
    taken
  exact (told.step_iff step).mpr whole

theorem clientEchoes_uses {conv : Conversation} {chunk : List Byte}
    (held : conv.holding = some chunk) :
    ∃ next, conv.deliver .clientEchoes = some next ∧
      next.remaining + 1 = conv.remaining := by
  simp only [Conversation.deliver, held, Option.some.injEq, exists_eq_left',
    remaining, Option.elim_none, Option.elim_some, List.length_append]
  omega

theorem clientReceives_uses {conv : Conversation}
    (held : conv.holding = none) (some_ : conv.toClient ≠ []) :
    ∃ next, conv.deliver (.clientReceives 1) = some next ∧
      next.remaining + 1 = conv.remaining := by
  have positive := List.length_pos_of_ne_nil some_
  have enabled : conv.holding = none ∧ 0 < 1 ∧ 1 ≤ TcpClient.bufSize ∧
      1 ≤ conv.toClient.length := ⟨held, by decide, by decide, positive⟩
  have array : (TcpClient.clientFunc (conv.toClient.take 1)).2.length =
      256 := by
    apply TcpClient.length_clientFunc
    rw [List.length_take]
    exact (min_le_left _ _).trans (by decide)
  rw [Conversation.deliver, if_pos enabled]
  refine ⟨_, rfl, ?_⟩
  simp only [remaining, held, Option.elim_some, Option.elim_none, array,
    List.length_drop]
  omega

theorem serverReceives_uses {conv : Conversation}
    (some_ : conv.toServer ≠ []) :
    ∃ next, conv.deliver (.serverReceives 1) = some next ∧
      next.remaining + 1 = conv.remaining := by
  have positive := List.length_pos_of_ne_nil some_
  have enabled : 0 < 1 ∧ 1 ≤ TcpServer.maxBuff ∧
      1 ≤ conv.toServer.length := ⟨by decide, by decide, positive⟩
  rw [Conversation.deliver, if_pos enabled]
  refine ⟨_, rfl, ?_⟩
  simp only [remaining, List.length_drop]
  omega

/-- If not everything is at rest, one of the loops can go on with a single
byte or an echo. -/
theorem BothTold.progress {conv : Conversation} (told : conv.BothTold) :
    conv.AtRest ∨ ∃ delivery next, conv.deliver delivery = some next ∧
      next.BothTold ∧ next.remaining < conv.remaining := by
  cases held : conv.holding with
  | some chunk =>
      obtain ⟨next, taken, less⟩ := clientEchoes_uses held
      exact .inr ⟨.clientEchoes, next, taken,
        told.deliver .clientEchoes trivial taken, by omega⟩
  | none =>
      by_cases noneToClient : conv.toClient = []
      · by_cases noneToServer : conv.toServer = []
        · exact .inl ⟨noneToClient, held, noneToServer⟩
        · obtain ⟨next, taken, less⟩ := serverReceives_uses noneToServer
          exact .inr ⟨.serverReceives 1, next, taken,
            told.deliver (.serverReceives 1)
              (readsAll_take_one noneToServer) taken, by omega⟩
      · obtain ⟨next, taken, less⟩ := clientReceives_uses held noneToClient
        exact .inr ⟨.clientReceives 1, next, taken,
          told.deliver (.clientReceives 1)
            (readsAll_take_one noneToClient) taken, by omega⟩

theorem deliver_sentToClient {conv next : Conversation} {delivery : Delivery}
    (taken : conv.deliver delivery = some next) :
    next.sentToClient = conv.sentToClient := by
  cases delivery with
  | clientReceives k | serverReceives k =>
      simp only [Conversation.deliver, Option.ite_none_right_eq_some,
        Option.some.injEq] at taken
      rw [← taken.2]
  | clientEchoes =>
      simp only [Conversation.deliver] at taken
      split at taken
      · rw [← Option.some.inj taken]
      · simp at taken

theorem run_exchange (page : CodePage) {conv finish : Conversation}
    {loops : List Delivery} (run : deliveries.Run conv loops finish) :
    (exchange page).Run conv (loops.map .loop) finish := by
  induction run with
  | nil conv => exact .nil conv
  | cons taken _ induction => exact .cons taken induction

end Conversation

/-- As long as all has been told, nothing is lost for good: the receive loops
can bring every conversation to rest with the client showing exactly what the
server had sent, and the server what the client had and sends meanwhile. -/
theorem conversation_can_be_completed (page : CodePage)
    {conv : Conversation} (told : conv.BothTold) :
    ∃ (loops : List Delivery) (finish : Conversation),
      (Conversation.exchange page).Run conv (loops.map .loop) finish ∧
        finish.AtRest ∧
        shownText finish.clientInfo = some conv.sentToClient ∧
        shownText finish.serverInfo = some finish.sentToServer := by
  have schedule : ∀ now : Conversation,
      (now.BothTold ∧ now.sentToClient = conv.sentToClient) →
        now.AtRest ∨ ∃ delivery next,
          Conversation.deliveries.step now delivery = some next ∧
            (next.BothTold ∧ next.sentToClient = conv.sentToClient) ∧
            next.remaining < now.remaining := by
    rintro now ⟨nowTold, same⟩
    rcases nowTold.progress with rest | goesOn
    · exact .inl rest
    · obtain ⟨delivery, next, taken, nextTold, less⟩ := goesOn
      have unchanged := Conversation.deliver_sentToClient taken
      exact .inr ⟨delivery, next, taken, ⟨nextTold, unchanged.trans same⟩,
        less⟩
  obtain ⟨finish, ⟨loops, run⟩, ⟨finishTold, same⟩, rest⟩ :=
    System.reaches_goal Conversation.remaining schedule ⟨told, rfl⟩
  have noneToClient : visible finish.toClient = [] := by
    rw [rest.1]
    rfl
  have noneToServer : visible finish.toServer = [] := by
    rw [rest.2.2]
    rfl
  obtain ⟨clientText, clientShown, clientAll⟩ := finishTold.client
  obtain ⟨serverText, serverShown, serverAll⟩ := finishTold.server
  refine ⟨loops, finish, Conversation.run_exchange page run, rest, ?_, ?_⟩
  · rw [clientShown, ← same, ← clientAll, noneToClient, List.append_nil]
  · rw [serverShown, ← serverAll, noneToServer, List.append_nil]

def greeting : Conversation :=
  { Conversation.start with
    toClient := [104, 105]
    sentToClient := [104, 105] }

theorem greeting_can_be_completed :
    ∃ (loops : List Delivery) (finish : Conversation),
      (Conversation.exchange .ascii).Run greeting (loops.map .loop) finish ∧
        finish.AtRest ∧
        shownText finish.clientInfo = some [104, 105] ∧
        shownText finish.serverInfo = some finish.sentToServer :=
  conversation_can_be_completed .ascii
    ⟨⟨[], rfl, by decide⟩, ⟨[], rfl, rfl⟩⟩

end OpenChat.Chat
