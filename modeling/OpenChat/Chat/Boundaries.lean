import OpenChat.Chat.Upstream
import OpenChat.Server.Broadcast

/-!
# Typed messages and the chunks they arrive in

Both windows hand a typed text to `send` with nothing around it, and both
receive loops take one chunk for one message: they show its text and end the
line.  Nothing in the stream tells where a message ends, so the messages come
out as they were typed exactly when TCP happens to cut between them.
-/

namespace OpenChat.Chat

open Platform Client Server Foundation.CutStream

variable {page : CodePage}

/-- A typed text whose encoding is neither empty nor as long as a receive
array. -/
structure ShortLine (page : CodePage) extends TypedLine page where
  short : (page.ct2a text).length < 256

def ShortLine.message (line : ShortLine page) : List Byte :=
  page.ct2a line.text

theorem ShortLine.message_noNul (line : ShortLine page) : 0 ∉ line.message :=
  page.ct2a_noNul line.text

structure CheckedClient where
  dlg : PCServerDlg
  apart : RowsApart dlg.mClientList
  socket : Socket
  fits : socket < 2 ^ 32
  checked : ShowsChecked dlg.mClientList socket
  answer : Nat → Int

def typing (line : ShortLine page) : List Action :=
  [.edit line.text, .message (.keyDown vkReturn)]

def CheckedClient.typed (client : CheckedClient)
    (lines : List (ShortLine page)) : List (List Byte) :=
  (Desk.acts page
    { dlg := client.dlg, network := { sent := [], answer := client.answer } }
    (lines.flatMap typing)).network.sentTo client.socket

/-- The calls of `send` while lines are typed at the client, each line
followed by Return. -/
def typedCalls (page : CodePage) :
    PCClientDlg → List (ShortLine page) → List (Socket × List Byte)
  | _, [] => []
  | dlg, line :: lines =>
      let edited := { dlg with mEditSend := line.text }
      let handled := edited.preTranslateMessage page (.keyDown vkReturn)
      handled.2.2.toList ++ typedCalls page handled.2.1 lines

/-- Where lines are typed. -/
inductive Side where
  | atServer (client : CheckedClient)
  | atClient (dlg : PCClientDlg)

namespace Side

def stream (page : CodePage) (lines : List (ShortLine page)) :
    Side → List Byte
  | .atServer client => (client.typed lines).flatten
  | .atClient dlg => ((typedCalls page dlg lines).map Prod.snd).flatten

/-- What the `ClientFunc` of the other side passes to `AddInfo` for a
chunk. -/
def received : Side → List Byte → Option (List Byte)
  | .atServer _, chunk => (TcpClient.clientFunc chunk).1
  | .atClient _, chunk => TcpServer.clientFunc chunk

end Side

/-- `AddInfo` is called once for each message, in order, with the message and
a newline. -/
def BoundariesSurvive (side : Side) (lines : List (ShortLine page))
    (cut : Cut 256 (side.stream page lines)) : Prop :=
  cut.chunks.map side.received =
    lines.map fun line => some (line.message ++ [newline])

theorem sentTo_acts_typing (client : CheckedClient)
    (lines : List (ShortLine page)) {desk : Desk}
    (sameList : desk.dlg.mClientList = client.dlg.mClientList) :
    (desk.acts page (lines.flatMap typing)).network.sentTo client.socket =
      desk.network.sentTo client.socket ++ lines.map ShortLine.message := by
  induction lines generalizing desk with
  | nil => simp [Desk.acts]
  | cons line lines induction =>
      have editedList : (desk.act page (.edit line.text)).dlg.mClientList =
          client.dlg.mClientList := sameList
      have editedText : (desk.act page (.edit line.text)).dlg.mEditSend =
          line.text := rfl
      have sentList : ((desk.act page (.edit line.text)).act page
          (.message (.keyDown vkReturn))).dlg.mClientList =
            client.dlg.mClientList := sameList
      have later := induction sentList
      rw [Desk.acts] at later
      rw [List.flatMap_cons, typing, Desk.acts, List.foldl_append,
        List.foldl_cons, List.foldl_cons, List.foldl_nil, later,
        sentTo_act page (editedList ▸ client.apart) client.fits,
        sentTo_act page (sameList ▸ client.apart) client.fits]
      simp only [sameList, editedList, editedText, client.checked, if_true,
        handed, List.append_nil, List.append_assoc, List.singleton_append,
        List.map_cons]
      rfl

theorem map_typedCalls (page : CodePage) (dlg : PCClientDlg)
    (lines : List (ShortLine page)) :
    (typedCalls page dlg lines).map Prod.snd =
      lines.map ShortLine.message := by
  induction lines generalizing dlg with
  | nil => rfl
  | cons line lines induction =>
      have call := preTranslateMessage_return page
        { dlg with mEditSend := line.text }
      rw [typedCalls, call, Option.toList_some, List.map_append, induction]
      rfl

theorem Side.stream_eq (side : Side) (lines : List (ShortLine page)) :
    side.stream page lines = (lines.map ShortLine.message).flatten := by
  cases side with
  | atServer client =>
      rw [stream, CheckedClient.typed, sentTo_acts_typing client lines rfl]
      rfl
  | atClient dlg => rw [stream, map_typedCalls]

/-- A chunk without NULs is shown as it is if it leaves room for one. -/
theorem Side.received_of_noNul (side : Side) {chunk : List Byte}
    (noNul : 0 ∉ chunk) (bounded : chunk.length ≤ 256) :
    side.received chunk =
      if chunk.length = 256 then none else some (chunk ++ [newline]) := by
  have read := cString_recvBuffer_of_noNul noNul bounded
  have both : side.received chunk =
      (cString (recvBuffer 256 chunk)).map fun text => text ++ [newline] := by
    cases side <;> rfl
  rw [both, read]
  split <;> rfl

theorem Side.noNul_of_mem (side : Side) {lines : List (ShortLine page)}
    (cut : Cut 256 (side.stream page lines)) {chunk : List Byte}
    (member : chunk ∈ cut.chunks) : 0 ∉ chunk := by
  intro nul
  have inStream := (cut.infix_of_mem member).subset nul
  rw [side.stream_eq, List.mem_flatten] at inStream
  obtain ⟨message, isMessage, inMessage⟩ := inStream
  obtain ⟨line, _, rfl⟩ := List.mem_map.mp isMessage
  exact line.message_noNul inMessage

theorem Side.received_eq_message_iff (side : Side) {chunk message : List Byte}
    (noNul : 0 ∉ chunk) (bounded : chunk.length ≤ 256)
    (short : message.length < 256) :
    side.received chunk = some (message ++ [newline]) ↔ chunk = message := by
  rw [side.received_of_noNul noNul bounded]
  constructor
  · intro same
    split at same
    · simp at same
    · exact List.append_cancel_right (Option.some.inj same)
  · rintro rfl
    rw [if_neg (by omega)]

theorem Side.map_received_eq_iff (side : Side) {chunks : List (List Byte)}
    (noNul : ∀ chunk ∈ chunks, 0 ∉ chunk)
    (bounded : ∀ chunk ∈ chunks, chunk.length ≤ 256)
    (lines : List (ShortLine page)) :
    (chunks.map side.received =
        lines.map fun line => some (line.message ++ [newline])) ↔
      chunks = lines.map ShortLine.message := by
  induction chunks generalizing lines with
  | nil => cases lines <;> simp
  | cons chunk chunks induction =>
      cases lines with
      | nil => simp
      | cons line lines =>
          have first := side.received_eq_message_iff (noNul chunk (.head _))
            (bounded chunk (.head _)) line.short
          have later := induction
            (fun other member => noNul other (.tail _ member))
            (fun other member => bounded other (.tail _ member)) lines
          simp only [List.map_cons, List.cons.injEq, later]
          rw [ShortLine.message, first]

/-- However the stream is cut, the messages come out one by one exactly if
every chunk is one message. -/
theorem boundaries_survive_iff (side : Side) (lines : List (ShortLine page))
    (cut : Cut 256 (side.stream page lines)) :
    BoundariesSurvive side lines cut ↔
      cut.chunks = lines.map ShortLine.message :=
  side.map_received_eq_iff (fun _ member => side.noNul_of_mem cut member)
    cut.bounded lines

def oneChecked : CheckedClient where
  dlg :=
    { PCServerDlg.create with
      mClientList :=
        [{ port := "5001".toList
           ip := "10.0.0.2".toList
           socket := formatLd 12
           checked := true }] }
  apart :=
    { distinct := List.nodup_singleton _
      fit := by
        intro row member
        obtain rfl := List.mem_singleton.mp member
        exact ⟨12, by decide, rfl⟩ }
  socket := 12
  fits := by decide
  checked := by decide
  answer := fun _ => 1

def twoMessages : List (ShortLine .ascii) :=
  [⟨⟨[104], by decide⟩, by decide⟩, ⟨⟨[105], by decide⟩, by decide⟩]

/-- Both messages arrive in one chunk. -/
def merged : Cut 256
    ((Side.atServer oneChecked).stream .ascii twoMessages) where
  chunks := [[104, 105]]
  joined := by decide +kernel
  nonempty := by decide
  bounded := by decide

theorem messages_can_merge :
    ¬∀ (page : CodePage) (side : Side) (lines : List (ShortLine page))
      (cut : Cut 256 (side.stream page lines)),
        BoundariesSurvive side lines cut := by
  intro survive
  have texts := survive .ascii (.atServer oneChecked) twoMessages merged
  exact absurd (congrArg List.length texts) (by decide)

end OpenChat.Chat
