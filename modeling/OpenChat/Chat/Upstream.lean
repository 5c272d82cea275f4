import OpenChat.Client.ClientDlg
import OpenChat.Foundation.CutStream
import OpenChat.Server.TcpServer

/-!
# From a client to the server

Two threads of the client send on one socket: the window sends typed lines
with their exact length, the receive loop sends back every chunk as a whole
array, padded with NULs.  The server reads each of its own chunks as a C
string.  What was meant arrives exactly when no chunk has padding in front of
later text.
-/

namespace OpenChat.Chat

open Platform Client Server Foundation.CutStream

variable {page : CodePage}

/-- A typed text which encodes to at least one byte. -/
structure TypedLine (page : CodePage) where
  text : List WChar
  nonempty : page.ct2a text ≠ []

/-- A chunk the client received: shorter than its array and free of NULs. -/
structure Received where
  bytes : List Byte
  nonempty : bytes ≠ []
  short : bytes.length < TcpClient.bufSize
  noNul : 0 ∉ bytes

/-- One call of `send` on the client's socket. -/
inductive ClientSend (page : CodePage) where
  | typed (line : TypedLine page)
  | echo (chunk : Received)

namespace ClientSend

def bytes : ClientSend page → List Byte
  | .typed line => page.ct2a line.text
  | .echo chunk => (TcpClient.clientFunc chunk.bytes).2

def content : ClientSend page → List Byte
  | .typed line => page.ct2a line.text
  | .echo chunk => chunk.bytes

end ClientSend

theorem preTranslateMessage_return (page : CodePage) (dlg : PCClientDlg) :
    (dlg.preTranslateMessage page (.keyDown vkReturn)).2.2 =
      some (dlg.mClient.mSocket, page.ct2a dlg.mEditSend) := by
  have notEscape : vkReturn ≠ vkEscape := by decide
  simp [PCClientDlg.preTranslateMessage, notEscape]

def clientStream (sends : List (ClientSend page)) : List Byte :=
  sends.flatMap ClientSend.bytes

/-- For every chunk the server received it passed a text to `AddInfo`, and
the texts without their final newlines are the contents of the sends. -/
def ContentPreserved (sends : List (ClientSend page))
    (cut : Cut 255 (clientStream sends)) : Prop :=
  ∃ texts : List (List Byte),
    cut.chunks.map TcpServer.clientFunc = texts.map some ∧
    (texts.map List.dropLast).flatten = sends.flatMap ClientSend.content

private theorem filter_eq_self_of_noNul {bytes : List Byte}
    (noNul : 0 ∉ bytes) :
    bytes.filter (fun byte => !isNul byte) = bytes := by
  rw [List.filter_eq_self]
  intro byte member
  rw [not_isNul_of_noNul noNul byte member]
  rfl

theorem filter_bytes (send : ClientSend page) :
    send.bytes.filter (fun byte => !isNul byte) = send.content := by
  cases send with
  | typed line =>
      exact filter_eq_self_of_noNul (page.ct2a_noNul line.text)
  | echo chunk =>
      have content := filter_eq_self_of_noNul chunk.noNul
      have padding : (List.replicate
          (TcpClient.bufSize - chunk.bytes.length) (0 : Byte)).filter
            (fun byte => !isNul byte) = [] := by
        rw [List.filter_eq_nil_iff]
        intro byte member
        simp [isNul, List.eq_of_mem_replicate member]
      rw [ClientSend.bytes, TcpClient.clientFunc, recvBuffer,
        List.filter_append, content, padding, List.append_nil]
      rfl

theorem filter_clientStream (sends : List (ClientSend page)) :
    (clientStream sends).filter (fun byte => !isNul byte) =
      sends.flatMap ClientSend.content := by
  induction sends with
  | nil => rfl
  | cons send sends induction =>
      rw [clientStream, List.flatMap_cons, List.filter_append, filter_bytes,
        List.flatMap_cons]
      rw [clientStream] at induction
      rw [induction]

theorem clientFunc_of_short {chunk : List Byte} (short : chunk.length ≤ 255) :
    TcpServer.clientFunc chunk = some (shown isNul chunk ++ [newline]) := by
  have bounded : chunk.length < TcpServer.maxBuff := by
    rw [TcpServer.maxBuff]
    omega
  rw [TcpServer.clientFunc, cString_recvBuffer_of_lt bounded]
  rfl

private theorem clientFunc_chunks {stream : List Byte} (cut : Cut 255 stream) :
    cut.chunks.map TcpServer.clientFunc =
      (cut.chunks.map fun chunk => shown isNul chunk ++ [newline]).map
        some := by
  rw [List.map_map]
  apply List.map_congr_left
  intro chunk member
  exact clientFunc_of_short (cut.bounded chunk member)

theorem contentPreserved_iff_shown (sends : List (ClientSend page))
    (cut : Cut 255 (clientStream sends)) :
    ContentPreserved sends cut ↔
      (cut.chunks.map (shown isNul)).flatten =
        sends.flatMap ClientSend.content := by
  have dropped : (cut.chunks.map fun chunk =>
      shown isNul chunk ++ [newline]).map List.dropLast =
        cut.chunks.map (shown isNul) := by
    simp
  constructor
  · intro preserved
    obtain ⟨texts, texts_eq, contents⟩ := preserved
    rw [clientFunc_chunks] at texts_eq
    obtain rfl := (List.map_injective_iff.mpr
      (Option.some_injective _)) texts_eq
    rwa [dropped] at contents
  · intro contents
    refine ⟨_, clientFunc_chunks cut, ?_⟩
    rwa [dropped]

/-- However typed lines and echoes are interleaved and however the stream is
cut, the content is preserved exactly if no chunk has a NUL in front of a byte
that is not NUL. -/
theorem content_preserved_iff (sends : List (ClientSend page))
    (cut : Cut 255 (clientStream sends)) :
    ContentPreserved sends cut ↔
      ∀ chunk ∈ cut.chunks, ¬Hides isNul (fun byte => !isNul byte) chunk := by
  have visible_shows : ∀ byte : Byte, (!isNul byte) = true →
      isNul byte = false := by
    intro byte visible
    simpa using visible
  have shownChunks : cut.chunks.map (shown isNul) =
      cut.chunks.map fun chunk =>
        (shown isNul chunk).filter fun byte => !isNul byte := by
    apply List.map_congr_left
    intro chunk _
    exact (filter_eq_self_of_noNul (takeWhile_noNul chunk)).symm
  rw [contentPreserved_iff_shown, ← filter_clientStream, shownChunks,
    ← flatten_filter_shown_eq_iff visible_shows, cut.joined]

def echoThenLine : List (ClientSend .ascii) :=
  [.echo ⟨[97], by decide, by decide, by decide⟩,
    .typed ⟨[98], by decide⟩]

def paddingFirst : Cut 255 (clientStream echoThenLine) where
  chunks := [97 :: List.replicate 254 0, [0, 98]]
  joined := by decide +kernel
  nonempty := by decide +kernel
  bounded := by decide +kernel

theorem padding_hides_line :
    ¬∀ (page : CodePage) (sends : List (ClientSend page))
      (cut : Cut 255 (clientStream sends)), ContentPreserved sends cut := by
  intro preserved
  have shown_eq := (contentPreserved_iff_shown echoThenLine paddingFirst).mp
    (preserved .ascii echoThenLine paddingFirst)
  exact absurd shown_eq (by decide)

end OpenChat.Chat
