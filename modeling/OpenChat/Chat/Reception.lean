import OpenChat.Client.ClientDlg
import OpenChat.Foundation.CutStream
import OpenChat.Server.TcpServer

/-!
# Reading a chunk as a C string

Both receive loops let `recv` fill the whole array and then read it as a C
string.  The terminator is one of the zeros the array was initialised with, or
a NUL the peer sent; a chunk that fills the array without one leaves neither.
-/

namespace OpenChat.Chat

open Platform Client Server Foundation.CutStream

/-- In both loops the array holds a terminator, and the search for it finds
one. -/
structure ReadInside (chunk : List Byte) : Prop where
  atServer : ∃ index < TcpServer.maxBuff,
    (recvBuffer TcpServer.maxBuff chunk)[index]? = some 0
  serverReads : TcpServer.clientFunc chunk ≠ none
  atClient : ∃ index < TcpClient.bufSize,
    (recvBuffer TcpClient.bufSize chunk)[index]? = some 0
  clientReads : (TcpClient.clientFunc chunk).1 ≠ none

/-- The chunk leaves a zero of the array in place or brings a NUL. -/
def LeavesTerminator (chunk : List Byte) : Prop :=
  chunk.length < 256 ∨ 0 ∈ chunk

instance (chunk : List Byte) : Decidable (LeavesTerminator chunk) :=
  inferInstanceAs (Decidable (_ ∨ _))

theorem length_recvBuffer {size : Nat} {chunk : List Byte}
    (bounded : chunk.length ≤ size) :
    (recvBuffer size chunk).length = size := by
  rw [recvBuffer, List.length_append, List.length_replicate]
  omega

theorem cString_eq_none_iff {chunk : List Byte} (bounded : chunk.length ≤ 256) :
    cString (recvBuffer 256 chunk) = none ↔ ¬LeavesTerminator chunk := by
  rw [cString_recvBuffer_eq_none_iff bounded, LeavesTerminator, not_or]
  constructor
  · rintro ⟨full, noNul⟩
    exact ⟨by omega, noNul⟩
  · rintro ⟨full, noNul⟩
    exact ⟨by omega, noNul⟩

/-- The text for a chunk read inside the array: what stands in front of its
first NUL, and a newline. -/
theorem clientFunc_eq_some {chunk strMsg : List Byte}
    (read : TcpServer.clientFunc chunk = some strMsg) :
    strMsg = shown isNul chunk ++ [newline] := by
  obtain ⟨text, isText, rfl⟩ := Option.map_eq_some_iff.mp read
  rw [cString, Option.ite_none_right_eq_some, recvBuffer,
    takeWhile_append_zeros] at isText
  rw [← Option.some.inj isText.2]
  rfl

theorem readInside_iff {chunk : List Byte} (bounded : chunk.length ≤ 256) :
    ReadInside chunk ↔ LeavesTerminator chunk := by
  constructor
  · intro inside
    by_contra lacks
    have unread := (cString_eq_none_iff bounded).mpr lacks
    have nothing : TcpServer.clientFunc chunk = none := by
      rw [TcpServer.clientFunc, TcpServer.maxBuff, unread]
      rfl
    exact inside.serverReads nothing
  · intro leaves
    have reads : cString (recvBuffer 256 chunk) ≠ none :=
      fun unread => (cString_eq_none_iff bounded).mp unread leaves
    obtain ⟨text, read⟩ := Option.ne_none_iff_exists'.mp reads
    obtain ⟨inside, found⟩ := cString_eq_some read
    rw [length_recvBuffer bounded] at inside
    have server : TcpServer.clientFunc chunk =
        some (text ++ [newline]) := by
      rw [TcpServer.clientFunc, TcpServer.maxBuff, read]
      rfl
    have client : (TcpClient.clientFunc chunk).1 =
        some (text ++ [newline]) := by
      rw [TcpClient.clientFunc, TcpClient.bufSize, read]
      rfl
    constructor
    · exact ⟨text.length, inside, found⟩
    · simp [server]
    · exact ⟨text.length, inside, found⟩
    · simp [client]

/-- Both loops read every chunk inside the array exactly if no chunk fills it
without a NUL. -/
theorem chunks_read_inside_iff {stream : List Byte} (cut : Cut 256 stream) :
    (∀ chunk ∈ cut.chunks, ReadInside chunk) ↔
      ∀ chunk ∈ cut.chunks, LeavesTerminator chunk := by
  constructor
  · intro inside chunk member
    exact (readInside_iff (cut.bounded chunk member)).mp (inside chunk member)
  · intro leaves chunk member
    exact (readInside_iff (cut.bounded chunk member)).mpr (leaves chunk member)

/-- However TCP cuts a stream, they do exactly if the stream has no 256 bytes
in a row without a NUL. -/
theorem stream_reads_inside_iff (stream : List Byte) :
    (∀ cut : Cut 256 stream, ∀ chunk ∈ cut.chunks, ReadInside chunk) ↔
      ¬HasWindow isNul 256 stream := by
  rw [← forall_full_stops_iff (by decide)]
  constructor
  · intro inside cut chunk member full
    rcases (chunks_read_inside_iff cut).mp (inside cut) chunk member with
      short | nul
    · omega
    · exact ⟨0, nul, rfl⟩
  · intro stops cut
    rw [chunks_read_inside_iff]
    intro chunk member
    by_cases full : chunk.length = 256
    · obtain ⟨byte, inChunk, isStop⟩ := stops cut chunk member full
      obtain rfl : byte = 0 := by simpa [isNul] using isStop
      exact .inr inChunk
    · have bounded := cut.bounded chunk member
      exact .inl (by omega)

def fullChunk : Cut 256 (List.replicate 256 (97 : Byte)) where
  chunks := [List.replicate 256 97]
  joined := List.append_nil _
  nonempty := by decide +kernel
  bounded := by decide +kernel

theorem full_chunk_reads_on :
    ¬∀ (stream : List Byte) (cut : Cut 256 stream), ∀ chunk ∈ cut.chunks,
      ReadInside chunk := by
  intro inside
  have leaves := (readInside_iff (fullChunk.bounded _ (.head _))).mp
    (inside _ fullChunk _ (.head _))
  exact absurd leaves (by decide +kernel)

end OpenChat.Chat
