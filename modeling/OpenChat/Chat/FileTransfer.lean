import OpenChat.Client.ClientDlg
import OpenChat.Foundation.CutStream
import OpenChat.Server.Broadcast

/-!
# A file on its way to one client

`OnBtn_File` sends every line as a record of 512 bytes: the encoded line, a
NUL, whatever the array held before, and a newline in the last byte.  The
client reads chunks of at most 256 bytes as C strings.  Only what stands in
front of the first NUL of the whole stream is safe from every way to cut it.
-/

namespace OpenChat.Chat

open Platform Client Server Foundation.CutStream

variable {page : CodePage}

/-- A chosen file, the window it is sent from, one checked client and what the
local array holds at first. -/
structure FileTransfer (page : CodePage) where
  dlg : PCServerDlg
  apart : RowsApart dlg.mClientList
  socket : Socket
  fits : socket < 2 ^ 32
  checked : ShowsChecked dlg.mClientList socket
  lines : List FileLine
  buf : Buffer 512
  answer : Nat → Int

/-- Neither a NUL nor a newline. -/
def printable (byte : Byte) : Bool :=
  !isNul byte && byte ≠ newline

namespace FileTransfer

/-- The buffers `OnBtn_File` hands to `send` for the client, call by call. -/
def calls (transfer : FileTransfer page) : List (List Byte) :=
  (transfer.dlg.onBtnFile page (some transfer.lines) transfer.buf
    { sent := [], answer := transfer.answer }).sentTo transfer.socket

def stream (transfer : FileTransfer page) : List Byte :=
  ((transfer.dlg.onBtnFile page (some transfer.lines) transfer.buf
    { sent := [], answer := transfer.answer }).sentTo
      transfer.socket).flatten

def encoded (transfer : FileTransfer page) : List Byte :=
  transfer.lines.flatMap fun line => page.encode line.text

/-- For every chunk the client received it passed a text to `AddInfo`, and
these texts are, newlines aside, the encoded lines. -/
def Arrives (transfer : FileTransfer page)
    (cut : Cut 256 transfer.stream) : Prop :=
  ∃ texts : List (List Byte),
    (cut.chunks.map fun chunk => (TcpClient.clientFunc chunk).1) =
      texts.map some ∧
    texts.flatten.filter (fun byte => byte ≠ newline) = transfer.encoded

theorem calls_eq (transfer : FileTransfer page) :
    transfer.calls = records page transfer.buf transfer.lines := by
  have sent := PCServerDlg.sentTo_onBtnFile transfer.apart transfer.fits page
    [] (some transfer.lines) transfer.buf
    { sent := [], answer := transfer.answer }
  rw [if_pos transfer.checked] at sent
  rw [calls, sent]
  rfl

theorem stream_eq (transfer : FileTransfer page) :
    transfer.stream = (records page transfer.buf transfer.lines).flatten :=
  congrArg List.flatten transfer.calls_eq

end FileTransfer

theorem printable_shows (byte : Byte) (isPrintable : printable byte = true) :
    isNul byte = false := by
  rw [printable, Bool.and_eq_true] at isPrintable
  simpa using isPrintable.1

theorem clientFunc_chunk {chunk : List Byte} (bounded : chunk.length ≤ 256) :
    (TcpClient.clientFunc chunk).1 =
      if chunk.length = 256 → ∃ byte ∈ chunk, isNul byte = true then
        some (shown isNul chunk ++ [newline])
      else none := by
  rw [TcpClient.clientFunc, TcpClient.bufSize]
  by_cases full : chunk.length = 256
  · rw [cString_recvBuffer_of_eq full]
    by_cases terminated : ∃ byte ∈ chunk, isNul byte = true
    · rw [if_pos terminated, if_pos (fun _ => terminated)]
      rfl
    · rw [if_neg terminated, if_neg (fun needed => terminated (needed full))]
      rfl
  · have short : chunk.length < 256 := by omega
    rw [cString_recvBuffer_of_lt short,
      if_pos (fun isFull => (full isFull).elim)]
    rfl

private theorem filter_shown_newline (chunk : List Byte) :
    (shown isNul chunk ++ [newline]).filter (fun byte => byte ≠ newline) =
      (shown isNul chunk).filter printable := by
  rw [List.filter_append]
  have noNewline : [newline].filter (fun byte => byte ≠ newline) = [] := by
    decide
  rw [noNewline, List.append_nil]
  apply List.filter_congr
  intro byte member
  have notNul := not_isNul_of_noNul (takeWhile_noNul chunk) byte member
  simp [printable, notNul]

theorem FileTransfer.arrives_iff (transfer : FileTransfer page)
    (cut : Cut 256 transfer.stream) :
    transfer.Arrives cut ↔
      ReadsAs isNul printable transfer.encoded cut := by
  have shownTexts : ((cut.chunks.map fun chunk =>
      shown isNul chunk ++ [newline]).flatten).filter
        (fun byte => byte ≠ newline) =
      (cut.chunks.map fun chunk =>
        (shown isNul chunk).filter printable).flatten := by
    rw [List.filter_flatten, List.map_map]
    congr 1
    apply List.map_congr_left
    intro chunk _
    exact filter_shown_newline chunk
  constructor
  · intro arrives
    obtain ⟨texts, texts_eq, contents⟩ := arrives
    have terminated : ∀ chunk ∈ cut.chunks, chunk.length = 256 →
        ∃ byte ∈ chunk, isNul byte = true := by
      intro chunk member
      by_contra unterminated
      have noText : none ∈ texts.map some := by
        rw [← texts_eq, List.mem_map]
        refine ⟨chunk, member, ?_⟩
        rw [clientFunc_chunk (cut.bounded chunk member), if_neg unterminated]
      simp at noText
    have allShown : (cut.chunks.map fun chunk =>
        (TcpClient.clientFunc chunk).1) =
          (cut.chunks.map fun chunk =>
            shown isNul chunk ++ [newline]).map some := by
      rw [List.map_map]
      apply List.map_congr_left
      intro chunk member
      rw [clientFunc_chunk (cut.bounded chunk member),
        if_pos (terminated chunk member)]
      rfl
    rw [allShown] at texts_eq
    obtain rfl := (List.map_injective_iff.mpr
      (Option.some_injective _)) texts_eq
    refine ⟨terminated, ?_⟩
    rw [← shownTexts, contents]
  · intro reads
    obtain ⟨terminated, contents⟩ := reads
    refine ⟨cut.chunks.map fun chunk => shown isNul chunk ++ [newline], ?_,
      ?_⟩
    · rw [List.map_map]
      apply List.map_congr_left
      intro chunk member
      rw [clientFunc_chunk (cut.bounded chunk member),
        if_pos (terminated chunk member)]
      rfl
    · rw [shownTexts, contents]

/-- What is left of the array between the NUL behind a line of this length
and the last byte. -/
def leftover (length : Nat) (buf : Buffer 512) : List Byte :=
  (buf.bytes.take 511).drop (length + 1)

/-- A file that survives every cut: its first line is shorter than a chunk,
the array holds nothing printable and no run of 256 newlines behind it, and
there is either no other line or nothing else to show. -/
def Survives (page : CodePage) (buf : Buffer 512) : List FileLine → Prop
  | [] => True
  | line :: rest =>
      let length := (page.encode line.text).length
      length < 256 ∧
        (∀ byte ∈ leftover length buf, printable byte = false) ∧
        ¬HasWindow isNul 256 (leftover length buf ++ [newline]) ∧
        (rest = [] ∨
          length ≤ 1 ∧ ∀ other ∈ rest, page.encode other.text = [])

theorem fillRecord_bytes {line : FileLine} (buf : Buffer 512)
    (short : (page.encode line.text).length ≤ 510) :
    (PCServerDlg.fillRecord page line buf).bytes =
      page.encode line.text ++
        0 :: (leftover (page.encode line.text).length buf ++ [newline]) := by
  have fits : (page.encode line.text).length + 1 ≤ 512 := by omega
  have written : page.written 512 line.text =
      page.encode line.text ++ [0] := by
    rw [CodePage.written, if_pos fits]
  have writtenFits : (page.encode line.text ++ [0]).length ≤ 512 := by
    simpa using fits
  obtain ⟨last, last_eq⟩ : ∃ last, buf.bytes.drop 511 = [last] := by
    apply List.length_eq_one_iff.mp
    rw [List.length_drop, buf.length_eq]
  have behind : buf.bytes.drop ((page.encode line.text).length + 1) =
      leftover (page.encode line.text).length buf ++ [last] := by
    rw [leftover, ← last_eq, ← List.drop_append_of_le_length,
      List.take_append_drop]
    rw [List.length_take, buf.length_eq]
    omega
  have length : (page.encode line.text ++
      0 :: leftover (page.encode line.text).length buf).length = 511 := by
    simp only [leftover, List.length_append, List.length_cons,
      List.length_drop, List.length_take, buf.length_eq]
    omega
  rw [PCServerDlg.fillRecord_eq, Buffer.setAt_bytes, written,
    Buffer.overlay_bytes_of_le writtenFits, List.length_append,
    List.length_singleton, behind]
  calc
    ((page.encode line.text ++ [0]) ++
        (leftover (page.encode line.text).length buf ++ [last])).set 511
          newline =
      ((page.encode line.text ++
        0 :: leftover (page.encode line.text).length buf) ++ [last]).set 511
          newline := by
      simp only [List.append_assoc, List.cons_append, List.nil_append]
    _ = (page.encode line.text ++
        0 :: leftover (page.encode line.text).length buf) ++ [newline] := by
      rw [List.set_append_right _ _ length.le, length]
      rfl
    _ = _ := by
      simp only [List.append_assoc, List.cons_append]

private theorem fillRecord_bytes_of_empty {line : FileLine}
    (buf : Buffer 512) (empty : page.encode line.text = []) :
    (PCServerDlg.fillRecord page line buf).bytes =
      0 :: (leftover 0 buf ++ [newline]) := by
  have short : (page.encode line.text).length ≤ 510 := by simp [empty]
  rw [fillRecord_bytes buf short, empty]
  rfl

private theorem leftover_of_bytes {buf : Buffer 512} {behind : List Byte}
    {first last : Byte} (bytes : buf.bytes = first :: (behind ++ [last])) :
    leftover 0 buf = behind := by
  have length := congrArg List.length bytes
  rw [buf.length_eq] at length
  simp only [List.length_cons, List.length_append, List.length_nil] at length
  rw [leftover, bytes, List.take_succ_cons, List.drop_succ_cons,
    List.drop_zero, List.take_append_of_le_length (by omega),
    List.take_of_length_le (by omega)]

private theorem records_of_empty (buf : Buffer 512) {lines : List FileLine}
    (empty : ∀ line ∈ lines, page.encode line.text = []) :
    records page buf lines =
      List.replicate lines.length (0 :: (leftover 0 buf ++ [newline])) := by
  induction lines generalizing buf with
  | nil => rfl
  | cons line lines induction =>
      have bytes := fillRecord_bytes_of_empty buf (empty line (.head _))
      have later := induction (PCServerDlg.fillRecord page line buf)
        (fun other member => empty other (.tail _ member))
      rw [leftover_of_bytes bytes] at later
      rw [records, later, bytes]
      rfl

private theorem encode_free (page : CodePage) (line : FileLine) :
    ∀ byte ∈ page.encode line.text, isNul byte = false :=
  not_isNul_of_noNul (page.encode_noNul line.text line.noNul)

private theorem encode_printable (page : CodePage) (line : FileLine) :
    ∀ byte ∈ page.encode line.text, printable byte = true := by
  intro byte member
  have notNewline : byte ≠ newline := by
    intro isNewline
    exact page.encode_noNewline line.text line.noNewline (isNewline ▸ member)
  simp [printable, encode_free page line byte member, notNewline]

/-- The record of a line of at most one byte leaves the array as blank as it
was. -/
private theorem leftover_after_short {line : FileLine} (buf : Buffer 512)
    (atMostOne : (page.encode line.text).length ≤ 1) :
    leftover 0 (PCServerDlg.fillRecord page line buf) =
        leftover (page.encode line.text).length buf ∨
      leftover 0 (PCServerDlg.fillRecord page line buf) =
        0 :: leftover (page.encode line.text).length buf := by
  have bytes := fillRecord_bytes buf
    (show (page.encode line.text).length ≤ 510 by omega)
  match encoded : page.encode line.text with
  | [] =>
      rw [encoded] at bytes
      exact .inl (leftover_of_bytes bytes)
  | [_] =>
      rw [encoded] at bytes
      exact .inr (leftover_of_bytes bytes)
  | _ :: _ :: _ => simp [encoded] at atMostOne

/-- A second record shows the array behind its NUL: after a line of two bytes
or more that is no longer blank. -/
private theorem short_of_clean_records {line next : FileLine}
    {rest : List FileLine} {buf : Buffer 512}
    (short : (page.encode line.text).length < 256)
    (empty : page.encode next.text = [])
    (clean : ∀ byte ∈ (records page (PCServerDlg.fillRecord page line buf)
      (next :: rest)).flatten, printable byte = false) :
    (page.encode line.text).length ≤ 1 := by
  have bytes := fillRecord_bytes buf
    (show (page.encode line.text).length ≤ 510 by omega)
  match encoded : page.encode line.text with
  | [] => simp
  | [_] => simp
  | first :: second :: others =>
      have isPrintable := encode_printable page line second (by simp [encoded])
      have record := fillRecord_bytes_of_empty
        (PCServerDlg.fillRecord page line buf) empty
      have inLeftover : second ∈ leftover 0
          (PCServerDlg.fillRecord page line buf) := by
        rw [leftover, bytes, encoded]
        simp
      have hidden := clean second (by simp [records, record, inLeftover])
      simp [hidden] at isPrintable

/-- What follows the NUL of a first line shorter than a chunk. -/
private def behindFirst (page : CodePage) (line : FileLine)
    (rest : List FileLine) (buf : Buffer 512) : List Byte :=
  leftover (page.encode line.text).length buf ++ [newline] ++
    (records page (PCServerDlg.fillRecord page line buf) rest).flatten

private theorem behindFirst_of_short {line : FileLine} {rest : List FileLine}
    {buf : Buffer 512} (atMostOne : (page.encode line.text).length ≤ 1)
    (empty : ∀ other ∈ rest, page.encode other.text = [])
    (clean : ∀ byte ∈ leftover (page.encode line.text).length buf,
      printable byte = false)
    (noWindow : ¬HasWindow isNul 256
      (leftover (page.encode line.text).length buf ++ [newline])) :
    (∀ byte ∈ behindFirst page line rest buf, printable byte = false) ∧
      ¬HasWindow isNul 256 (behindFirst page line rest buf) := by
  have zero : isNul 0 = true := by decide
  have blank := leftover_after_short buf atMostOne
  rw [behindFirst, records_of_empty _ empty]
  constructor
  · have cleanBlock : ∀ byte ∈ leftover 0
        (PCServerDlg.fillRecord page line buf), printable byte = false := by
      intro byte member
      rcases blank with same | withNul
      · exact clean byte (same ▸ member)
      · rw [withNul] at member
        rcases List.mem_cons.mp member with rfl | old
        · decide
        · exact clean byte old
    intro byte member
    simp only [List.mem_append, List.mem_singleton, List.mem_flatten,
      List.mem_replicate] at member
    rcases member with (old | rfl) | ⟨block, ⟨_, rfl⟩, inBlock⟩
    · exact clean byte old
    · decide
    · simp only [List.mem_cons, List.mem_append, List.not_mem_nil,
        or_false] at inBlock
      rcases inBlock with rfl | old | rfl
      · decide
      · exact cleanBlock byte old
      · decide
  · apply not_hasWindow_blocks (by decide) zero _ _ noWindow
    rcases blank with same | withNul
    · rw [same]
      exact noWindow
    · rw [withNul, List.cons_append, ← List.nil_append (0 :: _),
        hasWindow_stop_iff (by decide) zero, not_or]
      exact ⟨not_hasWindow_nil (by decide), noWindow⟩

private theorem behindFirst_iff {line : FileLine} {rest : List FileLine}
    {buf : Buffer 512} (short : (page.encode line.text).length < 256) :
    ((∀ byte ∈ behindFirst page line rest buf, printable byte = false) ∧
        ¬HasWindow isNul 256 (behindFirst page line rest buf) ∧
        ∀ other ∈ rest, page.encode other.text = []) ↔
      (∀ byte ∈ leftover (page.encode line.text).length buf,
          printable byte = false) ∧
        ¬HasWindow isNul 256
          (leftover (page.encode line.text).length buf ++ [newline]) ∧
        (rest = [] ∨ (page.encode line.text).length ≤ 1 ∧
          ∀ other ∈ rest, page.encode other.text = []) := by
  constructor
  · intro facts
    obtain ⟨clean, noWindow, empty⟩ := facts
    refine ⟨?_, ?_, ?_⟩
    · intro byte member
      exact clean byte (by simp [behindFirst, member])
    · intro has
      exact noWindow (has.mono (List.prefix_append _ _).isInfix)
    · cases rest with
      | nil => exact .inl rfl
      | cons next rest =>
          have cleanRecords : ∀ byte ∈ (records page
              (PCServerDlg.fillRecord page line buf) (next :: rest)).flatten,
                printable byte = false := by
            intro byte member
            exact clean byte (List.mem_append_right _ member)
          exact .inr ⟨short_of_clean_records short (empty next (.head _))
            cleanRecords, empty⟩
  · intro facts
    obtain ⟨clean, noWindow, others⟩ := facts
    rcases others with rfl | ⟨atMostOne, empty⟩
    · refine ⟨?_, ?_, by simp⟩
      · intro byte member
        have either : byte ∈ leftover (page.encode line.text).length buf ∨
            byte = newline := by
          simpa [behindFirst, records] using member
        rcases either with inLeftover | rfl
        · exact clean byte inLeftover
        · decide
      · simpa [behindFirst, records] using noWindow
    · obtain ⟨cleanAll, noWindowAll⟩ :=
        behindFirst_of_short atMostOne empty clean noWindow
      exact ⟨cleanAll, noWindowAll, empty⟩

/-- All cuts of the stream of a file read as its encoded lines exactly if the
file survives. -/
theorem forall_readsAs_records_iff (page : CodePage) (buf : Buffer 512)
    (lines : List FileLine) :
    (∀ cut : Cut 256 (records page buf lines).flatten,
        ReadsAs isNul printable
          (lines.flatMap fun line => page.encode line.text) cut) ↔
      Survives page buf lines := by
  have positive : 0 < 256 := by decide
  cases lines with
  | nil =>
      rw [forall_readsAs_iff printable_shows positive]
      simp [records, Survives, not_hides_nil, not_hasWindow_nil positive]
  | cons line rest =>
      by_cases short : (page.encode line.text).length < 256
      · have stream_eq : (records page buf (line :: rest)).flatten =
            page.encode line.text ++ 0 :: behindFirst page line rest buf := by
          rw [records, List.flatten_cons, fillRecord_bytes buf (by omega)]
          simp [behindFirst]
        have total : (page.encode line.text).filter printable =
              (line :: rest).flatMap (fun line => page.encode line.text) ↔
            ∀ other ∈ rest, page.encode other.text = [] := by
          rw [List.filter_eq_self.mpr (encode_printable page line),
            List.flatMap_cons, List.self_eq_append_right,
            List.flatMap_eq_nil_iff]
        rw [stream_eq, forall_readsAs_first_stop_iff printable_shows positive
          (encode_free page line) (by decide), total, Survives,
          behindFirst_iff short]
      · constructor
        · intro reads
          have bound := length_lt_of_forall_readsAs printable_shows positive
            reads
          rw [List.flatMap_cons, List.length_append] at bound
          omega
        · intro survives
          exact (short survives.1).elim

theorem FileTransfer.forall_arrives_iff (transfer : FileTransfer page) :
    (∀ cut : Cut 256 transfer.stream, transfer.Arrives cut) ↔
      ∀ cut : Cut 256 (records page transfer.buf transfer.lines).flatten,
        ReadsAs isNul printable transfer.encoded cut := by
  simp only [transfer.arrives_iff]
  rw [transfer.stream_eq]

/-- A file arrives as it was, however the stream is cut, exactly if it is
empty, or its first line is shorter than 256 bytes, nothing printable and no
256 newlines in a row stand behind it in the array, and either it is the only
line or it has at most one byte and all other lines are empty. -/
theorem file_arrives_iff (transfer : FileTransfer page) :
    (∀ cut : Cut 256 transfer.stream, transfer.Arrives cut) ↔
      Survives page transfer.buf transfer.lines := by
  rw [transfer.forall_arrives_iff, ← forall_readsAs_records_iff]
  rfl

/-- The two lines `a` and `b`, sent to one client from a blank array. -/
def twoLines : FileTransfer .ascii where
  dlg :=
    { PCServerDlg.create with
      mClientList :=
        [{ port := "5000".toList
           ip := "10.0.0.1".toList
           socket := formatLd 8
           checked := true }] }
  apart :=
    { distinct := List.nodup_singleton _
      fit := by
        intro row member
        obtain rfl := List.mem_singleton.mp member
        exact ⟨8, by decide, rfl⟩ }
  socket := 8
  fits := by decide
  checked := by decide
  lines := [⟨[97], by decide, by decide⟩, ⟨[98], by decide, by decide⟩]
  buf := ⟨List.replicate 512 0, List.length_replicate⟩
  answer := fun _ => 512

theorem second_line_is_lost :
    ¬∀ (page : CodePage) (transfer : FileTransfer page)
      (cut : Cut 256 transfer.stream), transfer.Arrives cut := by
  intro arrives
  have survives := (forall_readsAs_records_iff .ascii twoLines.buf
    twoLines.lines).mp
      (twoLines.forall_arrives_iff.mp (arrives .ascii twoLines))
  rcases survives.2.2.2 with noRest | othersEmpty
  · cases noRest
  · exact absurd othersEmpty.2 (by decide)

end OpenChat.Chat
