import OpenChat.Client.ClientDlg
import OpenChat.Foundation.CutStream
import OpenChat.Foundation.DoubleByte
import OpenChat.Server.TcpServer

/-!
# Characters of two bytes

Both windows convert every received chunk on its own, with a newline behind
it, and append the result to the info box.  In a double-byte code page a
character whose bytes arrive in two chunks is lost, so the box shows the text
exactly when every chunk ends between two characters.
-/

namespace OpenChat.Chat

open Platform Client Server Foundation.CutStream Foundation.DoubleByte

/-- The conversion `CString(const char*)` under a double-byte ANSI code page:
lead bytes are 0x81 to 0xFE, and a newline behind one does not complete a
character and is not left over as a newline if both are read together. -/
structure DoubleBytePage extends Coding Byte WChar where
  isLead_eq : ∀ byte, isLead byte = (0x81 ≤ byte && byte ≤ 0xFE)
  newlineBehindLead : ∀ lead char, joined lead newline = some char →
    wide char = false ∧ char ≠ single newline

namespace DoubleBytePage

variable (page : DoubleBytePage)

theorem isMark_newline : IsMark page.toCoding newline where
  alone := by
    rw [page.isLead_eq]
    rfl
  behindLead := page.newlineBehindLead

def addInfoText (info : List Byte) : List WChar :=
  decode page.toCoding (info.takeWhile fun byte => !isNul byte)

end DoubleBytePage

/-- A text encoded in the code page, without NUL. -/
structure EncodedText (page : DoubleBytePage) where
  characters : List (Symbol page.toCoding)
  noNul : 0 ∉ encode characters

namespace EncodedText

variable {page : DoubleBytePage} (text : EncodedText page)

def bytes : List Byte :=
  encode text.characters

/-- The texts a receive loop passes to `AddInfo` for the chunks, converted one
by one and without the newline added to each, make the converted text. -/
def DecodedAlike (cut : Cut 255 text.bytes)
    (loop : List Byte → Option (List Byte)) : Prop :=
  ∃ infos : List (List Byte), cut.chunks.map loop = infos.map some ∧
    (infos.map fun info =>
        withoutMark page.toCoding newline (page.addInfoText info)).flatten =
      page.addInfoText text.bytes

/-- Every chunk is the encoding of some characters of the text. -/
def CutBetween (cut : Cut 255 text.bytes) : Prop :=
  ∃ parts : List (List (Symbol page.toCoding)),
    parts.flatten = text.characters ∧ cut.chunks = parts.map encode

variable {text}

theorem noNul_of_mem (cut : Cut 255 text.bytes) {chunk : List Byte}
    (member : chunk ∈ cut.chunks) : 0 ∉ chunk := by
  intro nul
  exact text.noNul ((cut.infix_of_mem member).subset nul)

theorem loops_add_newline (cut : Cut 255 text.bytes) {chunk : List Byte}
    (member : chunk ∈ cut.chunks) :
    TcpServer.clientFunc chunk = some (chunk ++ [newline]) ∧
      (TcpClient.clientFunc chunk).1 = some (chunk ++ [newline]) := by
  have bounded := cut.bounded chunk member
  have short : chunk.length < 256 := by omega
  have read : cString (recvBuffer 256 chunk) = some chunk := by
    rw [cString_recvBuffer_of_lt short,
      takeWhile_eq_self_of_noNul (noNul_of_mem cut member)]
  constructor
  · rw [TcpServer.clientFunc, TcpServer.maxBuff, read]
    rfl
  · rw [TcpClient.clientFunc, TcpClient.bufSize, read]
    rfl

theorem withoutMark_addInfoText {chunk : List Byte} (noNul : 0 ∉ chunk) :
    withoutMark page.toCoding newline
        (page.addInfoText (chunk ++ [newline])) =
      decodeWith page.toCoding (beforeMark page.toCoding newline) chunk := by
  have noNulBefore : 0 ∉ chunk ++ [newline] := by
    intro nul
    rcases List.mem_append.mp nul with inChunk | isNewline
    · exact noNul inChunk
    · exact absurd (List.mem_singleton.mp isNewline) (by decide)
  rw [DoubleBytePage.addInfoText, takeWhile_eq_self_of_noNul noNulBefore]
  exact page.isMark_newline.withoutMark_decode chunk

theorem addInfoText_bytes :
    page.addInfoText text.bytes = text.characters.map Symbol.char := by
  rw [DoubleBytePage.addInfoText, bytes,
    takeWhile_eq_self_of_noNul text.noNul]
  exact decodeWith_encode text.characters

theorem decodedAlike_iff_chunks {cut : Cut 255 text.bytes}
    {loop : List Byte → Option (List Byte)}
    (adds : ∀ chunk ∈ cut.chunks, loop chunk = some (chunk ++ [newline])) :
    text.DecodedAlike cut loop ↔
      (cut.chunks.map (decodeWith page.toCoding
        (beforeMark page.toCoding newline))).flatten =
          text.characters.map Symbol.char := by
  have passed : cut.chunks.map loop =
      (cut.chunks.map fun chunk => chunk ++ [newline]).map some := by
    rw [List.map_map]
    exact List.map_congr_left adds
  have shown : ((cut.chunks.map fun chunk => chunk ++ [newline]).map
      fun info => withoutMark page.toCoding newline
        (page.addInfoText info)) =
        cut.chunks.map (decodeWith page.toCoding
          (beforeMark page.toCoding newline)) := by
    rw [List.map_map]
    apply List.map_congr_left
    intro chunk member
    exact withoutMark_addInfoText (noNul_of_mem cut member)
  rw [DecodedAlike, addInfoText_bytes, passed]
  constructor
  · rintro ⟨infos, same, alike⟩
    obtain rfl := List.map_injective_iff.mpr (Option.some_injective _) same
    rw [shown] at alike
    exact alike
  · intro alike
    refine ⟨_, rfl, ?_⟩
    rw [shown]
    exact alike

theorem decodedAlike_iff_between {cut : Cut 255 text.bytes}
    {loop : List Byte → Option (List Byte)}
    (adds : ∀ chunk ∈ cut.chunks, loop chunk = some (chunk ++ [newline])) :
    text.DecodedAlike cut loop ↔ text.CutBetween cut := by
  rw [decodedAlike_iff_chunks adds]
  exact decode_chunks_iff page.isMark_newline.beforeMark_narrow cut.joined

/-- At the server and at the client, the info box shows the characters of a
text exactly if TCP cuts it between characters only. -/
theorem characters_decoded_iff (page : DoubleBytePage)
    (text : EncodedText page) (cut : Cut 255 text.bytes) :
    (text.DecodedAlike cut TcpServer.clientFunc ↔ text.CutBetween cut) ∧
      (text.DecodedAlike cut (fun chunk => (TcpClient.clientFunc chunk).1) ↔
        text.CutBetween cut) := by
  constructor
  · apply decodedAlike_iff_between
    intro chunk member
    exact (loops_add_newline cut member).1
  · apply decodedAlike_iff_between
    intro chunk member
    exact (loops_add_newline cut member).2

end EncodedText

/-- The code page 936 as far as the character of the bytes D6 D0 and ASCII are
concerned; other pairs and incomplete lead bytes become question marks. -/
def gbkSample : DoubleBytePage where
  isLead byte := 0x81 ≤ byte && byte ≤ 0xFE
  single byte := byte.toUInt16
  joined lead trail :=
    if lead = 0xD6 ∧ trail = 0xD0 then some 0x4E2D else some 63
  replaced _ := some 63
  wide char := 256 ≤ char
  single_narrow := by
    intro byte _
    have bound := byte.toNat_lt
    simp only [UInt16.le_iff_toNat_le, UInt8.toNat_toUInt16]
    exact decide_eq_false (Nat.not_le_of_lt bound)
  replaced_narrow := by
    intro lead char replaced
    obtain rfl := Option.some.inj replaced
    decide
  isLead_eq := by
    intro byte
    rfl
  newlineBehindLead := by
    intro lead char read
    have other : ¬(lead = 0xD6 ∧ newline = 0xD0) := by
      intro both
      exact absurd both.2 (by decide)
    rw [if_neg other] at read
    obtain rfl := Option.some.inj read
    decide

def zhong : EncodedText gbkSample where
  characters :=
    [.two 0xD6 0xD0 0x4E2D (by decide) (by decide) (by decide)]
  noNul := by decide

/-- The two bytes of the character arrive one by one. -/
def zhongSplit : Cut 255 zhong.bytes where
  chunks := [[0xD6], [0xD0]]
  joined := rfl
  nonempty := by decide
  bounded := by decide

theorem split_character_is_lost :
    ¬∀ (page : DoubleBytePage) (text : EncodedText page)
      (cut : Cut 255 text.bytes),
      text.DecodedAlike cut TcpServer.clientFunc ∧
        text.DecodedAlike cut fun chunk => (TcpClient.clientFunc chunk).1 := by
  intro alike
  have atServer := (EncodedText.decodedAlike_iff_chunks
    fun chunk member => (EncodedText.loops_add_newline zhongSplit member).1).mp
      (alike gbkSample zhong zhongSplit).1
  exact absurd atServer (by decide)

end OpenChat.Chat
