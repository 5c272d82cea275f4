import OpenChat.Platform.Winsock

/-!
# The ANSI code page and fixed conversion buffers

`CT2A`, `CString(const char*)` and `WideCharToMultiByte(CP_ACP, ...)` belong
to Windows and ATL.  A `CodePage` carries the two conversions together with
the facts about them the programs rely on, and `wideCharToMultiByte` is the
call with a caller-supplied array: it writes at the front of the array and
leaves the rest as it was.
-/

namespace OpenChat.Platform

/-- The conversions of an ANSI code page.  No code page encodes another
character than NUL with a NUL byte, or another one than the newline with a
newline byte. -/
structure CodePage where
  encode : List WChar → List Byte
  decode : List Byte → List WChar
  /-- what a call that fails for lack of room leaves at the front of the
  array -/
  truncated : List WChar → List Byte
  encode_noNul : ∀ text, 0 ∉ text → 0 ∉ encode text
  encode_noNewline : ∀ text, 10 ∉ text → newline ∉ encode text

/-- `std::string(CT2A(text))`: the encoding up to its first NUL. -/
def CodePage.ct2a (page : CodePage) (text : List WChar) : List Byte :=
  (page.encode text).takeWhile fun byte => !isNul byte

theorem CodePage.ct2a_noNul (page : CodePage) (text : List WChar) :
    0 ∉ page.ct2a text :=
  takeWhile_noNul (page.encode text)

private def asciiByte (char : WChar) : Byte :=
  if char < 128 then char.toUInt8 else 63

private theorem eq_of_asciiByte {char : WChar} {byte : Byte}
    (other : byte ≠ 63) (same : asciiByte char = byte) :
    char = byte.toUInt16 := by
  unfold asciiByte at same
  split at same
  · rename_i small
    have bound : char.toNat < 128 := small
    rw [← same]
    apply UInt16.toNat_inj.mp
    simp
    omega
  · exact (other same.symm).elim

/-- The code page of the characters below 128; every other one becomes a
question mark. -/
def CodePage.ascii : CodePage where
  encode text := text.map asciiByte
  decode bytes := bytes.map UInt8.toUInt16
  truncated text := text.map asciiByte
  encode_noNul := by
    intro text noNul member
    obtain ⟨char, inText, isNul⟩ := List.mem_map.mp member
    obtain rfl := eq_of_asciiByte (by decide) isNul
    exact noNul inText
  encode_noNewline := by
    intro text noNewline member
    obtain ⟨char, inText, isNewline⟩ := List.mem_map.mp member
    obtain rfl := eq_of_asciiByte (by decide) isNewline
    exact noNewline inText

structure Buffer (size : Nat) where
  bytes : List Byte
  length_eq : bytes.length = size

namespace Buffer

variable {size : Nat}

theorem ext_bytes {left right : Buffer size}
    (same : left.bytes = right.bytes) : left = right := by
  cases left
  cases right
  cases same
  rfl

/-- Write `front` over the start of the array, as far as it fits. -/
def overlay (front : List Byte) (buffer : Buffer size) : Buffer size where
  bytes := (front ++ buffer.bytes.drop front.length).take size
  length_eq := by
    have length := buffer.length_eq
    simp only [List.length_take, List.length_append, List.length_drop]
    omega

def setAt (index : Nat) (byte : Byte) (buffer : Buffer size) :
    Buffer size where
  bytes := buffer.bytes.set index byte
  length_eq := by rw [List.length_set, buffer.length_eq]

@[simp] theorem setAt_bytes (index : Nat) (byte : Byte)
    (buffer : Buffer size) :
    (buffer.setAt index byte).bytes = buffer.bytes.set index byte := rfl

theorem overlay_bytes (front : List Byte) (buffer : Buffer size) :
    (buffer.overlay front).bytes =
      (front ++ buffer.bytes.drop front.length).take size := rfl

theorem overlay_bytes_of_le {front : List Byte} (fits : front.length ≤ size)
    (buffer : Buffer size) :
    (buffer.overlay front).bytes =
      front ++ buffer.bytes.drop front.length := by
  have length := buffer.length_eq
  rw [overlay_bytes, List.take_of_length_le]
  simp only [List.length_append, List.length_drop]
  omega

private theorem overlay_getElem? (front : List Byte) (buffer : Buffer size)
    {index : Nat} (inside : index < size) :
    (buffer.overlay front).bytes[index]? =
      if index < front.length then front[index]? else buffer.bytes[index]? := by
  rw [overlay_bytes, List.getElem?_take_of_lt inside, List.getElem?_append]
  by_cases inFront : index < front.length
  · simp [inFront]
  · rw [if_neg inFront, if_neg inFront, List.getElem?_drop]
    congr 1
    omega

theorem overlay_setAt_idem (front : List Byte) (index : Nat) (byte : Byte)
    (buffer : Buffer size) :
    (((buffer.overlay front).setAt index byte).overlay front).setAt
        index byte =
      (buffer.overlay front).setAt index byte := by
  apply ext_bytes
  apply List.ext_getElem?
  intro position
  by_cases inside : position < size
  · simp only [setAt_bytes, List.getElem?_set, length_eq]
    by_cases same : index = position
    · simp [same]
    · rw [if_neg same, if_neg same, overlay_getElem? _ _ inside,
        overlay_getElem? _ _ inside, setAt_bytes, List.getElem?_set,
        if_neg same, overlay_getElem? _ _ inside]
      split <;> rfl
  · rw [List.getElem?_eq_none, List.getElem?_eq_none]
    · rw [length_eq]
      omega
    · rw [length_eq]
      omega

/-- After the same front and the same byte were written two arrays are equal
exactly if they agreed everywhere else. -/
theorem overlay_setAt_eq_iff (front : List Byte) (index : Nat) (byte : Byte)
    (left right : Buffer size) :
    (left.overlay front).setAt index byte =
        (right.overlay front).setAt index byte ↔
      ∀ position, front.length ≤ position → position < size →
        position ≠ index → left.bytes[position]? = right.bytes[position]? := by
  constructor
  · intro same position behind inside other
    have bytes := congrArg (fun buffer => buffer.bytes[position]?) same
    have notInFront : ¬position < front.length := by omega
    simpa only [setAt_bytes, List.getElem?_set_ne other.symm,
      overlay_getElem? _ _ inside, if_neg notInFront] using bytes
  · intro agree
    apply ext_bytes
    apply List.ext_getElem?
    intro position
    by_cases inside : position < size
    · simp only [setAt_bytes, List.getElem?_set, length_eq]
      by_cases same : index = position
      · simp [same]
      · rw [if_neg same, if_neg same, overlay_getElem? _ _ inside,
          overlay_getElem? _ _ inside]
        by_cases inFront : position < front.length
        · rw [if_pos inFront, if_pos inFront]
        · rw [if_neg inFront, if_neg inFront]
          exact agree position (by omega) inside (Ne.symm same)
    · rw [List.getElem?_eq_none, List.getElem?_eq_none]
      · rw [length_eq]
        omega
      · rw [length_eq]
        omega

end Buffer

/-- `WideCharToMultiByte(CP_ACP, 0, text, -1, buffer, size, NULL, NULL)`: the
return value and the array afterwards. -/
def wideCharToMultiByte (page : CodePage) {size : Nat} (text : List WChar)
    (buffer : Buffer size) : Nat × Buffer size :=
  if (page.encode text).length + 1 ≤ size then
    ((page.encode text).length + 1,
      buffer.overlay (page.encode text ++ [0]))
  else
    (0, buffer.overlay (page.truncated text))

def CodePage.written (page : CodePage) (size : Nat) (text : List WChar) :
    List Byte :=
  if (page.encode text).length + 1 ≤ size then
    page.encode text ++ [0]
  else
    page.truncated text

theorem wideCharToMultiByte_snd (page : CodePage) {size : Nat}
    (text : List WChar) (buffer : Buffer size) :
    (wideCharToMultiByte page text buffer).2 =
      buffer.overlay (page.written size text) := by
  unfold wideCharToMultiByte CodePage.written
  split <;> rfl

end OpenChat.Platform
