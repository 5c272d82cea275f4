import OpenChat.Foundation.Decimal
import Mathlib.Data.List.TakeWhile

/-!
# Sockets, addresses, receive buffers and number texts

The parts of Winsock and of the C and MFC text routines both programs use:
socket handles, IPv4 addresses and their dotted text, a zero-initialised
receive buffer read as a C string, and the `%d`, `%ld`, `_ttoi` and `_tcstoul`
conversions.
-/

namespace OpenChat.Platform

abbrev Byte := UInt8
abbrev WChar := UInt16
abbrev Text := List Char

abbrev Socket := Nat

def invalidSocket : Socket := 2 ^ 64 - 1

def newline : Byte := 10

structure InAddr where
  b1 : UInt8
  b2 : UInt8
  b3 : UInt8
  b4 : UInt8
deriving DecidableEq

/-- The fields of `sockaddr_in` the programs read; `sinPort` is in network
byte order. -/
structure SockaddrIn where
  sinPort : UInt16
  sinAddr : InAddr
deriving DecidableEq

def ntohs (value : UInt16) : UInt16 :=
  value <<< 8 ||| value >>> 8

private def octet (value : UInt8) : Text :=
  Nat.toDigits 10 value.toNat

/-- `inet_ntoa`: dotted decimal text. -/
def inetNtoa (addr : InAddr) : Text :=
  octet addr.b1 ++ '.' :: octet addr.b2 ++ '.' :: octet addr.b3 ++
    '.' :: octet addr.b4

/-- `inet_ntop` for `AF_INET` writes the same dotted text. -/
def inetNtop (addr : InAddr) : Text :=
  inetNtoa addr

/-- `Format(_T("%d"), value)` of a 16-bit port number. -/
def formatD (value : Nat) : Text :=
  Foundation.Decimal.formatInt value

/-- `Format(_T("%ld"), value)`: `long` has 32 bits, the low half of the
handle is printed as a signed number. -/
def formatLd (value : Socket) : Text :=
  Foundation.Decimal.formatInt (Foundation.Decimal.signed 32 value)

def ttoi (text : Text) : Int :=
  Foundation.Decimal.readInt text

/-- `_tcstoul(text, NULL, 10)` with a 32-bit `unsigned long`. -/
def tcstoul (text : Text) : Nat :=
  Foundation.Decimal.readUnsigned 32 text

@[simp] theorem ttoi_formatD (value : Nat) : ttoi (formatD value) = value :=
  Foundation.Decimal.readInt_formatInt value

theorem tcstoul_formatLd {value : Socket} (fits : value < 2 ^ 32) :
    tcstoul (formatLd value) = value :=
  Foundation.Decimal.readUnsigned_formatInt_signed fits

theorem formatLd_injective {left right : Socket}
    (leftFits : left < 2 ^ 32) (rightFits : right < 2 ^ 32)
    (sameText : formatLd left = formatLd right) : left = right :=
  Foundation.Decimal.formatInt_signed_injective leftFits rightFits sameText

/-- A zero-initialised array of `size` bytes after `recv` put a chunk at its
start. -/
def recvBuffer (size : Nat) (chunk : List Byte) : List Byte :=
  chunk ++ List.replicate (size - chunk.length) 0

def isNul (byte : Byte) : Bool :=
  byte = 0

/-- The C string at the start of an array; `none` when the array holds no
terminating NUL and reading would leave it. -/
def cString (buffer : List Byte) : Option (List Byte) :=
  if ∃ byte ∈ buffer, isNul byte = true then
    some (buffer.takeWhile fun byte => !isNul byte)
  else
    none

theorem not_isNul_of_noNul {bytes : List Byte} (noNul : 0 ∉ bytes) :
    ∀ byte ∈ bytes, isNul byte = false := by
  intro byte member
  have notNul : byte ≠ 0 := by
    rintro rfl
    exact noNul member
  simp [isNul, notNul]

theorem takeWhile_eq_self_of_noNul {bytes : List Byte} (noNul : 0 ∉ bytes) :
    (bytes.takeWhile fun byte => !isNul byte) = bytes := by
  rw [List.takeWhile_eq_self_iff]
  intro byte member
  rw [not_isNul_of_noNul noNul byte member]
  rfl

theorem takeWhile_noNul (bytes : List Byte) :
    0 ∉ bytes.takeWhile fun byte => !isNul byte := by
  intro member
  have passes := List.mem_takeWhile_imp member
  simp [isNul] at passes

theorem takeWhile_append_zeros (chunk : List Byte) (count : Nat) :
    (chunk ++ List.replicate count 0).takeWhile (fun byte => !isNul byte) =
      chunk.takeWhile fun byte => !isNul byte := by
  induction chunk with
  | nil => cases count <;> simp [List.replicate_succ, isNul]
  | cons head tail induction =>
      by_cases nul : isNul head = true
      · simp [nul]
      · simpa [List.takeWhile_cons, nul] using induction

theorem cString_recvBuffer_of_lt {size : Nat} {chunk : List Byte}
    (short : chunk.length < size) :
    cString (recvBuffer size chunk) =
      some (chunk.takeWhile fun byte => !isNul byte) := by
  have terminated : ∃ byte ∈ recvBuffer size chunk, isNul byte = true := by
    refine ⟨0, ?_, by decide⟩
    rw [recvBuffer, List.mem_append, List.mem_replicate]
    exact .inr ⟨by omega, rfl⟩
  rw [cString, if_pos terminated, recvBuffer, takeWhile_append_zeros]

theorem cString_recvBuffer_of_eq {size : Nat} {chunk : List Byte}
    (full : chunk.length = size) :
    cString (recvBuffer size chunk) =
      if ∃ byte ∈ chunk, isNul byte = true then
        some (chunk.takeWhile fun byte => !isNul byte)
      else none := by
  simp [cString, recvBuffer, full]

theorem cString_recvBuffer_of_noNul {size : Nat} {chunk : List Byte}
    (noNul : 0 ∉ chunk) (bounded : chunk.length ≤ size) :
    cString (recvBuffer size chunk) =
      if chunk.length = size then none else some chunk := by
  by_cases full : chunk.length = size
  · have unterminated : ¬∃ byte ∈ chunk, isNul byte = true := by
      rintro ⟨byte, member, nul⟩
      simp [not_isNul_of_noNul noNul byte member] at nul
    rw [cString_recvBuffer_of_eq full, if_neg unterminated, if_pos full]
  · have short : chunk.length < size := by omega
    rw [cString_recvBuffer_of_lt short, if_neg full,
      takeWhile_eq_self_of_noNul noNul]

/-- The index of the terminating NUL, as a search over the array finds it. -/
theorem cString_eq_some {buffer text : List Byte}
    (read : cString buffer = some text) :
    text.length < buffer.length ∧ buffer[text.length]? = some 0 := by
  rw [cString, Option.ite_none_right_eq_some] at read
  obtain ⟨⟨byte, member, nul⟩, same⟩ := read
  obtain rfl := Option.some.inj same
  have split := List.takeWhile_append_dropWhile
    (p := fun byte => !isNul byte) (l := buffer)
  cases behind : buffer.dropWhile fun byte => !isNul byte with
  | nil =>
      have passes := List.dropWhile_eq_nil_iff.mp behind byte member
      simp [nul] at passes
  | cons first rest =>
      have isFirst : isNul first = true := by
        have stops := List.head_dropWhile_not
          (fun byte => !isNul byte) (l := buffer) (by simp [behind])
        simpa [behind] using stops
      obtain rfl : first = 0 := by simpa [isNul] using isFirst
      rw [behind] at split
      constructor
      · have lengths := congrArg List.length split
        rw [List.length_append, List.length_cons] at lengths
        omega
      · have found : ((buffer.takeWhile fun byte => !isNul byte) ++
            0 :: rest)[(buffer.takeWhile fun byte => !isNul byte).length]? =
              some 0 := by
          rw [List.getElem?_append_right (Nat.le_refl _), Nat.sub_self]
          rfl
        rwa [split] at found

theorem cString_recvBuffer_eq_none_iff {size : Nat} {chunk : List Byte}
    (bounded : chunk.length ≤ size) :
    cString (recvBuffer size chunk) = none ↔
      chunk.length = size ∧ 0 ∉ chunk := by
  by_cases full : chunk.length = size
  · rw [cString_recvBuffer_of_eq full]
    simp [full, isNul]
  · rw [cString_recvBuffer_of_lt (by omega)]
    simp [full]

end OpenChat.Platform
