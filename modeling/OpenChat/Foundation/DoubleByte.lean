import Mathlib.Data.List.Basic

/-!
# Double-byte codings and cut texts

A text is encoded with one or two bytes for each character and decoded from
left to right.  Decoding the chunks of a cut text one by one gives the text
exactly when no chunk ends between the two bytes of a character: a lead byte
at the end of a chunk loses a byte of the text for good, whatever the bytes
behind it are then taken for.
-/

namespace OpenChat.Foundation.DoubleByte

universe u v

/-- Which bytes lead, what the others are read as, what a lead byte and the
byte behind it are read as together (`none`: the lead byte is incomplete
there), what replaces an incomplete lead byte, if it is not dropped, and which
characters take two bytes. -/
structure Coding (β : Type u) (ω : Type v) where
  isLead : β → Bool
  single : β → ω
  joined : β → β → Option ω
  replaced : β → Option ω
  wide : ω → Bool
  single_narrow : ∀ byte, isLead byte = false → wide (single byte) = false
  replaced_narrow : ∀ lead char, replaced lead = some char →
    wide char = false

inductive Symbol {β : Type u} {ω : Type v} (coding : Coding β ω) where
  | one (byte : β) (alone : coding.isLead byte = false)
  | two (lead trail : β) (char : ω) (leads : coding.isLead lead = true)
      (read : coding.joined lead trail = some char)
      (isWide : coding.wide char = true)

namespace Symbol

variable {β : Type u} {ω : Type v} {coding : Coding β ω}

def bytes : Symbol coding → List β
  | .one byte _ => [byte]
  | .two lead trail _ _ _ _ => [lead, trail]

def char : Symbol coding → ω
  | .one byte _ => coding.single byte
  | .two _ _ char _ _ _ => char

end Symbol

variable {β : Type u} {ω : Type v} {coding : Coding β ω}

def encode (text : List (Symbol coding)) : List β :=
  text.flatMap Symbol.bytes

theorem encode_one {byte : β} (alone : coding.isLead byte = false)
    (text : List (Symbol coding)) :
    encode (.one byte alone :: text) = byte :: encode text :=
  rfl

theorem encode_two {lead trail : β} {char : ω}
    (leads : coding.isLead lead = true)
    (read : coding.joined lead trail = some char)
    (isWide : coding.wide char = true) (text : List (Symbol coding)) :
    encode (.two lead trail char leads read isWide :: text) =
      lead :: trail :: encode text :=
  rfl

/-- Decoding, given what a lead byte at the very end becomes. -/
def decodeWith (coding : Coding β ω) (trailing : β → Option ω) :
    List β → List ω
  | [] => []
  | [byte] =>
      if coding.isLead byte then (trailing byte).toList
      else [coding.single byte]
  | byte :: next :: rest =>
      if coding.isLead byte then
        match coding.joined byte next with
        | some char => char :: decodeWith coding trailing rest
        | none =>
            (coding.replaced byte).toList ++
              decodeWith coding trailing (next :: rest)
      else coding.single byte :: decodeWith coding trailing (next :: rest)

/-- An incomplete lead byte at the end is replaced like any other. -/
def decode (coding : Coding β ω) (bytes : List β) : List ω :=
  decodeWith coding coding.replaced bytes

section Text

variable {trailing : β → Option ω}

theorem decodeWith_single {byte : β} (alone : coding.isLead byte = false)
    (rest : List β) :
    decodeWith coding trailing (byte :: rest) =
      coding.single byte :: decodeWith coding trailing rest := by
  cases rest with
  | nil => simp [decodeWith, alone]
  | cons next rest => simp [decodeWith, alone]

theorem decodeWith_joined {lead trail : β} {char : ω}
    (leads : coding.isLead lead = true)
    (read : coding.joined lead trail = some char) (rest : List β) :
    decodeWith coding trailing (lead :: trail :: rest) =
      char :: decodeWith coding trailing rest := by
  simp [decodeWith, leads, read]

theorem decodeWith_trailing {lead : β} (leads : coding.isLead lead = true) :
    decodeWith coding trailing [lead] = (trailing lead).toList := by
  simp [decodeWith, leads]

/-- Bytes of whole characters are read as these, whatever comes behind. -/
theorem decodeWith_encode_append (text : List (Symbol coding))
    (rest : List β) :
    decodeWith coding trailing (encode text ++ rest) =
      text.map Symbol.char ++ decodeWith coding trailing rest := by
  induction text with
  | nil => rfl
  | cons symbol text induction =>
      cases symbol with
      | one byte alone =>
          rw [encode_one, List.cons_append, decodeWith_single alone,
            induction]
          rfl
      | two lead trail char leads read isWide =>
          rw [encode_two, List.cons_append, List.cons_append,
            decodeWith_joined leads read, induction]
          rfl

theorem decodeWith_encode (text : List (Symbol coding)) :
    decodeWith coding trailing (encode text) = text.map Symbol.char := by
  have whole : decodeWith coding trailing (encode text ++ []) =
      text.map Symbol.char ++ decodeWith coding trailing [] :=
    decodeWith_encode_append text []
  rw [List.append_nil] at whole
  rw [whole, decodeWith, List.append_nil]

end Text

/-- The bytes the characters of a text stand for at least. -/
def weight (coding : Coding β ω) : List ω → Nat
  | [] => 0
  | char :: text => (if coding.wide char then 2 else 1) + weight coding text

theorem weight_append (front back : List ω) :
    weight coding (front ++ back) =
      weight coding front + weight coding back := by
  induction front with
  | nil => exact (Nat.zero_add _).symm
  | cons char front induction =>
      rw [List.cons_append, weight, weight, induction, Nat.add_assoc]

theorem weight_cons_narrow {char : ω} (narrow : coding.wide char = false)
    (text : List ω) : weight coding (char :: text) = 1 + weight coding text := by
  simp [weight, narrow]

theorem weight_cons_wide {char : ω} (isWide : coding.wide char = true)
    (text : List ω) : weight coding (char :: text) = 2 + weight coding text := by
  simp [weight, isWide]

theorem weight_cons_le (char : ω) (text : List ω) :
    weight coding (char :: text) ≤ 2 + weight coding text := by
  cases kind : coding.wide char with
  | false =>
      rw [weight_cons_narrow kind]
      omega
  | true => exact Nat.le_of_eq (weight_cons_wide kind text)

theorem weight_toList_le {replacement : Option ω}
    (narrow : ∀ char, replacement = some char → coding.wide char = false) :
    weight coding replacement.toList ≤ 1 := by
  cases replacement with
  | none => exact Nat.zero_le 1
  | some char =>
      rw [Option.toList_some, weight_cons_narrow (narrow char rfl)]
      exact Nat.le_refl 1

theorem weight_chars (text : List (Symbol coding)) :
    weight coding (text.map Symbol.char) = (encode text).length := by
  induction text with
  | nil => rfl
  | cons symbol text induction =>
      cases symbol with
      | one byte alone =>
          rw [List.map_cons, encode_one, List.length_cons, Symbol.char,
            weight_cons_narrow (coding.single_narrow byte alone), induction]
          omega
      | two lead trail char leads read isWide =>
          rw [List.map_cons, encode_two, List.length_cons, List.length_cons,
            Symbol.char, weight_cons_wide isWide, induction]
          omega

section Cut

variable {trailing : β → Option ω}

theorem weight_decodeWith_le
    (narrow : ∀ lead char, trailing lead = some char →
      coding.wide char = false) (bytes : List β) :
    weight coding (decodeWith coding trailing bytes) ≤ bytes.length := by
  induction bytes using decodeWith.induct coding with
  | case1 => exact Nat.le_refl 0
  | case2 lead leads =>
      rw [decodeWith_trailing leads]
      exact weight_toList_le (narrow lead)
  | case3 byte alone =>
      rw [decodeWith_single (by simpa using alone),
        weight_cons_narrow (coding.single_narrow byte (by simpa using alone))]
      exact Nat.le_refl 1
  | case4 lead next rest leads char read induction =>
      rw [decodeWith_joined leads read, List.length_cons, List.length_cons]
      have bound : weight coding (char :: decodeWith coding trailing rest) ≤
          2 + weight coding (decodeWith coding trailing rest) :=
        weight_cons_le char _
      omega
  | case5 lead next rest leads read induction =>
      have replaced := weight_toList_le (coding.replaced_narrow lead)
      simp only [decodeWith, leads, read, if_true]
      rw [weight_append, List.length_cons]
      omega
  | case6 byte next rest alone induction =>
      have narrowByte := coding.single_narrow byte (by simpa using alone)
      rw [decodeWith_single (by simpa using alone),
        weight_cons_narrow narrowByte, List.length_cons]
      omega

theorem weight_chunks_le
    (narrow : ∀ lead char, trailing lead = some char →
      coding.wide char = false) (chunks : List (List β)) :
    weight coding (chunks.map (decodeWith coding trailing)).flatten ≤
      chunks.flatten.length := by
  induction chunks with
  | nil => exact Nat.le_refl 0
  | cons chunk chunks induction =>
      rw [List.map_cons, List.flatten_cons, List.flatten_cons, weight_append,
        List.length_append]
      have first := weight_decodeWith_le narrow chunk
      omega

theorem encode_eq_append {text : List (Symbol coding)} {chunk later : List β}
    (joined : chunk ++ later = encode text) :
    (∃ front back, text = front ++ back ∧ chunk = encode front ∧
      later = encode back) ∨
    ∃ front lead trail char leads read isWide back,
      text = front ++ .two lead trail char leads read isWide :: back ∧
      chunk = encode front ++ [lead] ∧ later = trail :: encode back := by
  induction text generalizing chunk with
  | nil =>
      obtain ⟨rfl, rfl⟩ := List.append_eq_nil_iff.mp joined
      exact .inl ⟨[], [], rfl, rfl, rfl⟩
  | cons symbol text induction =>
      cases chunk with
      | nil => exact .inl ⟨[], symbol :: text, rfl, rfl, joined⟩
      | cons first chunk =>
          cases symbol with
          | one byte alone =>
              rw [encode_one, List.cons_append, List.cons.injEq] at joined
              obtain ⟨rfl, joined⟩ := joined
              rcases induction joined with between | within
              · obtain ⟨front, back, rfl, rfl, rfl⟩ := between
                exact .inl ⟨.one first alone :: front, back, rfl, rfl, rfl⟩
              · obtain ⟨front, lead, trail, char, leads, read, isWide, back,
                  rfl, rfl, rfl⟩ := within
                exact .inr ⟨.one first alone :: front, lead, trail, char,
                  leads, read, isWide, back, rfl, rfl, rfl⟩
          | two lead trail char leads read isWide =>
              rw [encode_two, List.cons_append, List.cons.injEq] at joined
              obtain ⟨rfl, joined⟩ := joined
              cases chunk with
              | nil =>
                  exact .inr ⟨[], first, trail, char, leads, read, isWide,
                    text, rfl, rfl, joined⟩
              | cons second chunk =>
                  rw [List.cons_append, List.cons.injEq] at joined
                  obtain ⟨rfl, joined⟩ := joined
                  rcases induction joined with between | within
                  · obtain ⟨front, back, rfl, rfl, rfl⟩ := between
                    exact .inl ⟨.two first second char leads read isWide ::
                      front, back, rfl, rfl, rfl⟩
                  · obtain ⟨front, otherLead, otherTrail, otherChar,
                      otherLeads, otherRead, otherWide, back, rfl, rfl,
                      rfl⟩ := within
                    exact .inr ⟨.two first second char leads read isWide ::
                      front, otherLead, otherTrail, otherChar, otherLeads,
                      otherRead, otherWide, back, rfl, rfl, rfl⟩

/-- Once a chunk ends within a character the rest does not make up for it. -/
theorem decode_within_ne
    (narrow : ∀ lead char, trailing lead = some char →
      coding.wide char = false) {lead trail : β} {char : ω}
    (isWide : coding.wide char = true) {chunks : List (List β)}
    {back : List (Symbol coding)}
    (rest : chunks.flatten = trail :: encode back) :
    (trailing lead).toList ++
        (chunks.map (decodeWith coding trailing)).flatten ≠
      char :: back.map Symbol.char := by
  intro same
  cases becomes : trailing lead with
  | some replacement =>
      rw [becomes, Option.toList_some, List.cons_append,
        List.cons.injEq] at same
      obtain ⟨rfl, _⟩ := same
      rw [narrow lead _ becomes] at isWide
      cases isWide
  | none =>
      rw [becomes, Option.toList_none, List.nil_append] at same
      have bytes := weight_chunks_le narrow chunks
      rw [same, weight_cons_wide isWide, weight_chars, rest,
        List.length_cons] at bytes
      omega

/-- The chunks of a text are decoded to the text exactly if each is the
encoding of some of its characters. -/
theorem decode_chunks_iff
    (narrow : ∀ lead char, trailing lead = some char →
      coding.wide char = false) {text : List (Symbol coding)}
    {chunks : List (List β)} (joined : chunks.flatten = encode text) :
    (chunks.map (decodeWith coding trailing)).flatten =
        text.map Symbol.char ↔
      ∃ parts : List (List (Symbol coding)),
        parts.flatten = text ∧ chunks = parts.map encode := by
  constructor
  · intro same
    induction chunks generalizing text with
    | nil =>
        have nothing : text = [] := by
          have noChar : text.map Symbol.char = [] := same.symm
          exact List.map_eq_nil_iff.mp noChar
        exact ⟨[], nothing.symm, rfl⟩
    | cons chunk chunks induction =>
        rcases encode_eq_append joined with between | within
        · obtain ⟨front, back, rfl, rfl, later⟩ := between
          rw [List.map_cons, List.flatten_cons, decodeWith_encode,
            List.map_append] at same
          obtain ⟨parts, whole, pieces⟩ :=
            induction later (List.append_cancel_left same)
          exact ⟨front :: parts, by rw [List.flatten_cons, whole],
            by rw [List.map_cons, pieces]⟩
        · obtain ⟨front, lead, trail, char, leads, read, isWide, back, rfl,
            rfl, later⟩ := within
          rw [List.map_cons, List.flatten_cons, decodeWith_encode_append,
            decodeWith_trailing leads, List.map_append, List.append_assoc]
            at same
          exact (decode_within_ne narrow isWide later
            (List.append_cancel_left same)).elim
  · rintro ⟨parts, rfl, rfl⟩
    rw [List.map_map, List.map_flatten]
    congr 1
    apply List.map_congr_left
    intro part _
    exact decodeWith_encode part

end Cut

/-- A byte put behind every chunk which is a character of its own: it does not
lead, and a lead byte in front of it is not read as a character of the text or
as the mark. -/
structure IsMark (coding : Coding β ω) (mark : β) : Prop where
  alone : coding.isLead mark = false
  behindLead : ∀ lead char, coding.joined lead mark = some char →
    coding.wide char = false ∧ char ≠ coding.single mark

def withoutMark [DecidableEq ω] (coding : Coding β ω) (mark : β)
    (text : List ω) : List ω :=
  if text.getLast? = some (coding.single mark) then text.dropLast else text

/-- What a lead byte in front of the mark becomes. -/
def beforeMark (coding : Coding β ω) (mark lead : β) : Option ω :=
  (coding.joined lead mark).or (coding.replaced lead)

theorem IsMark.beforeMark_narrow {mark : β} (isMark : IsMark coding mark)
    (lead : β) (char : ω) (becomes : beforeMark coding mark lead = some char) :
    coding.wide char = false := by
  rw [beforeMark, Option.or_eq_some_iff] at becomes
  rcases becomes with read | ⟨_, replaced⟩
  · exact (isMark.behindLead lead char read).1
  · exact coding.replaced_narrow lead char replaced

/-- A text that ends with the mark, or with another character, still does
behind further characters. -/
theorem behind_prefix {marked plain : List ω} {single : ω} (more : List ω)
    (ends : marked = plain ++ [single] ∨
      marked = plain ∧ ∃ front char, marked = front ++ [char] ∧
        char ≠ single) :
    more ++ marked = more ++ plain ++ [single] ∨
      more ++ marked = more ++ plain ∧
        ∃ front char, more ++ marked = front ++ [char] ∧ char ≠ single := by
  rcases ends with rfl | ⟨rfl, front, char, same, other⟩
  · exact .inl (List.append_assoc _ _ _).symm
  · refine .inr ⟨rfl, more ++ front, char, ?_, other⟩
    rw [same, List.append_assoc]

/-- The mark behind a chunk is read on its own, or lost together with a lead
byte. -/
theorem IsMark.decode_append {mark : β} (isMark : IsMark coding mark)
    (bytes : List β) :
    decode coding (bytes ++ [mark]) =
        decodeWith coding (beforeMark coding mark) bytes ++
          [coding.single mark] ∨
      decode coding (bytes ++ [mark]) =
          decodeWith coding (beforeMark coding mark) bytes ∧
        ∃ front char, decode coding (bytes ++ [mark]) = front ++ [char] ∧
          char ≠ coding.single mark := by
  have markOnly : decode coding [mark] = [coding.single mark] :=
    decodeWith_single isMark.alone []
  induction bytes using decodeWith.induct coding with
  | case1 => exact .inl markOnly
  | case2 lead leads =>
      cases read : coding.joined lead mark with
      | some char =>
          have lost : decode coding [lead, mark] = [char] :=
            decodeWith_joined leads read []
          refine .inr ⟨?_, [], char, lost,
            (isMark.behindLead lead char read).2⟩
          rw [decodeWith_trailing leads, beforeMark, read]
          exact lost
      | none =>
          left
          rw [decodeWith_trailing leads, beforeMark, read, Option.none_or,
            ← markOnly]
          simp [decode, decodeWith, leads, read]
  | case3 byte alone =>
      left
      have single : coding.isLead byte = false := by simpa using alone
      rw [decodeWith_single single, List.cons_append, decode,
        decodeWith_single single]
      exact congrArg _ markOnly
  | case4 lead next rest leads char read induction =>
      rw [decode, List.cons_append, List.cons_append,
        decodeWith_joined leads read, decodeWith_joined leads read]
      exact behind_prefix [char] induction
  | case5 lead next rest leads read induction =>
      have front (trailing : β → Option ω) (later : List β) :
          decodeWith coding trailing (lead :: next :: later) =
            (coding.replaced lead).toList ++
              decodeWith coding trailing (next :: later) := by
        simp [decodeWith, leads, read]
      rw [decode, List.cons_append, List.cons_append, front, front]
      exact behind_prefix (coding.replaced lead).toList induction
  | case6 byte next rest alone induction =>
      have single : coding.isLead byte = false := by simpa using alone
      rw [decode, List.cons_append, decodeWith_single single,
        decodeWith_single single]
      exact behind_prefix [coding.single byte] induction

/-- Taken away again, the mark has only made a lead byte at the end of the
chunk incomplete. -/
theorem IsMark.withoutMark_decode [DecidableEq ω] {mark : β}
    (isMark : IsMark coding mark) (bytes : List β) :
    withoutMark coding mark (decode coding (bytes ++ [mark])) =
      decodeWith coding (beforeMark coding mark) bytes := by
  rcases isMark.decode_append bytes with kept | ⟨lost, front, char, ends, other⟩
  · rw [kept, withoutMark, List.getLast?_concat, if_pos rfl,
      List.dropLast_concat]
  · have notMark : (decode coding (bytes ++ [mark])).getLast? ≠
        some (coding.single mark) := by
      rw [ends, List.getLast?_concat]
      intro same
      exact other (Option.some.inj same)
    rw [withoutMark, if_neg notMark, lost]

end OpenChat.Foundation.DoubleByte
