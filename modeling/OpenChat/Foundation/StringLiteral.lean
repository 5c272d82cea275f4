import Mathlib.Data.List.Forall2

/-!
# Single-quoted string literals

The default literal rules of MySQL over bytes: a literal is opened and closed
by a single quote, two quotes in a row denote one, and a backslash escapes the
byte after it.  The escapes of the two pattern characters keep their
backslash, so that pair denotes itself.

The denoted text is never longer than the text between the quotes, and it is
that text exactly when every byte of it stands for itself.  The same holds for
a comma-separated list of literals as a whole.
-/

namespace OpenChat.Foundation.StringLiteral

def quote : UInt8 := 39
def backslash : UInt8 := 92
def percent : UInt8 := 37
def underscore : UInt8 := 95
def comma : UInt8 := 44

/-- The bytes a backslash escape denotes, by the byte after the backslash. -/
def escape (byte : UInt8) : List UInt8 :=
  if byte = percent ∨ byte = underscore then [backslash, byte]
  else if byte = 48 then [0]
  else if byte = 98 then [8]
  else if byte = 110 then [10]
  else if byte = 114 then [13]
  else if byte = 116 then [9]
  else if byte = 90 then [26]
  else [byte]

/-- Read a literal whose opening quote is gone: the denoted bytes and the
input behind the closing quote. -/
def lexBody : List UInt8 → Option (List UInt8 × List UInt8)
  | [] => none
  | [byte] => if byte = quote then some ([], []) else none
  | byte :: next :: rest =>
      if byte = quote then
        if next = quote then
          (lexBody rest).map fun result => (quote :: result.1, result.2)
        else
          some ([], next :: rest)
      else if byte = backslash then
        (lexBody rest).map fun result => (escape next ++ result.1, result.2)
      else
        (lexBody (next :: rest)).map fun result =>
          (byte :: result.1, result.2)

def lexLiteral : List UInt8 → Option (List UInt8 × List UInt8)
  | [] => none
  | byte :: rest => if byte = quote then lexBody rest else none

/-- Every byte stands for itself between quotes: no quote, and a backslash
only before a pattern character. -/
def Faithful : List UInt8 → Prop
  | [] => True
  | [byte] => byte ≠ quote ∧ byte ≠ backslash
  | byte :: next :: rest =>
      if byte = backslash then
        (next = percent ∨ next = underscore) ∧ Faithful rest
      else
        byte ≠ quote ∧ Faithful (next :: rest)

theorem escape_length_le (byte : UInt8) : (escape byte).length ≤ 2 := by
  unfold escape
  repeat' split
  all_goals simp

theorem escape_length_eq_two {byte : UInt8}
    (long : 2 ≤ (escape byte).length) :
    (byte = percent ∨ byte = underscore) ∧
      escape byte = [backslash, byte] := by
  by_cases pattern : byte = percent ∨ byte = underscore
  · exact ⟨pattern, by rw [escape, if_pos pattern]⟩
  · rw [escape, if_neg pattern] at long
    repeat' split at long
    all_goals simp at long

/-- Between quotes the text is a literal for the value. -/
def Denotes (text value : List UInt8) : Prop :=
  lexBody (text ++ [quote]) = some (value, [])

instance (text value : List UInt8) : Decidable (Denotes text value) :=
  inferInstanceAs (Decidable (_ = _))

private theorem lexBody_closing {rest : List UInt8}
    (closed : rest.head? ≠ some quote) :
    lexBody (quote :: rest) = some ([], rest) := by
  cases rest with
  | nil => simp [lexBody]
  | cons next rest =>
      have notQuote : next ≠ quote := by simpa using closed
      simp [lexBody, notQuote]

/-- What a literal denotes does not depend on what follows it. -/
theorem lexBody_of_denotes {text value rest : List UInt8}
    (denotes : Denotes text value) (closed : rest.head? ≠ some quote) :
    lexBody (text ++ quote :: rest) = some (value, rest) := by
  rw [Denotes] at denotes
  induction text using lexBody.induct generalizing value with
  | case1 =>
      simp only [List.nil_append, lexBody, if_true, Option.some.injEq,
        Prod.mk.injEq, and_true] at denotes
      rw [← denotes]
      exact lexBody_closing closed
  | case2 => simp [lexBody] at denotes
  | case3 byte notQuote =>
      by_cases isBackslash : byte = backslash
      · simp [lexBody, isBackslash, quote, backslash] at denotes
      · simp only [List.cons_append, List.nil_append, lexBody, if_neg notQuote,
          if_neg isBackslash, if_true, Option.map_some, Option.some.injEq,
          Prod.mk.injEq, and_true] at denotes
        rw [← denotes]
        simp only [List.cons_append, List.nil_append, lexBody, if_neg notQuote,
          if_neg isBackslash, lexBody_closing closed, Option.map_some]
  | case4 rest' induction =>
      simp only [List.cons_append, lexBody, if_true, Option.map_eq_some_iff,
        Prod.mk.injEq, Prod.exists] at denotes
      obtain ⟨inner, _, innerDenotes, rfl, rfl⟩ := denotes
      simp [lexBody, induction innerDenotes]
  | case5 next rest' notDouble =>
      simp [lexBody, notDouble] at denotes
  | case6 next rest' notQuote induction =>
      simp only [List.cons_append, lexBody, if_neg notQuote, if_true,
        Option.map_eq_some_iff, Prod.mk.injEq, Prod.exists] at denotes
      obtain ⟨inner, _, innerDenotes, rfl, rfl⟩ := denotes
      simp [lexBody, notQuote, induction innerDenotes]
  | case7 byte next rest' notQuote notBackslash induction =>
      simp only [List.cons_append, lexBody, if_neg notQuote,
        if_neg notBackslash, Option.map_eq_some_iff, Prod.mk.injEq,
        Prod.exists] at denotes
      obtain ⟨inner, _, innerDenotes, rfl, rfl⟩ := denotes
      have later := induction innerDenotes
      rw [List.cons_append] at later
      simp [lexBody, notQuote, notBackslash, later]

theorem denotes_of_faithful {text : List UInt8} (faithful : Faithful text) :
    Denotes text text := by
  rw [Denotes]
  induction text using Faithful.induct with
  | case1 => simp [lexBody]
  | case2 byte =>
      obtain ⟨notQuote, notBackslash⟩ := faithful
      simp [lexBody, notQuote, notBackslash]
  | case3 next rest induction =>
      rw [Faithful, if_pos rfl] at faithful
      obtain ⟨pattern, later⟩ := faithful
      have notQuote : backslash ≠ quote := by decide
      have escapeEq : escape next = [backslash, next] := by
        rw [escape, if_pos pattern]
      simp [lexBody, notQuote, induction later, escapeEq]
  | case4 byte next rest notBackslash induction =>
      rw [Faithful, if_neg notBackslash] at faithful
      obtain ⟨notQuote, later⟩ := faithful
      have tail := induction later
      rw [List.cons_append] at tail
      simp [lexBody, notQuote, notBackslash, tail]

/-- The denoted text is no longer than the text between the quotes; when it
is as long, every byte between the quotes stands for itself. -/
theorem lexBody_length {input value rest : List UInt8}
    (lexed : lexBody input = some (value, rest)) :
    value.length + 1 + rest.length ≤ input.length ∧
      (value.length + 1 + rest.length = input.length →
        input = value ++ quote :: rest ∧ Faithful value) := by
  induction input using lexBody.induct generalizing value with
  | case1 => simp [lexBody] at lexed
  | case2 =>
      simp only [lexBody, if_true, Option.some.injEq, Prod.mk.injEq] at lexed
      obtain ⟨rfl, rfl⟩ := lexed
      simp [Faithful]
  | case3 byte notQuote => simp [lexBody, notQuote] at lexed
  | case4 rest' induction =>
      simp only [lexBody, if_true, Option.map_eq_some_iff, Prod.mk.injEq,
        Prod.exists] at lexed
      obtain ⟨inner, remaining, innerLexed, rfl, rfl⟩ := lexed
      have bound := (induction innerLexed).1
      simp only [List.length_cons]
      constructor
      · omega
      · intro equal
        omega
  | case5 next rest' notDouble =>
      simp only [lexBody, if_true, if_neg notDouble, Option.some.injEq,
        Prod.mk.injEq] at lexed
      obtain ⟨rfl, rfl⟩ := lexed
      simp only [List.length_nil, List.length_cons]
      exact ⟨by omega, fun _ => ⟨rfl, trivial⟩⟩
  | case6 next rest' notQuote induction =>
      simp only [lexBody, if_neg notQuote, if_true, Option.map_eq_some_iff,
        Prod.mk.injEq, Prod.exists] at lexed
      obtain ⟨inner, remaining, innerLexed, rfl, rfl⟩ := lexed
      obtain ⟨bound, exact_⟩ := induction innerLexed
      have short := escape_length_le next
      simp only [List.length_append, List.length_cons]
      constructor
      · omega
      · intro equal
        obtain ⟨pattern, escapeEq⟩ :=
          escape_length_eq_two (show 2 ≤ (escape next).length by omega)
        rw [escapeEq] at equal ⊢
        simp only [List.length_cons, List.length_nil] at equal
        obtain ⟨restEq, faithful⟩ := exact_ (by omega)
        exact ⟨by simp [restEq], by simp [Faithful, pattern, faithful]⟩
  | case7 byte next rest' notQuote notBackslash induction =>
      simp only [lexBody, if_neg notQuote, if_neg notBackslash,
        Option.map_eq_some_iff, Prod.mk.injEq, Prod.exists] at lexed
      obtain ⟨inner, remaining, innerLexed, rfl, rfl⟩ := lexed
      obtain ⟨bound, exact_⟩ := induction innerLexed
      simp only [List.length_cons] at bound exact_ ⊢
      constructor
      · omega
      · intro equal
        obtain ⟨restEq, faithful⟩ := exact_ (by omega)
        refine ⟨by rw [restEq]; rfl, ?_⟩
        cases inner with
        | nil => exact ⟨notQuote, notBackslash⟩
        | cons first others => simp [Faithful, notQuote, notBackslash, faithful]

theorem faithful_of_plain {text : List UInt8} (noQuote : quote ∉ text)
    (noBackslash : backslash ∉ text) : Faithful text := by
  induction text using Faithful.induct with
  | case1 => trivial
  | case2 byte =>
      simp only [List.mem_singleton] at noQuote noBackslash
      exact ⟨Ne.symm noQuote, Ne.symm noBackslash⟩
  | case3 next rest induction => simp at noBackslash
  | case4 byte next rest notBackslash induction =>
      simp only [List.mem_cons, not_or] at noQuote noBackslash
      rw [Faithful, if_neg notBackslash]
      exact ⟨Ne.symm noQuote.1, induction (by simpa using noQuote.2)
        (by simpa using noBackslash.2)⟩

/-- No quote, and every backslash directly before a pattern character. -/
def Plain (text : List UInt8) : Prop :=
  quote ∉ text ∧ ∀ before after, text = before ++ backslash :: after →
    ∃ next, after.head? = some next ∧ (next = percent ∨ next = underscore)

private theorem Plain.tail {byte : UInt8} {text : List UInt8}
    (plain : Plain (byte :: text)) : Plain text := by
  refine ⟨fun member => plain.1 (.tail _ member), ?_⟩
  intro before after split
  exact plain.2 (byte :: before) after (by rw [split]; rfl)

private theorem Plain.cons {byte : UInt8} {text : List UInt8}
    (notQuote : byte ≠ quote)
    (escapes : byte = backslash →
      ∃ next, text.head? = some next ∧ (next = percent ∨ next = underscore))
    (plain : Plain text) : Plain (byte :: text) := by
  refine ⟨?_, ?_⟩
  · simp only [List.mem_cons, not_or]
    exact ⟨Ne.symm notQuote, plain.1⟩
  · intro before after split
    cases before with
    | nil =>
        obtain ⟨isBackslash, rfl⟩ := List.cons.inj split
        exact escapes isBackslash
    | cons first before =>
        exact plain.2 before after (List.cons.inj split).2

theorem faithful_iff_plain (text : List UInt8) :
    Faithful text ↔ Plain text := by
  induction text using Faithful.induct with
  | case1 => simp [Faithful, Plain]
  | case2 byte =>
      constructor
      · intro faithful
        apply Plain.cons faithful.1
        · intro isBackslash
          exact (faithful.2 isBackslash).elim
        · simp [Plain]
      · intro plain
        refine ⟨fun isQuote => plain.1 (by simp [isQuote]), ?_⟩
        intro isBackslash
        obtain ⟨next, impossible, _⟩ := plain.2 [] [] (by simp [isBackslash])
        simp at impossible
  | case3 next rest induction =>
      rw [Faithful, if_pos rfl]
      constructor
      · intro faithful
        obtain ⟨pattern, later⟩ := faithful
        apply Plain.cons (by decide) (fun _ => ⟨next, rfl, pattern⟩)
        apply Plain.cons _ _ (induction.mp later)
        · rcases pattern with rfl | rfl <;> decide
        · intro isBackslash
          rcases pattern with rfl | rfl <;> cases isBackslash
      · intro plain
        obtain ⟨following, isNext, pattern⟩ := plain.2 [] (next :: rest) rfl
        obtain rfl := Option.some.inj isNext
        exact ⟨pattern, induction.mpr plain.tail.tail⟩
  | case4 byte next rest notBackslash induction =>
      rw [Faithful, if_neg notBackslash]
      constructor
      · intro faithful
        apply Plain.cons faithful.1 _ (induction.mp faithful.2)
        intro isBackslash
        exact (notBackslash isBackslash).elim
      · intro plain
        exact ⟨fun isQuote => plain.1 (by simp [isQuote]),
          induction.mpr plain.tail⟩

def quoted (text : List UInt8) : List UInt8 :=
  quote :: (text ++ [quote])

def listed : List (List UInt8) → List UInt8
  | [] => []
  | [text] => quoted text
  | text :: next :: rest => quoted text ++ comma :: listed (next :: rest)

def expect : List UInt8 → List UInt8 → Option (List UInt8)
  | [], input => some input
  | _ :: _, [] => none
  | byte :: text, next :: input =>
      if byte = next then expect text input else none

def lexValues : Nat → List UInt8 → Option (List (List UInt8) × List UInt8)
  | 0, input => some ([], input)
  | 1, input => (lexLiteral input).map fun result => ([result.1], result.2)
  | count + 2, input =>
      (lexLiteral input).bind fun first =>
        (expect [comma] first.2).bind fun rest =>
          (lexValues (count + 1) rest).map fun result =>
            (first.1 :: result.1, result.2)

theorem expect_append (text rest : List UInt8) :
    expect text (text ++ rest) = some rest := by
  induction text with
  | nil => cases rest <;> rfl
  | cons byte text induction => simp [expect, induction]

theorem expect_eq_some {text input rest : List UInt8}
    (found : expect text input = some rest) : input = text ++ rest := by
  induction text generalizing input with
  | nil =>
      simp only [expect, Option.some.injEq] at found
      rw [found, List.nil_append]
  | cons byte text induction =>
      cases input with
      | nil => simp [expect] at found
      | cons next input =>
          simp only [expect, Option.ite_none_right_eq_some] at found
          obtain ⟨rfl, later⟩ := found
          rw [induction later, List.cons_append]

theorem lexLiteral_quoted {text value rest : List UInt8}
    (denotes : Denotes text value) (closed : rest.head? ≠ some quote) :
    lexLiteral (quoted text ++ rest) = some (value, rest) := by
  simp only [quoted, lexLiteral, List.cons_append, if_true,
    List.append_assoc, List.nil_append]
  exact lexBody_of_denotes denotes closed

theorem lexLiteral_length {input value rest : List UInt8}
    (lexed : lexLiteral input = some (value, rest)) :
    (quoted value).length + rest.length ≤ input.length ∧
      ((quoted value).length + rest.length = input.length →
        Faithful value) := by
  cases input with
  | nil => simp [lexLiteral] at lexed
  | cons byte input =>
      simp only [lexLiteral, Option.ite_none_right_eq_some] at lexed
      obtain ⟨bound, exact_⟩ := lexBody_length lexed.2
      simp only [quoted, List.length_cons, List.length_append,
        List.length_nil]
      constructor
      · omega
      · intro equal
        exact (exact_ (by omega)).2

theorem lexLiteral_quoted_iff {text rest : List UInt8}
    (closed : rest.head? ≠ some quote) :
    lexLiteral (quoted text ++ rest) = some (text, rest) ↔
      Faithful text := by
  constructor
  · intro lexed
    exact (lexLiteral_length lexed).2 (List.length_append).symm
  · intro faithful
    exact lexLiteral_quoted (denotes_of_faithful faithful) closed

/-- Literals which are read never denote more than stands there; when they
denote as much, every byte stands for itself. -/
theorem lexValues_length {count : Nat} {input : List UInt8}
    {values : List (List UInt8)} {rest : List UInt8}
    (lexed : lexValues count input = some (values, rest)) :
    (listed values).length + rest.length ≤ input.length ∧
      ((listed values).length + rest.length = input.length →
        ∀ value ∈ values, Faithful value) := by
  induction count, input using lexValues.induct generalizing values with
  | case1 input =>
      simp only [lexValues, Option.some.injEq, Prod.mk.injEq] at lexed
      obtain ⟨rfl, rfl⟩ := lexed
      simp [listed]
  | case2 input =>
      simp only [lexValues, Option.map_eq_some_iff, Prod.mk.injEq,
        Prod.exists] at lexed
      obtain ⟨value, remaining, first, rfl, rfl⟩ := lexed
      obtain ⟨bound, exact_⟩ := lexLiteral_length first
      refine ⟨bound, ?_⟩
      intro equal other member
      obtain rfl := List.mem_singleton.mp member
      exact exact_ equal
  | case3 count input induction =>
      simp only [lexValues, Option.bind_eq_some_iff, Option.map_eq_some_iff,
        Prod.mk.injEq, Prod.exists] at lexed
      obtain ⟨value, afterValue, first, afterComma, separated, later,
        remaining, laterLexed, rfl, rfl⟩ := lexed
      obtain ⟨bound, exact_⟩ := lexLiteral_length first
      obtain ⟨laterBound, laterExact⟩ := induction afterComma laterLexed
      have commaLength := congrArg List.length (expect_eq_some separated)
      simp only [List.length_append, List.length_singleton] at commaLength
      have listedLength : (listed (value :: later)).length ≤
          (quoted value).length + 1 + (listed later).length := by
        cases later with
        | nil =>
            simp only [listed]
            omega
        | cons next rest =>
            simp only [listed, List.length_append, List.length_cons]
            omega
      constructor
      · omega
      · intro equal other member
        rcases List.mem_cons.mp member with rfl | inLater
        · exact exact_ (by omega)
        · exact laterExact (by omega) other inLater

theorem lexValues_listed {texts values : List (List UInt8)}
    {rest : List UInt8} (denote : List.Forall₂ Denotes texts values)
    (closed : rest.head? ≠ some quote) :
    lexValues texts.length (listed texts ++ rest) = some (values, rest) := by
  induction texts using listed.induct generalizing values with
  | case1 =>
      cases denote
      rfl
  | case2 text =>
      obtain ⟨value, _, denotes, nothing, rfl⟩ :=
        List.forall₂_cons_left_iff.mp denote
      cases nothing
      simp [lexValues, listed, lexLiteral_quoted denotes closed]
  | case3 text next others induction =>
      obtain ⟨value, values, denotes, others_denote, rfl⟩ :=
        List.forall₂_cons_left_iff.mp denote
      have notClosed : (comma :: (listed (next :: others) ++ rest)).head? ≠
          some quote := by
        simp only [List.head?_cons, ne_eq, Option.some.injEq]
        decide
      have first := lexLiteral_quoted denotes notClosed
      have later := induction others_denote
      simp only [List.length_cons] at later
      simp only [List.length_cons, lexValues, listed, List.append_assoc,
        List.cons_append, first, Option.bind_some]
      have separated := expect_append [comma]
        (listed (next :: others) ++ rest)
      simp only [List.cons_append, List.nil_append] at separated
      simp only [separated, Option.bind_some, later, Option.map_some]

/-- A list of quoted texts is read back as itself exactly when every byte of
every text stands for itself. -/
theorem lexValues_listed_iff {values : List (List UInt8)} {rest : List UInt8}
    (closed : rest.head? ≠ some quote) :
    lexValues values.length (listed values ++ rest) = some (values, rest) ↔
      ∀ value ∈ values, Faithful value := by
  constructor
  · intro lexed
    exact (lexValues_length lexed).2 (by simp)
  · intro faithful
    apply lexValues_listed _ closed
    rw [List.forall₂_same]
    intro value member
    exact denotes_of_faithful (faithful value member)

end OpenChat.Foundation.StringLiteral
