import OpenChat.Client.ClientDlg
import OpenChat.Foundation.SharedCalls
import OpenChat.Platform.RichEdit
import OpenChat.Server.ServerDlg

/-!
# Writing to the info boxes from several threads

Each `ClientFunc` thread calls `AddInfo` of its window on its own.  The box is
a window, so a call is a sequence of messages, and each message is handled as
a whole while the messages of different threads interleave.  Both windows move
the caret to the end before they replace the selection; the server's window
then selects from the front for `SetStyle`, which the next text of another
thread may replace.
-/

namespace OpenChat.Chat

open Platform Client Server Foundation

/-- The messages the two `AddInfo` send to the box, apart from formats. -/
inductive BoxMessage where
  | setSel (nStartChar nEndChar : Int)
  | replaceSel (newText : List WChar)

/-- The control, and the texts it was given to insert. -/
structure InfoBox where
  edit : CRichEditCtrl
  inserted : List (List WChar)

namespace InfoBox

def empty : InfoBox :=
  { edit := .empty, inserted := [] }

def handle (box : InfoBox) : BoxMessage → InfoBox
  | .setSel nStartChar nEndChar =>
      { box with edit := box.edit.setSel nStartChar nEndChar }
  | .replaceSel newText =>
      { edit := box.edit.replaceSel newText
        inserted := box.inserted ++ [newText] }

/-- The box holds all texts it was given, one behind the other. -/
def Complete (box : InfoBox) : Prop :=
  box.edit.text = box.inserted.flatten

instance (box : InfoBox) : Decidable box.Complete :=
  inferInstanceAs (Decidable (_ = _))

theorem complete_empty : empty.Complete := rfl

theorem Complete.setSel {box : InfoBox} (complete : box.Complete)
    (nStartChar nEndChar : Int) :
    (box.handle (.setSel nStartChar nEndChar)).Complete :=
  complete

theorem Complete.replaceSel {box : InfoBox} (complete : box.Complete)
    (atEnd : box.edit.CaretAtEnd) (newText : List WChar) :
    (box.handle (.replaceSel newText)).Complete := by
  rw [Complete, handle, CRichEditCtrl.replaceSel_text_of_caretAtEnd atEnd,
    complete, List.flatten_append, List.flatten_singleton]

theorem not_complete_replaceSel {box : InfoBox} (complete : box.Complete)
    (front : box.edit.SelectsFront) (newText : List WChar) :
    ¬(box.handle (.replaceSel newText)).Complete := by
  intro still
  have shorter := front.length_replaceSel newText
  have before : box.edit.text.length = box.inserted.flatten.length :=
    congrArg List.length complete
  have lengths := congrArg List.length still
  simp only [handle, List.flatten_append, List.flatten_singleton,
    List.length_append] at lengths
  omega

end InfoBox

def ReplacesAtEnd {Call : Type} (pool : Pool InfoBox BoxMessage)
    (activity : Activity Call) : Prop :=
  ∀ newText, pool.performed activity = some (.replaceSel newText) →
    pool.object.edit.CaretAtEnd

instance {Call : Type} (pool : Pool InfoBox BoxMessage)
    (activity : Activity Call) : Decidable (ReplacesAtEnd pool activity) :=
  match performed : pool.performed activity with
  | some (.replaceSel newText) =>
      if atEnd : pool.object.edit.CaretAtEnd then
        isTrue fun _ _ => atEnd
      else isFalse fun replaces => atEnd (replaces newText performed)
  | some (.setSel _ _) => isTrue fun _ other => by
      rw [performed] at other
      cases other
  | none => isTrue fun _ other => by
      rw [performed] at other
      cases other

def insertsFirst : List BoxMessage → Bool
  | .replaceSel _ :: _ => true
  | _ => false

theorem eq_cons_of_insertsFirst {rest : List BoxMessage}
    (first : insertsFirst rest = true) :
    ∃ newText later, rest = .replaceSel newText :: later := by
  match rest, first with
  | .replaceSel newText :: later, _ => exact ⟨newText, later, rfl⟩

def AboutToInsert (pool : Pool InfoBox BoxMessage) : Prop :=
  ∃ rest ∈ pool.pending, insertsFirst rest = true

instance (pool : Pool InfoBox BoxMessage) : Decidable (AboutToInsert pool) :=
  inferInstanceAs (Decidable (∃ rest ∈ pool.pending, _))

/-- Something else than the end of the text is selected only while no thread
is about to put its text in. -/
def SelectsApart {Call : Type} (pool : Pool InfoBox BoxMessage)
    (activity : Activity Call) : Prop :=
  ∀ nStartChar nEndChar,
    pool.performed activity = some (.setSel nStartChar nEndChar) →
      (nStartChar = -1 ∧ nEndChar = -1) ∨ ¬AboutToInsert pool

instance {Call : Type} (pool : Pool InfoBox BoxMessage)
    (activity : Activity Call) : Decidable (SelectsApart pool activity) :=
  match performed : pool.performed activity with
  | some (.setSel nStartChar nEndChar) =>
      if apart : (nStartChar = -1 ∧ nEndChar = -1) ∨
          ¬AboutToInsert pool then
        isTrue fun _ _ same => by
          rw [performed] at same
          cases same
          exact apart
      else isFalse fun selects =>
        apart (selects nStartChar nEndChar performed)
  | some (.replaceSel _) => isTrue fun _ _ other => by
      rw [performed] at other
      cases other
  | none => isTrue fun _ _ other => by
      rw [performed] at other
      cases other

/-- A call moves the caret to the end right before it puts a text in. -/
def MovesFirst (messages : List BoxMessage) : Prop :=
  ∀ before newText later,
    messages = before ++ .replaceSel newText :: later →
      ∃ front, before = front ++ [.setSel (-1) (-1)]

section AnyCalls

variable {Call : Type} {shared : SharedObject InfoBox BoxMessage Call}

/-- A complete box, with the caret at its end whenever a text comes next. -/
structure CaretReady (shared : SharedObject InfoBox BoxMessage Call)
    (pool : Pool InfoBox BoxMessage) : Prop where
  complete : pool.object.Complete
  ready : AboutToInsert pool → pool.object.edit.CaretAtEnd
  inside : shared.InsideCalls pool

theorem caretReady_idle (count : Nat) :
    CaretReady shared (SharedObject.idle count InfoBox.empty) where
  complete := InfoBox.complete_empty
  ready := fun _ => CRichEditCtrl.caretAtEnd_empty
  inside := SharedObject.insideCalls_idle count InfoBox.empty

/-- Behind a selection comes a text only if the caret was moved to the end. -/
theorem moves_of_pending {pool : Pool InfoBox BoxMessage} {i : Nat}
    {message : BoxMessage} {rest : List BoxMessage}
    (moves : ∀ call, MovesFirst (shared.ops call))
    (inside : shared.InsideCalls pool)
    (found : pool.pending[i]? = some (message :: rest))
    (behind : insertsFirst rest = true) :
    message = .setSel (-1) (-1) := by
  rcases inside _ (List.mem_of_getElem? found) with
    empty | ⟨call, earlier, joined⟩
  · simp at empty
  · obtain ⟨newText, later, rfl⟩ := eq_cons_of_insertsFirst behind
    obtain ⟨front, same⟩ := moves call (earlier ++ [message]) newText later
      (by simp [← joined])
    exact List.singleton_inj.mp (List.append_inj_right' same rfl)

theorem CaretReady.step {pool next : Pool InfoBox BoxMessage}
    {activity : Activity Call} (perform : shared.perform = InfoBox.handle)
    (moves : ∀ call, MovesFirst (shared.ops call))
    (caretReady : CaretReady shared pool)
    (apart : SelectsApart pool activity)
    (taken : shared.threads.step pool activity = some next) :
    CaretReady shared next := by
  have inside := caretReady.inside.step taken
  cases activity with
  | call i call =>
      obtain ⟨_, rfl⟩ := SharedObject.step_call taken
      refine ⟨caretReady.complete, ?_, inside⟩
      rintro ⟨rest, member, first⟩
      rcases List.mem_or_eq_of_mem_set member with old | rfl
      · exact caretReady.ready ⟨rest, old, first⟩
      · obtain ⟨newText, later, begins⟩ := eq_cons_of_insertsFirst first
        obtain ⟨front, impossible⟩ := moves call [] newText later begins
        simp at impossible
  | advance i =>
      obtain ⟨message, rest, found, rfl⟩ := SharedObject.step_advance taken
      rw [perform] at inside ⊢
      cases message with
      | setSel nStartChar nEndChar =>
          refine ⟨caretReady.complete.setSel nStartChar nEndChar, ?_, inside⟩
          rintro ⟨other, member, first⟩
          have atEnd : nStartChar = -1 ∧ nEndChar = -1 := by
            rcases List.mem_or_eq_of_mem_set member with old | rfl
            · rcases apart nStartChar nEndChar
                (by simp [Pool.performed, found]) with atEnd | nobody
              · exact atEnd
              · exact (nobody ⟨other, old, first⟩).elim
            · have same := moves_of_pending moves caretReady.inside found
                first
              exact BoxMessage.setSel.inj same
          obtain ⟨rfl, rfl⟩ := atEnd
          exact CRichEditCtrl.caretAtEnd_setSel_end _
      | replaceSel newText =>
          have caret := caretReady.ready
            ⟨_, List.mem_of_getElem? found, rfl⟩
          exact ⟨caretReady.complete.replaceSel caret newText,
            fun _ => caret.replaceSel newText, inside⟩

/-- Calls which move the caret first lose nothing as long as nobody selects
something else between the two messages. -/
theorem complete_of_selectsApart (count : Nat)
    (perform : shared.perform = InfoBox.handle)
    (moves : ∀ call, MovesFirst (shared.ops call))
    {activities : List (Activity Call)}
    (apart : shared.threads.StepsMeet SelectsApart
      (SharedObject.idle count InfoBox.empty) activities) :
    shared.threads.Always (fun pool => pool.object.Complete)
      (SharedObject.idle count InfoBox.empty) activities :=
  (System.always_of_guarded
    (fun _ _ _ caretReady apart taken =>
      CaretReady.step perform moves caretReady apart taken)
    (caretReady_idle count) apart).mono
      fun _ caretReady => caretReady.complete

end AnyCalls

section ServerBox

variable {page : CodePage} {stored : List WChar → List WChar}

/-- A chunk a `ClientFunc` of the server received, and the text it passes to
`AddInfo`. -/
structure Arrival where
  chunk : List Byte
  strMsg : List Byte
  bounded : chunk.length ≤ TcpServer.maxBuff
  read : TcpServer.clientFunc chunk = some strMsg

theorem Arrival.length_strMsg_pos (arrival : Arrival) :
    0 < arrival.strMsg.length := by
  have read := arrival.read
  rw [TcpServer.clientFunc, Option.map_eq_some_iff] at read
  obtain ⟨text, _, same⟩ := read
  rw [← same, List.length_append, List.length_singleton]
  omega

/-- `PCServerDlg::AddInfo`: `stored` is what the control makes of the line
ends of an inserted text. -/
def serverAddInfo (page : CodePage) (stored : List WChar → List WChar)
    (strMsg : List Byte) : List BoxMessage :=
  [.setSel (-1) (-1),
    .replaceSel (stored (page.decode strMsg)),
    .setSel 0 (strMsg.length : Int)]

def serverBox (page : CodePage) (stored : List WChar → List WChar) :
    SharedObject InfoBox BoxMessage Arrival where
  perform := InfoBox.handle
  ops arrival := serverAddInfo page stored arrival.strMsg

/-- A complete box, with the caret at its end or its front selected. -/
structure ServerTidy (page : CodePage) (stored : List WChar → List WChar)
    (pool : Pool InfoBox BoxMessage) : Prop where
  complete : pool.object.Complete
  selection : pool.object.edit.CaretAtEnd ∨ pool.object.edit.SelectsFront
  inside : (serverBox page stored).InsideCalls pool

theorem serverTidy_idle (count : Nat) :
    ServerTidy page stored (SharedObject.idle count InfoBox.empty) where
  complete := InfoBox.complete_empty
  selection := .inl CRichEditCtrl.caretAtEnd_empty
  inside := SharedObject.insideCalls_idle count InfoBox.empty

theorem selection_of_pending {pool : Pool InfoBox BoxMessage} {i : Nat}
    {nStartChar nEndChar : Int} {rest : List BoxMessage}
    (inside : (serverBox page stored).InsideCalls pool)
    (found : pool.pending[i]? = some (.setSel nStartChar nEndChar :: rest))
    (edit : CRichEditCtrl) :
    (edit.setSel nStartChar nEndChar).CaretAtEnd ∨
      (edit.setSel nStartChar nEndChar).SelectsFront := by
  rcases inside _ (List.mem_of_getElem? found) with
    empty | ⟨arrival, ofCall⟩
  · simp at empty
  · have member := ofCall.subset List.mem_cons_self
    simp only [serverBox, serverAddInfo, List.mem_cons, List.not_mem_nil,
      BoxMessage.setSel.injEq, reduceCtorEq, or_false, false_or] at member
    rcases member with ⟨rfl, rfl⟩ | ⟨rfl, rfl⟩
    · exact .inl edit.caretAtEnd_setSel_end
    · exact edit.setSel_front arrival.length_strMsg_pos

theorem ServerTidy.step {pool next : Pool InfoBox BoxMessage}
    {activity : Activity Arrival} (tidy : ServerTidy page stored pool)
    (atEnd : ReplacesAtEnd pool activity)
    (taken : (serverBox page stored).threads.step pool activity =
      some next) :
    ServerTidy page stored next := by
  have inside := tidy.inside.step taken
  cases activity with
  | call i arrival =>
      obtain ⟨_, rfl⟩ := SharedObject.step_call taken
      exact ⟨tidy.complete, tidy.selection, inside⟩
  | advance i =>
      obtain ⟨message, rest, found, rfl⟩ := SharedObject.step_advance taken
      cases message with
      | setSel nStartChar nEndChar =>
          exact ⟨tidy.complete.setSel nStartChar nEndChar,
            selection_of_pending tidy.inside found _, inside⟩
      | replaceSel newText =>
          have caret := atEnd newText (by simp [Pool.performed, found])
          exact ⟨tidy.complete.replaceSel caret newText,
            .inl (caret.replaceSel newText), inside⟩

/-- A text which replaces the front of the box makes it incomplete. -/
theorem ServerTidy.step_broken {pool next : Pool InfoBox BoxMessage}
    {activity : Activity Arrival} (tidy : ServerTidy page stored pool)
    (elsewhere : ¬ReplacesAtEnd pool activity)
    (taken : (serverBox page stored).threads.step pool activity =
      some next) :
    ¬next.object.Complete := by
  simp only [ReplacesAtEnd, not_forall] at elsewhere
  obtain ⟨newText, performed, notEnd⟩ := elsewhere
  cases activity with
  | call i arrival => simp [Pool.performed] at performed
  | advance i =>
      obtain ⟨message, rest, found, rfl⟩ := SharedObject.step_advance taken
      obtain rfl : message = .replaceSel newText := by
        simpa [Pool.performed, found] using performed
      exact InfoBox.not_complete_replaceSel tidy.complete
        (tidy.selection.resolve_left notEnd) newText

/-- However many `ClientFunc` threads of the server write to the info box and
however their messages interleave, the box holds all texts it was given, in
order and throughout, exactly if every text is put in while the caret is
behind the last character. -/
theorem info_box_complete_iff (page : CodePage)
    (stored : List WChar → List WChar) (count : Nat)
    {activities : List (Activity Arrival)} {pool : Pool InfoBox BoxMessage}
    (run : (serverBox page stored).threads.Run
      (SharedObject.idle count InfoBox.empty) activities pool) :
    (serverBox page stored).threads.Always
        (fun pool => pool.object.Complete)
        (SharedObject.idle count InfoBox.empty) activities ↔
      (serverBox page stored).threads.StepsMeet ReplacesAtEnd
        (SharedObject.idle count InfoBox.empty) activities :=
  System.always_iff_stepsMeet (fun _ tidy => tidy.complete)
    (fun _ _ _ tidy atEnd taken => ServerTidy.step tidy atEnd taken)
    (fun _ _ _ tidy elsewhere taken =>
      ServerTidy.step_broken tidy elsewhere taken)
    (serverTidy_idle count) run

theorem movesFirst_serverAddInfo (strMsg : List Byte) :
    MovesFirst (serverAddInfo page stored strMsg) := by
  intro before newText later same
  rcases before with _ | ⟨first, _ | ⟨second, _ | ⟨third, before⟩⟩⟩
  · cases same
  · cases same
    exact ⟨[], rfl⟩
  · cases same
  · cases before <;> cases same

theorem one_thread_complete (page : CodePage)
    (stored : List WChar → List WChar)
    (activities : List (Activity Arrival)) :
    (serverBox page stored).threads.Always
      (fun pool => pool.object.Complete)
      (SharedObject.idle 1 InfoBox.empty) activities := by
  apply complete_of_selectsApart 1 rfl fun arrival =>
    movesFirst_serverAddInfo arrival.strMsg
  intro past activity pool _ run nStartChar nEndChar performed
  right
  have alone : pool.pending.length = 1 :=
    run.invariant (fun _ _ _ alone taken =>
      (SharedObject.length_pending taken).trans alone) rfl
  obtain ⟨messages, only⟩ := List.length_eq_one_iff.mp alone
  rintro ⟨rest, member, first⟩
  obtain rfl : rest = messages := by simpa [only] using member
  obtain ⟨newText, later, rfl⟩ := eq_cons_of_insertsFirst first
  cases activity with
  | call i call => simp [Pool.performed] at performed
  | advance i =>
      cases i with
      | zero => simp [Pool.performed, only] at performed
      | succ i => simp [Pool.performed, only] at performed

structure ServerShows (page : CodePage) (stored : List WChar → List WChar)
    (box : InfoBox) (dlg : PCServerDlg) : Prop where
  complete : box.Complete
  texts : box.inserted =
    dlg.mInfoBox.map fun strMsg => stored (page.decode strMsg)

theorem ServerShows.addInfo {pool : Pool InfoBox BoxMessage}
    {dlg : PCServerDlg} (shows_ : ServerShows page stored pool.object dlg)
    {i : Nat} (free : pool.pending[i]? = some []) (arrival : Arrival) :
    ∃ next, (serverBox page stored).threads.Reaches pool next ∧
      next.pending = pool.pending ∧
      ServerShows page stored next.object (dlg.addInfo arrival.strMsg) := by
  refine ⟨_, SharedObject.reaches_uninterrupted pool arrival free, rfl,
    ?_, ?_⟩
  · have atEnd := pool.object.edit.caretAtEnd_setSel_end
    have appended := (shows_.complete.setSel (-1) (-1)).replaceSel atEnd
      (stored (page.decode arrival.strMsg))
    exact appended.setSel 0 (arrival.strMsg.length : Int)
  · simp [serverBox, serverAddInfo, InfoBox.handle, shows_.texts,
      PCServerDlg.addInfo]

def arrivalA : Arrival where
  chunk := [97]
  strMsg := [97, 10]
  bounded := by decide
  read := by decide +kernel

def arrivalB : Arrival where
  chunk := [98]
  strMsg := [98, 10]
  bounded := by decide
  read := by decide +kernel

/-- One thread styles the front of the box between the two messages of the
other. -/
def styledBetween : List (Activity Arrival) :=
  [.call 0 arrivalA, .advance 0, .advance 0, .call 1 arrivalB, .advance 1,
    .advance 0, .advance 1]

theorem styledBetween_enabled :
    ((serverBox .ascii id).threads.exec
      (SharedObject.idle 2 InfoBox.empty) styledBetween).isSome = true := by
  decide +kernel

theorem styledBetween_loses_text :
    ¬(serverBox .ascii id).threads.Always (fun pool => pool.object.Complete)
      (SharedObject.idle 2 InfoBox.empty) styledBetween := by
  rw [info_box_complete_iff .ascii id 2
    (System.run_get styledBetween_enabled)]
  decide +kernel

end ServerBox

section ClientBox

variable {page : CodePage} {stored : List WChar → List WChar}

def infoChars (page : CodePage) : InfoText → List WChar
  | .narrow bytes => page.decode bytes
  | .wide text => text.map fun char => char.toNat.toUInt16

/-- What is done to the box of the client: `AddInfo` is called, also in the
words of `ConnectToServer`, or the user selects some of its text. -/
inductive ClientCall where
  | addInfo (info : InfoText)
  | select (nStartChar nEndChar : Int)

/-- `PCClientDlg::AddInfo`, and a selection with the mouse. -/
def clientMessages (page : CodePage) (stored : List WChar → List WChar) :
    ClientCall → List BoxMessage
  | .addInfo info =>
      [.setSel (-1) (-1), .replaceSel (stored (infoChars page info))]
  | .select nStartChar nEndChar => [.setSel nStartChar nEndChar]

def clientBox (page : CodePage) (stored : List WChar → List WChar) :
    SharedObject InfoBox BoxMessage ClientCall where
  perform := InfoBox.handle
  ops := clientMessages page stored

theorem movesFirst_clientMessages (call : ClientCall) :
    MovesFirst (clientMessages page stored call) := by
  intro before newText later same
  cases call with
  | addInfo info =>
      rcases before with _ | ⟨first, _ | ⟨second, before⟩⟩
      · cases same
      · cases same
        exact ⟨[], rfl⟩
      · cases before <;> cases same
  | select nStartChar nEndChar =>
      rcases before with _ | ⟨first, before⟩
      · cases same
      · cases before <;> cases same

/-- However many threads of the client write to its info box and however
their messages interleave, the box holds all texts it was given, in order and
throughout, as long as the user selects no text between the two messages of a
call. -/
theorem client_info_box_complete (page : CodePage)
    (stored : List WChar → List WChar) (count : Nat)
    {activities : List (Activity ClientCall)}
    (apart : (clientBox page stored).threads.StepsMeet SelectsApart
      (SharedObject.idle count InfoBox.empty) activities) :
    (clientBox page stored).threads.Always (fun pool => pool.object.Complete)
      (SharedObject.idle count InfoBox.empty) activities :=
  complete_of_selectsApart count rfl movesFirst_clientMessages apart

def selectedAfterwards : List (Activity ClientCall) :=
  [.call 0 (.addInfo (.narrow [97])), .call 1 (.addInfo (.narrow [98])),
    .advance 0, .advance 1, .advance 0, .advance 1, .call 0 (.select 0 1),
    .advance 0, .call 1 (.addInfo (.narrow [99])), .advance 1, .advance 1]

theorem complete_through_selectedAfterwards :
    (clientBox .ascii id).threads.Always (fun pool => pool.object.Complete)
      (SharedObject.idle 2 InfoBox.empty) selectedAfterwards :=
  client_info_box_complete .ascii id 2 (by decide +kernel)

end ClientBox

end OpenChat.Chat
