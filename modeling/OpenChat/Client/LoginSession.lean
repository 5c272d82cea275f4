import OpenChat.Client.Credentials

/-!
# The login dialog from one click to the next

A user types and clicks in one dialog after another while other programs use
the same table.  The register button is enabled by a refused login only, and
the refusal empties both fields, so what is registered was typed after it.
Whoever is refused can register, and both ways end the dialog alike.  All this
is for texts which make complete literals.
-/

namespace OpenChat.Client

open Platform Platform.MySql Foundation

variable {page : CodePage}

namespace LoginDlg

def onBnClickedMfcbuttonCancel (dlg : LoginDlg) : LoginDlg :=
  dlg.endDialog 10

/-- `OnOK` and `OnCancel` of the base class. -/
def onCommand (dlg : LoginDlg) (ok : Bool) : LoginDlg :=
  dlg.endDialog (if ok then 1 else 2)

end LoginDlg

/-- The dialog that was opened last, the window behind it and the database.
An exception in a handler ends the process. -/
structure LoginSession where
  dlg : LoginDlg
  parent : PCClientDlg
  db : Database
  crashed : Bool

/-- What the user does, and what becomes of the database meanwhile: other
programs insert rows, and the connection fails or works again.  Clicks are on
texts whose literals are complete: what a server makes of a statement with an
unescaped quote in its middle is left out. -/
inductive LoginEvent (page : CodePage) where
  | doModal
  | edit (account password : List WChar)
  | login (order : RowOrder) (password : TypedText page)
  | register (order : RowOrder) (account password : TypedText page)
  | cancel
  | command (ok : Bool)
  | others (reachable accepting answering : Bool) (rows : List StoredRow)

namespace LoginSession

def initial (parent : PCClientDlg) (db : Database) : LoginSession :=
  { dlg := .typed [] []
    parent := parent
    db := db
    crashed := false }

/-- One event; a click is handled with the texts that stand in the fields. -/
def step (session : LoginSession) (event : LoginEvent page) :
    Option LoginSession :=
  if session.crashed then none else
  match event with
  | .doModal =>
      if session.dlg.ended.isSome then
        some { session with dlg := .typed [] [] }
      else none
  | .edit account password =>
      if session.dlg.ended = none then
        some { session with dlg := session.dlg.filled account password }
      else none
  | .login order password =>
      if session.dlg.ended = none ∧ session.dlg.password = password.text then
        match session.dlg.loginAt page session.parent session.db order with
        | some (dlg, parent, db) =>
            some { dlg := dlg, parent := parent, db := db, crashed := false }
        | none => some { session with crashed := true }
      else none
  | .register order account password =>
      if session.dlg.ended = none ∧ session.dlg.registerEnabled = true ∧
          session.dlg.account = account.text ∧
          session.dlg.password = password.text then
        let (dlg, parent, db) :=
          session.dlg.registerAt page session.parent session.db order
        some { dlg := dlg, parent := parent, db := db, crashed := false }
      else none
  | .cancel =>
      if session.dlg.ended = none then
        some { session with dlg := session.dlg.onBnClickedMfcbuttonCancel }
      else none
  | .command ok =>
      if session.dlg.ended = none then
        some { session with dlg := session.dlg.onCommand ok }
      else none
  | .others reachable accepting answering rows =>
      some
        { session with
          db :=
            { session.db with
              reachable := reachable
              accepting := accepting
              answering := answering
              rows := session.db.rows ++ rows } }

end LoginSession

def dialogs (page : CodePage) : System LoginSession (LoginEvent page) :=
  { step := LoginSession.step }

def ReadsAs (page : CodePage) (db : Database) (account : List WChar) : Prop :=
  ∃ row ∈ db.rows, page.decode (RMysql.fetched row.account) = account

instance (db : Database) (account : List WChar) :
    Decidable (ReadsAs page db account) :=
  inferInstanceAs (Decidable (∃ row ∈ db.rows, _))

def Database.answers (db : Database) : Bool :=
  db.reachable && db.accepting && db.answering

def Database.inserts (db : Database) (account : List Byte) : Bool :=
  db.reachable && db.accepting && !db.conflicts account

namespace LoginDlg

theorem query_login_db (db : Database) (order : RowOrder)
    (password : TypedText page) :
    (db.query order
        (cStr (cStr (loginQuery (page.ct2a password.text))))).2 = db := by
  rw [cStr_cStr, cStr_of_noNul (loginQuery_noNul password.text),
    Database.query, parse_loginQuery password.denotes]
  cases db.reachable with
  | false => rfl
  | true =>
      cases db.accepting with
      | false => rfl
      | true => rfl

/-- A click on the login button refuses, or admits an account some row is read
as, or throws because no result set came back. -/
theorem loginAt_cases (dlg : LoginDlg) (parent : PCClientDlg) (db : Database)
    (order : RowOrder) {password : TypedText page}
    (inField : dlg.password = password.text) :
    (Database.answers db = true ∧
      (dlg.loginAt page parent db order = some (dlg.refuse, parent, db) ∨
        ReadsAs page db dlg.account ∧
          dlg.loginAt page parent db order =
            some (dlg.endDialog 11,
              { parent with windowText := dlg.account }, db))) ∨
      Database.answers db = false ∧
        dlg.loginAt page parent db order = none := by
  have unchanged := query_login_db db order password
  rw [loginAt, inField]
  cases works : Database.answers db with
  | false =>
      refine .inr ⟨rfl, ?_⟩
      rw [Database.answers, ← Bool.not_eq_true] at works
      rw [loginOn_eq_none _ _ _ (query_login_fails order password works)]
      rfl
  | true =>
      refine .inl ⟨rfl, ?_⟩
      rw [Database.answers] at works
      simp only [unchanged, query_login order password works,
        loginOn_accounts]
      cases first : (db.returned order password.value).head? with
      | none => exact .inl rfl
      | some row =>
          by_cases reads :
              page.decode (RMysql.fetched row.account) = dlg.account
          · refine .inr ⟨?_, by simp [reads]⟩
            have member := List.mem_of_mem_head? first
            exact ⟨row, (Database.mem_of_mem_returned member).1, reads⟩
          · exact .inl (by simp [reads])

end LoginDlg

namespace LoginSession

inductive Steps : LoginSession → LoginEvent page → LoginSession → Prop where
  | doModal {session : LoginSession} :
      session.dlg.ended ≠ none →
      Steps session .doModal { session with dlg := .typed [] [] }
  | edit {session : LoginSession} {account password : List WChar} :
      session.dlg.ended = none →
      Steps session (.edit account password)
        { session with dlg := session.dlg.filled account password }
  | refused {session : LoginSession} {order : RowOrder}
      {password : TypedText page} :
      session.dlg.ended = none → session.dlg.password = password.text →
      Database.answers session.db = true →
      Steps session (.login order password)
        { session with dlg := session.dlg.refuse }
  | admitted {session : LoginSession} {order : RowOrder}
      {password : TypedText page} :
      session.dlg.ended = none → session.dlg.password = password.text →
      ReadsAs page session.db session.dlg.account →
      Steps session (.login order password)
        { session with
          dlg := session.dlg.endDialog 11
          parent := { session.parent with windowText := session.dlg.account } }
  | threw {session : LoginSession} {order : RowOrder}
      {password : TypedText page} :
      session.dlg.ended = none → Database.answers session.db = false →
      Steps session (.login order password) { session with crashed := true }
  | registered {session : LoginSession} {order : RowOrder}
      {account password : TypedText page} {dlg : LoginDlg}
      {db : Database} :
      session.dlg.ended = none → session.dlg.registerEnabled = true →
      session.dlg.account = account.text →
      session.dlg.password = password.text →
      dlg.ended = some 11 →
      db.rows =
        (if Database.inserts session.db account.value then
          session.db.rows ++ [registeredAt session.parent account password]
        else session.db.rows) →
      Steps session (.register order account password)
        { session with
          dlg := dlg
          parent := { session.parent with windowText := account.text }
          db := db }
  | left {session : LoginSession} {event : LoginEvent page} {result : Nat} :
      session.dlg.ended = none →
      (event = .cancel ∧ result = 10 ∨
        ∃ ok, event = .command ok ∧ result = if ok then 1 else 2) →
      Steps session event
        { session with dlg := session.dlg.endDialog result }
  | others {session : LoginSession} {reachable accepting answering : Bool}
      {rows : List StoredRow} {db : Database} :
      db.rows = session.db.rows ++ rows →
      Steps session (.others reachable accepting answering rows)
        { session with db := db }

theorem steps_of_step {session next : LoginSession} {event : LoginEvent page}
    (taken : session.step event = some next) : Steps session event next := by
  unfold step at taken
  split at taken
  · cases taken
  · rename_i alive
    rw [Bool.not_eq_true] at alive
    cases event with
    | doModal =>
        simp only [Option.ite_none_right_eq_some, Option.some.injEq] at taken
        obtain ⟨isEnded, rfl⟩ := taken
        exact .doModal (Option.isSome_iff_ne_none.mp isEnded)
    | edit account password =>
        simp only [Option.ite_none_right_eq_some, Option.some.injEq] at taken
        obtain ⟨isOpen, rfl⟩ := taken
        exact .edit isOpen
    | login order password =>
        obtain ⟨⟨isOpen, inField⟩, handled⟩ :=
          Option.ite_none_right_eq_some.mp taken
        obtain ⟨dlg, parent, db, crashed⟩ := session
        cases alive
        rcases LoginDlg.loginAt_cases dlg parent db order inField with
          ⟨answers, refused | ⟨reads, admitted⟩⟩ | ⟨silent, threw⟩
        · simp only [refused, Option.some.injEq] at handled
          subst handled
          exact .refused isOpen inField answers
        · simp only [admitted, Option.some.injEq] at handled
          subst handled
          exact .admitted isOpen inField reads
        · simp only [threw, Option.some.injEq] at handled
          subst handled
          exact .threw isOpen silent
    | register order account password =>
        simp only [Option.ite_none_right_eq_some, Option.some.injEq] at taken
        obtain ⟨⟨isOpen, enabled, accountField, passwordField⟩, rfl⟩ := taken
        obtain ⟨dlg, parent, db, crashed⟩ := session
        cases alive
        have rows := LoginDlg.query_register_rows db order parent account
          password
        rw [← accountField, ← passwordField] at rows
        have isEnded :
            (dlg.registerAt page parent db order).1.ended = some 11 := rfl
        have window : (dlg.registerAt page parent db order).2.1 =
            { parent with windowText := account.text } := by
          rw [← accountField]
          rfl
        have stepped := @Steps.registered page _ order account password _ _
          isOpen enabled accountField passwordField isEnded rows
        rw [← window] at stepped
        exact stepped
    | cancel =>
        simp only [Option.ite_none_right_eq_some, Option.some.injEq] at taken
        obtain ⟨isOpen, rfl⟩ := taken
        exact .left isOpen (.inl ⟨rfl, rfl⟩)
    | command ok =>
        simp only [Option.ite_none_right_eq_some, Option.some.injEq] at taken
        obtain ⟨isOpen, rfl⟩ := taken
        exact .left isOpen (.inr ⟨ok, rfl, rfl⟩)
    | others reachable accepting answering rows =>
        obtain rfl := Option.some.inj taken
        exact .others rfl

/-- A dialog that ended with 11 left a title in the parent's window that some
row of the table is read as. -/
def TitleKnown (page : CodePage) (session : LoginSession) : Prop :=
  session.dlg.ended = some 11 →
    ReadsAs page session.db session.parent.windowText

/-- Some row is read as the account that is registered, if only the one that
is inserted. -/
def RegistersKnown (session : LoginSession) : LoginEvent page → Prop
  | .register _ account _ =>
      ReadsAs page session.db account.text ∨
        (Database.inserts session.db account.value = true ∧
          page.decode (cStr account.value) = account.text)
  | _ => True

instance (session : LoginSession) :
    DecidablePred (@RegistersKnown page session)
  | .register _ account _ =>
      inferInstanceAs (Decidable (ReadsAs page session.db account.text ∨ _))
  | .doModal | .edit _ _ | .login _ _ | .cancel | .command _
  | .others _ _ _ _ => inferInstanceAs (Decidable True)

theorem readsAs_mono {db later : Database} {account : List WChar}
    (known : ReadsAs page db account) (rows : db.rows ⊆ later.rows) :
    ReadsAs page later account := by
  obtain ⟨row, member, reads⟩ := known
  exact ⟨row, rows member, reads⟩

theorem readsAs_registered_iff {db later : Database} {parent : PCClientDlg}
    {account password : TypedText page}
    (rows : later.rows =
      if Database.inserts db account.value then
        db.rows ++ [registeredAt parent account password]
      else db.rows) :
    ReadsAs page later account.text ↔
      ReadsAs page db account.text ∨
        (Database.inserts db account.value = true ∧
          page.decode (cStr account.value) = account.text) := by
  rw [ReadsAs, ReadsAs, rows]
  cases Database.inserts db account.value with
  | false => simp
  | true =>
      simp only [if_true, List.mem_append, List.mem_singleton, or_and_right,
        exists_or, exists_eq_left, true_and]
      rfl

theorem TitleKnown.step_iff {session next : LoginSession}
    {event : LoginEvent page} (known : TitleKnown page session)
    (taken : Steps session event next) :
    TitleKnown page next ↔ RegistersKnown session event := by
  cases taken with
  | doModal isEnded =>
      refine iff_of_true ?_ trivial
      intro admitted
      cases admitted
  | edit isOpen =>
      refine iff_of_true ?_ trivial
      intro admitted
      cases admitted
  | refused isOpen inField answers =>
      refine iff_of_true ?_ trivial
      intro admitted
      have stillOpen : session.dlg.ended = some 11 := admitted
      rw [isOpen] at stillOpen
      cases stillOpen
  | admitted isOpen inField reads => exact iff_of_true (fun _ => reads) trivial
  | threw isOpen silent => exact iff_of_true known trivial
  | registered isOpen enabled accountField passwordField isEnded rows =>
      rw [RegistersKnown, ← readsAs_registered_iff rows]
      exact ⟨fun after => after isEnded, fun reads _ => reads⟩
  | @left _ result isOpen how =>
      have noRegister : RegistersKnown session event := by
        rcases how with ⟨rfl, _⟩ | ⟨ok, rfl, _⟩
        · trivial
        · trivial
      refine iff_of_true ?_ noRegister
      intro admitted
      obtain rfl : result = 11 := Option.some.inj admitted
      rcases how with ⟨_, impossible⟩ | ⟨ok, _, impossible⟩
      · cases impossible
      · cases ok <;> cases impossible
  | others rows =>
      refine iff_of_true ?_ trivial
      intro admitted
      apply readsAs_mono (known admitted)
      rw [rows]
      exact List.subset_append_left _ _

/-- However the user clicks and whatever happens to the database, every dialog
that ends with 11 leaves a title which some row is read as, exactly if every
registration either inserts such a row or finds one. -/
theorem title_known_iff {parent : PCClientDlg} {db : Database}
    {events : List (LoginEvent page)} {session : LoginSession}
    (run : (dialogs page).Run (initial parent db) events session) :
    (dialogs page).Always (TitleKnown page) (initial parent db) events ↔
      (dialogs page).StepsMeet RegistersKnown (initial parent db) events := by
  have initially : TitleKnown page (initial parent db) := by
    intro admitted
    cases admitted
  apply System.always_iff_stepsMeet (fun _ known => known) _ _ initially run
  · intro session event next known registers taken
    exact (known.step_iff (steps_of_step taken)).mpr registers
  · intro session event next known unknown taken still
    exact unknown ((known.step_iff (steps_of_step taken)).mp still)

private def newcomer : TypedText .ascii where
  text := [100, 97, 110]
  value := ansi "dan"
  denotes := by decide

private def passcode : TypedText .ascii where
  text := [52, 50]
  value := ansi "42"
  denotes := by decide

/-- A refused user registers while the database takes no more inserts. -/
def unsavedRegistration : List (LoginEvent .ascii) :=
  [.login .asStored { text := [], value := [], denotes := by decide },
    .edit newcomer.text passcode.text, .others true false false [],
    .register .asStored newcomer passcode]

theorem unsavedRegistration_enabled :
    ((dialogs .ascii).exec (initial PCClientDlg.create (.plain []))
      unsavedRegistration).isSome := by decide

theorem unsaved_registration_leaves_title :
    ¬(dialogs .ascii).Always (TitleKnown .ascii)
      (initial PCClientDlg.create (.plain [])) unsavedRegistration := by
  rw [title_known_iff (System.run_get unsavedRegistration_enabled)]
  decide

def isInput : LoginEvent page → Bool
  | .edit _ _ | .others _ _ _ _ => true
  | _ => false

def afterInput (texts : List WChar × List WChar) :
    LoginEvent page → List WChar × List WChar
  | .edit account password => (account, password)
  | _ => texts

/-- The texts in two empty fields after these events. -/
def typedIn (events : List (LoginEvent page)) : List WChar × List WChar :=
  events.foldl afterInput ([], [])

/-- The events end with a login that was refused and with input behind it
which left these texts in the fields. -/
def RefusedBefore (start : LoginSession) (events : List (LoginEvent page))
    (texts : List WChar × List WChar) : Prop :=
  ∃ before order password asked between,
    events = before ++ .login order password :: between ∧
      (dialogs page).Run start before asked ∧
      (dialogs page).step asked (.login order password) =
        some { asked with dlg := asked.dlg.refuse } ∧
      (∀ event ∈ between, isInput event = true) ∧
      typedIn between = texts

theorem RefusedBefore.input {start : LoginSession}
    {events : List (LoginEvent page)} {texts : List WChar × List WChar}
    (refused : RefusedBefore start events texts) {event : LoginEvent page}
    (input : isInput event = true) :
    RefusedBefore start (events ++ [event]) (afterInput texts event) := by
  obtain ⟨before, order, password, asked, between, rfl, run, asks, inputs,
    rfl⟩ := refused
  refine ⟨before, order, password, asked, between ++ [event], by simp, run,
    asks, ?_, List.foldl_append⟩
  intro other member
  rcases List.mem_append.mp member with earlier | last
  · exact inputs other earlier
  · obtain rfl := List.mem_singleton.mp last
    exact input

/-- In an open dialog with its register button enabled, a login was refused,
and the fields hold what was typed since. -/
def EnabledByRefusal (start : LoginSession) (events : List (LoginEvent page))
    (session : LoginSession) : Prop :=
  session.crashed = false → session.dlg.ended = none →
    session.dlg.registerEnabled = true →
      RefusedBefore start events
        (session.dlg.account, session.dlg.password)

theorem EnabledByRefusal.step {start session next : LoginSession}
    {past : List (LoginEvent page)} {event : LoginEvent page}
    (run : (dialogs page).Run start past session)
    (enabledBy : EnabledByRefusal start past session)
    (taken : (dialogs page).step session event = some next) :
    EnabledByRefusal start (past ++ [event]) next := by
  intro alive isOpen enabled
  cases steps_of_step taken with
  | doModal isEnded => cases enabled
  | edit wasOpen => exact (enabledBy alive wasOpen enabled).input rfl
  | @refused order password wasOpen inField answers =>
      exact ⟨past, order, password, session, [], rfl, run, taken, by simp,
        rfl⟩
  | admitted | left => cases isOpen
  | threw => cases alive
  | registered wasOpen wasEnabled accountField passwordField isEnded rows =>
      rw [isEnded] at isOpen
      cases isOpen
  | others rows => exact (enabledBy alive isOpen enabled).input rfl

/-- In every run, each click on the register button comes after a refused
login with nothing but input between the two; it registers what was typed
since that refusal, and inserts at most one row, with these texts. -/
theorem registers_what_was_typed {parent : PCClientDlg} {db : Database}
    {past : List (LoginEvent page)} {session next : LoginSession}
    (run : (dialogs page).Run (initial parent db) past session)
    {order : RowOrder} {account password : TypedText page}
    (clicked : (dialogs page).step session
      (.register order account password) = some next) :
    RefusedBefore (initial parent db) past (account.text, password.text) ∧
      next.db.rows =
        if Database.inserts session.db account.value then
          session.db.rows ++ [registeredAt session.parent account password]
        else session.db.rows := by
  have enabledBy : EnabledByRefusal (initial parent db) past session := by
    apply run.history
    · intro earlier state event later earlierRun enabledBy taken
      exact EnabledByRefusal.step earlierRun enabledBy taken
    · intro _ _ enabled
      cases enabled
  have alive : session.crashed = false := by
    by_contra crashed
    rw [Bool.not_eq_false] at crashed
    simp [dialogs, step, crashed] at clicked
  have taken : Steps session (.register order account password) next :=
    steps_of_step clicked
  cases taken with
  | registered isOpen enabled accountField passwordField isEnded rows =>
      have refused := enabledBy alive isOpen enabled
      rw [accountField, passwordField] at refused
      exact ⟨refused, rows⟩
  | left isOpen how =>
      rcases how with ⟨impossible, _⟩ | ⟨_, impossible, _⟩
      · cases impossible
      · cases impossible

def refusedUser : List (LoginEvent .ascii) :=
  [.edit newcomer.text newcomer.text, .login .asStored newcomer,
    .edit newcomer.text passcode.text]

theorem refusedUser_enabled :
    ((dialogs .ascii).exec (initial PCClientDlg.create (.plain []))
      refusedUser).isSome := by decide

def refusedSession : LoginSession :=
  ((dialogs .ascii).exec (initial PCClientDlg.create (.plain []))
    refusedUser).get refusedUser_enabled

theorem registers_newcomer :
    RefusedBefore (initial PCClientDlg.create (.plain [])) refusedUser
      (newcomer.text, passcode.text) := by
  have enabled : ((dialogs .ascii).step refusedSession
      (.register .asStored newcomer passcode)).isSome := by decide
  have clicked := (Option.some_get enabled).symm
  exact (registers_what_was_typed (System.run_get refusedUser_enabled)
    clicked).1

/-- The clicks of someone who types the same two texts for the login and, if
it is refused, once more for the registration. -/
def persistent (order : RowOrder) (account password : TypedText page) :
    List (LoginEvent page) :=
  [.edit account.text password.text, .login order password,
    .edit account.text password.text, .register order account password]

section Clicks

variable {dlg : LoginDlg} {parent : PCClientDlg} {db : Database}

theorem step_edit (isOpen : dlg.ended = none)
    (account password : List WChar) :
    (dialogs page).step
        { dlg := dlg, parent := parent, db := db, crashed := false }
        (.edit account password) =
      some
        { dlg := dlg.filled account password
          parent := parent
          db := db
          crashed := false } :=
  if_pos isOpen

theorem step_login {order : RowOrder} {password : TypedText page}
    {after : LoginDlg} {window : PCClientDlg} {later : Database}
    (isOpen : dlg.ended = none) (inField : dlg.password = password.text)
    (handled : dlg.loginAt page parent db order =
      some (after, window, later)) :
    (dialogs page).step
        { dlg := dlg, parent := parent, db := db, crashed := false }
        (.login order password) =
      some
        { dlg := after, parent := window, db := later, crashed := false } := by
  simp only [dialogs, step, Bool.false_eq_true, if_false, isOpen, inField,
    and_self, if_true, handled]

theorem step_register (order : RowOrder) {account password : TypedText page}
    (isOpen : dlg.ended = none) (enabled : dlg.registerEnabled = true)
    (accountField : dlg.account = account.text)
    (passwordField : dlg.password = password.text) :
    ∃ finish,
      (dialogs page).step
          { dlg := dlg, parent := parent, db := db, crashed := false }
          (.register order account password) = some finish ∧
        finish.dlg.ended = some 11 ∧
        finish.parent.windowText = account.text :=
  ⟨_, if_pos ⟨isOpen, enabled, accountField, passwordField⟩, rfl,
    accountField⟩

/-- As long as the database answers, an open dialog keeps nobody out: any two
texts with complete literals lead to the end with 11 and the typed account as
title. -/
theorem nobody_is_kept_out (isOpen : dlg.ended = none)
    (answers : Database.answers db = true) (order : RowOrder)
    (account password : TypedText page) :
    ∃ events finish, events <+: persistent order account password ∧
      (dialogs page).Run
        { dlg := dlg, parent := parent, db := db, crashed := false }
        events finish ∧
      finish.dlg.ended = some 11 ∧
      finish.parent.windowText = account.text := by
  have typed := @step_edit page dlg parent db isOpen account.text
    password.text
  have inField : (dlg.filled account.text password.text).password =
      password.text := rfl
  rcases LoginDlg.loginAt_cases _ parent db order inField with
    ⟨_, refused | ⟨_, admitted⟩⟩ | ⟨silent, _⟩
  · have asked := step_login rfl inField refused
    have again := @step_edit page
      (dlg.filled account.text password.text).refuse parent db rfl
      account.text password.text
    obtain ⟨finish, registers, ends, title⟩ :=
      @step_register page
        ((dlg.filled account.text password.text).refuse.filled account.text
          password.text) parent db order account password rfl rfl rfl rfl
    exact ⟨_, finish, List.prefix_rfl,
      .cons typed (.cons asked (.cons again (.single registers))), ends,
      title⟩
  · have asked := step_login rfl inField admitted
    refine ⟨_, _, ?_, .cons typed (.single asked), rfl, rfl⟩
    exact List.prefix_append _ _
  · rw [answers] at silent
    cases silent

theorem newcomer_gets_in :
    ∃ events finish, events <+: persistent .asStored newcomer passcode ∧
      (dialogs .ascii).Run (initial PCClientDlg.create (.plain [])) events
        finish ∧
      finish.dlg.ended = some 11 ∧
      finish.parent.windowText = newcomer.text :=
  nobody_is_kept_out rfl rfl .asStored newcomer passcode

end Clicks

end LoginSession

end OpenChat.Client
