import OpenChat.Foundation.Run
import OpenChat.Server.ServerDlg

/-!
# The notification in the status bar

`NotifyUi` leaves its text in `info`, from any thread, and the timer shows
what it finds there and clears it, in three steps.  A text that is left
between the last two of them is cleared without having been shown.
-/

namespace OpenChat.Server

open Platform Foundation

namespace PCServerDlg

/-- The test of a `TIMER_CLIENT` tick. -/
def timerTest (dlg : PCServerDlg) : Bool :=
  dlg.info ≠ []

/-- `SetPaneText(0, info)`. -/
def timerShow (dlg : PCServerDlg) : PCServerDlg :=
  { dlg with statusText := dlg.info }

def timerClear (dlg : PCServerDlg) : PCServerDlg :=
  { dlg with info := [] }

def onTimerClient (dlg : PCServerDlg) : PCServerDlg :=
  if dlg.timerTest then dlg.timerShow.timerClear else dlg

end PCServerDlg

/-- What the next step of a tick does; between ticks it is the test. -/
inductive TickPhase where
  | testing
  | showing
  | clearing
deriving DecidableEq

/-- The window, the tick, the texts of all calls of `NotifyUi` so far, and
what was shown after the latest of them. -/
structure StatusBar where
  dlg : PCServerDlg
  tick : TickPhase
  notified : List Text
  shownSince : List Text
deriving DecidableEq

inductive StatusEvent where
  | notifyUi (msg : Text)
  | test
  | setPaneText
  | clear
deriving DecidableEq

namespace StatusBar

def initial : StatusBar :=
  { dlg := PCServerDlg.create
    tick := .testing
    notified := []
    shownSince := [] }

/-- One step; the steps of a tick come in their order. -/
def step (bar : StatusBar) : StatusEvent → Option StatusBar
  | .notifyUi msg =>
      some
        { bar with
          dlg := bar.dlg.notifyUi msg
          notified := bar.notified ++ [msg]
          shownSince := [] }
  | .test =>
      if bar.tick = .testing then
        some
          { bar with
            tick := if bar.dlg.timerTest then .showing else .testing }
      else none
  | .setPaneText =>
      if bar.tick = .showing then
        some
          { bar with
            dlg := bar.dlg.timerShow
            tick := .clearing
            shownSince := bar.shownSince ++ [bar.dlg.info] }
      else none
  | .clear =>
      if bar.tick = .clearing then
        some { bar with dlg := bar.dlg.timerClear, tick := .testing }
      else none

end StatusBar

def statusBar : System StatusBar StatusEvent :=
  { step := StatusBar.step }

namespace StatusBar

theorem tick_alone {bar : StatusBar} (between : bar.tick = .testing) :
    ∃ finish, statusBar.Reaches bar finish ∧ finish.tick = .testing ∧
      finish.dlg = bar.dlg.onTimerClient := by
  cases found : bar.dlg.timerTest with
  | false =>
      refine ⟨{ bar with tick := .testing },
        .step .test (by simp [statusBar, step, between, found]), rfl, ?_⟩
      simp [PCServerDlg.onTimerClient, found]
  | true =>
      have tested : statusBar.Reaches bar { bar with tick := .showing } :=
        .step .test (by simp [statusBar, step, between, found])
      refine ⟨_, (tested.trans (.step .setPaneText rfl)).trans (.step .clear rfl),
        rfl, ?_⟩
      simp [PCServerDlg.onTimerClient, found]

/-- Once a text that is not empty was notified, the latest text is still in
`info` or has been shown since. -/
def NewestKept (bar : StatusBar) : Prop :=
  (∃ msg ∈ bar.notified, msg ≠ []) →
    ∀ newest ∈ bar.notified.getLast?,
      bar.dlg.info = newest ∨ newest ∈ bar.shownSince

/-- Nothing but the empty text is notified between the second and the third
step of a tick. -/
def BetweenTicks (bar : StatusBar) : StatusEvent → Prop
  | .notifyUi msg => bar.tick = .clearing → msg = []
  | _ => True

instance (bar : StatusBar) : DecidablePred bar.BetweenTicks
  | .notifyUi _ => inferInstanceAs (Decidable (_ → _))
  | .test | .setPaneText | .clear => inferInstanceAs (Decidable True)

/-- What `info` holds, by the step that is next: the newest text, unless it
was shown and cleared; from the test to the clearing it is not touched. -/
def Holds (bar : StatusBar) : TickPhase → Prop
  | .testing =>
      bar.dlg.info = bar.notified.getLast?.getD [] ∨
        (bar.dlg.info = [] ∧
          ∀ newest ∈ bar.notified.getLast?, newest ∈ bar.shownSince)
  | .showing => bar.notified.getLast? = some bar.dlg.info
  | .clearing =>
      bar.notified.getLast? = some bar.dlg.info ∧
        (bar.dlg.info ∈ bar.shownSince ∨ bar.dlg.info = [])

def Coherent (bar : StatusBar) : Prop :=
  bar.Holds bar.tick

theorem Coherent.newestKept {bar : StatusBar} (holds : bar.Coherent) :
    bar.NewestKept := by
  rw [Coherent] at holds
  intro _ newest isNewest
  have last : bar.notified.getLast? = some newest := isNewest
  cases phase : bar.tick with
  | testing =>
      rw [phase, Holds, last] at holds
      rcases holds with same | ⟨_, shown⟩
      · exact .inl same
      · exact .inr (shown newest rfl)
  | showing =>
      rw [phase, Holds, last] at holds
      exact .inl (Option.some.inj holds).symm
  | clearing =>
      rw [phase, Holds, last] at holds
      exact .inl (Option.some.inj holds.1).symm

theorem coherent_initial : initial.Coherent :=
  .inl rfl

theorem Coherent.step {bar next : StatusBar} {event : StatusEvent}
    (holds : bar.Coherent) (between : bar.BetweenTicks event)
    (taken : bar.step event = some next) : next.Coherent := by
  rw [Coherent] at holds ⊢
  cases event with
  | notifyUi msg =>
      obtain rfl := Option.some.inj taken
      have newest : (bar.notified ++ [msg]).getLast? = some msg :=
        List.getLast?_concat
      cases phase : bar.tick with
      | testing =>
          refine .inl ?_
          rw [newest]
          rfl
      | showing => exact newest
      | clearing => exact ⟨newest, .inr (between phase)⟩
  | test =>
      simp only [StatusBar.step, Option.ite_none_right_eq_some,
        Option.some.injEq] at taken
      obtain ⟨phase, rfl⟩ := taken
      rw [phase] at holds
      cases found : bar.dlg.timerTest with
      | false => exact holds
      | true =>
          have nonempty : bar.dlg.info ≠ [] := by
            simpa [PCServerDlg.timerTest] using found
          have same := holds.resolve_right fun cleared => nonempty cleared.1
          cases last : bar.notified.getLast? with
          | none =>
              rw [last] at same
              exact (nonempty same).elim
          | some newest =>
              rw [last] at same
              simp only [Holds, if_true, last]
              exact congrArg some same.symm
  | setPaneText =>
      simp only [StatusBar.step, Option.ite_none_right_eq_some,
        Option.some.injEq] at taken
      obtain ⟨phase, rfl⟩ := taken
      rw [phase] at holds
      exact ⟨holds, .inl (List.mem_append_right _ (.head _))⟩
  | clear =>
      simp only [StatusBar.step, Option.ite_none_right_eq_some,
        Option.some.injEq] at taken
      obtain ⟨phase, rfl⟩ := taken
      rw [phase] at holds
      obtain ⟨last, shown | empty⟩ := holds
      · refine .inr ⟨rfl, ?_⟩
        intro newest isNewest
        obtain rfl := Option.some.inj (last.symm.trans isNewest)
        exact shown
      · refine .inl ?_
        rw [last, Option.getD_some, empty]
        rfl

def Worded (bar : StatusBar) : Prop :=
  ∀ msg ∈ bar.notified, msg ≠ []

/-- The text in `info` is about to be cleared and was not shown. -/
structure Doomed (bar : StatusBar) : Prop where
  clearing : bar.tick = .clearing
  newest : bar.notified.getLast? = some bar.dlg.info
  nonempty : bar.dlg.info ≠ []
  notShown : bar.shownSince = []

theorem doomed_notifyUi {bar : StatusBar} {msg : Text}
    (clearing : bar.tick = .clearing) (nonempty : msg ≠ []) :
    Doomed
      { bar with
        dlg := bar.dlg.notifyUi msg
        notified := bar.notified ++ [msg]
        shownSince := [] } where
  clearing := clearing
  newest := List.getLast?_concat
  nonempty := nonempty
  notShown := rfl

theorem Doomed.step {bar next : StatusBar} {event : StatusEvent}
    (doomed : bar.Doomed) (taken : bar.step event = some next) :
    next.Doomed ∨ ¬(next.NewestKept ∧ next.Worded) := by
  cases event with
  | notifyUi msg =>
      obtain rfl := Option.some.inj taken
      by_cases empty : msg = []
      · right
        rintro ⟨_, worded⟩
        exact worded msg (List.mem_append_right _ (.head _)) empty
      · exact .inl (doomed_notifyUi doomed.clearing empty)
  | test => simp [StatusBar.step, doomed.clearing] at taken
  | setPaneText => simp [StatusBar.step, doomed.clearing] at taken
  | clear =>
      simp only [StatusBar.step, doomed.clearing, if_true,
        Option.some.injEq] at taken
      subst taken
      right
      rintro ⟨kept, _⟩
      have some_ : ∃ msg ∈ bar.notified, msg ≠ [] :=
        ⟨_, List.mem_of_getLast? doomed.newest, doomed.nonempty⟩
      rcases kept some_ _ doomed.newest with same | shown
      · exact doomed.nonempty same.symm
      · have shownBefore : bar.dlg.info ∈ bar.shownSince := shown
        rw [doomed.notShown] at shownBefore
        cases shownBefore

theorem mem_notified {start finish : StatusBar} {events : List StatusEvent}
    (run : statusBar.Run start events finish) {msg : Text}
    (member : msg ∈ finish.notified) :
    msg ∈ start.notified ∨ .notifyUi msg ∈ events := by
  induction run with
  | nil => exact .inl member
  | @cons start middle finish event events taken _ induction =>
      rcases induction member with old | later
      · cases event with
        | notifyUi first =>
            obtain rfl := Option.some.inj taken
            rcases List.mem_append.mp old with before | new
            · exact .inl before
            · obtain rfl := List.mem_singleton.mp new
              exact .inr (.head _)
        | _ =>
            have same : middle.notified = start.notified := by
              simp only [statusBar, StatusBar.step,
                Option.ite_none_right_eq_some, Option.some.injEq] at taken
              rw [← taken.2]
            rw [same] at old
            exact .inl old
      · exact .inr (.tail _ later)

/-- In every run in which nothing is notified between the second and the
third step of a tick the newest text is never lost; and in a run of texts
that are not empty which does not end there, it is lost otherwise. -/
theorem newest_kept {events : List StatusEvent} {bar : StatusBar}
    (run : statusBar.Run initial events bar) :
    (statusBar.StepsMeet BetweenTicks initial events →
      statusBar.Always NewestKept initial events) ∧
    (bar.tick ≠ .clearing →
      (∀ msg, .notifyUi msg ∈ events → msg ≠ []) →
      statusBar.Always NewestKept initial events →
      statusBar.StepsMeet BetweenTicks initial events) := by
  constructor
  · intro meets
    have coherent : statusBar.Always Coherent initial events :=
      System.always_of_guarded
        (fun _ _ _ holds between taken => holds.step between taken)
        coherent_initial meets
    exact coherent.mono fun _ holds => holds.newestKept
  · intro settled nonempty kept
    have keptWorded : statusBar.Always
        (fun bar => bar.NewestKept ∧ bar.Worded) initial events := by
      intro past state isPast pastRun
      refine ⟨kept past state isPast pastRun, ?_⟩
      intro msg member
      rcases mem_notified pastRun member with before | called
      · cases before
      · exact nonempty msg (isPast.subset called)
    have preserved : ∀ bar event next, Coherent bar →
        bar.BetweenTicks event → statusBar.step bar event = some next →
        Coherent next :=
      fun _ _ _ holds between taken => holds.step between taken
    have stays : ∀ bar event next, Doomed bar →
        statusBar.step bar event = some next →
        Doomed next ∨ ¬(next.NewestKept ∧ next.Worded) :=
      fun _ _ _ doomed taken => doomed.step taken
    have broken : ∀ bar event next, Coherent bar →
        ¬bar.BetweenTicks event → statusBar.step bar event = some next →
        Doomed next ∨ ¬(next.NewestKept ∧ next.Worded) := by
      intro bar event next _ missed taken
      cases event with
      | notifyUi msg =>
          obtain rfl := Option.some.inj taken
          obtain ⟨clearing, nonempty⟩ := Classical.not_imp.mp missed
          exact .inl (doomed_notifyUi clearing nonempty)
      | _ => exact (missed trivial).elim
    exact System.stepsMeet_of_always preserved broken stays coherent_initial
      run (fun doomed => settled doomed.clearing) keptWorded

/-- A client joins, and another one leaves while its text is being shown. -/
def leavesDuringTick : List StatusEvent :=
  [.notifyUi "[SYS] 5000已登录".toList, .test, .setPaneText,
    .notifyUi "[SYS] 5001 已离开".toList, .clear]

theorem leave_notice_is_lost :
    ¬∀ events bar, statusBar.Run initial events bar →
      statusBar.Always NewestKept initial events := by
  intro kept
  have run : statusBar.Run initial leavesDuringTick _ :=
    System.run_get (by decide +kernel)
  have last := kept _ _ run leavesDuringTick _ List.prefix_rfl run
  have worded : ∃ msg ∈ ["[SYS] 5000已登录".toList,
      "[SYS] 5001 已离开".toList], msg ≠ [] :=
    ⟨_, .head _, by decide⟩
  exact absurd (last worded _ rfl) (by decide +kernel)

def leavesAfterTick : List StatusEvent :=
  [.notifyUi "[SYS] 5000已登录".toList, .test, .setPaneText, .clear,
    .notifyUi "[SYS] 5001 已离开".toList, .test]

theorem newest_kept_in_leavesAfterTick :
    statusBar.Always NewestKept initial leavesAfterTick ∧
      statusBar.StepsMeet BetweenTicks initial leavesAfterTick := by
  have both := newest_kept
    (System.run_get (by decide +kernel) :
      statusBar.Run initial leavesAfterTick _)
  have worded : ∀ msg, .notifyUi msg ∈ leavesAfterTick → msg ≠ [] := by
    intro msg member
    have texts : msg = "[SYS] 5000已登录".toList ∨
        msg = "[SYS] 5001 已离开".toList := by
      simpa [leavesAfterTick] using member
    rcases texts with rfl | rfl
    · decide
    · decide
  have kept := both.1 (by decide +kernel)
  exact ⟨kept, both.2 (by decide +kernel) worded kept⟩

end StatusBar

end OpenChat.Server
