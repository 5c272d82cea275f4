import OpenChat.Server.Sessions

/-!
# What the window says about the server

`OnBtn_Open` shows a started server and enables the close button whatever
becomes of `Init`, because `Start` keeps its result to itself.  In every run
the tool bar and the status text agree with `mRun` and the listening socket
exactly as long as no `Init` fails.
-/

namespace OpenChat.Server

open Platform Foundation

def InitOutcome.succeeds : InitOutcome → Bool
  | .listens _ => true
  | _ => false

namespace World

def ShowsStarted (world : World) : Prop :=
  world.dlg.mToolBar.button2 = true ∧ world.dlg.mToolBar.button1 = false ∧
    world.dlg.statusText = "[SYS] 服务器已开启！".toList

instance (world : World) : Decidable world.ShowsStarted :=
  inferInstanceAs (Decidable (_ ∧ _))

def IsStarted (world : World) : Prop :=
  world.dlg.mServer.mRun = true ∧ world.IsListening

instance (world : World) : Decidable world.IsStarted :=
  inferInstanceAs (Decidable (_ ∧ _))

def TellsTruth (world : World) : Prop :=
  world.ShowsStarted ↔ world.IsStarted

def InitSucceeds (_world : World) : Event → Prop
  | .openServer outcome => outcome.succeeds = true
  | _ => True

instance (world : World) : DecidablePred world.InitSucceeds
  | .openServer _ => inferInstanceAs (Decidable (_ = true))
  | .closeServer | .testRun _ | .pollNothing _ | .accept _ _ _
  | .insertClient _ | .addClient _ | .startClient _ | .receive _ _
  | .hangUp _ | .deleteClient _ => inferInstanceAs (Decidable True)

/-- Either the window shows a started server and it is, or the open button is
enabled and the server does not run. -/
def Agrees (world : World) : Prop :=
  (world.ShowsStarted ∧ world.IsStarted) ∨
    (world.dlg.mToolBar.button1 = true ∧ world.dlg.mServer.mRun = false)

theorem Agrees.tellsTruth {world : World} (agrees : world.Agrees) :
    world.TellsTruth := by
  rcases agrees with ⟨shows, started⟩ | ⟨enabled, stopped⟩
  · exact iff_of_true shows started
  · refine iff_of_false ?_ ?_
    · intro shows
      exact absurd (enabled.symm.trans shows.2.1) (by decide)
    · intro started
      exact absurd (stopped.symm.trans started.1) (by decide)

theorem agrees_initial : initial.Agrees :=
  .inr ⟨rfl, rfl⟩

/-- The buttons, the status text, `mRun` and `mLisSock` are as before, and no
socket was closed. -/
structure SamePanel (world next : World) : Prop where
  toolBar : next.dlg.mToolBar = world.dlg.mToolBar
  statusText : next.dlg.statusText = world.dlg.statusText
  mRun : next.dlg.mServer.mRun = world.dlg.mServer.mRun
  mLisSock : next.dlg.mServer.mLisSock = world.dlg.mServer.mLisSock
  open_ : world.openSockets ⊆ next.openSockets

theorem SamePanel.agrees {world next : World} (same : SamePanel world next)
    (agrees : world.Agrees) : next.Agrees := by
  rcases agrees with ⟨shows, running, listening⟩ | ⟨enabled, stopped⟩
  · left
    refine ⟨?_, same.mRun.trans running, ?_⟩
    · rw [ShowsStarted, same.toolBar, same.statusText]
      exact shows
    · rw [IsListening, same.mLisSock]
      exact same.open_ listening
  · right
    rw [same.toolBar, same.mRun]
    exact ⟨enabled, stopped⟩

theorem removeClient_statusText (dlg : PCServerDlg) (item : CClientItem) :
    (dlg.removeClient item).statusText = dlg.statusText := by
  simp only [PCServerDlg.removeClient]
  split <;> rfl

theorem samePanel_of_steps {world next : World} {event : Event}
    (steps : Steps world event next)
    (notOpen : ∀ outcome, event ≠ .openServer outcome)
    (notClose : event ≠ .closeServer) : SamePanel world next := by
  cases steps with
  | openServer _ _ => exact (notOpen _ rfl).elim
  | closeServer _ => exact (notClose rfl).elim
  | testRun _ _ => exact ⟨rfl, rfl, rfl, rfl, List.Subset.refl _⟩
  | endLoop _ _ => exact ⟨rfl, rfl, rfl, rfl, List.Subset.refl _⟩
  | pollNothing _ => exact ⟨rfl, rfl, rfl, rfl, List.Subset.refl _⟩
  | accept _ _ _ =>
      exact ⟨rfl, rfl, rfl, rfl, List.subset_append_left _ _⟩
  | insertClient _ => exact ⟨rfl, rfl, rfl, rfl, List.Subset.refl _⟩
  | addClient _ => exact ⟨rfl, rfl, rfl, rfl, List.Subset.refl _⟩
  | startClient _ =>
      simp only [startClient]
      split
      · exact ⟨rfl, rfl, rfl, rfl, List.Subset.refl _⟩
      · exact ⟨rfl, rfl, rfl, rfl, List.Subset.refl _⟩
  | receive _ _ _ _ => exact ⟨rfl, rfl, rfl, rfl, List.Subset.refl _⟩
  | @hangUp _ loop _ _ _ =>
      have server := PCServerDlg.removeClient_mServer world.dlg loop.client
      exact
        ⟨PCServerDlg.removeClient_mToolBar world.dlg loop.client,
          removeClient_statusText world.dlg loop.client,
          congrArg TcpServer.mRun server, congrArg TcpServer.mLisSock server,
          List.Subset.refl _⟩
  | deleteClient _ _ => exact ⟨rfl, rfl, rfl, rfl, List.Subset.refl _⟩

theorem agrees_openServer (world : World) (handle : Socket) :
    (world.openServer (.listens handle)).Agrees :=
  .inl ⟨⟨rfl, rfl, rfl⟩, rfl,
    List.mem_append_right _ (List.mem_singleton.mpr rfl)⟩

theorem agrees_closeServer (world : World) : world.closeServer.Agrees :=
  .inr ⟨rfl, rfl⟩

theorem Agrees.step {world next : World} {event : Event}
    (agrees : world.Agrees) (succeeds : world.InitSucceeds event)
    (taken : world.step event = some next) : next.Agrees := by
  cases event with
  | openServer outcome =>
      cases steps_of_step taken with
      | openServer _ _ =>
          cases outcome with
          | listens handle => exact world.agrees_openServer handle
          | _ => cases succeeds
  | closeServer =>
      cases steps_of_step taken with
      | closeServer _ => exact world.agrees_closeServer
  | _ =>
      exact (samePanel_of_steps (steps_of_step taken) nofun nofun).agrees
        agrees

/-- After an `Init` that fails the window shows a server that does not
run. -/
theorem Agrees.not_tellsTruth {world next : World} {event : Event}
    (agrees : world.Agrees) (fails : ¬world.InitSucceeds event)
    (taken : world.step event = some next) : ¬next.TellsTruth := by
  cases event with
  | openServer outcome =>
      cases steps_of_step taken with
      | openServer enabled _ =>
          have stopped : world.dlg.mServer.mRun = false := by
            rcases agrees with ⟨shows, _⟩ | ⟨_, stopped⟩
            · exact absurd (enabled.symm.trans shows.2.1) (by decide)
            · exact stopped
          have notRunning : (world.openServer outcome).dlg.mServer.mRun =
              false := by
            cases outcome with
            | listens handle => exact (fails rfl).elim
            | _ => exact stopped
          intro truth
          have started := truth.mp ⟨rfl, rfl, rfl⟩
          exact absurd (notRunning.symm.trans started.1) (by decide)
  | _ => exact (fails trivial).elim

end World

/-- In every run of the server process the window tells the truth in every
state exactly if every `Init` succeeds. -/
theorem window_truthful_iff {events : List Event} {world : World}
    (run : process.Run World.initial events world) :
    process.Always World.TellsTruth World.initial events ↔
      process.StepsMeet World.InitSucceeds World.initial events := by
  apply System.always_iff_stepsMeet _ _ _ World.agrees_initial run
  · intro world agrees
    exact agrees.tellsTruth
  · intro world event next agrees
    exact agrees.step
  · intro world event next agrees
    exact agrees.not_tellsTruth

/-- A session, and a second one whose port is taken by then. -/
def portTakenLater : List Event :=
  [.openServer (.listens 4), .closeServer, .openServer (.bindFails 8)]

theorem failed_init_shows_started :
    ¬∀ events world, process.Run World.initial events world →
      process.Always World.TellsTruth World.initial events := by
  intro truthful
  have run : process.Run World.initial portTakenLater _ :=
    System.run_get (by decide +kernel)
  have truth := truthful _ _ run portTakenLater _ List.prefix_rfl run
  exact absurd (truth.mp (by decide +kernel)) (by decide +kernel)

def twoSessions : List Event :=
  [.openServer (.listens 4), .closeServer, .openServer (.listens 4)]

theorem window_truthful_in_twoSessions :
    process.Always World.TellsTruth World.initial twoSessions :=
  (window_truthful_iff (System.run_get (by decide +kernel))).mpr
    (by decide +kernel)

end OpenChat.Server
