import OpenChat.Foundation.Run

/-!
# Simulation

A system is simulated by a more abstract one when each of its steps is matched
by a run of the other between matching states: by one step, by several, or by
none where the step cannot be seen.
-/

namespace OpenChat.Foundation.System

universe u v w x

variable {State : Type u} {Label : Type v} {Image : Type w} {Act : Type x}

/-- Some run from `image` ends in a state that fits. -/
def Leads (N : System Image Act) (image : Image) (Fits : Image → Prop) :
    Prop :=
  ∃ acts later, N.Run image acts later ∧ Fits later

namespace Leads

variable {N : System Image Act} {Fits : Image → Prop} {image : Image}

theorem stay (fits : Fits image) : N.Leads image Fits :=
  ⟨[], image, .nil image, fits⟩

theorem act {later : Image} (act : Act)
    (taken : N.step image act = some later) (fits : Fits later) :
    N.Leads image Fits :=
  ⟨[act], later, .single taken, fits⟩

theorem trans {Between : Image → Prop} (first : N.Leads image Between)
    (others : ∀ between, Between between → N.Leads between Fits) :
    N.Leads image Fits := by
  obtain ⟨acts, between, run, fits⟩ := first
  obtain ⟨laterActs, later, laterRun, laterFits⟩ := others between fits
  exact ⟨acts ++ laterActs, later, run.append laterRun, laterFits⟩

end Leads

/-- The steps of `M` that meet the guard, from a state that matches one of
`N`, are matched by runs of `N`. -/
def SimulatedBy (M : System State Label) (N : System Image Act)
    (Guard : State → Label → Prop) (Matches : State → Image → Prop) : Prop :=
  ∀ state label next image, Matches state image → Guard state label →
    M.step state label = some next → N.Leads image (Matches next)

namespace SimulatedBy

variable {M : System State Label} {N : System Image Act}
  {Guard : State → Label → Prop} {Matches : State → Image → Prop}

/-- A run whose steps meet the guard is matched by a run. -/
theorem run (simulated : M.SimulatedBy N Guard Matches)
    {start finish : State} {labels : List Label}
    (run : M.Run start labels finish)
    (meets : M.StepsMeet Guard start labels) {image : Image}
    (initially : Matches start image) : N.Leads image (Matches finish) := by
  induction run generalizing image with
  | nil state => exact .stay initially
  | @cons start middle finish label labels taken rest induction =>
      obtain ⟨first, others⟩ := stepsMeet_cons.mp meets
      have matched := simulated start label middle image initially first taken
      exact matched.trans fun between still =>
        induction (others middle taken) still

theorem always (simulated : M.SimulatedBy N Guard Matches)
    {start : State} {labels : List Label}
    (meets : M.StepsMeet Guard start labels) {image : Image}
    (initially : Matches start image) :
    M.Always (fun state => N.Leads image (Matches state)) start labels := by
  intro past state isPast pastRun
  have pastMeets : M.StepsMeet Guard start past := by
    intro before label between isBefore beforeRun
    exact meets before label between (isBefore.trans isPast) beforeRun
  exact simulated.run pastRun pastMeets initially

end SimulatedBy

end OpenChat.Foundation.System
