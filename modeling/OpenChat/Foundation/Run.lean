import Mathlib.Data.List.Infix

/-!
# Runs of labelled systems

A labelled system is a partial step function whose labels carry every choice
the environment makes.  This file supplies runs, the two ways a property can
speak about a whole run (`Always` about the states it reaches, `StepsMeet`
about the steps it takes), and the invariant rules which connect them.
-/

namespace OpenChat.Foundation

universe u v w x

/-- A system whose next state is determined by the current state and the
label; a label without a result is not enabled. -/
structure System (State : Type u) (Label : Type v) where
  step : State → Label → Option State

namespace System

variable {State : Type u} {Label : Type v}

/-- `M.Run start labels finish`: the labels are enabled one after another and
lead from `start` to `finish`. -/
inductive Run (M : System State Label) :
    State → List Label → State → Prop where
  | nil (state : State) : Run M state [] state
  | cons {start middle finish : State} {label : Label}
      {labels : List Label} :
      M.step start label = some middle →
      Run M middle labels finish →
      Run M start (label :: labels) finish

/-- The state a list of labels leads to, computed. -/
def exec (M : System State Label) : State → List Label → Option State
  | start, [] => some start
  | start, label :: labels =>
      (M.step start label).bind fun middle => M.exec middle labels

theorem run_iff_exec {M : System State Label}
    {start finish : State} {labels : List Label} :
    M.Run start labels finish ↔ M.exec start labels = some finish := by
  induction labels generalizing start with
  | nil =>
      constructor
      · intro run
        cases run
        rfl
      · intro result
        obtain rfl := Option.some.inj result
        exact .nil start
  | cons label labels induction =>
      constructor
      · intro run
        cases run with
        | cons first later => simp [exec, first, induction.mp later]
      · intro result
        obtain ⟨middle, first, later⟩ := Option.bind_eq_some_iff.mp result
        exact .cons first (induction.mpr later)

theorem run_get {M : System State Label} {start : State}
    {labels : List Label} (enabled : (M.exec start labels).isSome) :
    M.Run start labels ((M.exec start labels).get enabled) :=
  run_iff_exec.mpr (Option.some_get enabled).symm

theorem Run.append {M : System State Label}
    {start middle finish : State} {first later : List Label}
    (run : M.Run start first middle) (rest : M.Run middle later finish) :
    M.Run start (first ++ later) finish := by
  induction run with
  | nil => exact rest
  | cons step _ induction => exact .cons step (induction rest)

theorem Run.single {M : System State Label}
    {start finish : State} {label : Label}
    (step : M.step start label = some finish) :
    M.Run start [label] finish :=
  .cons step (.nil finish)

/-- A property preserved by every step holds at the end of every run. -/
theorem Run.invariant {M : System State Label} {Inv : State → Prop}
    (preserved : ∀ state label next, Inv state →
      M.step state label = some next → Inv next)
    {start finish : State} {labels : List Label}
    (run : M.Run start labels finish) (initially : Inv start) :
    Inv finish := by
  induction run with
  | nil => exact initially
  | cons step _ induction =>
      exact induction (preserved _ _ _ initially step)

/-- What holds of the labels taken so far and the state they lead to, if every
step extends it. -/
theorem Run.history {M : System State Label}
    {Holds : List Label → State → Prop} {start : State}
    (extended : ∀ past state label next, M.Run start past state →
      Holds past state → M.step state label = some next →
      Holds (past ++ [label]) next)
    {finish : State} {labels : List Label} (run : M.Run start labels finish)
    (initially : Holds [] start) : Holds labels finish := by
  have later : ∀ {middle finish : State} {past rest : List Label},
      M.Run middle rest finish → M.Run start past middle →
      Holds past middle → Holds (past ++ rest) finish := by
    intro middle finish past rest remaining
    induction remaining generalizing past with
    | nil =>
        intro _ holds
        simpa using holds
    | @cons state next _ label labels step _ induction =>
        intro before holds
        have further := induction (before.append (.single step))
          (extended past state label next before holds step)
        simpa using further
  exact later run (.nil start) initially

/-- When every step with a counted label uses up a unit of an amount which no
step raises, a run has at most as many of them as there were units. -/
theorem Run.countP_add_le {M : System State Label} (counted : Label → Bool)
    (amount : State → Nat)
    (uses : ∀ state label next, M.step state label = some next →
      (if counted label then 1 else 0) + amount next ≤ amount state)
    {start finish : State} {labels : List Label}
    (run : M.Run start labels finish) :
    labels.countP counted + amount finish ≤ amount start := by
  induction run with
  | nil => simp
  | @cons start middle finish label labels step _ induction =>
      have used := uses start label middle step
      rw [List.countP_cons]
      omega

/-- The same for runs with labels of a certain kind from states with an
invariant. -/
theorem Run.countP_add_le_of_invariant {M : System State Label}
    {Inv : State → Prop} {Allowed : Label → Prop} (counted : Label → Bool)
    (amount : State → Nat)
    (uses : ∀ state label next, Inv state → Allowed label →
      M.step state label = some next → Inv next ∧
        (if counted label then 1 else 0) + amount next ≤ amount state)
    {start finish : State} {labels : List Label}
    (run : M.Run start labels finish) (initially : Inv start)
    (allowed : ∀ label ∈ labels, Allowed label) :
    Inv finish ∧ labels.countP counted + amount finish ≤ amount start := by
  induction run with
  | nil => exact ⟨initially, by simp⟩
  | @cons start middle finish label labels step _ induction =>
      obtain ⟨holds, used⟩ := uses start label middle initially
        (allowed label List.mem_cons_self) step
      obtain ⟨finally_, later⟩ := induction holds
        fun other member => allowed other (.tail _ member)
      rw [List.countP_cons]
      exact ⟨finally_, by omega⟩

def Endless (M : System State Label) (start : State) : Prop :=
  ∃ (states : Nat → State) (labels : Nat → Label), states 0 = start ∧
    ∀ i, M.step (states i) (labels i) = some (states (i + 1))

theorem not_endless_of_bounded {M : System State Label} {start : State}
    (bound : Nat)
    (bounded : ∀ labels finish, M.Run start labels finish →
      labels.length ≤ bound) :
    ¬M.Endless start := by
  rintro ⟨states, labels, rfl, steps⟩
  have runs : ∀ count,
      M.Run (states 0) ((List.range count).map labels) (states count) := by
    intro count
    induction count with
    | zero => exact .nil (states 0)
    | succ count induction =>
        rw [List.range_succ, List.map_append]
        exact induction.append (.single (steps count))
  have tooLong := bounded _ _ (runs (bound + 1))
  rw [List.length_map, List.length_range] at tooLong
  omega

def Reaches (M : System State Label) (start finish : State) : Prop :=
  ∃ labels, M.Run start labels finish

namespace Reaches

variable {M : System State Label}

theorem refl (state : State) : M.Reaches state state :=
  ⟨[], .nil state⟩

theorem trans {start middle finish : State}
    (first : M.Reaches start middle) (later : M.Reaches middle finish) :
    M.Reaches start finish := by
  obtain ⟨firstLabels, firstRun⟩ := first
  obtain ⟨laterLabels, laterRun⟩ := later
  exact ⟨firstLabels ++ laterLabels, firstRun.append laterRun⟩

theorem step {start finish : State} (label : Label)
    (taken : M.step start label = some finish) : M.Reaches start finish :=
  ⟨[label], .single taken⟩

theorem invariant {Inv : State → Prop}
    (preserved : ∀ state label next, Inv state →
      M.step state label = some next → Inv next)
    {start finish : State} (reaches : M.Reaches start finish)
    (initially : Inv start) : Inv finish := by
  obtain ⟨labels, run⟩ := reaches
  exact run.invariant preserved initially

end Reaches

def Stuck (M : System State Label) (state : State) : Prop :=
  ∀ label, M.step state label = none

/-- Where every state with the invariant but a goal has a step that keeps the
invariant and lowers a number, a goal is reached. -/
theorem reaches_goal {M : System State Label} {Inv Goal : State → Prop}
    (remaining : State → Nat)
    (schedule : ∀ state, Inv state → Goal state ∨
      ∃ label next, M.step state label = some next ∧ Inv next ∧
        remaining next < remaining state)
    {start : State} (initially : Inv start) :
    ∃ finish, M.Reaches start finish ∧ Inv finish ∧ Goal finish := by
  induction amount : remaining start using Nat.strong_induction_on
    generalizing start with
  | _ amount induction =>
      rcases schedule start initially with goal | taken
      · exact ⟨start, .refl start, initially, goal⟩
      · obtain ⟨label, next, step, holds, less⟩ := taken
        obtain ⟨finish, later, reached⟩ :=
          induction (remaining next) (amount ▸ less) holds rfl
        exact ⟨finish, .trans (.step label step) later, reached⟩

/-- A schedule which keeps an invariant and uses something up at every step
ends where no step is enabled. -/
theorem reaches_stuck {M : System State Label} {Inv : State → Prop}
    (remaining : State → Nat)
    (schedule : ∀ state, Inv state → M.Stuck state ∨
      ∃ label next, M.step state label = some next ∧ Inv next ∧
        remaining next < remaining state)
    {start : State} (initially : Inv start) :
    ∃ finish, M.Reaches start finish ∧ Inv finish ∧ M.Stuck finish :=
  reaches_goal remaining schedule initially

/-- `M.ViewedAs N view rename`: up to the names of the labels the two systems
take the same steps, and `view` turns each step of `M` into the step of
`N`. -/
structure ViewedAs {View : Type w} {Name : Type x} (M : System State Label)
    (N : System View Name) (view : State → View) (rename : Label → Name) :
    Prop where
  step : ∀ state label,
    (M.step state label).map view = N.step (view state) (rename label)
  named : Function.Surjective rename

namespace ViewedAs

variable {View : Type w} {Name : Type x} {M : System State Label}
  {N : System View Name} {view : State → View} {rename : Label → Name}

theorem reaches (viewed : M.ViewedAs N view rename) {start finish : State}
    (reaches : M.Reaches start finish) :
    N.Reaches (view start) (view finish) := by
  obtain ⟨labels, run⟩ := reaches
  induction run with
  | nil state => exact .refl _
  | @cons start middle finish label labels taken rest induction =>
      have image := viewed.step start label
      rw [taken] at image
      exact .trans (.step (rename label) image.symm) induction

theorem lift (viewed : M.ViewedAs N view rename) {start : State}
    {image : View} (reaches : N.Reaches (view start) image) :
    ∃ finish, M.Reaches start finish ∧ view finish = image := by
  obtain ⟨names, run⟩ := reaches
  induction names generalizing start with
  | nil =>
      cases run
      exact ⟨start, .refl start, rfl⟩
  | cons name names induction =>
      cases run with
      | cons step rest =>
          obtain ⟨label, rfl⟩ := viewed.named name
          have first := viewed.step start label
          rw [step] at first
          obtain ⟨middle, taken, rfl⟩ := Option.map_eq_some_iff.mp first
          obtain ⟨finish, later, same⟩ := induction rest
          exact ⟨finish, .trans (.step label taken) later, same⟩

theorem stuck_iff (viewed : M.ViewedAs N view rename) (state : State) :
    N.Stuck (view state) ↔ M.Stuck state := by
  constructor
  · intro stuck label
    have image := viewed.step state label
    rw [stuck (rename label)] at image
    exact Option.map_eq_none_iff.mp image
  · intro stuck name
    obtain ⟨label, rfl⟩ := viewed.named name
    rw [← viewed.step state label, stuck label]
    rfl

/-- Both sides can come to a halt in states with the same view. -/
theorem exists_stuck_iff (viewed : M.ViewedAs N view rename) (start : State)
    (Visible : View → Prop) :
    (∃ state, M.Reaches start state ∧ M.Stuck state ∧ Visible (view state)) ↔
      ∃ image, N.Reaches (view start) image ∧ N.Stuck image ∧
        Visible image := by
  constructor
  · intro found
    obtain ⟨state, reaches, stuck, visible⟩ := found
    exact ⟨view state, viewed.reaches reaches,
      (viewed.stuck_iff state).mpr stuck, visible⟩
  · intro found
    obtain ⟨image, reaches, stuck, visible⟩ := found
    obtain ⟨state, lifted, rfl⟩ := viewed.lift reaches
    exact ⟨state, lifted, (viewed.stuck_iff state).mp stuck, visible⟩

end ViewedAs

/-- The property holds in every state the labels pass through, the first and
the last included. -/
def Always (M : System State Label) (Holds : State → Prop)
    (start : State) (labels : List Label) : Prop :=
  ∀ past state, past <+: labels → M.Run start past state → Holds state

/-- Every step the labels take meets the guard, in the state before it. -/
def StepsMeet (M : System State Label) (Guard : State → Label → Prop)
    (start : State) (labels : List Label) : Prop :=
  ∀ past label state, past ++ [label] <+: labels →
    M.Run start past state → Guard state label

theorem always_nil {M : System State Label} {Holds : State → Prop}
    {start : State} : M.Always Holds start [] ↔ Holds start := by
  constructor
  · intro always
    exact always [] start List.nil_prefix (.nil start)
  · intro holds past state isPast run
    obtain rfl := List.prefix_nil.mp isPast
    cases run
    exact holds

theorem always_cons {M : System State Label} {Holds : State → Prop}
    {start : State} {label : Label} {labels : List Label} :
    M.Always Holds start (label :: labels) ↔
      Holds start ∧ ∀ next, M.step start label = some next →
        M.Always Holds next labels := by
  constructor
  · intro always
    refine ⟨always [] start List.nil_prefix (.nil start), ?_⟩
    intro next step past state isPast run
    exact always (label :: past) state
      ((List.prefix_cons_inj label).mpr isPast) (.cons step run)
  · rintro ⟨holds, later⟩ past state isPast run
    cases run with
    | nil => exact holds
    | cons step rest =>
        obtain ⟨rfl, tailPast⟩ := List.cons_prefix_cons.mp isPast
        exact later _ step _ _ tailPast rest

theorem stepsMeet_nil {M : System State Label}
    {Guard : State → Label → Prop} {start : State} :
    M.StepsMeet Guard start [] := by
  intro past label state isPast
  simp at isPast

theorem stepsMeet_cons {M : System State Label}
    {Guard : State → Label → Prop} {start : State} {label : Label}
    {labels : List Label} :
    M.StepsMeet Guard start (label :: labels) ↔
      Guard start label ∧ ∀ next, M.step start label = some next →
        M.StepsMeet Guard next labels := by
  constructor
  · intro meets
    refine ⟨meets [] label start (by simp) (.nil start), ?_⟩
    intro next step past later state isPast run
    exact meets (label :: past) later state
      (by simpa [List.prefix_cons_inj] using isPast) (.cons step run)
  · rintro ⟨first, later⟩ past last state isPast run
    cases run with
    | nil =>
        obtain ⟨rfl, _⟩ := List.cons_prefix_cons.mp isPast
        exact first
    | cons step rest =>
        obtain ⟨rfl, tailPast⟩ := List.cons_prefix_cons.mp isPast
        exact later _ step _ _ _ tailPast rest

theorem stepsMeet_congr {M : System State Label}
    {Left Right : State → Label → Prop}
    (agree : ∀ state label next, M.step state label = some next →
      (Left state label ↔ Right state label))
    {start finish : State} {labels : List Label}
    (run : M.Run start labels finish) :
    M.StepsMeet Left start labels ↔ M.StepsMeet Right start labels := by
  induction run with
  | nil => exact ⟨fun _ => stepsMeet_nil, fun _ => stepsMeet_nil⟩
  | @cons start middle finish label labels step rest induction =>
      have here := agree start label middle step
      have later (Guard : State → Label → Prop) :
          (∀ next, M.step start label = some next →
            M.StepsMeet Guard next labels) ↔
              M.StepsMeet Guard middle labels := by
        simp [step]
      rw [stepsMeet_cons, stepsMeet_cons, here, later Left, later Right,
        induction]

/-- `StepsMeet` for a guard that can be computed. -/
def checkSteps (M : System State Label) (guard : State → Label → Bool) :
    State → List Label → Bool
  | _, [] => true
  | start, label :: labels =>
      guard start label &&
        match M.step start label with
        | some next => M.checkSteps guard next labels
        | none => true

theorem stepsMeet_iff_check {M : System State Label}
    {Guard : State → Label → Prop}
    [∀ state label, Decidable (Guard state label)]
    {start : State} {labels : List Label} :
    M.StepsMeet Guard start labels ↔
      M.checkSteps (fun state label => Guard state label) start labels =
        true := by
  induction labels generalizing start with
  | nil => simp [checkSteps, stepsMeet_nil]
  | cons label labels induction =>
      rw [stepsMeet_cons, checkSteps, Bool.and_eq_true, decide_eq_true_eq]
      cases result : M.step start label with
      | none => simp
      | some next => simp [induction]

instance {M : System State Label} {Guard : State → Label → Prop}
    [∀ state label, Decidable (Guard state label)]
    {start : State} {labels : List Label} :
    Decidable (M.StepsMeet Guard start labels) :=
  decidable_of_iff _ stepsMeet_iff_check.symm

/-- The invariant rule for runs whose steps all meet a guard. -/
theorem always_of_guarded {M : System State Label}
    {Inv : State → Prop} {Guard : State → Label → Prop}
    (preserved : ∀ state label next, Inv state → Guard state label →
      M.step state label = some next → Inv next)
    {start : State} (initially : Inv start) {labels : List Label}
    (meets : M.StepsMeet Guard start labels) :
    M.Always Inv start labels := by
  induction labels generalizing start with
  | nil => exact always_nil.mpr initially
  | cons label labels induction =>
      obtain ⟨first, later⟩ := stepsMeet_cons.mp meets
      refine always_cons.mpr ⟨initially, ?_⟩
      intro next step
      exact induction (preserved _ _ _ initially first step) (later next step)

theorem Always.mono {M : System State Label} {Strong Weak : State → Prop}
    {start : State} {labels : List Label}
    (weaken : ∀ state, Strong state → Weak state)
    (always : M.Always Strong start labels) :
    M.Always Weak start labels :=
  fun past state isPast run => weaken state (always past state isPast run)

theorem StepsMeet.mono_of_always {M : System State Label}
    {Inv : State → Prop} {Strong Weak : State → Label → Prop}
    (weaken : ∀ state label, Inv state → Strong state label →
      Weak state label)
    {start : State} {labels : List Label}
    (always : M.Always Inv start labels)
    (meets : M.StepsMeet Strong start labels) :
    M.StepsMeet Weak start labels := by
  intro past label state isPast run
  have earlier : past <+: labels :=
    (List.prefix_append past [label]).trans isPast
  exact weaken state label (always past state earlier run)
    (meets past label state isPast run)

/-- A run from a doomed state either ends doomed or has destroyed the
property. -/
theorem doomed_of_always {M : System State Label} {Holds Doomed : State → Prop}
    (stays : ∀ state label next, Doomed state →
      M.step state label = some next → Doomed next ∨ ¬Holds next)
    {start finish : State} {labels : List Label}
    (run : M.Run start labels finish) (doomed : Doomed start)
    (always : M.Always Holds start labels) : Doomed finish := by
  induction run with
  | nil => exact doomed
  | @cons start middle finish label labels step rest induction =>
      have later := (always_cons.mp always).2 middle step
      have middleHolds : Holds middle :=
        later [] middle List.nil_prefix (.nil middle)
      rcases stays start label middle doomed step with stillDoomed | broken
      · exact induction stillDoomed later
      · exact (broken middleHolds).elim

/-- When a step that misses the guard destroys the property, or dooms it to be
destroyed later, then in a run which has the property throughout and does not
end doomed every step meets the guard. -/
theorem stepsMeet_of_always {M : System State Label}
    {Inv Holds Doomed : State → Prop} {Guard : State → Label → Prop}
    (preserved : ∀ state label next, Inv state → Guard state label →
      M.step state label = some next → Inv next)
    (broken : ∀ state label next, Inv state → ¬Guard state label →
      M.step state label = some next → Doomed next ∨ ¬Holds next)
    (stays : ∀ state label next, Doomed state →
      M.step state label = some next → Doomed next ∨ ¬Holds next)
    {start finish : State} (initially : Inv start) {labels : List Label}
    (run : M.Run start labels finish) (settled : ¬Doomed finish)
    (always : M.Always Holds start labels) :
    M.StepsMeet Guard start labels := by
  induction run with
  | nil => exact stepsMeet_nil
  | @cons start middle finish label labels step rest induction =>
      have later := (always_cons.mp always).2 middle step
      have middleHolds : Holds middle :=
        later [] middle List.nil_prefix (.nil middle)
      have met : Guard start label := by
        by_contra missed
        rcases broken start label middle initially missed step with
          doomed | destroyed
        · exact settled (doomed_of_always stays rest doomed later)
        · exact destroyed middleHolds
      refine stepsMeet_cons.mpr ⟨met, ?_⟩
      intro next nextStep
      obtain rfl : middle = next :=
        Option.some.inj (step.symm.trans nextStep)
      exact induction (preserved _ _ _ initially met step) settled later

/-- When the invariant also gives the property, the two are equivalent. -/
theorem always_iff_stepsMeet_of_doomed {M : System State Label}
    {Inv Holds Doomed : State → Prop} {Guard : State → Label → Prop}
    (holds_of_inv : ∀ state, Inv state → Holds state)
    (preserved : ∀ state label next, Inv state → Guard state label →
      M.step state label = some next → Inv next)
    (broken : ∀ state label next, Inv state → ¬Guard state label →
      M.step state label = some next → Doomed next ∨ ¬Holds next)
    (stays : ∀ state label next, Doomed state →
      M.step state label = some next → Doomed next ∨ ¬Holds next)
    {start finish : State} (initially : Inv start) {labels : List Label}
    (run : M.Run start labels finish) (settled : ¬Doomed finish) :
    M.Always Holds start labels ↔ M.StepsMeet Guard start labels := by
  constructor
  · exact stepsMeet_of_always preserved broken stays initially run settled
  · intro meets
    exact (always_of_guarded preserved initially meets).mono holds_of_inv

/-- When a step that misses the guard always destroys the property, the
property holds throughout a run exactly if every step meets the guard. -/
theorem always_iff_stepsMeet {M : System State Label}
    {Inv Holds : State → Prop} {Guard : State → Label → Prop}
    (holds_of_inv : ∀ state, Inv state → Holds state)
    (preserved : ∀ state label next, Inv state → Guard state label →
      M.step state label = some next → Inv next)
    (broken : ∀ state label next, Inv state → ¬Guard state label →
      M.step state label = some next → ¬Holds next)
    {start finish : State} (initially : Inv start) {labels : List Label}
    (run : M.Run start labels finish) :
    M.Always Holds start labels ↔ M.StepsMeet Guard start labels := by
  apply @always_iff_stepsMeet_of_doomed State Label M Inv Holds
    (fun _ => False) Guard holds_of_inv preserved _ _ start finish initially
    labels run not_false
  · intro state label next inv missed step
    exact .inr (broken state label next inv missed step)
  · intro state label next doomed
    exact doomed.elim

end System

end OpenChat.Foundation
