import OpenChat.Foundation.Run
import Mathlib.Algebra.GroupWithZero.Nat

/-!
# Echoes over bounded channels

A producer hands messages over to a bounded channel.  A responder takes chunks
out of it and replies to every chunk with an answer of fixed size on a bounded
channel back.  A collector takes a chunk of the answers and then waits until
the producer has finished.  Everything is counted in units of the channels.

`exists_deadlock_iff` says how long the messages may be together before some
schedule brings the loop to a halt.
-/

namespace OpenChat.Foundation.EchoLoop

/-- The capacities of the two channels, the size of an answer, and how much
the responder and the collector take at once. -/
structure Shape where
  forward : Nat
  backward : Nat
  answer : Nat
  taken : Nat
  collected : Nat
  forward_pos : 0 < forward
  backward_pos : 0 < backward
  answer_pos : 0 < answer
  taken_pos : 0 < taken
  collected_pos : 0 < collected

inductive Responder where
  | receiving
  | handling (due : Nat)
  | replying (due : Nat)
deriving DecidableEq

/-- What the responder has still to put on the channel back. -/
def Responder.due : Responder → Nat
  | .receiving => 0
  | .handling due => due
  | .replying due => due

structure State where
  pending : List Nat
  finished : Bool
  forward : Nat
  responder : Responder
  backward : Nat
  waiting : Bool
deriving DecidableEq

inductive Event where
  | put (k : Nat)
  | finish
  | take (k : Nat)
  | handle
  | reply (k : Nat)
  | collect (k : Nat)
  | release
deriving DecidableEq

def start (messages : List Nat) : State :=
  { pending := messages
    finished := false
    forward := 0
    responder := .receiving
    backward := 0
    waiting := false }

/-- The messages left when `left` units of the first one are. -/
def remainder (left : Nat) (rest : List Nat) : List Nat :=
  if left = 0 then rest else left :: rest

/-- The responder with `due` units of an answer left. -/
def Responder.withDue (due : Nat) : Responder :=
  if due = 0 then .receiving else .replying due

def step (shape : Shape) (state : State) : Event → Option State
  | .put k =>
      match state.pending with
      | [] => none
      | message :: rest =>
          if 0 < k ∧ k ≤ message ∧ state.forward + k ≤ shape.forward then
            some
              { state with
                pending := remainder (message - k) rest
                forward := state.forward + k }
          else none
  | .finish =>
      if state.pending = [] ∧ state.finished = false then
        some { state with finished := true }
      else none
  | .take k =>
      match state.responder with
      | .receiving =>
          if 0 < k ∧ k ≤ shape.taken ∧ k ≤ state.forward then
            some
              { state with
                forward := state.forward - k
                responder := .handling shape.answer }
          else none
      | _ => none
  | .handle =>
      match state.responder with
      | .handling due => some { state with responder := .replying due }
      | _ => none
  | .reply k =>
      match state.responder with
      | .replying due =>
          if 0 < k ∧ k ≤ due ∧ state.backward + k ≤ shape.backward then
            some
              { state with
                responder := .withDue (due - k)
                backward := state.backward + k }
          else none
      | _ => none
  | .collect k =>
      if state.waiting = false ∧ 0 < k ∧ k ≤ shape.collected ∧
          k ≤ state.backward then
        some
          { state with
            backward := state.backward - k
            waiting := true }
      else none
  | .release =>
      if state.waiting = true ∧ state.finished = true then
        some { state with waiting := false }
      else none

def system (shape : Shape) : System State Event :=
  { step := step shape }

theorem sum_remainder (left : Nat) (rest : List Nat) :
    (remainder left rest).sum = left + rest.sum := by
  by_cases empty : left = 0 <;> simp [remainder, empty]

theorem mem_remainder {left message : Nat} {rest : List Nat}
    (member : message ∈ remainder left rest) :
    0 < message ∨ message ∈ rest := by
  by_cases empty : left = 0
  · rw [remainder, if_pos empty] at member
    exact .inr member
  · rw [remainder, if_neg empty] at member
    rcases List.mem_cons.mp member with rfl | old
    · exact .inl (Nat.pos_of_ne_zero empty)
    · exact .inr old

@[simp] theorem due_withDue (due : Nat) :
    (Responder.withDue due).due = due := by
  by_cases empty : due = 0 <;> simp [Responder.withDue, Responder.due, empty]

theorem withDue_owing (due : Nat) :
    Responder.withDue due = .receiving ∨ 0 < (Responder.withDue due).due := by
  by_cases empty : due = 0
  · exact .inl (if_pos empty)
  · rw [due_withDue]
    exact .inr (Nat.pos_of_ne_zero empty)

/-- Where the units are when the responder took `received` of them in
`chunks` chunks and the collector took `collected` units of the answers. -/
structure Accounts (shape : Shape) (total : Nat) (state : State)
    (received chunks collected : Nat) : Prop where
  sent : state.pending.sum + state.forward + received = total
  chunks_le : chunks ≤ received
  answered : state.responder.due + state.backward + collected =
    shape.answer * chunks
  nonempty : ∀ message ∈ state.pending, 0 < message
  forward_le : state.forward ≤ shape.forward
  backward_le : state.backward ≤ shape.backward
  due_le : state.responder.due ≤ shape.answer
  owing : state.responder = .receiving ∨ 0 < state.responder.due
  waits : state.finished = false → state.waiting = true → 0 < collected

def Accounted (shape : Shape) (total : Nat) (state : State) : Prop :=
  ∃ received chunks collected,
    Accounts shape total state received chunks collected

variable {shape : Shape} {total : Nat} {state next : State}
  {received chunks collected : Nat}

theorem accounts_start (shape : Shape) {messages : List Nat}
    (nonempty : ∀ message ∈ messages, 0 < message) :
    Accounts shape messages.sum (start messages) 0 0 0 where
  sent := rfl
  chunks_le := Nat.le_refl 0
  answered := rfl
  nonempty := nonempty
  forward_le := Nat.zero_le _
  backward_le := Nat.zero_le _
  due_le := Nat.zero_le _
  owing := .inl rfl
  waits := by
    intro _ waiting
    cases waiting

theorem Accounts.put {k message : Nat} {rest : List Nat}
    (accounts : Accounts shape total state received chunks collected)
    (pending_eq : state.pending = message :: rest) (small : k ≤ message)
    (fits : state.forward + k ≤ shape.forward) :
    Accounts shape total
      { state with
        pending := remainder (message - k) rest
        forward := state.forward + k }
      received chunks collected where
  sent := by
    have sent := accounts.sent
    rw [pending_eq, List.sum_cons] at sent
    simp only [sum_remainder]
    omega
  chunks_le := accounts.chunks_le
  answered := accounts.answered
  nonempty := by
    intro other member
    rcases mem_remainder member with positive | old
    · exact positive
    · exact accounts.nonempty other (pending_eq ▸ .tail _ old)
  forward_le := fits
  backward_le := accounts.backward_le
  due_le := accounts.due_le
  owing := accounts.owing
  waits := accounts.waits

theorem Accounts.finish
    (accounts : Accounts shape total state received chunks collected) :
    Accounts shape total { state with finished := true }
      received chunks collected where
  sent := accounts.sent
  chunks_le := accounts.chunks_le
  answered := accounts.answered
  nonempty := accounts.nonempty
  forward_le := accounts.forward_le
  backward_le := accounts.backward_le
  due_le := accounts.due_le
  owing := accounts.owing
  waits := by
    intro unfinished
    cases unfinished

theorem Accounts.take {k : Nat}
    (accounts : Accounts shape total state received chunks collected)
    (receiving : state.responder = .receiving) (positive : 0 < k)
    (available : k ≤ state.forward) :
    Accounts shape total
      { state with
        forward := state.forward - k
        responder := .handling shape.answer }
      (received + k) (chunks + 1) collected where
  sent := by
    have sent := accounts.sent
    show state.pending.sum + (state.forward - k) + (received + k) = total
    omega
  chunks_le := Nat.add_le_add accounts.chunks_le positive
  answered := by
    have answered := accounts.answered
    rw [receiving] at answered
    simp only [Responder.due] at answered ⊢
    rw [Nat.mul_succ]
    omega
  nonempty := accounts.nonempty
  forward_le := (Nat.sub_le _ _).trans accounts.forward_le
  backward_le := accounts.backward_le
  due_le := Nat.le_refl _
  owing := .inr shape.answer_pos
  waits := accounts.waits

theorem Accounts.handle {due : Nat}
    (accounts : Accounts shape total state received chunks collected)
    (handling : state.responder = .handling due) :
    Accounts shape total { state with responder := .replying due }
      received chunks collected where
  sent := accounts.sent
  chunks_le := accounts.chunks_le
  answered := by
    have answered := accounts.answered
    rw [handling] at answered
    exact answered
  nonempty := accounts.nonempty
  forward_le := accounts.forward_le
  backward_le := accounts.backward_le
  due_le := by
    have due_le := accounts.due_le
    rw [handling] at due_le
    exact due_le
  owing := by
    have owing := accounts.owing
    rw [handling] at owing
    exact .inr (owing.resolve_left Responder.noConfusion)
  waits := accounts.waits

theorem Accounts.reply {k due : Nat}
    (accounts : Accounts shape total state received chunks collected)
    (replying : state.responder = .replying due) (small : k ≤ due)
    (fits : state.backward + k ≤ shape.backward) :
    Accounts shape total
      { state with
        responder := .withDue (due - k)
        backward := state.backward + k }
      received chunks collected where
  sent := accounts.sent
  chunks_le := accounts.chunks_le
  answered := by
    have answered := accounts.answered
    rw [replying, Responder.due] at answered
    simp only [due_withDue]
    omega
  nonempty := accounts.nonempty
  forward_le := accounts.forward_le
  backward_le := fits
  due_le := by
    have due_le := accounts.due_le
    rw [replying, Responder.due] at due_le
    simp only [due_withDue]
    omega
  owing := withDue_owing (due - k)
  waits := accounts.waits

theorem Accounts.collect {k : Nat}
    (accounts : Accounts shape total state received chunks collected)
    (positive : 0 < k) (available : k ≤ state.backward) :
    Accounts shape total
      { state with
        backward := state.backward - k
        waiting := true }
      received chunks (collected + k) where
  sent := accounts.sent
  chunks_le := accounts.chunks_le
  answered := by
    have answered := accounts.answered
    show state.responder.due + (state.backward - k) + (collected + k) = _
    omega
  nonempty := accounts.nonempty
  forward_le := accounts.forward_le
  backward_le := (Nat.sub_le _ _).trans accounts.backward_le
  due_le := accounts.due_le
  owing := accounts.owing
  waits := fun _ _ => Nat.add_pos_right _ positive

theorem Accounts.release
    (accounts : Accounts shape total state received chunks collected) :
    Accounts shape total { state with waiting := false }
      received chunks collected where
  sent := accounts.sent
  chunks_le := accounts.chunks_le
  answered := accounts.answered
  nonempty := accounts.nonempty
  forward_le := accounts.forward_le
  backward_le := accounts.backward_le
  due_le := accounts.due_le
  owing := accounts.owing
  waits := by
    intro _ waiting
    cases waiting

theorem Accounts.step {event : Event}
    (accounts : Accounts shape total state received chunks collected)
    (taken : step shape state event = some next) :
    Accounted shape total next := by
  cases event with
  | put k =>
      simp only [EchoLoop.step] at taken
      split at taken
      · cases taken
      · rename_i message rest pending_eq
        simp only [Option.ite_none_right_eq_some, Option.some.injEq] at taken
        obtain ⟨⟨_, small, fits⟩, rfl⟩ := taken
        exact ⟨_, _, _, accounts.put pending_eq small fits⟩
  | finish =>
      simp only [EchoLoop.step, Option.ite_none_right_eq_some,
        Option.some.injEq] at taken
      obtain ⟨_, rfl⟩ := taken
      exact ⟨_, _, _, accounts.finish⟩
  | take k =>
      simp only [EchoLoop.step] at taken
      split at taken
      · rename_i receiving
        simp only [Option.ite_none_right_eq_some, Option.some.injEq] at taken
        obtain ⟨⟨positive, _, available⟩, rfl⟩ := taken
        exact ⟨_, _, _, accounts.take receiving positive available⟩
      · cases taken
  | handle =>
      simp only [EchoLoop.step] at taken
      split at taken
      · rename_i due handling
        obtain rfl := Option.some.inj taken
        exact ⟨_, _, _, accounts.handle handling⟩
      · cases taken
  | reply k =>
      simp only [EchoLoop.step] at taken
      split at taken
      · rename_i due replying
        simp only [Option.ite_none_right_eq_some, Option.some.injEq] at taken
        obtain ⟨⟨_, small, fits⟩, rfl⟩ := taken
        exact ⟨_, _, _, accounts.reply replying small fits⟩
      · cases taken
  | collect k =>
      simp only [EchoLoop.step, Option.ite_none_right_eq_some,
        Option.some.injEq] at taken
      obtain ⟨⟨_, positive, _, available⟩, rfl⟩ := taken
      exact ⟨_, _, _, accounts.collect positive available⟩
  | release =>
      simp only [EchoLoop.step, Option.ite_none_right_eq_some,
        Option.some.injEq] at taken
      obtain ⟨_, rfl⟩ := taken
      exact ⟨_, _, _, accounts.release⟩

/-- An unfinished state without a step: the producer waits for the channel
forward, the responder for the channel back, the collector for the
producer. -/
structure Deadlocked (shape : Shape) (state : State) : Prop where
  unfinished : state.finished = false
  pending : state.pending ≠ []
  forward_full : state.forward = shape.forward
  replying : ∃ due, state.responder = .replying due
  backward_full : state.backward = shape.backward
  waiting : state.waiting = true

theorem Accounts.deadlocked
    (accounts : Accounts shape total state received chunks collected)
    (unfinished : state.finished = false)
    (stuck : (system shape).Stuck state) : Deadlocked shape state := by
  have forward_pos := shape.forward_pos
  have pending : state.pending ≠ [] := by
    intro nonePending
    have enabled := stuck .finish
    simp [system, EchoLoop.step, nonePending, unfinished] at enabled
  obtain ⟨message, rest, pending_eq⟩ := List.exists_cons_of_ne_nil pending
  have forward_full : state.forward = shape.forward := by
    have positive := accounts.nonempty message (pending_eq ▸ .head _)
    have blocked := stuck (.put 1)
    simp only [system, EchoLoop.step, pending_eq, ite_eq_right_iff,
      reduceCtorEq, imp_false] at blocked
    have forward_le := accounts.forward_le
    omega
  have replying : ∃ due, state.responder = .replying due := by
    cases responder : state.responder with
    | receiving =>
        have taken_pos := shape.taken_pos
        have blocked := stuck (.take 1)
        simp only [system, EchoLoop.step, responder, ite_eq_right_iff,
          reduceCtorEq, imp_false] at blocked
        omega
    | handling due =>
        have enabled := stuck .handle
        simp [system, EchoLoop.step, responder] at enabled
    | replying due => exact ⟨due, rfl⟩
  have backward_full : state.backward = shape.backward := by
    obtain ⟨due, responder⟩ := replying
    have owing := accounts.owing
    simp only [responder, reduceCtorEq, Responder.due, false_or] at owing
    have blocked := stuck (.reply 1)
    simp only [system, EchoLoop.step, responder, ite_eq_right_iff,
      reduceCtorEq, imp_false] at blocked
    have backward_le := accounts.backward_le
    omega
  have waiting : state.waiting = true := by
    have backward_pos := shape.backward_pos
    have collected_pos := shape.collected_pos
    have blocked := stuck (.collect 1)
    simp only [system, EchoLoop.step, ite_eq_right_iff, reduceCtorEq]
      at blocked
    by_contra notWaiting
    exact blocked ⟨Bool.eq_false_iff.mpr notWaiting, by omega,
      by omega, by omega⟩
  exact ⟨unfinished, pending, forward_full, replying, backward_full, waiting⟩

theorem Deadlocked.stuck (deadlocked : Deadlocked shape state) :
    (system shape).Stuck state := by
  obtain ⟨message, rest, pending_eq⟩ :=
    List.exists_cons_of_ne_nil deadlocked.pending
  obtain ⟨due, replying⟩ := deadlocked.replying
  have forward_full := deadlocked.forward_full
  have backward_full := deadlocked.backward_full
  intro label
  cases label with
  | put k =>
      simp only [system, step, pending_eq, ite_eq_right_iff, reduceCtorEq]
      omega
  | finish => simp [system, step, pending_eq]
  | take k => simp [system, step, replying]
  | handle => simp [system, step, replying]
  | reply k =>
      simp only [system, step, replying, ite_eq_right_iff, reduceCtorEq]
      omega
  | collect k => simp [system, step, deadlocked.waiting]
  | release => simp [system, step, deadlocked.unfinished]

/-- How many answers overflow the channel back when the collector took one
unit: the responder has to have taken as many units. -/
def Shape.overflow (shape : Shape) : Nat :=
  (shape.backward + 1 + shape.answer) / shape.answer

theorem Shape.overflow_le_iff (shape : Shape) (count : Nat) :
    shape.overflow ≤ count ↔ shape.backward + 2 ≤ shape.answer * count := by
  rw [overflow, ← Nat.lt_succ_iff, Nat.div_lt_iff_lt_mul shape.answer_pos,
    Nat.succ_mul, Nat.mul_comm count]
  omega

theorem Accounts.total_of_deadlocked
    (accounts : Accounts shape total state received chunks collected)
    (deadlocked : Deadlocked shape state) :
    shape.forward + shape.overflow < total := by
  obtain ⟨message, rest, pending_eq⟩ :=
    List.exists_cons_of_ne_nil deadlocked.pending
  obtain ⟨due, replying⟩ := deadlocked.replying
  have someLeft := accounts.nonempty message (pending_eq ▸ .head _)
  have sent := accounts.sent
  have answered := accounts.answered
  have owing := accounts.owing
  have collected_pos :=
    accounts.waits deadlocked.unfinished deadlocked.waiting
  rw [pending_eq, List.sum_cons, deadlocked.forward_full] at sent
  rw [replying, deadlocked.backward_full] at answered
  simp only [replying, reduceCtorEq, false_or] at owing
  have overflowed : shape.overflow ≤ chunks := by
    rw [shape.overflow_le_iff]
    omega
  have chunks_le := accounts.chunks_le
  omega

/-- The schedule towards a deadlock: the responder takes single units, and
the collector one unit. -/
structure Schedule (shape : Shape) (total : Nat) (state : State) : Prop where
  accounts : ∃ received, Accounts shape total state received received
    (if state.waiting then 1 else 0)
  unfinished : state.finished = false

def Responder.phase : Responder → Nat
  | .receiving => 0
  | .handling _ => 2
  | .replying _ => 1

theorem phase_withDue_le (due : Nat) : (Responder.withDue due).phase ≤ 1 := by
  by_cases empty : due = 0 <;>
    simp [Responder.withDue, Responder.phase, empty]

def remaining (shape : Shape) (state : State) : Nat :=
  4 * state.pending.sum + 3 * state.forward +
    (shape.backward - state.backward) +
    (if state.waiting then 0 else 2) + state.responder.phase

/-- The producer does not get to its end under the schedule. -/
theorem Schedule.pending_ne_nil (schedule : Schedule shape total state)
    (long : shape.forward + shape.overflow < total) : state.pending ≠ [] := by
  obtain ⟨received, accounts⟩ := schedule.accounts
  intro nonePending
  have sent := accounts.sent
  have answered := accounts.answered
  have forward_le := accounts.forward_le
  have backward_le := accounts.backward_le
  have due_le := accounts.due_le
  have collected : (if state.waiting then 1 else 0) ≤ 1 := by
    split <;> omega
  rw [nonePending, List.sum_nil] at sent
  obtain ⟨before, rfl⟩ : ∃ before, received = before + 1 :=
    ⟨received - 1, by omega⟩
  have overflowed := (shape.overflow_le_iff before).mp (by omega)
  rw [Nat.mul_succ] at answered
  omega

theorem Schedule.progress (schedule : Schedule shape total state)
    (long : shape.forward + shape.overflow < total) :
    (system shape).Stuck state ∨
      ∃ event next, (system shape).step state event = some next ∧
        Schedule shape total next ∧
        remaining shape next < remaining shape state := by
  obtain ⟨message, rest, pending_eq⟩ :=
    List.exists_cons_of_ne_nil (schedule.pending_ne_nil long)
  obtain ⟨received, accounts⟩ := schedule.accounts
  have positive := accounts.nonempty message (pending_eq ▸ .head _)
  by_cases room : state.forward < shape.forward
  · -- First fill the channel forward.
    refine .inr ⟨.put 1, _, ?_, ⟨⟨received,
      accounts.put pending_eq positive room⟩, schedule.unfinished⟩, ?_⟩
    · simp only [system, step, pending_eq]
      exact if_pos ⟨Nat.one_pos, positive, room⟩
    · simp only [remaining, sum_remainder, pending_eq, List.sum_cons]
      omega
  have forward_full : state.forward = shape.forward := by
    have forward_le := accounts.forward_le
    omega
  have forward_pos := shape.forward_pos
  by_cases offered : state.waiting = false ∧ 0 < state.backward
  · -- Let the collector take its one unit as soon as there is one.
    obtain ⟨notWaiting, available⟩ := offered
    have collect := accounts.collect Nat.one_pos available
    rw [notWaiting] at collect
    refine .inr ⟨.collect 1, _, ?_, ⟨⟨received, collect⟩,
      schedule.unfinished⟩, ?_⟩
    · exact if_pos ⟨notWaiting, Nat.one_pos, shape.collected_pos, available⟩
    · have backward_le := accounts.backward_le
      simp only [remaining, notWaiting, if_true, Bool.false_eq_true, if_false]
      omega
  cases responder : state.responder with
  | receiving =>
      have available : 1 ≤ state.forward := by omega
      refine .inr ⟨.take 1, _, ?_, ⟨⟨received + 1,
        accounts.take responder Nat.one_pos available⟩,
        schedule.unfinished⟩, ?_⟩
      · simp only [system, step, responder]
        exact if_pos ⟨Nat.one_pos, shape.taken_pos, available⟩
      · simp only [remaining, responder, Responder.phase]
        omega
  | handling due =>
      refine .inr ⟨.handle, _, ?_, ⟨⟨received, accounts.handle responder⟩,
        schedule.unfinished⟩, ?_⟩
      · simp only [system, step, responder]
      · simp only [remaining, responder, Responder.phase]
        omega
  | replying due =>
      by_cases roomBack : state.backward < shape.backward
      · have owing := accounts.owing
        simp only [responder, reduceCtorEq, Responder.due, false_or] at owing
        refine .inr ⟨.reply 1, _, ?_, ⟨⟨received,
          accounts.reply (k := 1) responder owing roomBack⟩,
          schedule.unfinished⟩, ?_⟩
        · simp only [system, step, responder]
          exact if_pos ⟨Nat.one_pos, owing, roomBack⟩
        · have phase_le := phase_withDue_le (due - 1)
          have phase : state.responder.phase = 1 := by
            rw [responder, Responder.phase]
          simp only [remaining]
          omega
      · -- Everybody waits for somebody else.
        have backward_le := accounts.backward_le
        have backward_pos := shape.backward_pos
        have deadlocked : Deadlocked shape state :=
          { unfinished := schedule.unfinished
            pending := schedule.pending_ne_nil long
            forward_full := forward_full
            replying := ⟨due, responder⟩
            backward_full := by omega
            waiting := by
              by_contra notWaiting
              exact offered ⟨Bool.eq_false_iff.mpr notWaiting,
                by omega⟩ }
        exact .inl deadlocked.stuck

/-- The loop can stop for good before the producer has finished exactly if
the messages are longer than the channel forward and as many units as there
are answers needed to overflow the channel back. -/
theorem exists_deadlock_iff (shape : Shape) {messages : List Nat}
    (nonempty : ∀ message ∈ messages, 0 < message) :
    (∃ state, (system shape).Reaches (start messages) state ∧
        (system shape).Stuck state ∧ state.finished = false) ↔
      shape.forward + shape.overflow < messages.sum := by
  have initially := accounts_start shape nonempty
  constructor
  · intro found
    obtain ⟨state, reaches, stuck, unfinished⟩ := found
    have preserved : ∀ state event next,
        Accounted shape messages.sum state →
        (system shape).step state event = some next →
        Accounted shape messages.sum next := by
      intro state event next accounted taken
      obtain ⟨_, _, _, accounts⟩ := accounted
      exact accounts.step taken
    obtain ⟨_, _, _, accounts⟩ :=
      reaches.invariant preserved ⟨0, 0, 0, initially⟩
    exact accounts.total_of_deadlocked
      (accounts.deadlocked unfinished stuck)
  · intro long
    have scheduled : Schedule shape messages.sum (start messages) :=
      ⟨⟨0, initially⟩, rfl⟩
    obtain ⟨state, reaches, schedule, stuck⟩ :=
      System.reaches_stuck (remaining shape)
        (fun state schedule => Schedule.progress schedule long) scheduled
    exact ⟨state, reaches, stuck, schedule.unfinished⟩

end OpenChat.Foundation.EchoLoop
