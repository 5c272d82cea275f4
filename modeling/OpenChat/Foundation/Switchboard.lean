import Mathlib.Data.List.Basic

/-!
# Numbered channels and their readers

Every channel carries symbols to the reader with its own number.  A delivery
takes symbols off the front of one channel and hands them to some reader.
Every reader has heard its own channel, in order and without a gap, as long as
each delivery goes to the reader of the channel it is taken from.
-/

namespace OpenChat.Foundation

/-- What was put on a channel, and what of it is still under way. -/
structure Channel (α : Type) where
  sent : List α
  underway : List α
deriving DecidableEq

/-- The channels by number, and every delivery with the reader it went to. -/
structure Switchboard (α : Type) where
  channels : List (Channel α)
  deliveries : List (Nat × List α)
deriving DecidableEq

namespace Switchboard

variable {α : Type}

def empty : Switchboard α :=
  { channels := [], deliveries := [] }

def heard (board : Switchboard α) (reader : Nat) : List α :=
  (board.deliveries.filter fun delivery => delivery.1 = reader).flatMap
    Prod.snd

def connect (board : Switchboard α) : Switchboard α :=
  { board with channels := board.channels ++ [{ sent := [], underway := [] }] }

def send (board : Switchboard α) (number : Nat) (symbols : List α) :
    Switchboard α :=
  { board with
    channels := board.channels.modify number fun channel =>
      { sent := channel.sent ++ symbols
        underway := channel.underway ++ symbols } }

/-- The first symbols under way, at least one. -/
def front (board : Switchboard α) (number count : Nat) : Option (List α) :=
  board.channels[number]?.bind fun channel =>
    if 0 < count ∧ count ≤ channel.underway.length then
      some (channel.underway.take count)
    else none

def deliver (board : Switchboard α) (number reader : Nat)
    (symbols : List α) : Switchboard α :=
  { channels := board.channels.modify number fun channel =>
      { channel with underway := channel.underway.drop symbols.length }
    deliveries := board.deliveries ++ [(reader, symbols)] }

/-- Every reader has heard what was put on its channel and is no longer under
way, and only readers of a channel have heard anything. -/
structure Faithful (board : Switchboard α) : Prop where
  streams : ∀ number channel, board.channels[number]? = some channel →
    board.heard number ++ channel.underway = channel.sent
  known : ∀ delivery ∈ board.deliveries,
    delivery.1 < board.channels.length

theorem faithful_empty : (empty : Switchboard α).Faithful where
  streams := by
    intro number channel found
    simp [empty] at found
  known := by
    intro delivery member
    simp [empty] at member

theorem heard_deliver (board : Switchboard α) (number reader other : Nat)
    (symbols : List α) :
    (board.deliver number reader symbols).heard other =
      board.heard other ++ if reader = other then symbols else [] := by
  rw [heard, heard, deliver, List.filter_append, List.flatMap_append]
  by_cases same : reader = other
  · simp [same]
  · simp [same]

theorem front_eq_some {board : Switchboard α} {number count : Nat}
    {symbols : List α} (taken : board.front number count = some symbols) :
    ∃ channel rest, board.channels[number]? = some channel ∧
      channel.underway = symbols ++ rest ∧ symbols ≠ [] := by
  simp only [front, Option.bind_eq_some_iff, Option.ite_none_right_eq_some,
    Option.some.injEq] at taken
  obtain ⟨channel, found, ⟨positive, enough⟩, rfl⟩ := taken
  refine ⟨channel, channel.underway.drop count, found,
    (List.take_append_drop count _).symm, ?_⟩
  apply List.ne_nil_of_length_pos
  rw [List.length_take]
  omega

theorem Faithful.connect {board : Switchboard α} (faithful : board.Faithful) :
    board.connect.Faithful where
  streams := by
    intro number channel found
    have same : board.connect.heard number = board.heard number := rfl
    rw [same]
    by_cases old : number < board.channels.length
    · rw [Switchboard.connect, List.getElem?_append_left old] at found
      exact faithful.streams number channel found
    · rw [Switchboard.connect, List.getElem?_append_right (by omega)] at found
      rw [List.getElem?_singleton, Option.ite_none_right_eq_some,
        Option.some.injEq] at found
      obtain ⟨_, rfl⟩ := found
      have nothing : board.heard number = [] := by
        rw [heard, List.flatMap_eq_nil_iff]
        intro delivery member
        obtain ⟨isDelivery, toNumber⟩ := List.mem_filter.mp member
        have below := faithful.known delivery isDelivery
        rw [of_decide_eq_true toNumber] at below
        exact (old below).elim
      rw [nothing]
      rfl
  known := by
    intro delivery member
    have below := faithful.known delivery member
    rw [Switchboard.connect, List.length_append]
    omega

theorem Faithful.send {board : Switchboard α} (faithful : board.Faithful)
    (number : Nat) (symbols : List α) :
    (board.send number symbols).Faithful where
  streams := by
    intro other channel found
    have same : (board.send number symbols).heard other =
      board.heard other := rfl
    rw [Switchboard.send, List.getElem?_modify] at found
    obtain ⟨before, foundBefore, rfl⟩ := Option.map_eq_some_iff.mp found
    have told := faithful.streams other before foundBefore
    rw [same]
    by_cases here : number = other
    · rw [if_pos here, ← told, List.append_assoc]
    · rw [if_neg here]
      exact told
  known := by
    intro delivery member
    rw [Switchboard.send, List.length_modify]
    exact faithful.known delivery member

/-- A delivery keeps the agreement exactly if it goes to the reader of the
channel it was taken from. -/
theorem Faithful.deliver_iff {board : Switchboard α}
    (faithful : board.Faithful) {number reader count : Nat}
    {symbols : List α} (taken : board.front number count = some symbols) :
    (board.deliver number reader symbols).Faithful ↔ reader = number := by
  obtain ⟨source, rest, found, underway, nonempty⟩ := front_eq_some taken
  have told := faithful.streams number source found
  constructor
  · intro still
    by_contra elsewhere
    have after := still.streams number
      { source with underway := source.underway.drop symbols.length } (by
        rw [deliver, List.getElem?_modify, found]
        simp)
    rw [heard_deliver, if_neg elsewhere, List.append_nil, ← told,
      List.append_cancel_left_eq, underway, List.drop_left,
      List.self_eq_append_left] at after
    exact nonempty after
  · rintro rfl
    refine ⟨?_, ?_⟩
    · intro other channel foundAfter
      rw [deliver, List.getElem?_modify] at foundAfter
      obtain ⟨before, foundBefore, rfl⟩ :=
        Option.map_eq_some_iff.mp foundAfter
      rw [heard_deliver]
      by_cases here : reader = other
      · subst here
        obtain rfl := Option.some.inj (found.symm.trans foundBefore)
        rw [if_pos rfl, if_pos rfl, ← told, underway, List.drop_left,
          List.append_assoc]
      · rw [if_neg here, if_neg here, List.append_nil]
        exact faithful.streams other before foundBefore
    · intro delivery member
      rw [deliver, List.length_modify]
      rcases List.mem_append.mp member with before | new
      · exact faithful.known delivery before
      · obtain rfl := List.mem_singleton.mp new
        exact (List.getElem?_eq_some_iff.mp found).1

end Switchboard

end OpenChat.Foundation
