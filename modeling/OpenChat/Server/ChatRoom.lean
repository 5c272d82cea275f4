import Mathlib.Data.List.Nodup
import OpenChat.Foundation.Run
import OpenChat.Foundation.Switchboard

/-!
# A chat room

What the server is for, without sockets, rows, registry or threads: visitors
arrive, become members and leave; a member is heard by the operator, and the
operator tells things to members.
-/

namespace OpenChat.Server

open Foundation

/-- Visitors are numbered as they arrive.  Some wait to become members, and of
each member the room knows who it is.  `wires` holds what visitors said and
what the operator heard of it, `told` what was told to whom. -/
structure ChatRoom (α Who Text : Type) where
  arrived : Nat
  waiting : List Nat
  members : List (Nat × Who)
  wires : Switchboard α
  told : List (List Nat × List Text)

inductive ChatAct (α Who Text : Type) where
  | arrive
  | join (k : Nat) (who : Who)
  | leave (k : Nat)
  | say (k : Nat) (symbols : List α)
  | hear (k count : Nat)
  | tell (ks : List Nat) (texts : List Text)

namespace ChatRoom

variable {α Who Text : Type}

def empty : ChatRoom α Who Text :=
  { arrived := 0
    waiting := []
    members := []
    wires := .empty
    told := [] }

def IsMember (room : ChatRoom α Who Text) (k : Nat) : Prop :=
  k ∈ room.members.map Prod.fst

instance (room : ChatRoom α Who Text) (k : Nat) :
    Decidable (room.IsMember k) :=
  inferInstanceAs (Decidable (_ ∈ _))

def step (room : ChatRoom α Who Text) :
    ChatAct α Who Text → Option (ChatRoom α Who Text)
  | .arrive =>
      some
        { room with
          arrived := room.arrived + 1
          waiting := room.waiting ++ [room.arrived]
          wires := room.wires.connect }
  | .join k who =>
      if k ∈ room.waiting then
        some
          { room with
            waiting := room.waiting.erase k
            members := room.members ++ [(k, who)] }
      else none
  | .leave k =>
      if room.IsMember k then
        some
          { room with
            members := room.members.filter fun visitor => visitor.1 ≠ k }
      else none
  | .say k symbols =>
      if k < room.arrived then
        some { room with wires := room.wires.send k symbols }
      else none
  | .hear k count =>
      if room.IsMember k then
        (room.wires.front k count).map fun symbols =>
          { room with wires := room.wires.deliver k k symbols }
      else none
  | .tell ks texts =>
      if ∀ k ∈ ks, room.IsMember k then
        some { room with told := room.told ++ [(ks, texts)] }
      else none

def toldTo (room : ChatRoom α Who Text) (k : Nat) : List Text :=
  room.told.flatMap fun entry => if k ∈ entry.1 then entry.2 else []

/-- The operator has heard every visitor in order and without a gap, nobody
before joining; nobody was told anything before joining; and nobody is in the
room twice. -/
structure Sound (room : ChatRoom α Who Text) : Prop where
  numbered : room.wires.channels.length = room.arrived
  faithful : room.wires.Faithful
  distinct : (room.waiting ++ room.members.map Prod.fst).Nodup
  below : ∀ k ∈ room.waiting ++ room.members.map Prod.fst, k < room.arrived
  heard : ∀ delivery ∈ room.wires.deliveries, delivery.1 ∉ room.waiting
  told : ∀ entry ∈ room.told, ∀ k ∈ entry.1,
    k < room.arrived ∧ k ∉ room.waiting

end ChatRoom

def chatRoom (α Who Text : Type) :
    System (ChatRoom α Who Text) (ChatAct α Who Text) :=
  { step := ChatRoom.step }

namespace ChatRoom

variable {α Who Text : Type} {room next : ChatRoom α Who Text}

theorem sound_empty : (empty : ChatRoom α Who Text).Sound where
  numbered := rfl
  faithful := Switchboard.faithful_empty
  distinct := List.nodup_nil
  below := by
    intro k member
    cases member
  heard := by
    intro delivery member
    cases member
  told := by
    intro entry member
    cases member

theorem Sound.arrive (sound : room.Sound) :
    Sound
      { room with
        arrived := room.arrived + 1
        waiting := room.waiting ++ [room.arrived]
        wires := room.wires.connect } where
  numbered := by
    rw [Switchboard.connect, List.length_append, sound.numbered]
    rfl
  faithful := sound.faithful.connect
  distinct := by
    have new : room.arrived ∉ room.waiting ++ room.members.map Prod.fst := by
      intro known
      exact Nat.lt_irrefl _ (sound.below room.arrived known)
    rw [List.append_assoc, List.singleton_append, List.nodup_middle]
    exact List.nodup_cons.mpr ⟨new, sound.distinct⟩
  below := by
    intro k known
    rw [List.append_assoc, List.singleton_append] at known
    rcases List.mem_cons.mp (List.perm_middle.subset known) with rfl | old
    · exact Nat.lt_succ_self _
    · exact Nat.lt_succ_of_lt (sound.below k old)
  heard := by
    intro delivery member waiting
    rcases List.mem_append.mp waiting with old | new
    · exact sound.heard delivery member old
    · have known := sound.faithful.known delivery member
      rw [sound.numbered, List.mem_singleton.mp new] at known
      exact Nat.lt_irrefl _ known
  told := by
    intro entry member k isTold
    obtain ⟨below, joined⟩ := sound.told entry member k isTold
    refine ⟨Nat.lt_succ_of_lt below, ?_⟩
    intro waiting
    rcases List.mem_append.mp waiting with old | new
    · exact joined old
    · rw [List.mem_singleton.mp new] at below
      exact Nat.lt_irrefl _ below

theorem Sound.join (sound : room.Sound) {k : Nat} (who : Who)
    (waits : k ∈ room.waiting) :
    Sound
      { room with
        waiting := room.waiting.erase k
        members := room.members ++ [(k, who)] } := by
  have moved : (room.waiting.erase k ++
      (room.members ++ [(k, who)]).map Prod.fst).Perm
        (room.waiting ++ room.members.map Prod.fst) := by
    rw [List.map_append, List.map_singleton, ← List.append_assoc]
    refine (List.perm_append_singleton k _).trans ?_
    exact (List.perm_cons_erase waits).symm.append_right _
  refine ⟨sound.numbered, sound.faithful, moved.nodup_iff.mpr
    sound.distinct, ?_, ?_, ?_⟩
  · intro other known
    exact sound.below other (moved.subset known)
  · intro delivery member waiting
    exact sound.heard delivery member (List.mem_of_mem_erase waiting)
  · intro entry member other isTold
    obtain ⟨below, joined⟩ := sound.told entry member other isTold
    exact ⟨below, fun waiting => joined (List.mem_of_mem_erase waiting)⟩

theorem Sound.joined (sound : room.Sound) {k : Nat}
    (member : room.IsMember k) : k < room.arrived ∧ k ∉ room.waiting := by
  refine ⟨sound.below k (List.mem_append_right _ member), ?_⟩
  intro waiting
  exact (List.nodup_append'.mp sound.distinct).2.2 waiting member

theorem Sound.hear (sound : room.Sound) {k count : Nat} {symbols : List α}
    (member : room.IsMember k)
    (taken : room.wires.front k count = some symbols) :
    Sound { room with wires := room.wires.deliver k k symbols } where
  numbered := by
    rw [Switchboard.deliver, List.length_modify]
    exact sound.numbered
  faithful := (sound.faithful.deliver_iff taken).mpr rfl
  distinct := sound.distinct
  below := sound.below
  heard := by
    intro delivery isDelivery
    rcases List.mem_append.mp isDelivery with old | new
    · exact sound.heard delivery old
    · rw [List.mem_singleton.mp new]
      exact (sound.joined member).2
  told := sound.told

theorem Sound.step {act : ChatAct α Who Text} (sound : room.Sound)
    (taken : room.step act = some next) : next.Sound := by
  cases act with
  | arrive =>
      obtain rfl := Option.some.inj taken
      exact sound.arrive
  | join k who =>
      obtain ⟨waits, result⟩ := Option.ite_none_right_eq_some.mp taken
      obtain rfl := Option.some.inj result
      exact sound.join who waits
  | leave k =>
      obtain ⟨_, result⟩ := Option.ite_none_right_eq_some.mp taken
      obtain rfl := Option.some.inj result
      have fewer := (List.filter_sublist (p := fun visitor : Nat × Who =>
        visitor.1 ≠ k) (l := room.members)).map Prod.fst
      have kept := fewer.append_left room.waiting
      exact ⟨sound.numbered, sound.faithful, sound.distinct.sublist kept,
        fun other known => sound.below other (kept.subset known),
        sound.heard, sound.told⟩
  | say k symbols =>
      obtain ⟨_, result⟩ := Option.ite_none_right_eq_some.mp taken
      obtain rfl := Option.some.inj result
      refine ⟨?_, sound.faithful.send k symbols, sound.distinct, sound.below,
        sound.heard, sound.told⟩
      rw [Switchboard.send, List.length_modify]
      exact sound.numbered
  | hear k count =>
      obtain ⟨member, result⟩ := Option.ite_none_right_eq_some.mp taken
      obtain ⟨symbols, front, rfl⟩ := Option.map_eq_some_iff.mp result
      exact sound.hear member front
  | tell ks texts =>
      obtain ⟨members, result⟩ := Option.ite_none_right_eq_some.mp taken
      obtain rfl := Option.some.inj result
      refine ⟨sound.numbered, sound.faithful, sound.distinct, sound.below,
        sound.heard, ?_⟩
      intro entry isEntry k isTold
      rcases List.mem_append.mp isEntry with old | new
      · exact sound.told entry old k isTold
      · rw [List.mem_singleton.mp new] at isTold
        exact sound.joined (members k isTold)

/-- Every room that can come about is sound. -/
theorem sound_of_run {acts : List (ChatAct α Who Text)}
    (run : (chatRoom α Who Text).Run .empty acts room) : room.Sound :=
  run.invariant (fun _ _ _ sound taken => sound.step taken) sound_empty

end ChatRoom

end OpenChat.Server
