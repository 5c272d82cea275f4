import OpenChat.Foundation.Run

/-!
# Calls on a shared object

Several threads work on one object.  A call is a list of operations; an
operation is atomic, a call is not, so between two operations of a call any
other thread may perform operations of its own.
-/

namespace OpenChat.Foundation

universe u v w

/-- An object with atomic operations, and the operations of each call. -/
structure SharedObject (Object : Type u) (Op : Type v) (Call : Type w) where
  perform : Object → Op → Object
  ops : Call → List Op

/-- The object and what each thread still has to do of its call. -/
structure Pool (Object : Type u) (Op : Type v) where
  object : Object
  pending : List (List Op)

inductive Activity (Call : Type w) where
  | call (i : Nat) (call : Call)
  | advance (i : Nat)

variable {Object : Type u} {Op : Type v} {Call : Type w}

def Pool.performed (pool : Pool Object Op) : Activity Call → Option Op
  | .call _ _ => none
  | .advance i => (pool.pending[i]?).bind List.head?

namespace SharedObject

/-- An idle thread enters a call; a busy one performs its next operation. -/
def step (shared : SharedObject Object Op Call) (pool : Pool Object Op) :
    Activity Call → Option (Pool Object Op)
  | .call i call =>
      match pool.pending[i]? with
      | some [] =>
          some { pool with pending := pool.pending.set i (shared.ops call) }
      | _ => none
  | .advance i =>
      match pool.pending[i]? with
      | some (op :: rest) =>
          some
            { object := shared.perform pool.object op
              pending := pool.pending.set i rest }
      | _ => none

def threads (shared : SharedObject Object Op Call) :
    System (Pool Object Op) (Activity Call) :=
  { step := shared.step }

def idle (count : Nat) (object : Object) : Pool Object Op :=
  { object := object, pending := List.replicate count [] }

variable {shared : SharedObject Object Op Call}

theorem step_call {pool next : Pool Object Op} {i : Nat} {call : Call}
    (taken : shared.threads.step pool (.call i call) = some next) :
    pool.pending[i]? = some [] ∧
      next = { pool with pending := pool.pending.set i (shared.ops call) } := by
  simp only [threads, step] at taken
  split at taken
  · rename_i found
    exact ⟨found, (Option.some.inj taken).symm⟩
  · simp at taken

theorem step_advance {pool next : Pool Object Op} {i : Nat}
    (taken : shared.threads.step pool (.advance i) = some next) :
    ∃ op rest, pool.pending[i]? = some (op :: rest) ∧
      next =
        { object := shared.perform pool.object op
          pending := pool.pending.set i rest } := by
  simp only [threads, step] at taken
  split at taken
  · rename_i op rest found
    exact ⟨op, rest, found, (Option.some.inj taken).symm⟩
  · simp at taken

theorem length_pending {pool next : Pool Object Op} {activity : Activity Call}
    (taken : shared.threads.step pool activity = some next) :
    next.pending.length = pool.pending.length := by
  cases activity with
  | call i call =>
      obtain ⟨_, rfl⟩ := step_call taken
      exact List.length_set
  | advance i =>
      obtain ⟨_, _, _, rfl⟩ := step_advance taken
      exact List.length_set

/-- Every thread is at some point of a call. -/
def InsideCalls (shared : SharedObject Object Op Call)
    (pool : Pool Object Op) : Prop :=
  ∀ rest ∈ pool.pending, rest = [] ∨ ∃ call, rest <:+ shared.ops call

theorem insideCalls_idle (count : Nat) (object : Object) :
    shared.InsideCalls (idle count object) := by
  intro rest member
  exact .inl (List.eq_of_mem_replicate member)

theorem InsideCalls.step {pool next : Pool Object Op}
    {activity : Activity Call} (inside : shared.InsideCalls pool)
    (taken : shared.threads.step pool activity = some next) :
    shared.InsideCalls next := by
  cases activity with
  | call i call =>
      obtain ⟨_, rfl⟩ := step_call taken
      intro rest member
      rcases List.mem_or_eq_of_mem_set member with old | rfl
      · exact inside rest old
      · exact .inr ⟨call, List.suffix_refl _⟩
  | advance i =>
      obtain ⟨op, later, found, rfl⟩ := step_advance taken
      intro rest member
      rcases List.mem_or_eq_of_mem_set member with old | rfl
      · exact inside rest old
      · rcases inside _ (List.mem_of_getElem? found) with empty | ⟨call, tail⟩
        · simp at empty
        · exact .inr ⟨call, (List.suffix_cons op rest).trans tail⟩

/-- A thread which is not interrupted performs the operations of its call one
after the other, and nothing else happens. -/
theorem reaches_uninterrupted (pool : Pool Object Op) {i : Nat} (call : Call)
    (free : pool.pending[i]? = some []) :
    shared.threads.Reaches pool
      { pool with
        object := (shared.ops call).foldl shared.perform pool.object } := by
  have inside : i < pool.pending.length :=
    (List.getElem?_eq_some_iff.mp free).1
  have finishes : ∀ (ops : List Op) (object : Object),
      shared.threads.Reaches
        { object := object, pending := pool.pending.set i ops }
        { object := ops.foldl shared.perform object
          pending := pool.pending.set i [] } := by
    intro ops
    induction ops with
    | nil => exact fun object => .refl _
    | cons op ops induction =>
        intro object
        have found : (pool.pending.set i (op :: ops))[i]? =
            some (op :: ops) := by
          rw [List.getElem?_set_self inside]
        have performs : shared.threads.step
            { object := object, pending := pool.pending.set i (op :: ops) }
            (.advance i) =
              some
                { object := shared.perform object op
                  pending := pool.pending.set i ops } := by
          simp only [threads, step, found, List.set_set]
        exact .trans (.step (.advance i) performs) (induction _)
  have enters : shared.threads.step pool (.call i call) =
      some { pool with pending := pool.pending.set i (shared.ops call) } := by
    simp only [threads, step, free]
  have restored : pool.pending.set i [] = pool.pending := by
    apply List.ext_getElem?
    intro k
    by_cases same : i = k
    · subst same
      rw [List.getElem?_set_self inside, free]
    · rw [List.getElem?_set_ne same]
  have later := finishes (shared.ops call) pool.object
  rw [restored] at later
  exact .trans (.step (.call i call) enters) later

end SharedObject

end OpenChat.Foundation
