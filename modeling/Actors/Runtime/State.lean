/-
The state of the local runtime of `src/src/Actor.cpp` and `src/src/Group.cpp`, shared by every
thread: per actor the fields `send`, `fast_send`, `reply` and the worker loop touch (its mailbox
`msgq`, `terminated`, `reply_to`, `using_fast_send`, `reply_message`, `msg_cnt` and who holds
`fast_send_mutex`); per thread its place in `Actor::operator()` and its stack of handler
invocations; the message objects on the heap. Actor objects are numbered by address and message
objects by allocation. Ghost components record history: which thread owns
each message object, the messages each mailbox accepted in order and the receiver each was sent
to, and those each actor's `process_message_internal` was entered with.
-/
import Actors.Mailbox.BQueue
import Mathlib.Logic.Function.Basic

namespace Actors

/-- `ACTOR_BQUEUE_SIZE`. -/
def actorBqueueSize : Nat := 64

/-- Modelled from the spec: the identity of `msg::Start` (reserved identity 0); its header is not
among the sources. -/
def startId : Int := 0

/-- The identity the worker loop compares with, `m->get_message_id() == 5`: `msg::Shutdown`. -/
def shutdownId : Int := 5

/-- The fields of `Message`. -/
structure Message where
  id : Int
  sender : Option Nat
  destination : Option Nat
  isFast : Bool
  last : Bool
  deriving DecidableEq

/-- A message as `new` leaves it: no sender, no destination, both flags cleared. -/
def Message.fresh (id : Int) : Message := ⟨id, none, none, false, false⟩

/-- How the actors are wired before the runtime starts: `Group::add` has set each member's
`group` and the group's `members`, and `Manager::init` has given a worker thread to each managed
actor, never to a member of a group (`Manager::manage` rejects those). -/
structure Topology where
  groupOf : Nat → Option Nat
  members : Nat → List Nat
  isGroup : Nat → Bool
  hasWorker : Nat → Bool
  worker_not_member : ∀ a, hasWorker a = true → groupOf a = none

/-- The mailbox `Actor::send` pushes into: the group's, for a member of a group. -/
def Topology.mailboxOf (T : Topology) (a : Nat) : Nat := (T.groupOf a).getD a

theorem Topology.mailboxOf_of_hasWorker (T : Topology) {a : Nat} (h : T.hasWorker a = true) :
    T.mailboxOf a = a := by
  simp [mailboxOf, T.worker_not_member a h]

/-- Threads: the worker thread `Manager::init` spawns for an actor, and any other thread (the
main thread, a signal handler). -/
inductive ThreadId where
  | worker (a : Nat)
  | other (n : Nat)
  deriving DecidableEq

/-- How a handler was entered: by `fast_send`, or by `process_message_internal` with its
`dontdel` flag (set on the path through `Group::forward`). -/
inductive Mode where
  | fast
  | async (dontdel : Bool)
  deriving DecidableEq

/-- Where a handler invocation stands. Application handlers are `user`; a Group's handlers are
the loop of `start_handler` / `shutdown_handler` over the members still to be reached, the two
statements of `forward`, and `done` once they have finished. -/
inductive Pc where
  | user
  | fanOut (id : Int) (todo : List Nat)
  | forwardSet
  | forwardCall
  | done
  deriving DecidableEq

/-- One active handler invocation. `lastReply` is ghost: the last message `reply` handed over in
this invocation. -/
structure Frame where
  actor : Nat
  msg : Nat
  mode : Mode
  pc : Pc
  lastReply : Option Nat
  deriving DecidableEq

/-- Where a worker thread stands in `Actor::operator()`: waiting in `pop`; holding a popped
message, with `last` and `reply_to` written, before `process_message_internal`; inside it; or
out of the loop. -/
inductive Loop where
  | idle
  | ready (m : Nat) (shutdown : Bool)
  | running (m : Nat) (shutdown : Bool)
  | stopped
  deriving DecidableEq

/-- The runtime, one function per field of `Actor` and per thread. `lock` is the thread holding an
actor's `fast_send_mutex`; `loop`, `stack` and `result` are a thread's place in the worker loop,
its handler invocations innermost first, and what its last `fast_send` returned. The ghost
`owner` is the thread a message object belongs to until `send` hands it over; `accepted` lists,
per mailbox, what `send` pushed there and from which thread, and `sentTo` the actor whose `send`
accepted each message; `dispatched` what the worker loop passed to `process_message_internal`,
and `forwarded` what `Group::forward` passed to it. -/
structure State where
  terminated : Nat → Bool
  replyTo : Nat → Option Nat
  usingFastSend : Nat → Bool
  replyMessage : Nat → Option Nat
  msgCnt : Nat → Nat
  msgq : Nat → BQueue Nat
  lock : Nat → Option ThreadId
  loop : ThreadId → Loop
  stack : ThreadId → List Frame
  result : ThreadId → Option Nat
  heap : Nat → Option Message
  nextUid : Nat
  owner : Nat → Option ThreadId
  accepted : Nat → List (Nat × ThreadId)
  sentTo : Nat → Option Nat
  dispatched : Nat → List Nat
  forwarded : Nat → List Nat

/-- Before any message: every actor as `Actor::Actor` builds it, worker threads waiting in `pop`
for the actors that have one. -/
def State.initial (T : Topology) : State where
  terminated := fun _ => false
  replyTo := fun _ => none
  usingFastSend := fun _ => false
  replyMessage := fun _ => none
  msgCnt := fun _ => 0
  msgq := fun _ => BQueue.new actorBqueueSize
  lock := fun _ => none
  loop := fun
    | .worker a => if T.hasWorker a then .idle else .stopped
    | .other _ => .stopped
  stack := fun _ => []
  result := fun _ => none
  heap := fun _ => none
  nextUid := 0
  owner := fun _ => none
  accepted := fun _ => []
  sentTo := fun _ => none
  dispatched := fun _ => []
  forwarded := fun _ => []

/-- The message a worker holds between `pop` and `process_message_internal`. -/
def Loop.held : Loop → List Nat
  | ready m _ => [m]
  | _ => []

end Actors
