/-
The operations of the local runtime, each one atomic step of one thread, and the runs they make.
`Actor::send`, `Actor::fast_send`, `Actor::reply`, a handler's return (the end of `fast_send` or of
`process_message_internal`), the worker loop of `Actor::operator()`, and the statements of a
Group's `start_handler`, `shutdown_handler` and `forward`. An operation is `none` where the thread
cannot go on: it waits (an empty mailbox, a held mutex) or the program stops (a failed
assertion, a freed message).

Application code is arbitrary: a thread running an application handler, or a thread other than
a worker outside any handler, may at any moment allocate a message, `send`, `fast_send` or
`reply` a message it allocated and still owns, set an actor's `terminated` (as
`Manager::process_message` does), or return. Messages are handed over as `Actor.hpp` says: a
successful `send` gives the message to the runtime.
-/
import Actors.Runtime.State

namespace Actors

/-- The handler `call_handler` runs when actor `a` is handed `msg`: for a Group, `start_handler` or
`shutdown_handler` for Start and Shutdown, which fan out to the members unless the Group itself
is the sender and otherwise `forward`, and `process_message`, that is `forward`, for any other
message; for an application actor, its registered handler or `process_message`. `Group::add`
registers the two handlers, so a Group without members forwards Start and Shutdown too.
`call_handler` finds a handler by the message's type, through a cache indexed by its identity;
this reads the identity alone, so it takes each identity to belong to one type, as `Message.hpp`
(line 47) requires: identities 0 and 5 are Start's and Shutdown's only. -/
def Topology.entryPc (T : Topology) (a : Nat) (msg : Message) : Pc :=
  if T.isGroup a then
    if (msg.id = startId ∨ msg.id = shutdownId) ∧ msg.sender ≠ some a ∧ T.members a ≠ [] then
      .fanOut msg.id (T.members a)
    else .forwardSet
  else .user

namespace State

variable (T : Topology) (s : State)

/-- `new Message`: a fresh object owned by thread `t`. -/
def alloc (t : ThreadId) (id : Int) : State :=
  { s with heap := Function.update s.heap s.nextUid (some (Message.fresh id))
           nextUid := s.nextUid + 1
           owner := Function.update s.owner s.nextUid (some t) }

/-- Thread `t` takes actor `a`'s `fast_send_mutex` and calls its handler for message `m`. -/
def call (t : ThreadId) (a : Nat) (m : Nat) (msg : Message) (mode : Mode) : State :=
  { s with lock := Function.update s.lock a (some t)
           stack := Function.update s.stack t (⟨a, m, mode, T.entryPc a msg, none⟩ :: s.stack t) }

/-- What `Actor::send(m, sender)` on `r` does when it accepts `m`: stamps it and pushes it into
the mailbox of `r`, or of its group; the runtime now owns it, as sent to `r`. -/
def accept (t : ThreadId) (r m : Nat) (sender : Option Nat) (msg : Message) : State :=
  { s with
    heap := Function.update s.heap m
      (some { msg with isFast := false, last := false, sender := sender, destination := some r })
    msgq := Function.update s.msgq (T.mailboxOf r) ((s.msgq (T.mailboxOf r)).push m)
    owner := Function.update s.owner m none
    accepted := Function.update s.accepted (T.mailboxOf r) (s.accepted (T.mailboxOf r) ++ [(m, t)])
    sentTo := Function.update s.sentTo m (some r) }

/-- `Actor::send(m, sender)` on `r`, called on thread `t`: dropped when `r` is terminated,
accepted otherwise. `none` for a freed message or a message sent before
(`assert(m->destination == nullptr)`). -/
def send (t : ThreadId) (r m : Nat) (sender : Option Nat) : Option State :=
  if s.terminated r then some s
  else match s.heap m with
    | none => none
    | some msg => if msg.destination.isSome then none else some (s.accept T t r m sender msg)

/-- The writes of `Actor::fast_send(m, sender)` on `r` before the call: `m` stamped,
`reply_message` cleared, `using_fast_send` set, the message counted. -/
def stampFast (r m : Nat) (sender : Option Nat) (msg : Message) : State :=
  { s with
    heap := Function.update s.heap m (some { msg with sender := sender, isFast := true, last := true })
    replyMessage := Function.update s.replyMessage r none
    usingFastSend := Function.update s.usingFastSend r true
    msgCnt := Function.update s.msgCnt r (s.msgCnt r + 1) }

/-- `Actor::fast_send(m, sender)` on `r`, called on thread `t`: it takes `r`'s mutex (`none` while
it is held) and calls the handler, except on a terminated actor, where it returns `nullptr` at
once. `none` also for `assert(this != sender)`. -/
def fastSend (t : ThreadId) (r m : Nat) (sender : Option Nat) : Option State :=
  match s.heap m with
  | none => none
  | some msg =>
    if (s.lock r).isSome || sender == some r then none
    else if s.terminated r then
      some { s.stampFast r m sender msg with result := Function.update s.result t none }
    else some ((s.stampFast r m sender msg).call T t r m { msg with sender := sender, isFast := true, last := true } .fast)

/-- What `reply(r)` does in a `fast_send` invocation `f` of actor `f.actor`: `r` is stamped with
the actor as its sender and kept in `reply_message`. -/
def stashReply (t : ThreadId) (f : Frame) (rest : List Frame) (r : Nat) (msg : Message) : State :=
  { s with
    heap := Function.update s.heap r (some { msg with sender := some f.actor })
    replyMessage := Function.update s.replyMessage f.actor (some r)
    stack := Function.update s.stack t ({ f with lastReply := some r } :: rest) }

/-- `Actor::reply(r)` from the handler on top of thread `t`: kept in `reply_message` when
`using_fast_send` is set, sent to `reply_to` otherwise (`none`: `assert(reply_to != nullptr)`).
`reply_to` is always a local actor here: the `RemoteReplyProxy` of `ZmqReceiver.hpp`, which marks
the non-virtual `Actor::send` `override`, does not compile, so no build has one. -/
def reply (t : ThreadId) (r : Nat) : Option State :=
  match s.stack t with
  | [] => none
  | f :: rest =>
    if s.usingFastSend f.actor then (s.heap r).map (s.stashReply t f rest r)
    else match s.replyTo f.actor with
      | none => none
      | some d => s.send T t d r (some f.actor)

/-- `actor->terminated = true`. -/
def setTerminated (a : Nat) : State :=
  { s with terminated := Function.update s.terminated a true }

/-- The invocation `f` on top of thread `t` releases its actor's mutex. -/
def unlock (t : ThreadId) (f : Frame) (rest : List Frame) : State :=
  { s with lock := Function.update s.lock f.actor none
           stack := Function.update s.stack t rest }

/-- The end of the worker loop's `process_message_internal(m)` on actor `w` and of its turn:
`delete m`, then the loop stops on a Shutdown or once `terminated` is set, setting
`terminated`. -/
def endTurn (w m : Nat) (shut : Bool) : State :=
  { s with
    heap := Function.update s.heap m none
    terminated := Function.update s.terminated w (s.terminated w || shut)
    loop := Function.update s.loop (.worker w) (if shut || s.terminated w then .stopped else .idle) }

/-- The invocation on top of thread `t` returns, once its handler has finished. `fast_send`
releases the mutex and returns `reply_message`; `process_message_internal` releases it and,
called by the worker loop, ends the turn. -/
def ret (t : ThreadId) : Option State :=
  match s.stack t with
  | [] => none
  | f :: rest =>
    if f.pc = .user ∨ f.pc = .done then
      match f.mode, t, s.loop t with
      | .fast, _, _ =>
        some { s.unlock t f rest with result := Function.update s.result t (s.replyMessage f.actor) }
      | .async true, _, _ => some (s.unlock t f rest)
      | .async false, .worker w, .running _ shut => some ((s.unlock t f rest).endTurn w f.msg shut)
      | .async false, _, _ => none
    else none

/-- What the worker loop of `w` does with the message `pop` returned: `m->last = last`,
`reply_to = m->sender`, and the test for a Shutdown. -/
def popped (w m : Nat) (last : Bool) (q : BQueue Nat) (msg : Message) : State :=
  { s with
    heap := Function.update s.heap m (some { msg with last := last })
    msgq := Function.update s.msgq w q
    replyTo := Function.update s.replyTo w msg.sender
    loop := Function.update s.loop (.worker w) (.ready m (msg.id == shutdownId)) }

/-- The start of a turn of `Actor::operator()` on actor `w`'s worker: `msgq->pop()`, `none` while
the mailbox is empty (the worker waits). -/
def pop (w : Nat) : Option State :=
  match s.loop (.worker w), (s.msgq w).pop with
  | .idle, some (m, last, q) => (s.heap m).map (s.popped w m last q)
  | _, _ => none

/-- The writes of `process_message_internal(m)` on `a` before the call: the message counted,
`using_fast_send` cleared. -/
def stampInternal (a : Nat) : State :=
  { s with msgCnt := Function.update s.msgCnt a (s.msgCnt a + 1)
           usingFastSend := Function.update s.usingFastSend a false }

/-- `process_message_internal(m)` from actor `w`'s worker loop: it takes the mutex (`none` while a
`fast_send` holds it), and calls the handler. -/
def processMessageInternal (w : Nat) : Option State :=
  match s.loop (.worker w) with
  | .ready m shut =>
    match s.heap m with
    | none => none
    | some msg =>
      if (s.lock w).isSome then none
      else some ({ s.stampInternal w with
        loop := Function.update s.loop (.worker w) (.running m shut)
        dispatched := Function.update s.dispatched w (s.dispatched w ++ [m]) }.call T (.worker w) w m msg
          (.async false))
  | _ => none

/-- Sets the statement the Group handler on top of thread `t` stands at. -/
def setPc (t : ThreadId) (f : Frame) (rest : List Frame) (pc : Pc) : State :=
  { s with stack := Function.update s.stack t ({ f with pc := pc } :: rest) }

/-- One statement of the Group handler on top of thread `t`. In `start_handler` and
`shutdown_handler`, `a->fast_send(new msg, this)` to the next member (the members' `init` and
`end` hooks are their own code); in `forward`, `assert(!m->is_fast)` with
`m->destination->reply_to = m->sender`, then `m->destination->process_message_internal(m, true)`. -/
def groupStep (t : ThreadId) : Option State :=
  match s.stack t with
  | [] => none
  | f :: rest =>
    match f.pc with
    | .fanOut _ [] => some (s.setPc t f rest .done)
    | .fanOut id (a :: todo) =>
      ((s.setPc t f rest (.fanOut id todo)).alloc t id).fastSend T t a s.nextUid (some f.actor)
    | .forwardSet =>
      match s.heap f.msg with
      | some ⟨_, sender, some d, false, _⟩ => some
          { s.setPc t f rest .forwardCall with replyTo := Function.update s.replyTo d sender }
      | _ => none
    | .forwardCall =>
      match s.heap f.msg with
      | some msg =>
        match msg.destination with
        | some d =>
          if (s.lock d).isSome then none
          else some ({ (s.setPc t f rest .done).stampInternal d with
            forwarded := Function.update s.forwarded d (s.forwarded d ++ [f.msg]) }.call T t d f.msg msg
              (.async true))
        | none => none
      | none => none
    | _ => none

/-- Whether application code runs on thread `t`: an application handler is on top, or `t` is not
a worker and is outside any handler. -/
def userCode (t : ThreadId) : Bool :=
  match s.stack t, t with
  | f :: _, _ => f.pc == .user
  | [], .other _ => true
  | [], .worker _ => false

/-- Whether application code runs on `t` depends on `t`'s stack only. -/
theorem userCode_congr {s' : State} {t : ThreadId} (h : s'.stack t = s.stack t) :
    s'.userCode t = s.userCode t := by
  simp only [userCode, h]

/-! ### What each operation can do -/

theorem mem_call_stack {t t' : ThreadId} {a m : Nat} {msg : Message} {mode : Mode} {g : Frame} :
    g ∈ (s.call T t a m msg mode).stack t' ↔
      (t' = t ∧ g = ⟨a, m, mode, T.entryPc a msg, none⟩) ∨ g ∈ s.stack t' := by
  simp only [call, Function.update_apply]
  split_ifs with h <;> simp [h]

theorem send_eq_some {t : ThreadId} {r m : Nat} {sender : Option Nat} {s' : State}
    (h : s.send T t r m sender = some s') :
    s' = s ∨ ∃ msg, s.heap m = some msg ∧ msg.destination = none ∧
      s' = s.accept T t r m sender msg := by
  unfold send at h
  split at h
  · exact .inl (Option.some.inj h).symm
  · split at h
    · cases h
    · split at h
      · cases h
      · rename_i hd
        exact .inr ⟨_, ‹_›, Option.not_isSome_iff_eq_none.1 hd, (Option.some.inj h).symm⟩

theorem fastSend_eq_some {t : ThreadId} {r m : Nat} {sender : Option Nat} {s' : State}
    (h : s.fastSend T t r m sender = some s') : ∃ msg, s.heap m = some msg ∧ s.lock r = none ∧
      (s' = { s.stampFast r m sender msg with result := Function.update s.result t none } ∨
       s' = (s.stampFast r m sender msg).call T t r m
         { msg with sender := sender, isFast := true, last := true } .fast) := by
  unfold fastSend at h
  split at h
  · cases h
  · rename_i msg hm
    split at h
    · cases h
    · rename_i hl
      simp only [Bool.or_eq_true, not_or, Option.not_isSome_iff_eq_none] at hl
      split at h <;> exact ⟨msg, hm, hl.1, by simp_all⟩

theorem reply_eq_some {t : ThreadId} {r : Nat} {s' : State} (h : s.reply T t r = some s') :
    ∃ f rest, s.stack t = f :: rest ∧
      ((s.usingFastSend f.actor = true ∧ ∃ msg, s.heap r = some msg ∧ s' = s.stashReply t f rest r msg) ∨
       (s.usingFastSend f.actor = false ∧ ∃ d, s.replyTo f.actor = some d ∧
         s.send T t d r (some f.actor) = some s')) := by
  unfold reply at h
  split at h
  · cases h
  · rename_i f rest hs
    refine ⟨f, rest, hs, ?_⟩
    split at h
    · rename_i hu
      obtain ⟨msg, hm, rfl⟩ := Option.map_eq_some'.1 h
      exact .inl ⟨hu, msg, hm, rfl⟩
    · rename_i hu
      split at h
      · cases h
      · exact .inr ⟨by simpa using hu, _, ‹_›, h⟩

theorem ret_eq_some {t : ThreadId} {s' : State} (h : s.ret t = some s') :
    ∃ f rest, s.stack t = f :: rest ∧ (f.pc = .user ∨ f.pc = .done) ∧
      ((f.mode = .fast ∧
          s' = { s.unlock t f rest with result := Function.update s.result t (s.replyMessage f.actor) }) ∨
       (f.mode = .async true ∧ s' = s.unlock t f rest) ∨
       (∃ w m shut, f.mode = .async false ∧ t = .worker w ∧ s.loop t = .running m shut ∧
          s' = (s.unlock t f rest).endTurn w f.msg shut)) := by
  unfold ret at h
  split at h
  · cases h
  · rename_i f rest hs
    split at h
    · rename_i hpc
      refine ⟨f, rest, hs, hpc, ?_⟩
      split at h
      · exact .inl ⟨‹_›, (Option.some.inj h).symm⟩
      · exact .inr (.inl ⟨‹_›, (Option.some.inj h).symm⟩)
      · exact .inr (.inr ⟨_, _, _, ‹_›, rfl, ‹_›, (Option.some.inj h).symm⟩)
      · cases h
    · cases h

theorem pop_eq_some {w : Nat} {s' : State} (h : s.pop w = some s') :
    ∃ m last q msg, s.loop (.worker w) = .idle ∧ (s.msgq w).pop = some (m, last, q) ∧
      s.heap m = some msg ∧ s' = s.popped w m last q msg := by
  unfold pop at h
  split at h
  · obtain ⟨msg, hm, rfl⟩ := Option.map_eq_some'.1 h
    exact ⟨_, _, _, msg, ‹_›, ‹_›, hm, rfl⟩
  · cases h

theorem processMessageInternal_eq_some {w : Nat} {s' : State}
    (h : s.processMessageInternal T w = some s') :
    ∃ m shut msg, s.loop (.worker w) = .ready m shut ∧ s.heap m = some msg ∧ s.lock w = none ∧
      s' = ({ s.stampInternal w with
        loop := Function.update s.loop (.worker w) (.running m shut)
        dispatched := Function.update s.dispatched w (s.dispatched w ++ [m]) }.call T (.worker w) w m msg
          (.async false)) := by
  unfold processMessageInternal at h
  split at h
  · split at h
    · cases h
    · split at h
      · cases h
      · rename_i hl
        exact ⟨_, _, _, ‹_›, ‹_›, by simpa using hl, (Option.some.inj h).symm⟩
  · cases h

theorem groupStep_eq_some {t : ThreadId} {s' : State} (h : s.groupStep T t = some s') :
    ∃ f rest, s.stack t = f :: rest ∧
      ((∃ id, f.pc = .fanOut id [] ∧ s' = s.setPc t f rest .done) ∨
       (∃ id a todo, f.pc = .fanOut id (a :: todo) ∧
          ((s.setPc t f rest (.fanOut id todo)).alloc t id).fastSend T t a s.nextUid (some f.actor) = some s') ∨
       (∃ id sender d last, f.pc = .forwardSet ∧ s.heap f.msg = some ⟨id, sender, some d, false, last⟩ ∧
          s' = { s.setPc t f rest .forwardCall with replyTo := Function.update s.replyTo d sender }) ∨
       (∃ msg d, f.pc = .forwardCall ∧ s.heap f.msg = some msg ∧ msg.destination = some d ∧
          s.lock d = none ∧
          s' = ({ (s.setPc t f rest .done).stampInternal d with
            forwarded := Function.update s.forwarded d (s.forwarded d ++ [f.msg]) }.call T t d f.msg msg
              (.async true)))) := by
  unfold groupStep at h
  split at h
  · cases h
  · rename_i f rest hs
    refine ⟨f, rest, hs, ?_⟩
    split at h
    · exact .inl ⟨_, ‹_›, (Option.some.inj h).symm⟩
    · exact .inr (.inl ⟨_, _, _, ‹_›, h⟩)
    · split at h
      · exact .inr (.inr (.inl ⟨_, _, _, _, ‹_›, ‹_›, (Option.some.inj h).symm⟩))
      · cases h
    · split at h
      · split at h
        · split at h
          · cases h
          · rename_i hl
            exact .inr (.inr (.inr ⟨_, _, ‹_›, ‹_›, ‹_›, by simpa using hl, (Option.some.inj h).symm⟩))
        · cases h
      · cases h
    · cases h

end State

theorem Topology.entryPc_ne_forwardCall (T : Topology) (a : Nat) (msg : Message) :
    T.entryPc a msg ≠ .forwardCall := by
  unfold entryPc; split_ifs <;> simp

/-- The atomic steps, each named by the thread that takes it. -/
inductive Action where
  | alloc (t : ThreadId) (id : Int)
  | send (t : ThreadId) (r : Nat) (m : Nat) (sender : Option Nat)
  | fastSend (t : ThreadId) (r : Nat) (m : Nat) (sender : Option Nat)
  | reply (t : ThreadId) (m : Nat)
  | setTerminated (t : ThreadId) (a : Nat)
  | ret (t : ThreadId)
  | pop (w : Nat)
  | processMessageInternal (w : Nat)
  | group (t : ThreadId)

/-- One step of the runtime. Application code hands `send`, `fast_send` and `reply` only messages
its thread allocated and still owns. -/
def step (T : Topology) (s : State) : Action → Option State
  | .alloc t id => if s.userCode t then some (s.alloc t id) else none
  | .send t r m sender => if s.userCode t ∧ s.owner m = some t then s.send T t r m sender else none
  | .fastSend t r m sender =>
    if s.userCode t ∧ s.owner m = some t then s.fastSend T t r m sender else none
  | .reply t m => if s.userCode t ∧ s.owner m = some t then s.reply T t m else none
  | .setTerminated t a => if s.userCode t then some (s.setTerminated a) else none
  | .ret t => s.ret t
  | .pop w => s.pop w
  | .processMessageInternal w => s.processMessageInternal T w
  | .group t => s.groupStep T t

/-- The states some interleaving of steps reaches from the start. -/
inductive Reachable (T : Topology) : State → Prop where
  | initial : Reachable T (State.initial T)
  | step {s s' : State} (a : Action) : Reachable T s → step T s a = some s' → Reachable T s'

/-- Runs steps in order; `none` as soon as one cannot be taken. -/
def run (T : Topology) : State → List Action → Option State
  | s, [] => some s
  | s, a :: as => match step T s a with
    | none => none
    | some s' => run T s' as

theorem run_append (T : Topology) :
    ∀ (s : State) (l₁ l₂ : List Action), run T s (l₁ ++ l₂) = (run T s l₁).bind (run T · l₂)
  | s, [], l₂ => rfl
  | s, a :: l₁, l₂ => by
    simp only [List.cons_append, run]
    cases step T s a with
    | none => rfl
    | some s' => exact run_append T s' l₁ l₂

theorem reachable_run {T : Topology} {s : State} (hs : Reachable T s) :
    ∀ (acts : List Action) {s' : State}, run T s acts = some s' → Reachable T s'
  | [], _, h => by cases h; exact hs
  | a :: as, s', h => by
    unfold run at h
    rcases ha : step T s a with _ | s1 <;> rw [ha] at h
    · cases h
    · exact reachable_run (.step a hs ha) as h

/-! ## Forward lemmas of a worker turn -/

/-- What `msgq->pop()`, `m->last = last`, `reply_to = m->sender` and `process_message_internal(m)`
leave on the worker of `w`: `m` out of the mailbox and stamped with `last`, `reply_to` set, `m`
dispatched and counted, the mutex of `w` taken, and the handler `m` selects called. -/
structure Opened (T : Topology) (w m : Nat) (msg : Message) (last : Bool) (s s' : State) : Prop where
  stack : s'.stack = Function.update s.stack (.worker w)
    (⟨w, m, .async false, T.entryPc w { msg with last := last }, none⟩ :: s.stack (.worker w))
  heap : s'.heap = Function.update s.heap m (some { msg with last := last })
  msgq : (s.msgq w).contents = m :: (s'.msgq w).contents
  replyTo : s'.replyTo = Function.update s.replyTo w msg.sender
  loop : s'.loop = Function.update s.loop (.worker w) (.running m (msg.id == shutdownId))
  dispatched : s'.dispatched = Function.update s.dispatched w (s.dispatched w ++ [m])
  lock : s'.lock = Function.update s.lock w (some (.worker w))
  msgCnt : s'.msgCnt = Function.update s.msgCnt w (s.msgCnt w + 1)
  terminated : s'.terminated = s.terminated
  forwarded : s'.forwarded = s.forwarded

/-- The opening of a turn: on a worker waiting in `pop` whose actor's mutex is free, `pop` and
`process_message_internal` take the head of the mailbox. -/
theorem run_pop_processMessageInternal (T : Topology) {s : State} {w m : Nat} {l : List Nat}
    {msg : Message} (hidle : s.loop (.worker w) = .idle) (hl : s.lock w = none)
    (hq : (s.msgq w).contents = m :: l) (hm : s.heap m = some msg) :
    ∃ last s', (∀ rest, run T s (.pop w :: .processMessageInternal w :: rest) = run T s' rest) ∧
      Opened T w m msg last s s' := by
  obtain ⟨last, q, hpop, hq'⟩ := BQueue.pop_of_contents hq
  refine ⟨last, { (s.popped w m last q msg).stampInternal w with
      loop := Function.update s.loop (.worker w) (.running m (msg.id == shutdownId))
      dispatched := Function.update s.dispatched w (s.dispatched w ++ [m]) }.call T (.worker w) w m
        { msg with last := last } (.async false), fun rest => ?_,
    ⟨rfl, rfl, ?_, rfl, rfl, rfl, rfl, rfl, rfl, rfl⟩⟩
  · simp [run, step, State.pop, hidle, hpop, hm, State.processMessageInternal, State.popped,
      State.stampInternal, hl]
  · simp [State.call, State.stampInternal, State.popped, hq, hq']

/-- `forward`'s first statement: `assert(!m->is_fast)`, then `m->destination->reply_to =
m->sender`. -/
theorem State.groupStep_forwardSet {T : Topology} {s : State} {t : ThreadId} {f : Frame}
    {rest : List Frame} {msg : Message} {d : Nat} (hs : s.stack t = f :: rest)
    (hpc : f.pc = .forwardSet) (hm : s.heap f.msg = some msg) (hd : msg.destination = some d)
    (hfast : msg.isFast = false) :
    s.groupStep T t =
      some { s.setPc t f rest .forwardCall with replyTo := Function.update s.replyTo d msg.sender } := by
  obtain ⟨id, sender, dest, isFast, last⟩ := msg
  simp only at hd hfast; subst hd hfast
  simp [State.groupStep, hs, hpc, hm]

end Actors
