/-
The invariant of the runtime, `Inv`: what holds of every handler invocation on every thread
(`FrameOk`), the shape of each thread's stack, and the bookkeeping of every mailbox — what it
accepted is what its worker dispatched, then the message it holds, then what it still holds.
This module states it, shows it of the initial state, and derives the facts the step lemmas of
`Actors.Runtime.Preserve` share.
-/
import Actors.Runtime.Step
import Mathlib.Data.List.Nodup

namespace Actors

section

variable (T : Topology)

/-- What holds of an invocation `f` on thread `t`. The thread holds the actor's mutex. A
`fast_send` invocation sees `using_fast_send` and its own last reply in `reply_message`. An
asynchronous one runs on the worker of the mailbox its message came through, inside the loop turn
for that message, with `using_fast_send` cleared and `reply_to` the message's sender; it is the
worker's own actor or, forwarded, the message's destination. A Group's `forward` runs in a
`fast_send` invocation only up to its assertion, on a message its thread still owns. At
`forwardCall` the destination's `reply_to` is already the sender. -/
structure FrameOk (s : State) (t : ThreadId) (f : Frame) : Prop where
  lock : s.lock f.actor = some t
  fast : f.mode = .fast → s.usingFastSend f.actor = true ∧ s.replyMessage f.actor = f.lastReply
  async : ∀ dd, f.mode = .async dd → ∃ w shut msg d, t = .worker w ∧
    s.loop t = .running f.msg shut ∧ s.heap f.msg = some msg ∧ msg.destination = some d ∧
    T.mailboxOf d = w ∧ s.owner f.msg = none ∧ s.usingFastSend f.actor = false ∧
    s.replyTo f.actor = msg.sender ∧ f.actor = if dd then d else w
  fastForward : f.mode = .fast → f.pc = .forwardSet ∨ f.pc = .forwardCall →
    f.pc = .forwardSet ∧ s.owner f.msg = some t ∧ ∃ msg, s.heap f.msg = some msg ∧ msg.isFast = true
  forwardCall : f.pc = .forwardCall → ∃ msg d, s.heap f.msg = some msg ∧ msg.destination = some d ∧
    s.replyTo d = msg.sender

/-- The invariant of reachable states. -/
structure Inv (s : State) : Prop where
  frame : ∀ t f, f ∈ s.stack t → FrameOk T s t f
  nodup : ∀ t, ((s.stack t).map Frame.actor).Nodup
  forwardTop : ∀ t f, f ∈ s.stack t → f.pc = .forwardSet ∨ f.pc = .forwardCall →
    ∃ rest, s.stack t = f :: rest
  bottom : ∀ t f, f ∈ s.stack t → f.mode = .async false → ∃ pre, s.stack t = pre ++ [f]
  busy : ∀ w, s.stack (.worker w) ≠ [] → ∃ m shut, s.loop (.worker w) = .running m shut
  ready : ∀ w m shut, s.loop (.worker w) = .ready m shut → ∃ msg d, s.heap m = some msg ∧
    msg.destination = some d ∧ T.mailboxOf d = w ∧ s.owner m = none ∧ s.replyTo w = msg.sender
  running : ∀ w m shut, s.loop (.worker w) = .running m shut → m ∈ s.dispatched w
  mailbox : ∀ w m, m ∈ (s.msgq w).contents → ∃ msg d, s.heap m = some msg ∧
    msg.destination = some d ∧ T.mailboxOf d = w ∧ s.owner m = none ∧ msg.isFast = false
  accounting : ∀ w, (s.accepted w).map Prod.fst =
    s.dispatched w ++ (s.loop (.worker w)).held ++ (s.msgq w).contents
  acceptedNodup : ∀ w, ((s.accepted w).map Prod.fst).Nodup
  acceptedDisjoint : ∀ w w' m, m ∈ (s.accepted w).map Prod.fst → m ∈ (s.accepted w').map Prod.fst →
    w = w'
  acceptedOwner : ∀ w m, m ∈ (s.accepted w).map Prod.fst → s.owner m = none ∧ m < s.nextUid
  fresh : ∀ u, s.nextUid ≤ u → s.heap u = none ∧ s.owner u = none
  noWorker : ∀ w, T.hasWorker w = false → s.loop (.worker w) = .stopped
  forwardedDispatched : ∀ d m, m ∈ s.forwarded d → m ∈ s.dispatched (T.mailboxOf d)
  forwardedMember : ∀ d m, m ∈ s.forwarded d → T.mailboxOf d ≠ d
  forwardedNodup : ∀ d, (s.forwarded d).Nodup
  forwardedOnce : ∀ d m t f, m ∈ s.forwarded d → f ∈ s.stack t → f.msg = m →
    f.pc = .forwardSet ∨ f.pc = .forwardCall → f.actor = d
  forwardedDisjoint : ∀ d d' m, m ∈ s.forwarded d → m ∈ s.forwarded d' → d = d'

theorem inv_initial : Inv T (State.initial T) where
  frame _ _ h := (List.not_mem_nil _ h).elim
  nodup _ := List.nodup_nil
  forwardTop _ _ h := (List.not_mem_nil _ h).elim
  bottom _ _ h := (List.not_mem_nil _ h).elim
  busy _ h := absurd rfl h
  ready w m shut h := by
    simp only [State.initial] at h; split at h <;> cases h
  running w m shut h := by
    simp only [State.initial] at h; split at h <;> cases h
  mailbox _ _ h := (List.not_mem_nil _ h).elim
  accounting w := by
    simp only [State.initial]; split <;> rfl
  acceptedNodup _ := List.nodup_nil
  acceptedDisjoint _ _ _ h := (List.not_mem_nil _ h).elim
  acceptedOwner _ _ h := (List.not_mem_nil _ h).elim
  fresh _ _ := ⟨rfl, rfl⟩
  noWorker w h := by simp [State.initial, h]
  forwardedDispatched _ _ h := (List.not_mem_nil _ h).elim
  forwardedMember _ _ h := (List.not_mem_nil _ h).elim
  forwardedNodup _ := List.nodup_nil
  forwardedOnce _ _ _ _ h := (List.not_mem_nil _ h).elim
  forwardedDisjoint _ _ _ h := (List.not_mem_nil _ h).elim

end

/-! ## Facts every step lemma uses -/

theorem State.mem_top {s : State} {t : ThreadId} {f : Frame} {rest : List Frame}
    (hs : s.stack t = f :: rest) : f ∈ s.stack t := hs ▸ .head _

theorem State.mem_top_rest {s : State} {t : ThreadId} {f g : Frame} {rest : List Frame}
    (hs : s.stack t = f :: rest) (hg : g ∈ rest) : g ∈ s.stack t := hs ▸ .tail _ hg

namespace Inv

variable {T : Topology} {s : State} (hi : Inv T s)
include hi

theorem actor_ne_of_lock_none {a : Nat} (ha : s.lock a = none) {t : ThreadId} {f : Frame}
    (hf : f ∈ s.stack t) : f.actor ≠ a := by
  rintro rfl; rw [(hi.frame t f hf).lock] at ha; cases ha

/-- Two invocations of one actor are one invocation on one thread. -/
theorem frame_unique {t t' : ThreadId} {f f' : Frame} (hf : f ∈ s.stack t) (hf' : f' ∈ s.stack t')
    (he : f.actor = f'.actor) : t = t' ∧ f = f' := by
  have h1 := (hi.frame t f hf).lock
  rw [he, (hi.frame t' f' hf').lock] at h1
  cases h1
  exact ⟨rfl, List.inj_on_of_nodup_map (hi.nodup t) hf hf' he⟩

theorem accepted_of_contents {w m : Nat} (h : m ∈ (s.msgq w).contents) :
    m ∈ (s.accepted w).map Prod.fst := by
  rw [hi.accounting w]; simp [h]

theorem accepted_of_dispatched {w m : Nat} (h : m ∈ s.dispatched w) :
    m ∈ (s.accepted w).map Prod.fst := by
  rw [hi.accounting w]; simp [h]

theorem accepted_of_ready {w m : Nat} {shut : Bool} (h : s.loop (.worker w) = .ready m shut) :
    m ∈ (s.accepted w).map Prod.fst := by
  rw [hi.accounting w, h]; simp [Loop.held]

theorem not_accepted_of_owner {m : Nat} {t : ThreadId} (ho : s.owner m = some t) (w : Nat) :
    m ∉ (s.accepted w).map Prod.fst := fun h => by
  rw [(hi.acceptedOwner w m h).1] at ho; cases ho

theorem lt_of_heap {m : Nat} {msg : Message} (h : s.heap m = some msg) : m < s.nextUid := by
  by_contra hc; rw [(hi.fresh m (Nat.not_lt.1 hc)).1] at h; cases h

/-- A message its thread owns is the message of no invocation whose handler reads it. -/
theorem owned_frame {m : Nat} {t t' : ThreadId} {f : Frame} (ho : s.owner m = some t)
    (htop : ∀ g ∈ s.stack t, g.pc ≠ .forwardSet ∧ g.pc ≠ .forwardCall)
    (hf : f ∈ s.stack t') (hm : f.msg = m) :
    f.mode = .fast ∧ f.pc ≠ .forwardSet ∧ f.pc ≠ .forwardCall := by
  have hok := hi.frame t' f hf
  cases hmode : f.mode with
  | async dd =>
    obtain ⟨_, _, _, _, _, _, _, _, _, hown, _⟩ := hok.async dd hmode
    rw [hm, ho] at hown; cases hown
  | fast =>
    refine ⟨rfl, ?_⟩
    by_contra hc
    rw [not_and_or, not_not, not_not] at hc
    obtain ⟨-, hown, -⟩ := hok.fastForward hmode hc
    rw [hm, ho] at hown; cases hown
    exact absurd hc (not_or.2 (htop f hf))

theorem hasWorker_of_loop {w : Nat} (h : s.loop (.worker w) ≠ .stopped) : T.hasWorker w = true := by
  by_contra hc; exact h (hi.noWorker w (by simpa using hc))

theorem mailboxOf_of_loop {w : Nat} (h : s.loop (.worker w) ≠ .stopped) : T.mailboxOf w = w :=
  T.mailboxOf_of_hasWorker (hi.hasWorker_of_loop h)

/-- A worker outside `process_message_internal` runs no handler. -/
theorem stack_eq_nil (w : Nat) (h : ∀ m shut, s.loop (.worker w) ≠ .running m shut) :
    s.stack (.worker w) = [] := by
  by_contra hc; obtain ⟨m, shut, hr⟩ := hi.busy w hc; exact h m shut hr

/-- An asynchronous invocation runs on the worker of its actor's mailbox. -/
theorem async_thread {t : ThreadId} {f : Frame} (hf : f ∈ s.stack t) {dd : Bool}
    (hm : f.mode = .async dd) : t = .worker (T.mailboxOf f.actor) := by
  obtain ⟨w, shut, msg, d, rfl, h2, -, -, h5, -, -, -, h9⟩ := (hi.frame t f hf).async dd hm
  cases dd with
  | true => rw [h9, if_pos rfl, h5]
  | false => rw [h9, if_neg Bool.false_ne_true, hi.mailboxOf_of_loop (by rw [h2]; simp)]

/-- Two asynchronous invocations of messages for one mailbox run in one turn of its worker. -/
theorem async_msg_eq {t t' : ThreadId} {f g : Frame} (hf : f ∈ s.stack t) (hg : g ∈ s.stack t')
    {dd dd' : Bool} (hfm : f.mode = .async dd) (hgm : g.mode = .async dd')
    (he : T.mailboxOf f.actor = T.mailboxOf g.actor) : t = t' ∧ f.msg = g.msg := by
  have h1 := hi.async_thread hf hfm
  have h2 := hi.async_thread hg hgm
  obtain ⟨_, _, _, _, e1, l1, -⟩ := (hi.frame t f hf).async dd hfm
  obtain ⟨_, _, _, _, e2, l2, -⟩ := (hi.frame t' g hg).async dd' hgm
  have ht : t = t' := by rw [h1, h2, he]
  subst ht
  rw [l1] at l2
  exact ⟨rfl, (Loop.running.inj l2).1⟩

/-- The handler an asynchronous invocation runs reads the message its worker's turn is for. -/
theorem async_mailbox_msg {t : ThreadId} {f : Frame} (hf : f ∈ s.stack t) {dd : Bool}
    (hm : f.mode = .async dd) {msg : Message} {d : Nat} (hh : s.heap f.msg = some msg)
    (hd : msg.destination = some d) : T.mailboxOf d = T.mailboxOf f.actor := by
  obtain ⟨w, _, msg', d', rfl, -, h3, h4, h5, -⟩ := (hi.frame t f hf).async dd hm
  have := hi.async_thread hf hm
  rw [hh] at h3; cases h3; rw [hd] at h4; cases h4
  rw [h5]; exact (ThreadId.worker.inj this)

/-- Only the top invocation of a thread is inside `forward`. -/
theorem rest_not_forward {t : ThreadId} {f g : Frame} {rest : List Frame} (hs : s.stack t = f :: rest)
    (hg : g ∈ rest) : g.pc ≠ .forwardSet ∧ g.pc ≠ .forwardCall := by
  by_contra hc
  rw [not_and_or, not_not, not_not] at hc
  obtain ⟨rest', hr⟩ := hi.forwardTop t g (State.mem_top_rest hs hg) hc
  rw [hs, List.cons.injEq] at hr
  obtain ⟨rfl, -⟩ := hr
  have := hi.nodup t
  rw [hs, List.map_cons, List.nodup_cons] at this
  exact this.1 (List.mem_map_of_mem _ hg)

/-- `forwardCall` is reached only in an asynchronous invocation. -/
theorem async_of_forwardCall {t : ThreadId} {f : Frame} (hf : f ∈ s.stack t)
    (hp : f.pc = .forwardCall) : ∃ dd, f.mode = .async dd := by
  cases hm : f.mode with
  | async dd => exact ⟨dd, rfl⟩
  | fast =>
    have := ((hi.frame t f hf).fastForward hm (.inr hp)).1
    rw [hp] at this; cases this

theorem not_dispatched_of_ready {w m : Nat} {shut : Bool} (hr : s.loop (.worker w) = .ready m shut)
    (w' : Nat) : m ∉ s.dispatched w' := fun hd => by
  have hw := hi.acceptedDisjoint _ _ m (hi.accepted_of_dispatched hd) (hi.accepted_of_ready hr)
  subst hw
  have := hi.acceptedNodup w'
  rw [hi.accounting, hr, Loop.held, List.nodup_append, List.nodup_append] at this
  exact this.1.2.2 hd (.head _)

theorem not_contents_of_dispatched {w m : Nat} (hd : m ∈ s.dispatched w) (w' : Nat) :
    m ∉ (s.msgq w').contents := fun hc => by
  have hw := hi.acceptedDisjoint _ _ m (hi.accepted_of_dispatched hd) (hi.accepted_of_contents hc)
  subst hw
  have := hi.acceptedNodup w
  rw [hi.accounting, List.append_assoc, List.nodup_append] at this
  exact this.2.2 hd (List.mem_append_right _ hc)

theorem not_forwarded_of_owner {m : Nat} {t : ThreadId} (ho : s.owner m = some t) (d : Nat) :
    m ∉ s.forwarded d := fun h =>
  hi.not_accepted_of_owner ho _ (hi.accepted_of_dispatched (hi.forwardedDispatched d m h))

theorem rest_bottom {t : ThreadId} {f g : Frame} {rest : List Frame} (hs : s.stack t = f :: rest)
    (hg : g ∈ rest) (hm : g.mode = .async false) : ∃ pre, rest = pre ++ [g] := by
  obtain ⟨pre, hp⟩ := hi.bottom t g (State.mem_top_rest hs hg) hm
  rw [hs] at hp
  cases pre with
  | nil => rw [List.nil_append, List.cons.injEq] at hp; rw [hp.2] at hg; cases hg
  | cons x pre => exact ⟨pre, (List.cons.inj hp).2⟩

/-- The worker loop's own invocation is the only one on its thread when it is on top. -/
theorem rest_nil_of_bottom {t : ThreadId} {f : Frame} {rest : List Frame} (hs : s.stack t = f :: rest)
    (hm : f.mode = .async false) : rest = [] := by
  obtain ⟨pre, hp⟩ := hi.bottom t f (State.mem_top hs) hm
  rw [hs] at hp
  cases pre with
  | nil => exact (List.cons.inj hp).2
  | cons x pre =>
    obtain ⟨rfl, hr⟩ := List.cons.inj hp
    have := hi.nodup t
    rw [hs, hr, List.map_cons, List.nodup_cons] at this
    exact absurd (List.mem_map_of_mem _ (List.mem_append_right _ (.head _))) this.1

/-- `using_fast_send` is set only under a `fast_send` invocation. -/
theorem fast_of_usingFastSend {t : ThreadId} {f : Frame} (hf : f ∈ s.stack t)
    (hu : s.usingFastSend f.actor = true) : f.mode = .fast := by
  cases hm : f.mode with
  | fast => rfl
  | async dd =>
    obtain ⟨_, _, _, _, _, _, _, _, _, _, h7, _⟩ := (hi.frame t f hf).async dd hm
    rw [hu] at h7; cases h7

/-- A message its thread owns is not the message of an invocation whose handler reads it. -/
theorem msg_ne_of_owned {m : Nat} {t t' : ThreadId} {g : Frame} (ho : s.owner m = some t)
    (htop : ∀ g ∈ s.stack t, g.pc ≠ .forwardSet ∧ g.pc ≠ .forwardCall) (hg : g ∈ s.stack t')
    (hfw : g.mode = .fast → g.pc = .forwardSet ∨ g.pc = .forwardCall) : g.msg ≠ m := fun he => by
  obtain ⟨h1, h2, h3⟩ := hi.owned_frame ho htop hg he
  rcases hfw h1 with h | h <;> contradiction

/-- A message the runtime owns, for the mailbox of `d`, is read only by invocations on that
mailbox's worker. -/
theorem msg_ne_of_thread {m d : Nat} {msg : Message} {t' : ThreadId} {g : Frame}
    (hm : s.heap m = some msg) (hd : msg.destination = some d) (ho : s.owner m = none)
    (hg : g ∈ s.stack t') (ht : t' ≠ .worker (T.mailboxOf d))
    (hfw : g.mode = .fast → g.pc = .forwardSet ∨ g.pc = .forwardCall) : g.msg ≠ m := fun he => by
  cases hmode : g.mode with
  | fast =>
    have := ((hi.frame t' g hg).fastForward hmode (hfw hmode)).2.1
    rw [he, ho] at this; cases this
  | async dd =>
    have h1 := hi.async_thread hg hmode
    rw [hi.async_mailbox_msg hg hmode (he ▸ hm) hd] at ht
    exact ht h1

end Inv

end Actors
