/-
When a thread can never move again. `Actor::fast_send` holds the callee's `fast_send_mutex`, a
plain `std::mutex`, for the whole handler call, and only the thread that took it releases it, on
return. So a thread that calls `fast_send` on an actor whose handler is active on its own stack, or
two threads that call it on each other's actors, wait for ever, whatever the other threads do.
A Group's `forward` stops its thread in two ways: a `fast_send` of a message the Group does not fan
out fails `assert(!m->is_fast)`, and a message sent to the Group itself makes its worker call the
Group's own `process_message_internal`, which waits on the mutex the worker holds. Such a thread
takes no step again, and every run from there is a run of the other threads.
-/
import Actors.Runtime.Lifecycle

namespace Actors

/-- The thread an action is a step of. -/
def Action.thread : Action → ThreadId
  | .alloc t _ | .send t _ _ _ | .fastSend t _ _ _ | .reply t _ | .setTerminated t _ | .ret t
  | .group t => t
  | .pop w | .processMessageInternal w => .worker w

/-- `s'` follows `s` by one step of a thread that satisfies `p`. -/
def NextBy (T : Topology) (p : ThreadId → Prop) (s s' : State) : Prop :=
  ∃ a, p a.thread ∧ step T s a = some s'

/-- A run of actions all taken by threads that satisfy `p`. -/
theorem run_stepsBy {T : Topology} {p : ThreadId → Prop} :
    ∀ {s s' : State} (acts : List Action), (∀ a ∈ acts, p a.thread) → run T s acts = some s' →
      Relation.ReflTransGen (NextBy T p) s s'
  | _, _, [], _, h => by cases h; exact .refl
  | s, s', a :: as, hp, h => by
    unfold run at h
    rcases ha : step T s a with _ | s₁ <;> rw [ha] at h
    · cases h
    · exact .head ⟨a, hp a (List.mem_cons_self _ _), ha⟩
        (run_stepsBy as (fun b hb => hp b (List.mem_cons_of_mem _ hb)) h)

namespace State

variable {T : Topology} {s s' : State}

/-! ## What a step of another thread leaves -/

theorem stack_send {t : ThreadId} {r m : Nat} {sender : Option Nat}
    (h : s.send T t r m sender = some s') : s'.stack = s.stack := by
  obtain rfl | ⟨msg, -, -, rfl⟩ := send_eq_some T s h <;> rfl

theorem stack_fastSend {t t' : ThreadId} {r m : Nat} {sender : Option Nat}
    (h : s.fastSend T t' r m sender = some s') (ht : t ≠ t') : s'.stack t = s.stack t := by
  obtain ⟨msg, -, -, rfl | rfl⟩ := fastSend_eq_some T s h
  exacts [rfl, Function.update_noteq ht _ _]

/-- A step of another thread leaves a thread's stack as it is. -/
theorem stack_step_of_ne {a : Action} {t : ThreadId} (h : step T s a = some s')
    (ht : t ≠ a.thread) : s'.stack t = s.stack t := by
  cases a with
  | alloc t' id => simp only [step] at h; split_ifs at h; cases h; rfl
  | send t' r m sender => simp only [step] at h; split_ifs at h; rw [stack_send h]
  | fastSend t' r m sender => simp only [step] at h; split_ifs at h; exact stack_fastSend h ht
  | reply t' m =>
    simp only [step] at h; split_ifs at h
    obtain ⟨f, rest, -, ⟨-, msg, -, rfl⟩ | ⟨-, d, -, hs⟩⟩ := reply_eq_some T s h
    exacts [Function.update_noteq ht _ _, by rw [stack_send hs]]
  | setTerminated t' a => simp only [step] at h; split_ifs at h; cases h; rfl
  | ret t' =>
    obtain ⟨f, rest, -, -, ⟨-, rfl⟩ | ⟨-, rfl⟩ | ⟨w, m, shut, -, rfl, -, rfl⟩⟩ := ret_eq_some s h <;>
      exact Function.update_noteq ht _ _
  | pop w => obtain ⟨m, last, q, msg, -, -, -, rfl⟩ := pop_eq_some s h; rfl
  | processMessageInternal w =>
    obtain ⟨m, shut, msg, -, -, -, rfl⟩ := processMessageInternal_eq_some T s h
    exact Function.update_noteq ht _ _
  | group t' =>
    obtain ⟨f, rest, -, ⟨_, -, rfl⟩ | ⟨id, _, todo, -, h'⟩ | ⟨_, _, _, _, -, -, rfl⟩ |
      ⟨_, _, -, -, -, -, rfl⟩⟩ := groupStep_eq_some T s h
    · exact Function.update_noteq ht _ _
    · rw [stack_fastSend h' ht]; exact Function.update_noteq ht _ _
    · exact Function.update_noteq ht _ _
    · exact (Function.update_noteq ht _ _).trans (Function.update_noteq ht _ _)

theorem lock_send {t : ThreadId} {r m : Nat} {sender : Option Nat}
    (h : s.send T t r m sender = some s') : s'.lock = s.lock := by
  obtain rfl | ⟨msg, -, -, rfl⟩ := send_eq_some T s h <;> rfl

theorem lock_fastSend {t : ThreadId} {r m a : Nat} {sender : Option Nat}
    (h : s.fastSend T t r m sender = some s') (ha : s.lock a ≠ none) : s'.lock a = s.lock a := by
  obtain ⟨msg, -, hr, rfl | rfl⟩ := fastSend_eq_some T s h
  exacts [rfl, Function.update_noteq (fun (he : a = r) => ha (he ▸ hr)) _ _]

/-- A step of another thread leaves a held `fast_send_mutex` held: only the invocation that took
it releases it, on its own thread. -/
theorem lock_step_of_ne (hi : Inv T s) {a : Action} {t : ThreadId} {x : Nat}
    (h : step T s a = some s') (hl : s.lock x = some t) (ht : t ≠ a.thread) : s'.lock x = some t := by
  have hx : s.lock x ≠ none := by rw [hl]; exact Option.some_ne_none t
  cases a with
  | alloc t' id => simp only [step] at h; split_ifs at h; cases h; exact hl
  | send t' r m sender => simp only [step] at h; split_ifs at h; rw [lock_send h, hl]
  | fastSend t' r m sender =>
    simp only [step] at h; split_ifs at h; rw [lock_fastSend h hx, hl]
  | reply t' m =>
    simp only [step] at h; split_ifs at h
    obtain ⟨f, rest, -, ⟨-, msg, -, rfl⟩ | ⟨-, d, -, hs⟩⟩ := reply_eq_some T s h
    exacts [hl, by rw [lock_send hs, hl]]
  | setTerminated t' a => simp only [step] at h; split_ifs at h; cases h; exact hl
  | ret t' =>
    obtain ⟨f, rest, hs, -, hk⟩ := ret_eq_some s h
    have hfx : f.actor ≠ x := by
      rintro rfl
      exact ht (Option.some.inj (hl.symm.trans (hi.frame t' f (mem_top hs)).lock))
    have hu : (s.unlock t' f rest).lock x = some t := (Function.update_noteq hfx.symm _ _).trans hl
    obtain ⟨-, rfl⟩ | ⟨-, rfl⟩ | ⟨w, m, shut, -, rfl, -, rfl⟩ := hk <;> exact hu
  | pop w => obtain ⟨m, last, q, msg, -, -, -, rfl⟩ := pop_eq_some s h; exact hl
  | processMessageInternal w =>
    obtain ⟨m, shut, msg, -, -, hw, rfl⟩ := processMessageInternal_eq_some T s h
    exact (Function.update_noteq (fun (he : x = w) => hx (he ▸ hw)) _ _).trans hl
  | group t' =>
    obtain ⟨f, rest, -, ⟨_, -, rfl⟩ | ⟨id, _, todo, -, h'⟩ | ⟨_, _, _, _, -, -, rfl⟩ |
      ⟨_, d, -, -, -, hd, rfl⟩⟩ := groupStep_eq_some T s h
    · exact hl
    · exact (lock_fastSend h' hx).trans hl
    · exact hl
    · exact (Function.update_noteq (fun (he : x = d) => hx (he ▸ hd)) _ _).trans hl

/-- `fast_send` on an actor whose mutex is held waits. -/
theorem fastSend_of_held {t t' : ThreadId} {r m : Nat} {sender : Option Nat}
    (hl : s.lock r = some t') : s.fastSend T t r m sender = none := by
  unfold fastSend; split <;> simp [hl]

theorem dispatched_step_of_ne {a : Action} {w : Nat} (h : step T s a = some s')
    (ht : .worker w ≠ a.thread) : s'.dispatched w = s.dispatched w := by
  cases a with
  | alloc t' id => simp only [step] at h; split_ifs at h; cases h; rfl
  | send t' r m sender =>
    simp only [step] at h; split_ifs at h
    obtain rfl | ⟨msg, -, -, rfl⟩ := send_eq_some T s h <;> rfl
  | fastSend t' r m sender =>
    simp only [step] at h; split_ifs at h
    obtain ⟨msg, -, -, rfl | rfl⟩ := fastSend_eq_some T s h <;> rfl
  | reply t' m =>
    simp only [step] at h; split_ifs at h
    obtain ⟨f, rest, -, ⟨-, msg, -, rfl⟩ | ⟨-, d, -, hs⟩⟩ := reply_eq_some T s h
    · rfl
    · obtain rfl | ⟨msg, -, -, rfl⟩ := send_eq_some T s hs <;> rfl
  | setTerminated t' a => simp only [step] at h; split_ifs at h; cases h; rfl
  | ret t' =>
    obtain ⟨f, rest, -, -, ⟨-, rfl⟩ | ⟨-, rfl⟩ | ⟨w', m, shut, -, rfl, -, rfl⟩⟩ := ret_eq_some s h <;> rfl
  | pop w' => obtain ⟨m, last, q, msg, -, -, -, rfl⟩ := pop_eq_some s h; rfl
  | processMessageInternal w' =>
    obtain ⟨m, shut, msg, -, -, -, rfl⟩ := processMessageInternal_eq_some T s h
    exact Function.update_noteq (fun he => ht (by rw [he]; rfl)) _ _
  | group t' =>
    obtain ⟨f, rest, -, ⟨_, -, rfl⟩ | ⟨id, _, todo, -, h'⟩ | ⟨_, _, _, _, -, -, rfl⟩ |
      ⟨_, _, -, -, -, -, rfl⟩⟩ := groupStep_eq_some T s h
    · rfl
    · obtain ⟨msg, -, -, rfl | rfl⟩ := fastSend_eq_some T _ h' <;> rfl
    · rfl
    · rfl

/-- Only a mailbox's own worker takes from it: a step of another thread only pushes behind. -/
theorem contents_prefix_step_of_ne {a : Action} {w : Nat} (h : step T s a = some s')
    (ht : .worker w ≠ a.thread) : (s.msgq w).contents <+: (s'.msgq w).contents := by
  cases a with
  | alloc t' id => simp only [step] at h; split_ifs at h; cases h; exact List.prefix_refl _
  | send t' r m sender =>
    simp only [step] at h; split_ifs at h
    obtain rfl | ⟨msg, -, -, rfl⟩ := send_eq_some T s h
    exacts [List.prefix_refl _, contents_prefix_accept t' r m sender msg w]
  | fastSend t' r m sender =>
    simp only [step] at h; split_ifs at h
    obtain ⟨msg, -, -, rfl | rfl⟩ := fastSend_eq_some T s h <;> exact List.prefix_refl _
  | reply t' m =>
    simp only [step] at h; split_ifs at h
    obtain ⟨f, rest, -, ⟨-, msg, -, rfl⟩ | ⟨-, d, -, hs⟩⟩ := reply_eq_some T s h
    · exact List.prefix_refl _
    · obtain rfl | ⟨msg, -, -, rfl⟩ := send_eq_some T s hs
      exacts [List.prefix_refl _, contents_prefix_accept t' d m _ msg w]
  | setTerminated t' a => simp only [step] at h; split_ifs at h; cases h; exact List.prefix_refl _
  | ret t' =>
    obtain ⟨f, rest, -, -, ⟨-, rfl⟩ | ⟨-, rfl⟩ | ⟨w', m, shut, -, rfl, -, rfl⟩⟩ := ret_eq_some s h <;>
      exact List.prefix_refl _
  | pop w' =>
    obtain ⟨m, last, q, msg, -, -, -, rfl⟩ := pop_eq_some s h
    have hw : w ≠ w' := fun he => ht (by rw [he]; rfl)
    simp only [popped, Function.update_noteq hw]
    exact List.prefix_refl _
  | processMessageInternal w' =>
    obtain ⟨m, shut, msg, -, -, -, rfl⟩ := processMessageInternal_eq_some T s h
    exact List.prefix_refl _
  | group t' =>
    obtain ⟨f, rest, -, ⟨_, -, rfl⟩ | ⟨id, _, todo, -, h'⟩ | ⟨_, _, _, _, -, -, rfl⟩ |
      ⟨_, _, -, -, -, -, rfl⟩⟩ := groupStep_eq_some T s h
    · exact List.prefix_refl _
    · obtain ⟨msg, -, -, rfl | rfl⟩ := fastSend_eq_some T _ h' <;> exact List.prefix_refl _
    · exact List.prefix_refl _
    · exact List.prefix_refl _

/-! ## The destination of a message -/

/-- A write of a message object that keeps its destination. -/
theorem destination_update {heap : Nat → Option Message} {m m' d : Nat} {msg msg' : Message}
    (hm : heap m' = some msg) (he : msg'.destination = msg.destination)
    (hd : (heap m).bind Message.destination = some d) :
    (Function.update heap m' (some msg') m).bind Message.destination = some d := by
  by_cases h : m = m'
  · subst h; rw [hm] at hd; rw [Function.update_same, Option.some_bind, he]; exact hd
  · rw [Function.update_noteq h]; exact hd

theorem destination_send {t : ThreadId} {r m' m d : Nat} {sender : Option Nat}
    (h : s.send T t r m' sender = some s') (hd : (s.heap m).bind Message.destination = some d) :
    (s'.heap m).bind Message.destination = some d := by
  obtain rfl | ⟨msg, hm, hnone, rfl⟩ := send_eq_some T s h
  · exact hd
  · have hne : m ≠ m' := by rintro rfl; rw [hm, Option.some_bind, hnone] at hd; cases hd
    show (Function.update s.heap m' _ m).bind _ = _
    rw [Function.update_noteq hne]; exact hd

theorem destination_fastSend {t : ThreadId} {r m' m d : Nat} {sender : Option Nat}
    (h : s.fastSend T t r m' sender = some s') (hd : (s.heap m).bind Message.destination = some d) :
    (s'.heap m).bind Message.destination = some d := by
  obtain ⟨msg, hm, -, rfl | rfl⟩ := fastSend_eq_some T s h <;> exact destination_update hm rfl hd

/-- The destination `send` stamps on a message stays as long as the message does: no step writes
another. -/
theorem destination_step (hi : Inv T s) {a : Action} {m d : Nat} (h : step T s a = some s')
    (hd : (s.heap m).bind Message.destination = some d) :
    (s'.heap m).bind Message.destination = some d ∨ s'.heap m = none := by
  have hne : m ≠ s.nextUid := by rintro rfl; rw [(hi.fresh _ le_rfl).1] at hd; cases hd
  cases a with
  | alloc t' id =>
    simp only [step] at h; split_ifs at h; cases h
    exact .inl (by show (Function.update s.heap _ _ m).bind _ = _; rw [Function.update_noteq hne]; exact hd)
  | send t' r m' sender =>
    simp only [step] at h; split_ifs at h; exact .inl (destination_send h hd)
  | fastSend t' r m' sender =>
    simp only [step] at h; split_ifs at h; exact .inl (destination_fastSend h hd)
  | reply t' r =>
    simp only [step] at h; split_ifs at h
    obtain ⟨f, rest, -, ⟨-, msg, hm, rfl⟩ | ⟨-, d', -, hs⟩⟩ := reply_eq_some T s h
    exacts [.inl (destination_update hm rfl hd), .inl (destination_send hs hd)]
  | setTerminated t' a => simp only [step] at h; split_ifs at h; cases h; exact .inl hd
  | ret t' =>
    obtain ⟨f, rest, -, -, ⟨-, rfl⟩ | ⟨-, rfl⟩ | ⟨w, m', shut, -, rfl, -, rfl⟩⟩ := ret_eq_some s h
    · exact .inl hd
    · exact .inl hd
    · show (Function.update s.heap f.msg none m).bind _ = _ ∨ Function.update s.heap f.msg none m = _
      by_cases he : m = f.msg
      · exact .inr (by rw [he, Function.update_same])
      · rw [Function.update_noteq he]; exact .inl hd
  | pop w => obtain ⟨m', last, q, msg, -, -, hm, rfl⟩ := pop_eq_some s h; exact .inl (destination_update hm rfl hd)
  | processMessageInternal w =>
    obtain ⟨m', shut, msg, -, -, -, rfl⟩ := processMessageInternal_eq_some T s h; exact .inl hd
  | group t' =>
    obtain ⟨f, rest, -, ⟨_, -, rfl⟩ | ⟨id, _, todo, -, h'⟩ | ⟨_, _, _, _, -, -, rfl⟩ |
      ⟨_, _, -, -, -, -, rfl⟩⟩ := groupStep_eq_some T s h
    · exact .inl hd
    · exact .inl (destination_fastSend h' (by simpa [alloc, setPc, Function.update_noteq hne] using hd))
    · exact .inl hd
    · exact .inl hd

/-! ## Threads stopped inside `forward` -/

/-- Thread `t` is stopped inside a Group's `forward`: a `fast_send` invocation at
`assert(!m->is_fast)`, or an invocation at `m->destination->process_message_internal(m, true)`
whose message is for the Group itself, whose mutex the thread holds. -/
def Stalled (s : State) (t : ThreadId) : Prop :=
  ∃ f rest, s.stack t = f :: rest ∧
    ((f.mode = .fast ∧ f.pc = .forwardSet) ∨
     (f.pc = .forwardCall ∧ (s.heap f.msg).bind Message.destination = some f.actor))

/-- A stalled thread can take no step. -/
theorem step_none_of_stalled (hi : Inv T s) {t : ThreadId} (hst : Stalled s t) (a : Action)
    (ha : a.thread = t) : step T s a = none := by
  obtain ⟨f, rest, hs, hf⟩ := hst
  have hpc : f.pc = .forwardSet ∨ f.pc = .forwardCall := hf.imp (·.2) (·.1)
  have hu : s.userCode t = false := by rcases hpc with h | h <;> simp [userCode, hs, h]
  have hbusy : ∀ w, t = .worker w → ∃ m shut, s.loop (.worker w) = .running m shut := by
    rintro w rfl; exact hi.busy w (by simp [hs])
  cases a <;> simp only [Action.thread] at ha <;> subst ha
  case ret => rcases hpc with h | h <;> simp [step, ret, hs, h]
  case pop w => obtain ⟨m, shut, hl⟩ := hbusy w rfl; simp [step, pop, hl]
  case processMessageInternal w =>
    obtain ⟨m, shut, hl⟩ := hbusy w rfl; simp [step, processMessageInternal, hl]
  case group t =>
    rcases hf with ⟨hmode, hpc⟩ | ⟨hpc, hd⟩
    · -- the assertion `!m->is_fast` fails
      obtain ⟨-, -, msg, hm, hfast⟩ :=
        (hi.frame _ f (State.mem_top hs)).fastForward hmode (.inl hpc)
      obtain ⟨id, sender, dest, isFast, last⟩ := msg
      subst hfast
      simp [step, groupStep, hs, hpc, hm]
    · -- the Group's own mutex is held by this very thread
      obtain ⟨msg, hm, hd'⟩ : ∃ msg, s.heap f.msg = some msg ∧ msg.destination = some f.actor := by
        cases hm : s.heap f.msg with
        | none => rw [hm] at hd; cases hd
        | some msg => rw [hm] at hd; exact ⟨msg, rfl, hd⟩
      simp [step, groupStep, hs, hpc, hm, hd', (hi.frame _ f (State.mem_top hs)).lock]
  all_goals simp [step, hu]

/-- A step of another thread leaves a stalled thread stalled. -/
theorem stalled_step_of_ne (hi : Inv T s) {t : ThreadId} (hst : Stalled s t) {a : Action}
    (h : step T s a = some s') (ht : t ≠ a.thread) : Stalled s' t := by
  obtain ⟨f, rest, hs, hf⟩ := hst
  have hs' : s'.stack t = f :: rest := (stack_step_of_ne h ht).trans hs
  refine ⟨f, rest, hs', hf.imp id fun ⟨hpc, hd⟩ => ⟨hpc, ?_⟩⟩
  refine (destination_step hi h hd).resolve_right fun hnone => ?_
  obtain ⟨msg, d, hm, -⟩ := ((hi.step h).frame t f (State.mem_top hs')).forwardCall hpc
  rw [hnone] at hm; cases hm

end State

/-- Every run from a reachable state where `t` is stalled is a run of the other threads, and
leaves `t` stalled. -/
theorem stalled_runs {T : Topology} {s s' : State} (h : Reachable T s) {t : ThreadId}
    (hst : State.Stalled s t) (hrun : Relation.ReflTransGen (Next T) s s') :
    Relation.ReflTransGen (NextBy T (· ≠ t)) s s' ∧ State.Stalled s' t := by
  induction hrun with
  | refl => exact ⟨.refl, hst⟩
  | tail hr hn ih =>
    obtain ⟨a, ha⟩ := hn
    have hi := (h.of_steps hr).inv
    by_cases ht : t = a.thread
    · rw [State.step_none_of_stalled hi ih.2 a ht.symm] at ha; cases ha
    · exact ⟨ih.1.tail ⟨a, Ne.symm ht, ha⟩, State.stalled_step_of_ne hi ih.2 ha ht⟩

/-- What every step of the other threads keeps, every run of them keeps. -/
theorem runs_other_eq {T : Topology} {α : Type} (F : State → α) {t : ThreadId}
    (hF : ∀ {s s' : State} {a : Action}, step T s a = some s' → t ≠ a.thread → F s' = F s)
    {s s' : State} (hrun : Relation.ReflTransGen (NextBy T (· ≠ t)) s s') : F s' = F s := by
  induction hrun with
  | refl => rfl
  | tail _ hn ih => obtain ⟨a, ha, hs⟩ := hn; exact (hF hs (Ne.symm ha)).trans ih


/-- Over every run of threads other than the worker of `w`, the mailbox of `w` only grows at its
end. -/
theorem contents_prefix_runs {T : Topology} {w : Nat} {s s' : State}
    (hrun : Relation.ReflTransGen (NextBy T (· ≠ .worker w)) s s') :
    (s.msgq w).contents <+: (s'.msgq w).contents := by
  induction hrun with
  | refl => exact List.prefix_refl _
  | tail _ hn ih =>
    obtain ⟨a, ha, hs⟩ := hn
    exact ih.trans (State.contents_prefix_step_of_ne hs (Ne.symm ha))

/-- A `fast_send_mutex` held by thread `t` stays held by it over every run of the other threads. -/
theorem lock_stays {T : Topology} {s s' : State} (h : Reachable T s) {t : ThreadId} {x : Nat}
    (hl : s.lock x = some t) (hrun : Relation.ReflTransGen (NextBy T (· ≠ t)) s s') :
    s'.lock x = some t := by
  induction hrun with
  | refl => exact hl
  | tail hr hn ih =>
    obtain ⟨a, ha, hs⟩ := hn
    have hreach : Reachable _ _ := h.of_steps (hr.mono fun _ _ ⟨a, _, hs⟩ => ⟨a, hs⟩)
    exact State.lock_step_of_ne hreach.inv hs ih (Ne.symm ha)

/-- A `fast_send` by thread `t` on an actor whose handler is active on thread `t'` cannot proceed
before `t'` takes a step. -/
theorem fastSend_blocked {T : Topology} {s s' : State} (h : Reachable T s) {t t' : ThreadId}
    {f : Frame} (hf : f ∈ s.stack t') (hrun : Relation.ReflTransGen (NextBy T (· ≠ t')) s s')
    (m : Nat) (snd : Option Nat) : step T s' (.fastSend t f.actor m snd) = none := by
  have hl := lock_stays h (h.inv.frame t' f hf).lock hrun
  simp only [step, State.fastSend_of_held hl, ite_self]

/-- `fast_send` does not re-enter an actor: a thread that calls `fast_send` on an actor whose
handler is active on its own stack (the actor it is handling a message for, or one that
`fast_send`ed to the thread's current actor) waits on a mutex it holds itself, whatever the other
threads do. -/
theorem fastSend_reentry_blocks {T : Topology} {s s' : State} (h : Reachable T s) {t : ThreadId}
    {f : Frame} (hf : f ∈ s.stack t) (hrun : Relation.ReflTransGen (NextBy T (· ≠ t)) s s')
    (m : Nat) (snd : Option Nat) : step T s' (.fastSend t f.actor m snd) = none :=
  fastSend_blocked h hf hrun m snd

/-- In `blockedState`, thread 1, inside the handler of actor 3, allocates a message of its own. -/
def reentryState : State := (run groupTopology blockedState [.alloc (.other 1) 102]).getD blockedState

/-- Meanwhile the main thread sends actor 3 another message. -/
def reentryOthers : List Action := [.alloc (.other 0) 103, .send (.other 0) 3 3 none]

/-- The state `reentryOthers` reaches from `reentryState`. -/
def reentryLater : State := (run groupTopology reentryState reentryOthers).getD reentryState

/-- Thread 1 calls `fast_send` on 3 with its message after the main thread's steps. -/
theorem fastSend_reentry_blocks_blocked :
    (⟨3, 1, .fast, .user, none⟩ : Frame) ∈ reentryState.stack (.other 1) ∧
    Relation.ReflTransGen (NextBy groupTopology (· ≠ .other 1)) reentryState reentryLater ∧
    step groupTopology reentryLater (.fastSend (.other 1) 3 2 none) = none :=
  have h : Reachable groupTopology reentryState :=
    reachable_run blockedState_reachable [.alloc (.other 1) 102] rfl
  have hf : (⟨3, 1, .fast, .user, none⟩ : Frame) ∈ reentryState.stack (.other 1) := by decide
  have hrun : Relation.ReflTransGen (NextBy groupTopology (· ≠ .other 1)) reentryState reentryLater :=
    run_stepsBy reentryOthers (by decide) rfl
  ⟨hf, hrun, fastSend_reentry_blocks h hf hrun 2 none⟩

/-- Thread 1 owns message 2 and runs application code, so only the held mutex stops it. -/
example : reentryLater.owner 2 = some (.other 1) ∧ reentryLater.userCode (.other 1) = true ∧
    (reentryLater.msgq 3).contents = [3] := by
  decide

/-- Two threads inside handlers that call `fast_send` on each other's actors wait on each other
for ever, whatever the other threads do. -/
theorem fastSend_cycle_blocks {T : Topology} {s s' : State} (h : Reachable T s)
    {t₁ t₂ : ThreadId} {f₁ f₂ : Frame} (hf₁ : f₁ ∈ s.stack t₁) (hf₂ : f₂ ∈ s.stack t₂)
    (hrun : Relation.ReflTransGen (NextBy T fun t => t ≠ t₁ ∧ t ≠ t₂) s s')
    (m₁ m₂ : Nat) (snd₁ snd₂ : Option Nat) :
    step T s' (.fastSend t₁ f₂.actor m₁ snd₁) = none ∧
      step T s' (.fastSend t₂ f₁.actor m₂ snd₂) = none :=
  ⟨fastSend_blocked h hf₂ (hrun.mono fun _ _ ⟨a, ha, hs⟩ => ⟨a, ha.2, hs⟩) m₁ snd₁,
    fastSend_blocked h hf₁ (hrun.mono fun _ _ ⟨a, ha, hs⟩ => ⟨a, ha.1, hs⟩) m₂ snd₂⟩

/-- Thread 0 `fast_send`s to actor 3 and thread 1 to the Group member 1; inside the handlers each
allocates a message. -/
def crossedRun : List Action :=
  [.alloc (.other 0) 100, .fastSend (.other 0) 3 0 none, .alloc (.other 1) 101,
   .fastSend (.other 1) 1 1 none, .alloc (.other 0) 102, .alloc (.other 1) 103]

/-- The state `crossedRun` reaches. -/
def crossedState : State :=
  (run groupTopology (State.initial groupTopology) crossedRun).getD (State.initial groupTopology)

theorem crossedState_reachable : Reachable groupTopology crossedState :=
  reachable_run .initial crossedRun rfl

/-- Meanwhile thread 2 sends actor 3 a message, and the worker of 3 pops it. -/
def crossedOthers : List Action := [.alloc (.other 2) 104, .send (.other 2) 3 4 none, .pop 3]

/-- The state `crossedOthers` reaches from `crossedState`. -/
def crossedLater : State := (run groupTopology crossedState crossedOthers).getD crossedState

/-- After those steps, the handler of 3 calls `fast_send` on 1 and the handler of 1 on 3. -/
theorem fastSend_cycle_blocks_crossed :
    (⟨3, 0, .fast, .user, none⟩ : Frame) ∈ crossedState.stack (.other 0) ∧
    (⟨1, 1, .fast, .user, none⟩ : Frame) ∈ crossedState.stack (.other 1) ∧
    Relation.ReflTransGen (NextBy groupTopology fun t => t ≠ .other 0 ∧ t ≠ .other 1)
      crossedState crossedLater ∧
    step groupTopology crossedLater (.fastSend (.other 0) 1 2 none) = none ∧
      step groupTopology crossedLater (.fastSend (.other 1) 3 3 none) = none :=
  have hf₁ : (⟨3, 0, .fast, .user, none⟩ : Frame) ∈ crossedState.stack (.other 0) := by decide
  have hf₂ : (⟨1, 1, .fast, .user, none⟩ : Frame) ∈ crossedState.stack (.other 1) := by decide
  have hrun : Relation.ReflTransGen (NextBy groupTopology fun t => t ≠ .other 0 ∧ t ≠ .other 1)
      crossedState crossedLater :=
    run_stepsBy crossedOthers (by decide) rfl
  ⟨hf₁, hf₂, hrun, fastSend_cycle_blocks crossedState_reachable hf₁ hf₂ hrun 2 3 none none⟩

/-- Each thread owns the message it passes, and the worker of 3 holds the message it popped. -/
example : crossedLater.owner 2 = some (.other 0) ∧ crossedLater.owner 3 = some (.other 1) ∧
    crossedLater.loop (.worker 3) = .ready 4 false := by
  decide

/-- `fast_send` to a Group of a message that its `start_handler` and `shutdown_handler` do not fan
out (anything but a Start or a Shutdown from another sender to a Group with members) stops the
calling thread for good: the message reaches `forward`, whose `assert(!m->is_fast)` fails. -/
theorem fastSend_group_stalls {T : Topology} {s s₁ : State} (h : Reachable T s) {t : ThreadId}
    {g m : Nat} {snd : Option Nat} {msg : Message} (hg : T.isGroup g = true)
    (ht : s.terminated g = false) (hm : s.heap m = some msg)
    (hfan : ¬((msg.id = startId ∨ msg.id = shutdownId) ∧ snd ≠ some g ∧ T.members g ≠ []))
    (hstep : step T s (.fastSend t g m snd) = some s₁) :
    s₁.stack t = ⟨g, m, .fast, .forwardSet, none⟩ :: s.stack t ∧
      ∀ s', Relation.ReflTransGen (Next T) s₁ s' → s'.stack t = s₁.stack t := by
  have hr₁ : Reachable T s₁ := .step _ h hstep
  have hpc : T.entryPc g { msg with sender := snd, isFast := true, last := true } = .forwardSet := by
    simp only [Topology.entryPc, hg, if_true]; exact if_neg hfan
  have hs₁ : s₁.stack t = ⟨g, m, .fast, .forwardSet, none⟩ :: s.stack t := by
    simp only [step] at hstep; split_ifs at hstep
    simp only [State.fastSend, hm, ht, Bool.false_eq_true, ite_false] at hstep
    split_ifs at hstep; cases hstep
    simp [State.call, State.stampFast, hpc]
  refine ⟨hs₁, fun s' hs' => ?_⟩
  have hst : State.Stalled s₁ t := ⟨_, _, hs₁, .inl ⟨rfl, rfl⟩⟩
  exact runs_other_eq (fun s => s.stack t) State.stack_step_of_ne (stalled_runs hr₁ hst hs').1

/-- The main thread has allocated a message of identity 100. -/
def allocState : State :=
  (run groupTopology (State.initial groupTopology) [.alloc (.other 0) 100]).getD
    (State.initial groupTopology)

theorem allocState_reachable : Reachable groupTopology allocState :=
  reachable_run .initial [.alloc (.other 0) 100] rfl

/-- The state after the main thread `fast_send`s that message to the Group 0. -/
def groupFastState : State :=
  (step groupTopology allocState (.fastSend (.other 0) 0 0 none)).getD allocState

theorem fastSend_group_stalls_ping :
    groupTopology.isGroup 0 = true ∧ allocState.terminated 0 = false ∧
    allocState.heap 0 = some (Message.fresh 100) ∧
    ¬(((Message.fresh 100).id = startId ∨ (Message.fresh 100).id = shutdownId) ∧
      (none : Option Nat) ≠ some 0 ∧ groupTopology.members 0 ≠ []) ∧
    step groupTopology allocState (.fastSend (.other 0) 0 0 none) = some groupFastState ∧
    groupFastState.stack (.other 0) = ⟨0, 0, .fast, .forwardSet, none⟩ :: allocState.stack (.other 0) ∧
    ∀ s', Relation.ReflTransGen (Next groupTopology) groupFastState s' →
      s'.stack (.other 0) = groupFastState.stack (.other 0) :=
  have hm : allocState.heap 0 = some (Message.fresh 100) := by decide
  have hfan : ¬(((Message.fresh 100).id = startId ∨ (Message.fresh 100).id = shutdownId) ∧
      (none : Option Nat) ≠ some 0 ∧ groupTopology.members 0 ≠ []) := by decide
  have hstep : step groupTopology allocState (.fastSend (.other 0) 0 0 none) = some groupFastState :=
    rfl
  ⟨rfl, rfl, hm, hfan, hstep,
    fastSend_group_stalls allocState_reachable rfl rfl hm hfan hstep⟩

/-- A message sent to a Group itself that neither `start_handler` nor `shutdown_handler` fans out
stops the Group for good. Its worker pops it and `process_message` passes it to `forward`, whose
`m->destination->process_message_internal(m, true)` on the Group itself waits on the
`fast_send_mutex` the worker already holds. Whatever the other threads do, the worker then takes
no step and the Group dispatches nothing more: what is queued behind the message, for the Group
or its members, stays queued, in order, with what is sent later behind it. -/
theorem group_self_message_blocks {T : Topology} {s : State} (h : Reachable T s) {g m : Nat}
    {l : List Nat} {msg : Message} (hg : T.isGroup g = true) (hidle : s.loop (.worker g) = .idle)
    (hl : s.lock g = none) (hq : (s.msgq g).contents = m :: l) (hm : s.heap m = some msg)
    (hd : msg.destination = some g)
    (hfan : ¬((msg.id = startId ∨ msg.id = shutdownId) ∧ msg.sender ≠ some g ∧ T.members g ≠ [])) :
    ∃ s₁, run T s [.pop g, .processMessageInternal g, .group (.worker g)] = some s₁ ∧
      s₁.dispatched g = s.dispatched g ++ [m] ∧ (s₁.msgq g).contents = l ∧
      ∀ s', Relation.ReflTransGen (Next T) s₁ s' →
        s'.stack (.worker g) = s₁.stack (.worker g) ∧ s'.dispatched g = s₁.dispatched g ∧
          l <+: (s'.msgq g).contents := by
  -- a message in a mailbox was sent by `send`, which clears `is_fast`
  have hfast : msg.isFast = false := by
    obtain ⟨msg', -, hm', -, -, -, hf⟩ := h.inv.mailbox g m (by rw [hq]; exact List.mem_cons_self _ _)
    rw [hm] at hm'; cases hm'; exact hf
  obtain ⟨last, s₂, h12, ho⟩ := run_pop_processMessageInternal T hidle hl hq hm
  have hstack : s.stack (.worker g) = [] := h.inv.stack_eq_nil g (by simp [hidle])
  have hpc : T.entryPc g { msg with last := last } = .forwardSet := by
    simp only [Topology.entryPc, hg, if_true]; exact if_neg hfan
  have hs₂g : s₂.stack (.worker g) = [⟨g, m, .async false, .forwardSet, none⟩] := by
    simp [ho.stack, hpc, hstack]
  have hh₂ : s₂.heap m = some { msg with last := last } := by simp [ho.heap]
  -- `m->destination->reply_to = m->sender`, then the call on the Group itself
  set s₃ := { s₂.setPc (.worker g) ⟨g, m, .async false, .forwardSet, none⟩ [] .forwardCall with
      replyTo := Function.update s₂.replyTo g msg.sender } with hs₃
  have hrun : run T s [.pop g, .processMessageInternal g, .group (.worker g)] = some s₃ := by
    rw [h12]; simp only [run, step, State.groupStep_forwardSet hs₂g rfl hh₂ hd hfast]
  have hst : State.Stalled s₃ (.worker g) :=
    ⟨⟨g, m, .async false, .forwardCall, none⟩, [], by simp [hs₃, State.setPc],
      .inr ⟨rfl, by simp [hs₃, State.setPc, hh₂, hd]⟩⟩
  have hq₃ : (s₃.msgq g).contents = l := (List.cons.inj (ho.msgq.symm.trans hq)).2
  refine ⟨s₃, hrun, by simp [hs₃, State.setPc, ho.dispatched], hq₃, fun s' hs' => ?_⟩
  have hruns := (stalled_runs (reachable_run h _ hrun) hst hs').1
  exact ⟨runs_other_eq (fun s => s.stack (.worker g)) State.stack_step_of_ne hruns,
    runs_other_eq (fun s => s.dispatched g) State.dispatched_step_of_ne hruns,
    hq₃ ▸ contents_prefix_runs hruns⟩

/-- The main thread sends a message of identity 100 to the Group 0 itself, then one to its
member 1. -/
def selfSendRun : List Action :=
  [.alloc (.other 0) 100, .send (.other 0) 0 0 none, .alloc (.other 0) 101, .send (.other 0) 1 1 none]

/-- The state `selfSendRun` reaches. -/
def selfSendState : State :=
  (run groupTopology (State.initial groupTopology) selfSendRun).getD (State.initial groupTopology)

theorem selfSendState_reachable : Reachable groupTopology selfSendState :=
  reachable_run .initial selfSendRun rfl

theorem group_self_message_blocks_ping :
    groupTopology.isGroup 0 = true ∧ selfSendState.loop (.worker 0) = .idle ∧
    selfSendState.lock 0 = none ∧ (selfSendState.msgq 0).contents = [0, 1] ∧
    selfSendState.heap 0 = some ⟨100, none, some 0, false, false⟩ ∧
    (⟨100, none, some 0, false, false⟩ : Message).destination = some 0 ∧
    ¬(((⟨100, none, some 0, false, false⟩ : Message).id = startId ∨
        (⟨100, none, some 0, false, false⟩ : Message).id = shutdownId) ∧
      (⟨100, none, some 0, false, false⟩ : Message).sender ≠ some 0 ∧
      groupTopology.members 0 ≠ []) ∧
    ∃ s₁, run groupTopology selfSendState
        [.pop 0, .processMessageInternal 0, .group (.worker 0)] = some s₁ ∧
      s₁.dispatched 0 = selfSendState.dispatched 0 ++ [0] ∧ (s₁.msgq 0).contents = [1] ∧
      ∀ s', Relation.ReflTransGen (Next groupTopology) s₁ s' →
        s'.stack (.worker 0) = s₁.stack (.worker 0) ∧ s'.dispatched 0 = s₁.dispatched 0 ∧
          [1] <+: (s'.msgq 0).contents :=
  have hidle : selfSendState.loop (.worker 0) = .idle := by decide
  have hl : selfSendState.lock 0 = none := by decide
  have hq : (selfSendState.msgq 0).contents = [0, 1] := by decide
  have hm : selfSendState.heap 0 = some ⟨100, none, some 0, false, false⟩ := by decide
  have hfan : ¬(((⟨100, none, some 0, false, false⟩ : Message).id = startId ∨
        (⟨100, none, some 0, false, false⟩ : Message).id = shutdownId) ∧
      (⟨100, none, some 0, false, false⟩ : Message).sender ≠ some 0 ∧
      groupTopology.members 0 ≠ []) := by decide
  ⟨rfl, hidle, hl, hq, hm, rfl, hfan,
    group_self_message_blocks selfSendState_reachable rfl hidle hl hq hm rfl hfan⟩

end Actors
