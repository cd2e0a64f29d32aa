/-
Delivery through the mailboxes, over every run of the runtime. `Actor::send` of a message its
thread owns is dropped by a terminated receiver and otherwise appended to the receiver's mailbox
(its Group's, for a member) and to that mailbox's log, as sent to that receiver. Each mailbox's
log of accepted messages is, at every state, what its worker passed to
`process_message_internal`, in the same order, then the message the worker popped and still
holds, then what the mailbox still holds. A Group forwards each message it dispatched at most
once, to the member whose `send` accepted it: `forward` hands a message only to its own
destination. The held message is needed: between `msgq->pop()` and `process_message_internal`
the worker waits on `fast_send_mutex` for as long as a `fast_send` to the same actor runs.
-/
import Actors.Runtime.Preserve

namespace Actors

/-- A Group 0 of members 1 and 2, and a standalone actor 3; 0 and 3 each have a worker. -/
def groupTopology : Topology where
  groupOf a := if a = 1 ∨ a = 2 then some 0 else none
  members a := if a = 0 then [1, 2] else []
  isGroup a := a == 0
  hasWorker a := a == 0 || a == 3
  worker_not_member a h := by
    simp only [Bool.or_eq_true, beq_iff_eq] at h
    rcases h with rfl | rfl <;> rfl

/-! ## A Group, a standalone actor, and a worker blocked on a mutex -/

/-- A worker blocked between `pop` and `process_message_internal`: actor 3's worker has popped
the message sent to it while another thread's `fast_send` to 3 holds its mutex. -/
def blockedRun : List Action :=
  [.alloc (.other 0) 100, .send (.other 0) 3 0 none, .pop 3, .alloc (.other 1) 101,
   .fastSend (.other 1) 3 1 none]

/-- The state `blockedRun` reaches. -/
def blockedState : State :=
  (run groupTopology (State.initial groupTopology) blockedRun).getD (State.initial groupTopology)

theorem blockedState_reachable : Reachable groupTopology blockedState :=
  reachable_run .initial blockedRun rfl

/-! ## The receiver each message was sent to -/

/-- The ghost `sentTo` agrees with the runtime. A message its thread owns is live and was never
sent; a live message's `destination` is the receiver whose `send` accepted it; and a message
forwarded to `d` was accepted by the `send` of `d`. -/
structure SentOk (s : State) : Prop where
  owned : ∀ m t, s.owner m = some t → ∃ msg, s.heap m = some msg ∧ msg.destination = none
  dest : ∀ m d, (s.heap m).bind Message.destination = some d → s.sentTo m = some d
  forwarded : ∀ d m, m ∈ s.forwarded d → s.sentTo m = some d

namespace SentOk

variable {T : Topology} {s s' : State}

theorem initial (T : Topology) : SentOk (State.initial T) :=
  ⟨fun _ _ h => (nomatch h), fun _ _ h => (nomatch h), fun _ _ h => (nomatch h)⟩

/-- A write of a live message object that keeps its destination. -/
theorem keep (h : SentOk s) {m : Nat} {msg msg' : Message} (hm : s.heap m = some msg)
    (hh : s'.heap = Function.update s.heap m (some msg')) (he : msg'.destination = msg.destination)
    (ho : s'.owner = s.owner) (hs : s'.sentTo = s.sentTo) (hf : s'.forwarded = s.forwarded) :
    SentOk s' := by
  refine ⟨fun m' t hm' => ?_, fun m' d hd => ?_, fun d m' hm' => hs ▸ h.forwarded d m' (hf ▸ hm')⟩
  · obtain ⟨msg₀, h₀, hd₀⟩ := h.owned m' t (ho ▸ hm')
    rw [hh, Function.update_apply]
    split_ifs with he'
    · subst he'; rw [hm] at h₀; cases h₀
      exact ⟨msg', rfl, he.trans hd₀⟩
    · exact ⟨msg₀, h₀, hd₀⟩
  · rw [hs]; rw [hh, Function.update_apply] at hd
    split_ifs at hd with he'
    · subst he'
      exact h.dest _ d (by rw [hm]; show msg.destination = some d; rw [← he]; exact hd)
    · exact h.dest m' d hd

/-- `delete` of a message object no thread owns. -/
theorem delete (h : SentOk s) {m : Nat} (hom : s.owner m = none)
    (hh : s'.heap = Function.update s.heap m none) (ho : s'.owner = s.owner)
    (hs : s'.sentTo = s.sentTo) (hf : s'.forwarded = s.forwarded) : SentOk s' := by
  refine ⟨fun m' t hm' => ?_, fun m' d hd => ?_, fun d m' hm' => hs ▸ h.forwarded d m' (hf ▸ hm')⟩
  · rw [ho] at hm'
    have hne : m' ≠ m := by rintro rfl; rw [hom] at hm'; cases hm'
    rw [hh, Function.update_noteq hne]; exact h.owned m' t hm'
  · rw [hs]; rw [hh, Function.update_apply] at hd
    split_ifs at hd
    · cases hd
    · exact h.dest m' d hd

theorem alloc (h : SentOk s) (t : ThreadId) (id : Int) : SentOk (s.alloc t id) := by
  refine ⟨fun m t' ho => ?_, fun m d hd => ?_, h.forwarded⟩
  · simp only [State.alloc, Function.update_apply] at ho ⊢
    split_ifs at ho ⊢
    · exact ⟨_, rfl, rfl⟩
    · exact h.owned m t' ho
  · simp only [State.alloc, Function.update_apply] at hd
    split_ifs at hd
    · cases hd
    · exact h.dest m d hd

/-- An accepted `send` to `r` stamps `r` as the destination and records it; the message, which
its thread owned, was forwarded nowhere. -/
theorem accept (h : SentOk s) {t : ThreadId} {r m : Nat} {sender : Option Nat} {msg : Message}
    (hnf : ∀ d, m ∉ s.forwarded d) : SentOk (s.accept T t r m sender msg) := by
  refine ⟨fun m' t' ho => ?_, fun m' d hd => ?_, fun d m' hm' => ?_⟩
  · have hne : m' ≠ m := by rintro rfl; simp [State.accept] at ho
    simp only [State.accept, Function.update_noteq hne] at ho ⊢
    exact h.owned m' t' ho
  · simp only [State.accept, Function.update_apply] at hd ⊢
    split_ifs at hd ⊢
    · simpa using hd
    · exact h.dest m' d hd
  · have hne : m' ≠ m := fun he => hnf d (he ▸ hm')
    simpa [State.accept, Function.update_noteq hne] using h.forwarded d m' hm'

theorem send (hi : Inv T s) (h : SentOk s) {t : ThreadId} {r m : Nat} {sender : Option Nat}
    (ho : s.owner m = some t) (hs : s.send T t r m sender = some s') : SentOk s' := by
  rcases State.send_eq_some T s hs with rfl | ⟨msg, -, -, rfl⟩
  · exact h
  · exact h.accept (hi.not_forwarded_of_owner ho)

theorem fastSend (h : SentOk s) {t : ThreadId} {r m : Nat} {sender : Option Nat}
    (hs : s.fastSend T t r m sender = some s') : SentOk s' := by
  obtain ⟨msg, hm, -, rfl | rfl⟩ := State.fastSend_eq_some T s hs <;> exact h.keep hm rfl rfl rfl rfl rfl

theorem reply (hi : Inv T s) (h : SentOk s) {t : ThreadId} {r : Nat} (ho : s.owner r = some t)
    (hs : s.reply T t r = some s') : SentOk s' := by
  obtain ⟨f, rest, -, ⟨-, msg, hr, rfl⟩ | ⟨-, d, -, hs⟩⟩ := State.reply_eq_some T s hs
  · exact h.keep hr rfl rfl rfl rfl rfl
  · exact h.send hi ho hs

theorem ret (hi : Inv T s) (h : SentOk s) {t : ThreadId} (hs : s.ret t = some s') : SentOk s' := by
  obtain ⟨f, rest, hst, -, ⟨-, rfl⟩ | ⟨-, rfl⟩ | ⟨w, m, shut, hm, rfl, -, rfl⟩⟩ := State.ret_eq_some s hs
  · exact ⟨h.owned, h.dest, h.forwarded⟩
  · exact ⟨h.owned, h.dest, h.forwarded⟩
  · obtain ⟨-, -, -, -, -, -, -, -, -, ho, -⟩ := (hi.frame _ f (State.mem_top hst)).async false hm
    exact h.delete ho rfl rfl rfl rfl

theorem groupStep (h : SentOk s) {t : ThreadId} (hs : s.groupStep T t = some s') : SentOk s' := by
  obtain ⟨f, rest, -, ⟨id, -, rfl⟩ | ⟨id, a, todo, -, hs⟩ | ⟨id, sender, d, last, -, -, rfl⟩ |
    ⟨msg, d, -, hm, hd, -, rfl⟩⟩ := State.groupStep_eq_some T s hs
  · exact ⟨h.owned, h.dest, h.forwarded⟩
  · have h₁ : SentOk (s.setPc t f rest (.fanOut id todo)) := ⟨h.owned, h.dest, h.forwarded⟩
    exact (h₁.alloc t id).fastSend hs
  · exact ⟨h.owned, h.dest, h.forwarded⟩
  · refine ⟨h.owned, h.dest, fun d₀ m₀ hm₀ => ?_⟩
    rcases mem_update_append.1 hm₀ with hm₀ | ⟨rfl, rfl⟩
    · exact h.forwarded d₀ m₀ hm₀
    · exact h.dest _ _ (by rw [hm]; exact hd)

theorem step (hi : Inv T s) (h : SentOk s) {a : Action} (hs : step T s a = some s') : SentOk s' := by
  cases a with
  | alloc t id => simp only [Actors.step] at hs; split_ifs at hs; cases hs; exact h.alloc t id
  | send t r m sender => simp only [Actors.step] at hs; split_ifs at hs with hc; exact h.send hi hc.2 hs
  | fastSend t r m sender => simp only [Actors.step] at hs; split_ifs at hs; exact h.fastSend hs
  | reply t m => simp only [Actors.step] at hs; split_ifs at hs with hc; exact h.reply hi hc.2 hs
  | setTerminated t a =>
    simp only [Actors.step] at hs; split_ifs at hs; cases hs; exact ⟨h.owned, h.dest, h.forwarded⟩
  | ret t => exact h.ret hi hs
  | pop w =>
    obtain ⟨m, last, q, msg, -, -, hm, rfl⟩ := State.pop_eq_some s hs
    exact h.keep hm rfl rfl rfl rfl rfl
  | processMessageInternal w =>
    obtain ⟨m, shut, msg, -, -, -, rfl⟩ := State.processMessageInternal_eq_some T s hs
    exact ⟨h.owned, h.dest, h.forwarded⟩
  | group t => exact h.groupStep hs

end SentOk

theorem Reachable.sentOk {T : Topology} {s : State} (h : Reachable T s) : SentOk s := by
  induction h with
  | initial => exact SentOk.initial T
  | step _ hr hstep ih => exact ih.step hr.inv hstep

/-- Only `forward` adds to what was forwarded to `d`, and only a message whose destination is
`d`. -/
theorem forwarded_step {T : Topology} {s s' : State} {a : Action} (h : step T s a = some s')
    {d m : Nat} (hm : m ∈ s'.forwarded d) :
    m ∈ s.forwarded d ∨ (s.heap m).bind Message.destination = some d := by
  cases a with
  | alloc t id => simp only [step] at h; split_ifs at h; cases h; exact .inl hm
  | send t r m' sender =>
    simp only [step] at h; split_ifs at h
    obtain rfl | ⟨msg, -, -, rfl⟩ := State.send_eq_some T s h <;> exact .inl hm
  | fastSend t r m' sender =>
    simp only [step] at h; split_ifs at h
    obtain ⟨msg, -, -, rfl | rfl⟩ := State.fastSend_eq_some T s h <;> exact .inl hm
  | reply t m' =>
    simp only [step] at h; split_ifs at h
    obtain ⟨f, rest, -, ⟨-, msg, -, rfl⟩ | ⟨-, d', -, hs⟩⟩ := State.reply_eq_some T s h
    · exact .inl hm
    · obtain rfl | ⟨msg, -, -, rfl⟩ := State.send_eq_some T s hs <;> exact .inl hm
  | setTerminated t a => simp only [step] at h; split_ifs at h; cases h; exact .inl hm
  | ret t =>
    obtain ⟨f, rest, -, -, ⟨-, rfl⟩ | ⟨-, rfl⟩ | ⟨w, m', shut, -, rfl, -, rfl⟩⟩ := State.ret_eq_some s h <;>
      exact .inl hm
  | pop w => obtain ⟨m', last, q, msg, -, -, -, rfl⟩ := State.pop_eq_some s h; exact .inl hm
  | processMessageInternal w =>
    obtain ⟨m', shut, msg, -, -, -, rfl⟩ := State.processMessageInternal_eq_some T s h
    exact .inl hm
  | group t =>
    obtain ⟨f, rest, -, ⟨_, -, rfl⟩ | ⟨id, _, todo, -, h'⟩ | ⟨_, _, _, _, -, -, rfl⟩ |
      ⟨msg, d', -, hh, hd, -, rfl⟩⟩ := State.groupStep_eq_some T s h
    · exact .inl hm
    · obtain ⟨msg, -, -, rfl | rfl⟩ := State.fastSend_eq_some T _ h' <;> exact .inl hm
    · exact .inl hm
    · rcases mem_update_append.1 hm with hm | ⟨rfl, rfl⟩
      · exact .inl hm
      · exact .inr (by rw [hh]; exact hd)

/-- `Actor::send` from application code of a message its thread owns: a terminated receiver drops
it, and otherwise it is appended to the receiver's mailbox and its log, as sent to the receiver. -/
theorem step_send {T : Topology} {s : State} (h : SentOk s) {t : ThreadId} {r m : Nat}
    {sender : Option Nat} (hu : s.userCode t = true) (ho : s.owner m = some t) :
    (s.terminated r = true → step T s (.send t r m sender) = some s) ∧
    (s.terminated r = false → ∃ s', step T s (.send t r m sender) = some s' ∧
      s'.accepted (T.mailboxOf r) = s.accepted (T.mailboxOf r) ++ [(m, t)] ∧
      (s'.msgq (T.mailboxOf r)).contents = (s.msgq (T.mailboxOf r)).contents ++ [m] ∧
      s'.sentTo m = some r) := by
  obtain ⟨msg, hm, hd⟩ := h.owned m t ho
  refine ⟨fun ht => by simp [step, State.send, hu, ho, ht],
    fun ht => ⟨s.accept T t r m sender msg, ?_, ?_, ?_, ?_⟩⟩
  · simp [step, State.send, hu, ho, ht, hm, hd]
  all_goals simp [State.accept]

/-! ## Conservation and order -/

theorem Loop.length_held_le (l : Loop) : l.held.length ≤ 1 := by
  cases l <;> simp [Loop.held]

end Actors
