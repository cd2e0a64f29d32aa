/-
What no run of the runtime undoes. `terminated` is only ever set, a worker that has left the loop
of `Actor::operator()` never enters it again, and nothing but that worker's `msgq->pop()` takes a
message out of a mailbox. So from any reachable state on, the mailbox of an actor whose worker has
stopped, or that never had one, keeps every message it holds, in order, and none of them is ever
dispatched. The Manager has no worker: what is sent to it stays in its mailbox. A terminated
actor's worker dispatches at most one more message.
-/
import Actors.Runtime.Delivery
import Mathlib.Logic.Relation

namespace Actors

/-- `s'` follows `s` by one step of some thread. -/
def Next (T : Topology) (s s' : State) : Prop := ∃ a, step T s a = some s'

theorem Reachable.of_steps {T : Topology} {s s' : State} (h : Reachable T s)
    (hs : Relation.ReflTransGen (Next T) s s') : Reachable T s' := by
  induction hs with
  | refl => exact h
  | tail _ hn ih => obtain ⟨a, ha⟩ := hn; exact .step a ih ha

theorem Reachable.from_initial {T : Topology} {s : State} (h : Reachable T s) :
    Relation.ReflTransGen (Next T) (State.initial T) s := by
  induction h with
  | initial => exact .refl
  | step a _ ha ih => exact ih.tail ⟨a, ha⟩

/-- How many more messages a worker standing here in its loop can dispatch once its actor is
terminated: the one it holds or pops next, none inside a turn (its message is dispatched already)
or out of the loop. -/
def Loop.budget : Loop → Nat
  | .idle => 1
  | .ready _ _ => 1
  | .running _ _ => 0
  | .stopped => 0

theorem Loop.budget_le_one (l : Loop) : l.budget ≤ 1 := by
  cases l <;> simp [Loop.budget]

/-- A run is a sequence of steps. -/
theorem run_steps {T : Topology} :
    ∀ {s s' : State} (acts : List Action), run T s acts = some s' → Relation.ReflTransGen (Next T) s s'
  | _, _, [], h => by cases h; exact .refl
  | s, s', a :: as, h => by
    unfold run at h
    rcases ha : step T s a with _ | s₁ <;> rw [ha] at h
    · cases h
    · exact Relation.ReflTransGen.head ⟨a, ha⟩ (run_steps as h)

namespace State

/-- What a step keeps: terminated actors, stopped threads, and, for a stopped worker, its mailbox
up to what is pushed behind and its dispatch log; and a terminated actor's worker spends its
`budget` of dispatches and never gains more. -/
structure Keeps (s s' : State) : Prop where
  terminated : ∀ r, s.terminated r = true → s'.terminated r = true
  stopped : ∀ t, s.loop t = .stopped → s'.loop t = .stopped
  mailbox : ∀ w, s.loop (.worker w) = .stopped → (s.msgq w).contents <+: (s'.msgq w).contents
  dispatched : ∀ w, s.loop (.worker w) = .stopped → s'.dispatched w = s.dispatched w
  spent : ∀ w, s.terminated w = true → (s'.dispatched w).length + (s'.loop (.worker w)).budget ≤
    (s.dispatched w).length + (s.loop (.worker w)).budget

theorem Keeps.refl (s : State) : Keeps s s :=
  ⟨fun _ h => h, fun _ h => h, fun _ _ => List.prefix_refl _, fun _ _ => rfl, fun _ _ => le_rfl⟩

theorem Keeps.trans {s₁ s₂ s₃ : State} (h₁ : Keeps s₁ s₂) (h₂ : Keeps s₂ s₃) : Keeps s₁ s₃ :=
  ⟨fun r h => h₂.terminated r (h₁.terminated r h), fun t h => h₂.stopped t (h₁.stopped t h),
    fun w h => (h₁.mailbox w h).trans (h₂.mailbox w (h₁.stopped _ h)),
    fun w h => (h₂.dispatched w (h₁.stopped _ h)).trans (h₁.dispatched w h),
    fun w h => (h₂.spent w (h₁.terminated w h)).trans (h₁.spent w h)⟩

/-- A step that writes none of the four fields keeps them. -/
theorem Keeps.of_eq {s s' : State} (h₁ : s'.terminated = s.terminated) (h₂ : s'.loop = s.loop)
    (h₃ : s'.msgq = s.msgq) (h₄ : s'.dispatched = s.dispatched) : Keeps s s' :=
  ⟨fun r h => by rw [h₁]; exact h, fun t h => by rw [h₂]; exact h,
    fun w _ => by simp only [h₃, List.prefix_refl], fun w _ => by rw [h₄],
    fun w _ => by rw [h₂, h₄]⟩

variable {T : Topology} {s s' : State}

/-- `send` only pushes behind what a mailbox holds. -/
theorem contents_prefix_accept (t : ThreadId) (r m : Nat) (sender : Option Nat) (msg : Message)
    (w : Nat) : (s.msgq w).contents <+: ((s.accept T t r m sender msg).msgq w).contents := by
  simp only [accept, Function.update_apply]
  split_ifs with hw
  · subst hw; rw [BQueue.contents_push]; exact List.prefix_append _ _
  · exact List.prefix_refl _

theorem keeps_accept (t : ThreadId) (r m : Nat) (sender : Option Nat) (msg : Message) :
    Keeps s (s.accept T t r m sender msg) :=
  ⟨fun _ h => h, fun _ h => h, fun w _ => contents_prefix_accept t r m sender msg w, fun _ _ => rfl,
    fun _ _ => le_rfl⟩

theorem keeps_send {t : ThreadId} {r m : Nat} {sender : Option Nat}
    (h : s.send T t r m sender = some s') : Keeps s s' := by
  obtain rfl | ⟨msg, -, -, rfl⟩ := send_eq_some T s h
  exacts [Keeps.refl _, keeps_accept t r m sender msg]

theorem keeps_fastSend {t : ThreadId} {r m : Nat} {sender : Option Nat}
    (h : s.fastSend T t r m sender = some s') : Keeps s s' := by
  obtain ⟨msg, -, -, rfl | rfl⟩ := fastSend_eq_some T s h <;> exact Keeps.of_eq rfl rfl rfl rfl

theorem keeps_reply {t : ThreadId} {r : Nat} (h : s.reply T t r = some s') : Keeps s s' := by
  obtain ⟨f, rest, -, ⟨-, msg, -, rfl⟩ | ⟨-, d, -, hs⟩⟩ := reply_eq_some T s h
  exacts [Keeps.of_eq rfl rfl rfl rfl, keeps_send hs]

theorem keeps_setTerminated (a : Nat) : Keeps s (s.setTerminated a) := by
  refine ⟨fun r h => ?_, fun _ h => h, fun _ _ => List.prefix_refl _, fun _ _ => rfl,
    fun _ _ => le_rfl⟩
  simp only [setTerminated, Function.update_apply]
  split_ifs <;> simp_all

/-- Ending a turn leaves the loop only from a running worker. -/
theorem keeps_endTurn {w m : Nat} {shut : Bool} (hl : s.loop (.worker w) ≠ .stopped) :
    Keeps s (s.endTurn w m shut) := by
  refine ⟨fun r h => ?_, fun t h => ?_, fun _ _ => List.prefix_refl _, fun _ _ => rfl,
    fun w' h => ?_⟩
  · simp only [endTurn, Function.update_apply]
    split_ifs <;> simp_all
  · by_cases ht : t = .worker w
    · subst ht; exact absurd h hl
    · show Function.update s.loop (.worker w) _ t = _
      rw [Function.update_noteq ht]; exact h
  · -- a terminated actor's turn ends out of the loop
    by_cases hw : w' = w
    · subst hw; simp [endTurn, h, Loop.budget]
    · simp [endTurn, Function.update_noteq (mt ThreadId.worker.inj hw)]

theorem keeps_ret {t : ThreadId} (h : s.ret t = some s') : Keeps s s' := by
  obtain ⟨f, rest, -, -, ⟨-, rfl⟩ | ⟨-, rfl⟩ | ⟨w, m, shut, -, rfl, hl, rfl⟩⟩ := ret_eq_some s h
  · exact Keeps.of_eq rfl rfl rfl rfl
  · exact Keeps.of_eq rfl rfl rfl rfl
  · have hu : (s.unlock (.worker w) f rest).loop (.worker w) ≠ .stopped := by simp [unlock, hl]
    have hk : Keeps s (s.unlock (.worker w) f rest) := Keeps.of_eq rfl rfl rfl rfl
    exact hk.trans (keeps_endTurn hu)

/-- `pop` takes from the mailbox of an idle worker only. -/
theorem keeps_pop {w : Nat} (h : s.pop w = some s') : Keeps s s' := by
  obtain ⟨m, last, q, msg, hl, -, -, rfl⟩ := pop_eq_some s h
  have hne : ∀ w', s.loop (.worker w') = .stopped → w' ≠ w := by
    rintro w' h' rfl; rw [hl] at h'; cases h'
  refine ⟨fun _ h => h, fun t h' => ?_, fun w' h' => ?_, fun _ _ => rfl, fun w' _ => ?_⟩
  · simp only [popped, Function.update_apply]
    split_ifs with ht
    · subst ht; rw [hl] at h'; cases h'
    · exact h'
  · simp only [popped, Function.update_noteq (hne w' h')]
    exact List.prefix_refl _
  · by_cases hw : w' = w
    · subst hw; simp [popped, hl, Loop.budget]
    · simp [popped, Function.update_noteq (mt ThreadId.worker.inj hw)]

/-- `process_message_internal` dispatches for a worker holding a popped message only. -/
theorem keeps_processMessageInternal {w : Nat} (h : s.processMessageInternal T w = some s') :
    Keeps s s' := by
  obtain ⟨m, shut, msg, hl, -, -, rfl⟩ := processMessageInternal_eq_some T s h
  have hne : ∀ t, s.loop t = .stopped → t ≠ .worker w := by
    rintro t h' rfl; rw [hl] at h'; cases h'
  refine ⟨fun _ h => h, fun t h' => ?_, fun _ _ => List.prefix_refl _, fun w' h' => ?_,
    fun w' _ => ?_⟩
  · show Function.update s.loop (.worker w) _ t = _
    rw [Function.update_noteq (hne t h')]; exact h'
  · show Function.update s.dispatched w _ w' = _
    rw [Function.update_noteq fun he => hne _ h' (by rw [he])]
  · -- the held message is the one dispatched
    by_cases hw : w' = w
    · subst hw; simp [call, hl, Loop.budget]
    · simp [call, Function.update_noteq hw, Function.update_noteq (mt ThreadId.worker.inj hw)]

theorem keeps_groupStep {t : ThreadId} (h : s.groupStep T t = some s') : Keeps s s' := by
  obtain ⟨f, rest, -, ⟨_, -, rfl⟩ | ⟨id, _, todo, -, h'⟩ | ⟨_, _, _, _, -, -, rfl⟩ |
    ⟨_, _, -, -, -, -, rfl⟩⟩ := groupStep_eq_some T s h
  · exact Keeps.of_eq rfl rfl rfl rfl
  · have hk : Keeps s ((s.setPc t f rest (.fanOut id todo)).alloc t id) := Keeps.of_eq rfl rfl rfl rfl
    exact hk.trans (keeps_fastSend h')
  · exact Keeps.of_eq rfl rfl rfl rfl
  · exact Keeps.of_eq rfl rfl rfl rfl

/-- Every step keeps what `Keeps` names. -/
theorem keeps_step {a : Action} (h : step T s a = some s') : Keeps s s' := by
  cases a with
  | alloc t id =>
    simp only [step] at h; split_ifs at h; cases h; exact Keeps.of_eq rfl rfl rfl rfl
  | send t r m sender => simp only [step] at h; split_ifs at h; exact keeps_send h
  | fastSend t r m sender => simp only [step] at h; split_ifs at h; exact keeps_fastSend h
  | reply t m => simp only [step] at h; split_ifs at h; exact keeps_reply h
  | setTerminated t a => simp only [step] at h; split_ifs at h; cases h; exact keeps_setTerminated a
  | ret t => exact keeps_ret h
  | pop w => exact keeps_pop h
  | processMessageInternal w => exact keeps_processMessageInternal h
  | group t => exact keeps_groupStep h

/-- After a terminated actor's worker has spent its budget, it has dispatched at most one more
message. -/
theorem Keeps.length_dispatched_le {a : Nat} (hk : Keeps s s') (ht : s.terminated a = true) :
    (s'.dispatched a).length ≤ (s.dispatched a).length + 1 := by
  have h := hk.spent a ht
  have := (s.loop (.worker a)).budget_le_one
  omega

/-- And so does every run. -/
theorem keeps_steps (h : Relation.ReflTransGen (Next T) s s') : Keeps s s' := by
  induction h with
  | refl => exact Keeps.refl _
  | tail _ hn ih => obtain ⟨a, ha⟩ := hn; exact ih.trans (keeps_step ha)

end State

/-- From a reachable state on, every run keeps terminated actors terminated and stopped threads
stopped; the mailbox of an actor with no worker, or whose worker has stopped, keeps what it holds,
in order, with what is pushed behind, and nothing more is dispatched from it. -/
theorem run_keeps_stopped {T : Topology} {s s' : State} (h : Reachable T s)
    (hs : Relation.ReflTransGen (Next T) s s') :
    (∀ r, s.terminated r = true → s'.terminated r = true) ∧
    (∀ t, s.loop t = .stopped → s'.loop t = .stopped) ∧
    (∀ w, T.hasWorker w = false ∨ s.loop (.worker w) = .stopped →
      (s.msgq w).contents <+: (s'.msgq w).contents ∧ s'.dispatched w = s.dispatched w) := by
  have hk := State.keeps_steps hs
  refine ⟨hk.terminated, hk.stopped, fun w hw => ?_⟩
  have hstop : s.loop (.worker w) = .stopped := hw.elim (h.inv.noWorker w) id
  exact ⟨hk.mailbox w hstop, hk.dispatched w hstop⟩

/-- An actor that no worker thread runs never dispatches a message: in every reachable state its
mailbox holds every message `Actor::send` accepted into it, in acceptance order. The Manager is
such an actor, as `Manager::init` starts a thread for each managed actor and none for itself: the
Start it sends itself and the Shutdown of `Manager::terminate()` never reach
`Manager::process_message`. -/
theorem unrun_mailbox_keeps_all {T : Topology} {s : State} (h : Reachable T s) {a : Nat}
    (hw : T.hasWorker a = false) :
    s.dispatched a = [] ∧ (s.msgq a).contents = (s.accepted a).map Prod.fst := by
  have hd : s.dispatched a = [] :=
    (State.keeps_steps h.from_initial).dispatched a (by simp [State.initial, hw])
  refine ⟨hd, ?_⟩
  rw [h.inv.accounting a, hd, h.inv.noWorker a hw]
  rfl

/-- `manager->terminate()` on the actor 4, which has no worker, from the main thread. -/
def managerTerminateRun : List Action := [.alloc (.other 0) shutdownId, .send (.other 0) 4 0 none]

/-- The state `managerTerminateRun` reaches. -/
def managerTerminateState : State :=
  (run groupTopology (State.initial groupTopology) managerTerminateRun).getD
    (State.initial groupTopology)

theorem managerTerminateState_reachable : Reachable groupTopology managerTerminateState :=
  reachable_run .initial managerTerminateRun rfl

theorem unrun_mailbox_keeps_all_manager :
    groupTopology.hasWorker 4 = false ∧ managerTerminateState.dispatched 4 = [] ∧
    (managerTerminateState.msgq 4).contents = (managerTerminateState.accepted 4).map Prod.fst :=
  ⟨rfl, unrun_mailbox_keeps_all managerTerminateState_reachable rfl⟩

example : (managerTerminateState.msgq 4).contents = [0] := by decide

/-- Once an actor is terminated, as `Manager::process_message` sets it, its worker dispatches at
most one more message in every run, whatever the other threads do: the one it holds or pops next,
after which `if (is_shutdown || terminated) break` takes it out of the loop. -/
theorem terminated_dispatches_at_most_one {T : Topology} {s s' : State} {a : Nat}
    (ht : s.terminated a = true) (hs : Relation.ReflTransGen (Next T) s s') :
    (s'.dispatched a).length ≤ (s.dispatched a).length + 1 :=
  (State.keeps_steps hs).length_dispatched_le ht

/-- Two messages for the actor 3, then `terminated = true` on it from the main thread. -/
def terminatedRun : List Action :=
  [.alloc (.other 0) 100, .send (.other 0) 3 0 none, .alloc (.other 0) 101,
   .send (.other 0) 3 1 none, .setTerminated (.other 0) 3]

/-- The state `terminatedRun` reaches. -/
def terminatedState : State :=
  (run groupTopology (State.initial groupTopology) terminatedRun).getD (State.initial groupTopology)

/-- A turn of the worker of 3 whose handler returns at once. -/
def lastTurn : List Action := [.pop 3, .processMessageInternal 3, .ret (.worker 3)]

/-- The state `lastTurn` reaches from `terminatedState`. -/
def afterLastTurn : State := (run groupTopology terminatedState lastTurn).getD terminatedState

theorem terminated_dispatches_at_most_one_three :
    terminatedState.terminated 3 = true ∧
    Relation.ReflTransGen (Next groupTopology) terminatedState afterLastTurn ∧
    (afterLastTurn.dispatched 3).length ≤ (terminatedState.dispatched 3).length + 1 :=
  have ht : terminatedState.terminated 3 = true := by decide
  have hs : Relation.ReflTransGen (Next groupTopology) terminatedState afterLastTurn :=
    run_steps lastTurn rfl
  ⟨ht, hs, terminated_dispatches_at_most_one ht hs⟩

example : afterLastTurn.loop (.worker 3) = .stopped ∧ (afterLastTurn.msgq 3).contents = [1] := by
  decide

/-- After the last turn of 3, the main thread sends to the Manager, actor 4, which has no worker,
and to 3, which is terminated. -/
def afterStopRun : List Action :=
  [.alloc (.other 0) 102, .send (.other 0) 4 2 none, .alloc (.other 0) 103, .send (.other 0) 3 3 none]

/-- The state `afterStopRun` reaches from `afterLastTurn`. -/
def afterStop : State := (run groupTopology afterLastTurn afterStopRun).getD afterLastTurn

theorem run_keeps_stopped_after_last_turn :
    Reachable groupTopology afterLastTurn ∧
    Relation.ReflTransGen (Next groupTopology) afterLastTurn afterStop ∧
    ((∀ r, afterLastTurn.terminated r = true → afterStop.terminated r = true) ∧
      (∀ t, afterLastTurn.loop t = .stopped → afterStop.loop t = .stopped) ∧
      (∀ w, groupTopology.hasWorker w = false ∨ afterLastTurn.loop (.worker w) = .stopped →
        (afterLastTurn.msgq w).contents <+: (afterStop.msgq w).contents ∧
          afterStop.dispatched w = afterLastTurn.dispatched w)) :=
  have h : Reachable groupTopology afterLastTurn :=
    reachable_run (reachable_run .initial terminatedRun rfl) lastTurn rfl
  have hs : Relation.ReflTransGen (Next groupTopology) afterLastTurn afterStop :=
    run_steps afterStopRun rfl
  ⟨h, hs, run_keeps_stopped h hs⟩

/-- The Manager's mailbox gained the new message; the stopped worker's mailbox kept its own. -/
example : (afterStop.msgq 4).contents = [2] ∧ (afterStop.msgq 3).contents = [1] := by
  decide

end Actors
