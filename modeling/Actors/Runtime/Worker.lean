/-
The worker loop of `Actor::operator()` (`src/src/Actor.cpp`) over a whole mailbox: `msgq->pop()`,
`m->last = last`, `reply_to = m->sender`, the test for a Shutdown (identity 5),
`process_message_internal(m)`, then `break` on a Shutdown or once `terminated` is set, after which
`terminated = true`. For a standalone actor whose handlers return at once, the loop takes its
messages in mailbox order, up to and including the first Shutdown, and stops there: what stands
behind the Shutdown stays in the mailbox for ever, never dispatched.
-/
import Actors.Runtime.Lifecycle

namespace Actors

/-- One turn of the worker loop of actor `w` when its handler returns at once: `msgq->pop()`,
`process_message_internal(m)`, and the handler's return, which ends the turn. -/
def turnSteps (w : Nat) : List Action := [.pop w, .processMessageInternal w, .ret (.worker w)]

/-- `k` turns of the worker loop of `w`. -/
def drainSteps (w : Nat) : Nat → List Action
  | 0 => []
  | k + 1 => turnSteps w ++ drainSteps w k

theorem drainSteps_succ' (w : Nat) : ∀ k, drainSteps w (k + 1) = drainSteps w k ++ turnSteps w
  | 0 => by simp [drainSteps]
  | k + 1 => by
    show turnSteps w ++ drainSteps w (k + 1) = (turnSteps w ++ drainSteps w k) ++ turnSteps w
    rw [drainSteps_succ' w k, List.append_assoc]

/-- `m->get_message_id() == 5`, on the message object `m` stands for. -/
def State.isShutdown (s : State) (m : Nat) : Bool :=
  match s.heap m with
  | some msg => msg.id == shutdownId
  | none => false

/-- What one turn of `w`'s loop leaves: `m` dispatched and out of the mailbox, the mutex free
again, `terminated` set by a Shutdown, the loop waiting again unless it stopped, and every other
message object as it was. -/
structure Turned (w m : Nat) (s s' : State) : Prop where
  dispatched : s'.dispatched w = s.dispatched w ++ [m]
  msgq : (s.msgq w).contents = m :: (s'.msgq w).contents
  lock : s'.lock w = none
  terminated : s'.terminated w = (s.terminated w || s.isShutdown m)
  loop : s'.loop (.worker w) = if s'.terminated w then .stopped else .idle
  heap : ∀ x, x ≠ m → s'.heap x = s.heap x

theorem State.isShutdown_congr {s s' : State} {m : Nat} (h : s'.heap m = s.heap m) :
    s'.isShutdown m = s.isShutdown m := by
  simp only [State.isShutdown, h]

variable {T : Topology} {s : State}

theorem Inv.contents_nodup (hi : Inv T s) (w : Nat) : ((s.msgq w).contents).Nodup :=
  (hi.accounting w ▸ hi.acceptedNodup w).sublist (List.sublist_append_right _ _)

/-- One turn of the loop of a standalone actor whose handler returns at once, from a state where
its worker waits in `pop` and no `fast_send` holds its mutex. -/
theorem turn_run (hi : Inv T s) {w m : Nat} {l : List Nat} (hg : T.isGroup w = false)
    (hidle : s.loop (.worker w) = .idle) (hl : s.lock w = none)
    (hq : (s.msgq w).contents = m :: l) :
    ∃ s', run T s (turnSteps w) = some s' ∧ Turned w m s s' := by
  obtain ⟨msg, -, hmsg, -⟩ := hi.mailbox w m (by rw [hq]; exact List.mem_cons_self _ _)
  obtain ⟨last, s₂, h12, ho⟩ := run_pop_processMessageInternal T hidle hl hq hmsg
  have hstack : s.stack (.worker w) = [] := hi.stack_eq_nil w (by simp [hidle])
  have hpc : T.entryPc w { msg with last := last } = .user := by simp [Topology.entryPc, hg]
  have h3 : s₂.ret (.worker w) = some ((s₂.unlock (.worker w) ⟨w, m, .async false, .user, none⟩
      []).endTurn w m (msg.id == shutdownId)) := by
    simp [State.ret, ho.stack, ho.loop, hpc, hstack]
  refine ⟨(s₂.unlock (.worker w) ⟨w, m, .async false, .user, none⟩ []).endTurn w m
    (msg.id == shutdownId), by rw [turnSteps, h12]; simp only [run, step, h3],
    ⟨?_, ?_, ?_, ?_, ?_, fun x hx => ?_⟩⟩
  all_goals simp [State.endTurn, State.unlock, ho.dispatched, ho.lock, ho.terminated, ho.loop,
    ho.heap, State.isShutdown, hmsg, ho.msgq]
  · exact ite_congr (propext or_comm) (fun _ => rfl) (fun _ => rfl)
  · exact Function.update_noteq hx _ _

/-- Turns over messages none of which is a Shutdown, on an actor not terminated, leave the loop
waiting again, with those messages dispatched in mailbox order and the other message objects as
they were. -/
theorem drain_run {w : Nat} (hg : T.isGroup w = false) :
    ∀ (l₁ : List Nat) {s : State} {l : List Nat}, Reachable T s → s.loop (.worker w) = .idle →
      s.lock w = none → s.terminated w = false → (s.msgq w).contents = l₁ ++ l →
      (∀ x ∈ l₁, s.isShutdown x = false) →
      ∃ s', run T s (drainSteps w l₁.length) = some s' ∧ Reachable T s' ∧
        s'.dispatched w = s.dispatched w ++ l₁ ∧ (s'.msgq w).contents = l ∧
        s'.loop (.worker w) = .idle ∧ s'.lock w = none ∧ s'.terminated w = false ∧
        ∀ x ∈ l, s'.heap x = s.heap x
  | [], s, _, h, hidle, hl, ht, hq, _ => ⟨s, rfl, h, by simp, hq, hidle, hl, ht, fun _ _ => rfl⟩
  | m :: l₁, s, l, h, hidle, hl, ht, hq, hsh => by
    obtain ⟨s₁, h1, ht₁⟩ := turn_run h.inv hg hidle hl hq
    have hterm : s₁.terminated w = false := by
      rw [ht₁.terminated, ht, hsh m (List.mem_cons_self _ _)]; rfl
    have hq₁ : (s₁.msgq w).contents = l₁ ++ l :=
      (List.cons.inj (ht₁.msgq.symm.trans hq)).2
    -- the messages behind `m` are other objects than `m`
    have hheap : ∀ x ∈ l₁ ++ l, s₁.heap x = s.heap x := by
      have hnd := h.inv.contents_nodup w
      rw [hq, List.cons_append, List.nodup_cons] at hnd
      exact fun x hx => ht₁.heap x fun he => hnd.1 (he ▸ hx)
    obtain ⟨s', h2, hr', hd', hq', hidle', hl', ht', hh'⟩ := drain_run hg l₁ (reachable_run h _ h1)
      (by rw [ht₁.loop, hterm]; rfl) ht₁.lock hterm hq₁ fun x hx => by
        rw [State.isShutdown_congr (hheap x (List.mem_append_left _ hx))]
        exact hsh x (List.mem_cons_of_mem _ hx)
    refine ⟨s', by rw [List.length_cons, drainSteps, run_append, h1]; exact h2, hr', ?_, hq',
      hidle', hl', ht', fun x hx => (hh' x hx).trans (hheap x (List.mem_append_right _ hx))⟩
    rw [hd', ht₁.dispatched, List.append_assoc, List.singleton_append]

/-- The worker loop of a standalone actor whose handlers return at once, waiting in `pop` with
its mutex free, dispatches its mailbox in order up to and including the first Shutdown, and then
leaves the loop with `terminated` set. What stands behind the Shutdown stays in the mailbox, in
order, in every later state, and nothing more is ever dispatched. -/
theorem worker_stops_at_shutdown (h : Reachable T s) {w m : Nat} {l₁ l₂ : List Nat}
    (hg : T.isGroup w = false) (hidle : s.loop (.worker w) = .idle) (hl : s.lock w = none)
    (ht : s.terminated w = false) (hq : (s.msgq w).contents = l₁ ++ m :: l₂)
    (h₁ : ∀ x ∈ l₁, s.isShutdown x = false) (hm : s.isShutdown m = true) :
    ∃ s', run T s (drainSteps w (l₁.length + 1)) = some s' ∧
      s'.dispatched w = s.dispatched w ++ l₁ ++ [m] ∧ (s'.msgq w).contents = l₂ ∧
      s'.loop (.worker w) = .stopped ∧ s'.terminated w = true ∧
      ∀ s'', Relation.ReflTransGen (Next T) s' s'' →
        l₂ <+: (s''.msgq w).contents ∧ s''.dispatched w = s'.dispatched w := by
  obtain ⟨s₁, h1, hr₁, hd₁, hq₁, hidle₁, hl₁, ht₁, hh₁⟩ := drain_run hg l₁ h hidle hl ht hq h₁
  obtain ⟨s₂, h2, ht₂⟩ := turn_run hr₁.inv hg hidle₁ hl₁ hq₁
  have hterm : s₂.terminated w = true := by
    rw [ht₂.terminated, ht₁, State.isShutdown_congr (hh₁ m (List.mem_cons_self _ _)), hm]; rfl
  have hstop : s₂.loop (.worker w) = .stopped := by rw [ht₂.loop, hterm]; rfl
  have hq₂ : (s₂.msgq w).contents = l₂ := (List.cons.inj (ht₂.msgq.symm.trans hq₁)).2
  refine ⟨s₂, by rw [drainSteps_succ', run_append, h1]; exact h2, by rw [ht₂.dispatched, hd₁],
    hq₂, hstop, hterm, fun s'' hs => ?_⟩
  have hk := State.keeps_steps hs
  exact ⟨hq₂ ▸ hk.mailbox w hstop, hk.dispatched w hstop⟩

/-- Three messages sent to the standalone actor 3, the middle one a Shutdown. -/
def shutdownRun : List Action :=
  [.alloc (.other 0) 100, .send (.other 0) 3 0 none, .alloc (.other 0) shutdownId,
   .send (.other 0) 3 1 none, .alloc (.other 0) 101, .send (.other 0) 3 2 none]

/-- The state `shutdownRun` reaches. -/
def shutdownState : State :=
  (run groupTopology (State.initial groupTopology) shutdownRun).getD (State.initial groupTopology)

theorem shutdownState_reachable : Reachable groupTopology shutdownState :=
  reachable_run .initial shutdownRun rfl

theorem worker_stops_at_shutdown_three :
    groupTopology.isGroup 3 = false ∧ shutdownState.loop (.worker 3) = .idle ∧
    shutdownState.lock 3 = none ∧ shutdownState.terminated 3 = false ∧
    (shutdownState.msgq 3).contents = [0] ++ 1 :: [2] ∧
    (∀ x ∈ [0], shutdownState.isShutdown x = false) ∧ shutdownState.isShutdown 1 = true ∧
    ∃ s', run groupTopology shutdownState (drainSteps 3 ([0].length + 1)) = some s' ∧
      s'.dispatched 3 = shutdownState.dispatched 3 ++ [0] ++ [1] ∧ (s'.msgq 3).contents = [2] ∧
      s'.loop (.worker 3) = .stopped ∧ s'.terminated 3 = true ∧
      ∀ s'', Relation.ReflTransGen (Next groupTopology) s' s'' →
        [2] <+: (s''.msgq 3).contents ∧ s''.dispatched 3 = s'.dispatched 3 :=
  have hidle : shutdownState.loop (.worker 3) = .idle := by decide
  have hl : shutdownState.lock 3 = none := by decide
  have ht : shutdownState.terminated 3 = false := by decide
  have hq : (shutdownState.msgq 3).contents = [0] ++ 1 :: [2] := by decide
  have h₁ : ∀ x ∈ [0], shutdownState.isShutdown x = false := by decide
  have hm : shutdownState.isShutdown 1 = true := by decide
  ⟨rfl, hidle, hl, ht, hq, h₁, hm,
    worker_stops_at_shutdown shutdownState_reachable rfl hidle hl ht hq h₁ hm⟩

end Actors
