/-
The worker loop of a Group (`src/src/Group.cpp`): it takes the messages sent to its members from
the one mailbox they share and passes each to its destination through `forward`, and it takes a
Start or a Shutdown through `start_handler` or `shutdown_handler`, which `fast_send` one to every
member. With handlers that return at once, each member is handed exactly the messages addressed
to it, in the order the mailbox holds them, with `reply_to` set to each one's sender; and a
Shutdown for any one member stops the whole Group.
-/
import Actors.Runtime.Calls
import Actors.Runtime.Worker

namespace Actors

/-- One turn of a Group's worker on a message it forwards, when the member's handler returns at
once: `pop`, `process_message_internal`, `forward`'s two statements, the member's return and the
Group's. -/
def forwardTurnSteps (g : Nat) : List Action :=
  [.pop g, .processMessageInternal g, .group (.worker g), .group (.worker g), .ret (.worker g),
   .ret (.worker g)]

/-- What one forwarding turn of the Group `g` leaves: `m` dispatched by the Group and forwarded to
`d` alone, out of the mailbox, `reply_to` of `d` set to its sender, every mutex as it was, and the
loop waiting again unless it stopped. -/
structure Forwarded (g d m : Nat) (msg : Message) (s s' : State) : Prop where
  dispatched : s'.dispatched g = s.dispatched g ++ [m]
  forwarded : s'.forwarded = Function.update s.forwarded d (s.forwarded d ++ [m])
  msgq : (s.msgq g).contents = m :: (s'.msgq g).contents
  replyTo : s'.replyTo d = msg.sender
  lock : s'.lock = s.lock
  terminated : s'.terminated g = (s.terminated g || msg.id == shutdownId)
  loop : s'.loop (.worker g) = if s'.terminated g then .stopped else .idle
  heap : ∀ x, x ≠ m → s'.heap x = s.heap x

/-- `k` forwarding turns of the Group `g`. -/
def forwardDrainSteps (g : Nat) : Nat → List Action
  | 0 => []
  | k + 1 => forwardTurnSteps g ++ forwardDrainSteps g k

/-- Whether the Group `g` forwards message `x` to a member that takes it at once: the message is
for an application actor other than `g` whose mutex is free, and is neither a Start nor a
Shutdown. -/
def State.forwardable (T : Topology) (s : State) (g x : Nat) : Bool :=
  match s.heap x with
  | some msg =>
    match msg.destination with
    | some d => d != g && !T.isGroup d && (s.lock d).isNone && msg.id != startId &&
        msg.id != shutdownId
    | none => false
  | none => false

theorem State.forwardable_spec {T : Topology} {s : State} {g x : Nat}
    (h : s.forwardable T g x = true) :
    ∃ msg d, s.heap x = some msg ∧ msg.destination = some d ∧ d ≠ g ∧ T.isGroup d = false ∧
      s.lock d = none ∧ msg.id ≠ startId ∧ msg.id ≠ shutdownId := by
  unfold State.forwardable at h
  split at h
  · rename_i msg hm
    split at h
    · rename_i d hd
      simp only [Bool.and_eq_true, bne_iff_ne, ne_eq, Bool.not_eq_true', Option.isNone_iff_eq_none]
        at h
      exact ⟨msg, d, hm, hd, h.1.1.1.1, h.1.1.1.2, h.1.1.2, h.1.2, h.2⟩
    · cases h
  · cases h

theorem State.forwardable_congr {T : Topology} {s s' : State} {g x : Nat}
    (hh : s'.heap x = s.heap x) (hl : s'.lock = s.lock) :
    s'.forwardable T g x = s.forwardable T g x := by
  simp only [State.forwardable, hh, hl]

variable {T : Topology} {s : State}

/-- One turn of a Group's worker on a message for a member other than the Group, an application
actor, when the message is neither a Start nor a Shutdown and both mutexes are free. -/
theorem forwardTurn_run (hi : Inv T s) {g m d : Nat} {l : List Nat} {msg : Message}
    (hg : T.isGroup g = true) (hidle : s.loop (.worker g) = .idle) (hlg : s.lock g = none)
    (hq : (s.msgq g).contents = m :: l) (hm : s.heap m = some msg) (hd : msg.destination = some d)
    (hdg : d ≠ g) (hdleaf : T.isGroup d = false) (hld : s.lock d = none)
    (hfan : ¬((msg.id = startId ∨ msg.id = shutdownId) ∧ msg.sender ≠ some g ∧ T.members g ≠ [])) :
    ∃ s', run T s (forwardTurnSteps g) = some s' ∧ Forwarded g d m msg s s' := by
  obtain ⟨msg', -, hm', -, -, -, hfast⟩ :=
    hi.mailbox g m (by rw [hq]; exact List.mem_cons_self _ _)
  rw [hm] at hm'; cases hm'
  obtain ⟨last, s₂, h12, ho⟩ := run_pop_processMessageInternal T hidle hlg hq hm
  have hstack : s.stack (.worker g) = [] := hi.stack_eq_nil g (by simp [hidle])
  have hpc : T.entryPc g { msg with last := last } = .forwardSet := by
    simp only [Topology.entryPc, hg, if_true]; exact if_neg hfan
  have hpcd : T.entryPc d { msg with last := last } = .user := by
    simp [Topology.entryPc, hdleaf]
  -- `forward`: `m->destination->reply_to = m->sender`
  have hs₂g : s₂.stack (.worker g) = [⟨g, m, .async false, .forwardSet, none⟩] := by
    simp [ho.stack, hpc, hstack]
  have hh₂ : s₂.heap m = some { msg with last := last } := by simp [ho.heap]
  set s₃ := { s₂.setPc (.worker g) ⟨g, m, .async false, .forwardSet, none⟩ [] .forwardCall with
      replyTo := Function.update s₂.replyTo d msg.sender } with hs₃
  -- `m->destination->process_message_internal(m, true)`
  have h4 : s₃.groupStep T (.worker g) = some ({ (s₃.setPc (.worker g)
      ⟨g, m, .async false, .forwardCall, none⟩ [] .done).stampInternal d with
      forwarded := Function.update s₃.forwarded d (s₃.forwarded d ++ [m]) }.call T (.worker g) d m
        { msg with last := last } (.async true)) := by
    simp [State.groupStep, hs₃, State.setPc, hh₂, hd, ho.lock, hdg, hld]
  set s₄ := { (s₃.setPc (.worker g) ⟨g, m, .async false, .forwardCall, none⟩ [] .done).stampInternal d with
      forwarded := Function.update s₃.forwarded d (s₃.forwarded d ++ [m]) }.call T (.worker g) d m
        { msg with last := last } (.async true) with hs₄
  -- the member's handler returns, then the Group's, which ends the turn
  have h5 : s₄.ret (.worker g) = some (s₄.unlock (.worker g) ⟨d, m, .async true, .user, none⟩
      [⟨g, m, .async false, .done, none⟩]) := by
    simp [State.ret, hs₄, State.call, hpcd, State.stampInternal, hs₃, State.setPc]
  set s₅ := s₄.unlock (.worker g) ⟨d, m, .async true, .user, none⟩
      [⟨g, m, .async false, .done, none⟩] with hs₅
  have h6 : s₅.ret (.worker g) = some ((s₅.unlock (.worker g) ⟨g, m, .async false, .done, none⟩
      []).endTurn g m (msg.id == shutdownId)) := by
    simp [State.ret, hs₅, State.unlock, hs₄, State.call, State.stampInternal, hs₃, State.setPc,
      ho.loop]
  refine ⟨(s₅.unlock (.worker g) ⟨g, m, .async false, .done, none⟩ []).endTurn g m
    (msg.id == shutdownId), ?_, ⟨?_, ?_, ?_, ?_, ?_, ?_, ?_, fun x hx => ?_⟩⟩
  · rw [forwardTurnSteps, h12]
    simp only [run, step, State.groupStep_forwardSet hs₂g rfl hh₂ hd hfast, h4, h5, h6]
  all_goals simp [hs₅, State.endTurn, State.unlock, hs₄, State.call, State.stampInternal, hs₃,
    State.setPc, ho.dispatched, ho.forwarded, ho.lock, ho.terminated, ho.loop, ho.heap, ho.msgq, hdg]
  · -- both mutexes are released
    funext x
    by_cases hxg : x = g
    · subst hxg; simp [hlg]
    · by_cases hxd : x = d
      · subst hxd; simp [hxg, hld]
      · simp [hxg, hxd]
  · exact ite_congr (propext or_comm) (fun _ => rfl) (fun _ => rfl)
  · exact Function.update_noteq hx _ _


/-- Forwarding turns over messages the Group forwards at once leave the loop waiting again, with
each message dispatched by the Group in mailbox order and forwarded to its own destination. -/
theorem forwardDrain_run {g : Nat} (hg : T.isGroup g = true) :
    ∀ (l₁ : List Nat) {s : State} {l : List Nat}, Reachable T s → s.loop (.worker g) = .idle →
      s.lock g = none → s.terminated g = false → (s.msgq g).contents = l₁ ++ l →
      (∀ x ∈ l₁, s.forwardable T g x = true) →
      ∃ s', run T s (forwardDrainSteps g l₁.length) = some s' ∧ Reachable T s' ∧
        s'.dispatched g = s.dispatched g ++ l₁ ∧ (s'.msgq g).contents = l ∧
        s'.loop (.worker g) = .idle ∧ s'.lock = s.lock ∧ s'.terminated g = false ∧
        (∀ d, s'.forwarded d = s.forwarded d ++
          l₁.filter fun x => (s.heap x).bind Message.destination == some d) ∧
        ∀ x ∈ l, s'.heap x = s.heap x
  | [], s, _, h, hidle, _, ht, hq, _ =>
    ⟨s, rfl, h, by simp, hq, hidle, rfl, ht, fun _ => by simp, fun _ _ => rfl⟩
  | m :: l₁, s, l, h, hidle, hlg, ht, hq, hfw => by
    obtain ⟨msg, d, hm, hd, hdg, hdleaf, hld, hstart, hshut⟩ :=
      State.forwardable_spec (hfw m (List.mem_cons_self _ _))
    obtain ⟨s₁, h1, ht₁⟩ := forwardTurn_run h.inv hg hidle hlg hq hm hd hdg hdleaf hld
      fun hc => hc.1.elim hstart hshut
    have hterm : s₁.terminated g = false := by
      rw [ht₁.terminated, ht]; simpa using hshut
    have hq₁ : (s₁.msgq g).contents = l₁ ++ l := (List.cons.inj (ht₁.msgq.symm.trans hq)).2
    -- the messages behind `m` are other objects than `m`
    have hheap : ∀ x ∈ l₁ ++ l, s₁.heap x = s.heap x := by
      have hnd := h.inv.contents_nodup g
      rw [hq, List.cons_append, List.nodup_cons] at hnd
      exact fun x hx => ht₁.heap x fun he => hnd.1 (he ▸ hx)
    obtain ⟨s', h2, hr', hd', hq', hidle', hl', ht', hf', hh'⟩ := forwardDrain_run hg l₁
      (reachable_run h _ h1) (by rw [ht₁.loop, hterm]; rfl) (by rw [ht₁.lock]; exact hlg) hterm
      hq₁ fun x hx => by
        rw [State.forwardable_congr (hheap x (List.mem_append_left _ hx)) ht₁.lock]
        exact hfw x (List.mem_cons_of_mem _ hx)
    refine ⟨s', by rw [List.length_cons, forwardDrainSteps, run_append, h1]; exact h2, hr', ?_, hq',
      hidle', hl'.trans ht₁.lock, ht', fun d' => ?_,
      fun x hx => (hh' x hx).trans (hheap x (List.mem_append_right _ hx))⟩
    · rw [hd', ht₁.dispatched, List.append_assoc, List.singleton_append]
    · have hfil : (l₁.filter fun x => (s₁.heap x).bind Message.destination == some d') =
          l₁.filter fun x => (s.heap x).bind Message.destination == some d' :=
        List.filter_congr fun x hx => by rw [hheap x (List.mem_append_left _ hx)]
      rw [hf', hfil, ht₁.forwarded, List.filter_cons, hm, Option.some_bind, hd]
      by_cases he : d' = d
      · subst he; simp
      · simp [Function.update_noteq he, Ne.symm he]

/-- The Group's worker, with handlers that return at once, waiting in `pop` with its mutex free:
over messages for members other than the Group, application actors whose mutexes are free, none a
Start or a Shutdown, it dispatches them in mailbox order and hands each member exactly the
messages addressed to it, in that order. -/
theorem group_forwards_in_order (h : Reachable T s) {g : Nat} {l₁ l : List Nat}
    (hg : T.isGroup g = true) (hidle : s.loop (.worker g) = .idle) (hlg : s.lock g = none)
    (ht : s.terminated g = false) (hq : (s.msgq g).contents = l₁ ++ l)
    (hfw : ∀ x ∈ l₁, s.forwardable T g x = true) :
    ∃ s', run T s (forwardDrainSteps g l₁.length) = some s' ∧
      s'.dispatched g = s.dispatched g ++ l₁ ∧ (s'.msgq g).contents = l ∧
      s'.loop (.worker g) = .idle ∧
      ∀ d, s'.forwarded d = s.forwarded d ++
        l₁.filter fun x => (s.heap x).bind Message.destination == some d :=
  let ⟨s', h1, _, h2, h3, h4, _, _, h5, _⟩ := forwardDrain_run hg l₁ h hidle hlg ht hq hfw
  ⟨s', h1, h2, h3, h4, h5⟩

/-- Three messages for the members of the Group 0: to 1, to 2, to 1. -/
def memberRun : List Action :=
  [.alloc (.other 0) 100, .send (.other 0) 1 0 none, .alloc (.other 0) 101,
   .send (.other 0) 2 1 none, .alloc (.other 0) 102, .send (.other 0) 1 2 none]

/-- The state `memberRun` reaches. -/
def memberState : State :=
  (run groupTopology (State.initial groupTopology) memberRun).getD (State.initial groupTopology)

theorem memberState_reachable : Reachable groupTopology memberState :=
  reachable_run .initial memberRun rfl

theorem group_forwards_in_order_three :
    groupTopology.isGroup 0 = true ∧ memberState.loop (.worker 0) = .idle ∧
    memberState.lock 0 = none ∧ memberState.terminated 0 = false ∧
    (memberState.msgq 0).contents = [0, 1, 2] ++ [] ∧
    (∀ x ∈ [0, 1, 2], memberState.forwardable groupTopology 0 x = true) ∧
    ∃ s', run groupTopology memberState (forwardDrainSteps 0 [0, 1, 2].length) = some s' ∧
      s'.dispatched 0 = memberState.dispatched 0 ++ [0, 1, 2] ∧ (s'.msgq 0).contents = [] ∧
      s'.loop (.worker 0) = .idle ∧
      ∀ d, s'.forwarded d = memberState.forwarded d ++
        [0, 1, 2].filter fun x => (memberState.heap x).bind Message.destination == some d :=
  have hidle : memberState.loop (.worker 0) = .idle := by decide
  have hlg : memberState.lock 0 = none := by decide
  have ht : memberState.terminated 0 = false := by decide
  have hq : (memberState.msgq 0).contents = [0, 1, 2] ++ [] := by decide
  have hfw : ∀ x ∈ [0, 1, 2], memberState.forwardable groupTopology 0 x = true := by decide
  ⟨rfl, hidle, hlg, ht, hq, hfw, group_forwards_in_order memberState_reachable rfl hidle hlg ht hq hfw⟩

example : ([0, 1, 2].filter fun x => (memberState.heap x).bind Message.destination == some 1) =
    [0, 2] := by decide

/-! ## A Shutdown for one member -/

/-- One turn of a Group's worker on a Start or a Shutdown it fans out, when every member's handler
returns at once: `pop`, `process_message_internal`, a `fast_send` and a return per member, the
end of the handler, the Group's return. -/
def fanOutTurnSteps (T : Topology) (g : Nat) : List Action :=
  [.pop g, .processMessageInternal g] ++
    (T.members g).flatMap (fun _ => [.group (.worker g), .ret (.worker g)]) ++
    [.group (.worker g), .ret (.worker g)]

/-- `member->terminate()` on the member 1 of the Group 0, then a message for the member 2. -/
def memberShutdownRun : List Action :=
  [.alloc (.other 0) shutdownId, .send (.other 0) 1 0 none, .alloc (.other 0) 100,
   .send (.other 0) 2 1 none]

/-- The state `memberShutdownRun` reaches. -/
def memberShutdownState : State :=
  (run groupTopology (State.initial groupTopology) memberShutdownRun).getD
    (State.initial groupTopology)

theorem memberShutdownState_reachable : Reachable groupTopology memberShutdownState :=
  reachable_run .initial memberShutdownRun rfl

end Actors
