/-
Handler invocations, over every run of the runtime: how `Actor::reply` routes a reply, and which
invocations can be active together. A reply follows the invocation in progress: in a `fast_send`
invocation it becomes the invocation's last reply, which `fast_send` returns; in an
asynchronous one it is sent to the message's sender. No actor runs two invocations at once. Two
members of one Group do: the Group's worker forwards to one while another thread's `fast_send`
runs the other, since `fast_send` takes only the member's own mutex.
-/
import Actors.Runtime.Delivery

namespace Actors

variable {T : Topology} {s : State}

/-! ## Reply routing -/

/-- In every reachable state, for the invocation `f` on top of thread `t`: if it is a
`fast_send` invocation, `reply(r)` stamps `r` with the actor as sender and keeps it as the
invocation's last reply, enqueueing nothing, and returning from the handler hands the last reply
to the `fast_send` caller. If it is asynchronous, for a message whose sender is `d`, `reply(r)` is
`d->send(r, this)`. -/
theorem reply_follows_invocation (h : Reachable T s) {t : ThreadId} {f : Frame} {rest : List Frame}
    (hs : s.stack t = f :: rest) (r : Nat) :
    (f.mode = .fast →
      s.reply T t r = (s.heap r).map (s.stashReply t f rest r) ∧
      (∀ s', s.reply T t r = some s' → s'.msgq = s.msgq ∧ s'.accepted = s.accepted ∧
        s'.heap r = (s.heap r).map (fun m => { m with sender := some f.actor }) ∧
        s'.replyMessage f.actor = some r) ∧
      (f.pc = .user ∨ f.pc = .done →
        s.ret t = some { s.unlock t f rest with result := Function.update s.result t f.lastReply })) ∧
    (∀ dd msg d, f.mode = .async dd → s.heap f.msg = some msg → msg.sender = some d →
      s.reply T t r = s.send T t d r (some f.actor)) := by
  have hf := h.inv.frame t f (State.mem_top hs)
  constructor
  · intro hm
    obtain ⟨huse, hrm⟩ := hf.fast hm
    have hreply : s.reply T t r = (s.heap r).map (s.stashReply t f rest r) := by
      simp [State.reply, hs, huse]
    refine ⟨hreply, fun s' h' => ?_, fun hpc => ?_⟩
    · rw [hreply] at h'
      obtain ⟨msg, hr, rfl⟩ := Option.map_eq_some'.1 h'
      simp [State.stashReply, hr]
    · simp [State.ret, hs, hpc, hm, hrm]
  · intro dd msg d hm hh hd
    obtain ⟨_, _, msg', _, _, _, h3, _, _, _, h7, h8, _⟩ := hf.async dd hm
    rw [hh] at h3; cases h3
    simp [State.reply, hs, h7, h8, hd]

/-- Actor 3's worker runs the handler of a message actor 1 sent it, and allocates a reply. -/
def asyncReplyRun : List Action :=
  [.alloc (.other 0) 100, .send (.other 0) 3 0 (some 1), .pop 3, .processMessageInternal 3,
   .alloc (.worker 3) 101]

/-- The state `asyncReplyRun` reaches. -/
def asyncReplyState : State :=
  (run groupTopology (State.initial groupTopology) asyncReplyRun).getD (State.initial groupTopology)

theorem asyncReplyState_reachable : Reachable groupTopology asyncReplyState :=
  reachable_run .initial asyncReplyRun rfl

/-- The `fast_send` invocation of actor 3 on thread 1 in `blockedState`, and the asynchronous
invocation of actor 3 on its worker in `asyncReplyState`, whose reply goes to the sender, actor 1. -/
theorem reply_follows_invocation_cases :
    (Reachable groupTopology blockedState ∧
    blockedState.stack (.other 1) = [⟨3, 1, .fast, .user, none⟩] ∧
    ((Mode.fast = .fast →
      blockedState.reply groupTopology (.other 1) 1 =
        (blockedState.heap 1).map (blockedState.stashReply (.other 1) ⟨3, 1, .fast, .user, none⟩ [] 1) ∧
      (∀ s', blockedState.reply groupTopology (.other 1) 1 = some s' → s'.msgq = blockedState.msgq ∧
        s'.accepted = blockedState.accepted ∧
        s'.heap 1 = (blockedState.heap 1).map (fun m => { m with sender := some 3 }) ∧
        s'.replyMessage 3 = some 1) ∧
      (Pc.user = .user ∨ Pc.user = .done →
        blockedState.ret (.other 1) = some { blockedState.unlock (.other 1) ⟨3, 1, .fast, .user, none⟩ [] with
          result := Function.update blockedState.result (.other 1) none })) ∧
    (∀ dd msg d, Mode.fast = .async dd → blockedState.heap 1 = some msg → msg.sender = some d →
      blockedState.reply groupTopology (.other 1) 1 = blockedState.send groupTopology (.other 1) d 1 (some 3)))) ∧
    (Reachable groupTopology asyncReplyState ∧
    asyncReplyState.stack (.worker 3) = [⟨3, 0, .async false, .user, none⟩] ∧
    ((Mode.async false = .fast →
      asyncReplyState.reply groupTopology (.worker 3) 1 =
        (asyncReplyState.heap 1).map
          (asyncReplyState.stashReply (.worker 3) ⟨3, 0, .async false, .user, none⟩ [] 1) ∧
      (∀ s', asyncReplyState.reply groupTopology (.worker 3) 1 = some s' →
        s'.msgq = asyncReplyState.msgq ∧ s'.accepted = asyncReplyState.accepted ∧
        s'.heap 1 = (asyncReplyState.heap 1).map (fun m => { m with sender := some 3 }) ∧
        s'.replyMessage 3 = some 1) ∧
      (Pc.user = .user ∨ Pc.user = .done →
        asyncReplyState.ret (.worker 3) =
          some { asyncReplyState.unlock (.worker 3) ⟨3, 0, .async false, .user, none⟩ [] with
            result := Function.update asyncReplyState.result (.worker 3) none })) ∧
    (∀ dd msg d, Mode.async false = .async dd → asyncReplyState.heap 0 = some msg → msg.sender = some d →
      asyncReplyState.reply groupTopology (.worker 3) 1 =
        asyncReplyState.send groupTopology (.worker 3) d 1 (some 3)))) :=
  have hs : blockedState.stack (.other 1) = [⟨3, 1, .fast, .user, none⟩] := by decide
  have ha : asyncReplyState.stack (.worker 3) = [⟨3, 0, .async false, .user, none⟩] := by decide
  ⟨⟨blockedState_reachable, hs, reply_follows_invocation blockedState_reachable hs 1⟩,
    ⟨asyncReplyState_reachable, ha, reply_follows_invocation asyncReplyState_reachable ha 1⟩⟩

/-- In `asyncReplyState`, message 0 came from actor 1, so the handler's reply is sent to 1 and
lands in the mailbox of 1's Group 0. -/
example : (asyncReplyState.heap 0).bind Message.sender = some 1 ∧
    ((asyncReplyState.send groupTopology (.worker 3) 1 1 (some 3)).map
      fun s => (s.msgq 0).contents) = some [1] := by
  decide

/-! ## Exclusion -/

/-- An asynchronous invocation of a Group member is the Group's `forward` of a message for that
member, on the Group's worker. -/
theorem Inv.async_member (hi : Inv T s) {t : ThreadId} {f : Frame} (hf : f ∈ s.stack t) {dd : Bool}
    (hm : f.mode = .async dd) {g : Nat} (hg : T.groupOf f.actor = some g) :
    t = .worker g ∧ ∃ msg, s.heap f.msg = some msg ∧ msg.destination = some f.actor := by
  obtain ⟨w, shut, msg, d, rfl, hl, h3, h4, h5, -, -, -, h9⟩ := (hi.frame _ f hf).async dd hm
  cases dd with
  | true =>
    simp only [if_true] at h9
    subst h9
    refine ⟨?_, msg, h3, h4⟩
    rw [← h5, Topology.mailboxOf, hg]; rfl
  | false =>
    simp only [Bool.false_eq_true, if_false] at h9
    have := T.worker_not_member w (hi.hasWorker_of_loop (by simp [hl]))
    rw [← h9, hg] at this; cases this

/-- The Group's worker forwards a message to member 2 while another thread `fast_send`s to
member 1. -/
def overlapRun : List Action :=
  [.alloc (.other 0) 100, .send (.other 0) 2 0 none, .pop 0, .processMessageInternal 0,
   .group (.worker 0), .group (.worker 0), .alloc (.other 1) 100, .fastSend (.other 1) 1 1 none]

/-- Two members of one Group run handlers at the same time. -/
theorem group_members_overlap :
    ∃ s, Reachable groupTopology s ∧ ∃ f ∈ s.stack (.worker 0), ∃ f' ∈ s.stack (.other 1),
      groupTopology.groupOf f.actor = some 0 ∧ groupTopology.groupOf f'.actor = some 0 ∧
      f.actor ≠ f'.actor :=
  ⟨_, reachable_run .initial overlapRun rfl, by decide⟩

end Actors
