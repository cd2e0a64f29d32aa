/-
Every step keeps `Inv`: one lemma per operation of `Actors.Runtime.Step`, then `inv_step` and
`Reachable.inv`. An invocation the step does not touch keeps `FrameOk` by `FrameOk.congr`: the
step changed none of what its handler reads, because it locks only free actors and writes only
messages its own thread owns or a worker holds.
-/
import Actors.Runtime.Invariant

namespace Actors

variable {T : Topology}

theorem FrameOk.congr {s s' : State} {t : ThreadId} {f : Frame} (h : FrameOk T s t f)
    (hlock : s'.lock f.actor = s.lock f.actor)
    (huse : s'.usingFastSend f.actor = s.usingFastSend f.actor)
    (hrm : s'.replyMessage f.actor = s.replyMessage f.actor)
    (hrt : ∀ dd, f.mode = .async dd → s'.replyTo f.actor = s.replyTo f.actor)
    (hloop : s'.loop t = s.loop t)
    (hmsg : (f.mode = .fast → f.pc = .forwardSet ∨ f.pc = .forwardCall) → ∀ msg, s.heap f.msg = some msg →
      s'.heap f.msg = s.heap f.msg ∧ s'.owner f.msg = s.owner f.msg)
    (hd : f.pc = .forwardCall → ∀ msg d, s.heap f.msg = some msg → msg.destination = some d →
      s'.replyTo d = s.replyTo d) :
    FrameOk T s' t f := by
  refine ⟨hlock.trans h.lock, fun hm => by rw [huse, hrm]; exact h.fast hm, fun dd hm => ?_,
    fun hm hp => ?_, fun hp => ?_⟩
  · obtain ⟨w, shut, msg, d, h1, h2, h3, h4, h5, h6, h7, h8, h9⟩ := h.async dd hm
    obtain ⟨e1, e2⟩ := hmsg (fun h => by rw [hm] at h; cases h) msg h3
    exact ⟨w, shut, msg, d, h1, hloop.trans h2, e1.trans h3, h4, h5, e2.trans h6, huse.trans h7,
      (hrt dd hm).trans h8, h9⟩
  · obtain ⟨h1, h2, msg, h3, h4⟩ := h.fastForward hm hp
    obtain ⟨e1, e2⟩ := hmsg (fun _ => hp) msg h3
    exact ⟨h1, e2.trans h2, msg, e1.trans h3, h4⟩
  · obtain ⟨msg, d, h1, h2, h3⟩ := h.forwardCall hp
    exact ⟨msg, d, (hmsg (fun _ => .inr hp) msg h1).1.trans h1, h2, (hd hp msg d h1 h2).trans h3⟩

theorem mem_update_append {β γ : Type} [DecidableEq β] {g : β → List γ} {b b' : β} {x y : γ} :
    y ∈ Function.update g b (g b ++ [x]) b' ↔ y ∈ g b' ∨ (b' = b ∧ y = x) := by
  rw [Function.update_apply]; split_ifs with h <;> simp [h]

theorem mem_update_stack {st : ThreadId → List Frame} {t t' : ThreadId} {l : List Frame} {g : Frame} :
    g ∈ Function.update st t l t' ↔ (t' = t ∧ g ∈ l) ∨ (t' ≠ t ∧ g ∈ st t') := by
  rw [Function.update_apply]; split_ifs with h <;> simp [h]

/-- The invocations of a thread whose top one was replaced: the new one, those below it, and
those of other threads. -/
theorem mem_setTop {st : ThreadId → List Frame} {t t' : ThreadId} {f' g : Frame} {rest : List Frame}
    (hg : g ∈ Function.update st t (f' :: rest) t') :
    (t' = t ∧ g = f') ∨ (t' = t ∧ g ∈ rest) ∨ (t' ≠ t ∧ g ∈ st t') := by
  rcases mem_update_stack.1 hg with ⟨h, hg⟩ | hg
  · rcases List.mem_cons.1 hg with rfl | hg
    · exact .inl ⟨h, rfl⟩
    · exact .inr (.inl ⟨h, hg⟩)
  · exact .inr (.inr hg)

/-- Moving an invocation to a statement outside `forward` keeps what holds of it. -/
theorem FrameOk.setPc {s : State} {t : ThreadId} {f : Frame} (h : FrameOk T s t f) {pc : Pc}
    (hpc : pc ≠ .forwardSet ∧ pc ≠ .forwardCall) : FrameOk T s t { f with pc := pc } :=
  ⟨h.lock, h.fast, h.async, fun _ hp => absurd hp (not_or.2 hpc), fun hp => absurd hp hpc.2⟩

namespace Inv

variable {s : State}

/-- Invocations other than a thread's top one are of other actors. -/
theorem actor_ne_top (hi : Inv T s) {t t' : ThreadId} {f g : Frame} {rest : List Frame}
    (hs : s.stack t = f :: rest) (hg : (t' = t ∧ g ∈ rest) ∨ (t' ≠ t ∧ g ∈ s.stack t')) :
    g ∈ s.stack t' ∧ g.actor ≠ f.actor := by
  rcases hg with ⟨rfl, hg⟩ | ⟨hne, hg⟩
  · refine ⟨State.mem_top_rest hs hg, fun he => ?_⟩
    have := hi.nodup t'
    rw [hs, List.map_cons, List.nodup_cons] at this
    exact this.1 (he ▸ List.mem_map_of_mem _ hg)
  · exact ⟨hg, fun he => hne (hi.frame_unique hg (State.mem_top hs) he).1⟩

/-! ### Replacing a thread's top invocation

The stack-shape components of `Inv` after the top invocation of `t` is replaced by one of the
same actor and mode. -/

section SetTop

variable (hi : Inv T s) {t : ThreadId} {f f' : Frame} {rest : List Frame} (hs : s.stack t = f :: rest)
include hi hs

theorem nodup_setTop (ha : f'.actor = f.actor) (t' : ThreadId) :
    ((Function.update s.stack t (f' :: rest) t').map Frame.actor).Nodup := by
  rw [Function.update_apply]
  split_ifs with h
  · have := hi.nodup t; rwa [hs, List.map_cons, ← ha] at this
  · exact hi.nodup t'

theorem forwardTop_setTop (t' : ThreadId) (g : Frame) (hg : g ∈ Function.update s.stack t (f' :: rest) t')
    (hfw : g.pc = .forwardSet ∨ g.pc = .forwardCall) :
    ∃ rest', Function.update s.stack t (f' :: rest) t' = g :: rest' := by
  rcases mem_setTop hg with ⟨rfl, rfl⟩ | ⟨-, hg⟩ | ⟨hne, hg⟩
  · exact ⟨rest, by simp⟩
  · exact absurd hfw (not_or.2 (hi.rest_not_forward hs hg))
  · simpa [Function.update_noteq hne] using hi.forwardTop t' g hg hfw

theorem bottom_setTop (hm : f'.mode = f.mode) (t' : ThreadId) (g : Frame)
    (hg : g ∈ Function.update s.stack t (f' :: rest) t') (hgm : g.mode = .async false) :
    ∃ pre, Function.update s.stack t (f' :: rest) t' = pre ++ [g] := by
  rcases mem_setTop hg with ⟨rfl, rfl⟩ | ⟨rfl, hg'⟩ | ⟨hne, hg⟩
  · exact ⟨[], by simp [hi.rest_nil_of_bottom hs (hm ▸ hgm)]⟩
  · obtain ⟨pre, hp⟩ := hi.rest_bottom hs hg' hgm
    exact ⟨f' :: pre, by simp [hp]⟩
  · simpa [Function.update_noteq hne] using hi.bottom t' g hg hgm

theorem busy_setTop (w : Nat) (hne : Function.update s.stack t (f' :: rest) (.worker w) ≠ []) :
    ∃ m shut, s.loop (.worker w) = .running m shut := by
  refine hi.busy w fun h0 => ?_
  by_cases h : ThreadId.worker w = t
  · rw [h, hs] at h0; cases h0
  · exact hne (by rw [Function.update_noteq h, h0])

theorem forwardedOnce_setTop (ha : f'.actor = f.actor) (hmsg : f'.msg = f.msg)
    (hfw : f'.pc = .forwardSet ∨ f'.pc = .forwardCall → f.pc = .forwardSet ∨ f.pc = .forwardCall)
    (d m : Nat) (t' : ThreadId) (g : Frame) (hm : m ∈ s.forwarded d)
    (hg : g ∈ Function.update s.stack t (f' :: rest) t') (hgm : g.msg = m)
    (hgw : g.pc = .forwardSet ∨ g.pc = .forwardCall) : g.actor = d := by
  rcases mem_setTop hg with ⟨rfl, rfl⟩ | hg
  · exact ha.trans (hi.forwardedOnce d m t' f hm (State.mem_top hs) (hmsg ▸ hgm) (hfw hgw))
  · exact hi.forwardedOnce d m t' g hm (hi.actor_ne_top hs hg).1 hgm hgw

end SetTop

/-- Moving the top invocation of a thread to a statement outside `forward` keeps the
invariant. -/
theorem setPc (hi : Inv T s) {t : ThreadId} {f : Frame} {rest : List Frame}
    (hs : s.stack t = f :: rest) (pc : Pc) (hpc : pc ≠ .forwardSet ∧ pc ≠ .forwardCall) :
    Inv T (s.setPc t f rest pc) where
  frame t' g hg := by
    rcases mem_setTop hg with ⟨rfl, rfl⟩ | hg
    · exact (show FrameOk T (s.setPc t' f rest pc) t' f from (hi.frame t' f (State.mem_top hs)).congr
        rfl rfl rfl (fun _ _ => rfl) rfl (fun _ _ _ => ⟨rfl, rfl⟩) (fun _ _ _ _ _ => rfl)).setPc hpc
    · exact (hi.frame t' g (hi.actor_ne_top hs hg).1).congr rfl rfl rfl (fun _ _ => rfl) rfl
        (fun _ _ _ => ⟨rfl, rfl⟩) (fun _ _ _ _ _ => rfl)
  nodup := hi.nodup_setTop hs rfl
  forwardTop := hi.forwardTop_setTop hs
  bottom := hi.bottom_setTop hs rfl
  busy := hi.busy_setTop hs
  ready := hi.ready
  running := hi.running
  mailbox := hi.mailbox
  accounting := hi.accounting
  acceptedNodup := hi.acceptedNodup
  acceptedDisjoint := hi.acceptedDisjoint
  acceptedOwner := hi.acceptedOwner
  fresh := hi.fresh
  noWorker := hi.noWorker
  forwardedDispatched := hi.forwardedDispatched
  forwardedMember := hi.forwardedMember
  forwardedNodup := hi.forwardedNodup
  forwardedOnce := hi.forwardedOnce_setTop hs rfl rfl fun h => absurd h (not_or.2 hpc)
  forwardedDisjoint := hi.forwardedDisjoint

/-- `new` keeps the invariant: the fresh object is nobody's message yet. -/
theorem alloc (hi : Inv T s) (t : ThreadId) (id : Int) : Inv T (s.alloc t id) where
  frame t' f hf := (hi.frame t' f hf).congr rfl rfl rfl (fun _ _ => rfl) rfl
    (fun _ _ h => by simp [State.alloc, Function.update_noteq (hi.lt_of_heap h).ne])
    (fun _ _ _ _ _ => rfl)
  nodup := hi.nodup
  forwardTop := hi.forwardTop
  bottom := hi.bottom
  busy := hi.busy
  ready w m shut hr := by
    obtain ⟨msg, d, h1, h2, h3, h4, h5⟩ := hi.ready w m shut hr
    refine ⟨msg, d, ?_, h2, h3, ?_, h5⟩ <;>
      simp only [State.alloc, Function.update_noteq (hi.lt_of_heap h1).ne, h1, h4]
  running := hi.running
  mailbox w m hm := by
    obtain ⟨msg, d, h1, h2, h3, h4, h5⟩ := hi.mailbox w m hm
    refine ⟨msg, d, ?_, h2, h3, ?_, h5⟩ <;>
      simp only [State.alloc, Function.update_noteq (hi.lt_of_heap h1).ne, h1, h4]
  accounting := hi.accounting
  acceptedNodup := hi.acceptedNodup
  acceptedDisjoint := hi.acceptedDisjoint
  acceptedOwner w m hm := by
    obtain ⟨h1, h2⟩ := hi.acceptedOwner w m hm
    simp only [State.alloc, Function.update_noteq h2.ne, h1, true_and]; omega
  fresh u hu := by
    simp only [State.alloc] at hu ⊢
    rw [Function.update_noteq (by omega), Function.update_noteq (by omega)]
    exact hi.fresh u (by omega)
  noWorker := hi.noWorker
  forwardedDispatched := hi.forwardedDispatched
  forwardedMember := hi.forwardedMember
  forwardedNodup := hi.forwardedNodup
  forwardedOnce := hi.forwardedOnce
  forwardedDisjoint := hi.forwardedDisjoint

/-- The invariant reads neither `terminated`, `msg_cnt` nor what a `fast_send` returned. -/
theorem unread (hi : Inv T s) (x : Nat → Bool) (y : Nat → Nat) (z : ThreadId → Option Nat) :
    Inv T { s with terminated := x, msgCnt := y, result := z } where
  frame t f hf := (hi.frame t f hf).congr rfl rfl rfl (fun _ _ => rfl) rfl (fun _ _ _ => ⟨rfl, rfl⟩)
    (fun _ _ _ _ _ => rfl)
  nodup := hi.nodup
  forwardTop := hi.forwardTop
  bottom := hi.bottom
  busy := hi.busy
  ready := hi.ready
  running := hi.running
  mailbox := hi.mailbox
  accounting := hi.accounting
  acceptedNodup := hi.acceptedNodup
  acceptedDisjoint := hi.acceptedDisjoint
  acceptedOwner := hi.acceptedOwner
  fresh := hi.fresh
  noWorker := hi.noWorker
  forwardedDispatched := hi.forwardedDispatched
  forwardedMember := hi.forwardedMember
  forwardedNodup := hi.forwardedNodup
  forwardedOnce := hi.forwardedOnce
  forwardedDisjoint := hi.forwardedDisjoint

theorem setTerminated (hi : Inv T s) (a : Nat) : Inv T (s.setTerminated a) :=
  hi.unread _ s.msgCnt s.result

/-- A thread whose top invocation is not inside `forward` has none inside it. -/
theorem no_forward_of_top (hi : Inv T s) {t : ThreadId}
    (htop : ∀ f rest, s.stack t = f :: rest → f.pc ≠ .forwardSet ∧ f.pc ≠ .forwardCall) :
    ∀ g ∈ s.stack t, g.pc ≠ .forwardSet ∧ g.pc ≠ .forwardCall := by
  intro g hg
  by_contra hc
  rw [not_and_or, not_not, not_not] at hc
  obtain ⟨rest, hr⟩ := hi.forwardTop t g hg hc
  exact absurd hc (not_or.2 (htop g rest hr))

theorem no_forward_of_userCode (hi : Inv T s) {t : ThreadId} (hu : s.userCode t = true) :
    ∀ g ∈ s.stack t, g.pc ≠ .forwardSet ∧ g.pc ≠ .forwardCall :=
  hi.no_forward_of_top fun f rest hr => by
    simp only [State.userCode, hr, beq_iff_eq] at hu
    simp [hu]

theorem mem_accept_accepted {t : ThreadId} {r m : Nat} {sender : Option Nat} {msg : Message}
    {w m' : Nat} : m' ∈ ((s.accept T t r m sender msg).accepted w).map Prod.fst ↔
      m' ∈ (s.accepted w).map Prod.fst ∨ (w = T.mailboxOf r ∧ m' = m) := by
  simp only [State.accept, Function.update_apply]
  split_ifs with h <;> simp [h]

/-- An accepted `send` keeps the invariant: the message, which its thread owned and no handler
reads, joins the end of its mailbox and of the mailbox's log at once. -/
theorem accept (hi : Inv T s) {t : ThreadId} {r m : Nat} {sender : Option Nat} {msg : Message}
    (ho : s.owner m = some t) (hm : s.heap m = some msg)
    (htop : ∀ g ∈ s.stack t, g.pc ≠ .forwardSet ∧ g.pc ≠ .forwardCall) :
    Inv T (s.accept T t r m sender msg) where
  frame t' f hf := (hi.frame t' f hf).congr rfl rfl rfl (fun _ _ => rfl) rfl
    (fun hfw _ _ => by
      have hne : f.msg ≠ m := fun he => by
        obtain ⟨h1, h2, h3⟩ := hi.owned_frame ho htop hf he
        rcases hfw h1 with h | h <;> contradiction
      simp [State.accept, Function.update_noteq hne])
    (fun _ _ _ _ _ => rfl)
  nodup := hi.nodup
  forwardTop := hi.forwardTop
  bottom := hi.bottom
  busy := hi.busy
  ready w m' shut hr := by
    obtain ⟨msg', d, h1, h2, h3, h4, h5⟩ := hi.ready w m' shut hr
    have hne : m' ≠ m := by rintro rfl; rw [h4] at ho; cases ho
    exact ⟨msg', d, by simpa [State.accept, Function.update_noteq hne] using h1, h2, h3,
      by simpa [State.accept, Function.update_noteq hne] using h4, h5⟩
  running := hi.running
  mailbox w m' hm' := by
    simp only [State.accept, Function.update_apply] at hm' ⊢
    split_ifs at hm' with hw
    · subst hw
      rw [BQueue.contents_push, List.mem_append, List.mem_singleton] at hm'
      by_cases hme : m' = m
      · subst hme
        exact ⟨{ msg with isFast := false, last := false, sender := sender, destination := some r },
          r, by simp, rfl, rfl, by simp, rfl⟩
      · simpa [hme] using hi.mailbox _ m' (hm'.resolve_right hme)
    · obtain ⟨msg', d, h1, h2, h3, h4, h5⟩ := hi.mailbox w m' hm'
      have hne : m' ≠ m := by rintro rfl; rw [h4] at ho; cases ho
      exact ⟨msg', d, by simpa [hne] using h1, h2, h3, by simpa [hne] using h4, h5⟩
  accounting w := by
    simp only [State.accept, Function.update_apply]
    split_ifs with hw
    · subst hw; simp [BQueue.contents_push, hi.accounting]
    · exact hi.accounting w
  acceptedNodup w := by
    simp only [State.accept, Function.update_apply]
    split_ifs with hw
    · rw [List.map_append, List.nodup_append]
      exact ⟨hi.acceptedNodup _, by simp, by simpa using hi.not_accepted_of_owner ho _⟩
    · exact hi.acceptedNodup w
  acceptedDisjoint w w' m' h h' := by
    rw [mem_accept_accepted] at h h'
    rcases h with h | ⟨rfl, rfl⟩ <;> rcases h' with h' | ⟨rfl, hh⟩
    · exact hi.acceptedDisjoint w w' m' h h'
    · exact absurd h (hh ▸ hi.not_accepted_of_owner ho w)
    · exact absurd h' (hi.not_accepted_of_owner ho w')
    · rfl
  acceptedOwner w m' h := by
    rw [mem_accept_accepted] at h
    simp only [State.accept, Function.update_apply]
    rcases h with h | ⟨-, rfl⟩
    · have hne : m' ≠ m := fun he => hi.not_accepted_of_owner ho w (he ▸ h)
      simpa [hne] using hi.acceptedOwner w m' h
    · simpa using hi.lt_of_heap hm
  fresh u (hu : s.nextUid ≤ u) := by
    have hne : u ≠ m := by have := hi.lt_of_heap hm; omega
    simpa [State.accept, Function.update_noteq hne] using hi.fresh u hu
  noWorker := hi.noWorker
  forwardedDispatched := hi.forwardedDispatched
  forwardedMember := hi.forwardedMember
  forwardedNodup := hi.forwardedNodup
  forwardedOnce := hi.forwardedOnce
  forwardedDisjoint := hi.forwardedDisjoint

theorem send (hi : Inv T s) {t : ThreadId} {r m : Nat} {sender : Option Nat} {s' : State}
    (ho : s.owner m = some t) (htop : ∀ g ∈ s.stack t, g.pc ≠ .forwardSet ∧ g.pc ≠ .forwardCall)
    (h : s.send T t r m sender = some s') : Inv T s' := by
  rcases State.send_eq_some T s h with rfl | ⟨msg, hm, -, rfl⟩
  · exact hi
  · exact hi.accept ho hm htop

theorem ne_of_owner {m m' : Nat} {t : ThreadId} (ho : s.owner m = some t) (h : s.owner m' = none) :
    m' ≠ m := by
  rintro rfl; rw [h] at ho; cases ho

/-- The writes of `fast_send` before its call keep the invariant: nobody holds the receiver's
mutex, and the message is its thread's own. -/
theorem stampFast (hi : Inv T s) {t : ThreadId} {r m : Nat} {sender : Option Nat} {msg : Message}
    (hlock : s.lock r = none) (ho : s.owner m = some t) (hm : s.heap m = some msg)
    (htop : ∀ g ∈ s.stack t, g.pc ≠ .forwardSet ∧ g.pc ≠ .forwardCall) :
    Inv T (s.stampFast r m sender msg) where
  frame t' f hf := by
    have hne := hi.actor_ne_of_lock_none hlock hf
    refine (hi.frame t' f hf).congr rfl ?_ ?_ (fun _ _ => rfl) rfl (fun hfw _ _ => ?_)
      (fun _ _ _ _ _ => rfl)
    · simp [State.stampFast, Function.update_noteq hne]
    · simp [State.stampFast, Function.update_noteq hne]
    · have hmne : f.msg ≠ m := fun he => by
        obtain ⟨h1, h2, h3⟩ := hi.owned_frame ho htop hf he
        rcases hfw h1 with h | h <;> contradiction
      simp [State.stampFast, Function.update_noteq hmne]
  nodup := hi.nodup
  forwardTop := hi.forwardTop
  bottom := hi.bottom
  busy := hi.busy
  ready w m' shut hr := by
    obtain ⟨msg', d, h1, h2, h3, h4, h5⟩ := hi.ready w m' shut hr
    exact ⟨msg', d, by simpa [State.stampFast, Function.update_noteq (ne_of_owner ho h4)] using h1,
      h2, h3, h4, h5⟩
  running := hi.running
  mailbox w m' hm' := by
    obtain ⟨msg', d, h1, h2, h3, h4, h5⟩ := hi.mailbox w m' hm'
    exact ⟨msg', d, by simpa [State.stampFast, Function.update_noteq (ne_of_owner ho h4)] using h1,
      h2, h3, h4, h5⟩
  accounting := hi.accounting
  acceptedNodup := hi.acceptedNodup
  acceptedDisjoint := hi.acceptedDisjoint
  acceptedOwner := hi.acceptedOwner
  fresh u (hu : s.nextUid ≤ u) := by
    have hne : u ≠ m := by have := hi.lt_of_heap hm; omega
    simpa [State.stampFast, Function.update_noteq hne] using hi.fresh u hu
  noWorker := hi.noWorker
  forwardedDispatched := hi.forwardedDispatched
  forwardedMember := hi.forwardedMember
  forwardedNodup := hi.forwardedNodup
  forwardedOnce := hi.forwardedOnce
  forwardedDisjoint := hi.forwardedDisjoint

/-- Taking a free mutex and entering a handler keeps the invariant, given what the new
invocation needs: the thread is inside no `forward`, a worker calls only inside its turn, and
only the worker loop's own call sits at the bottom. -/
theorem call (hi : Inv T s) {t : ThreadId} {a m : Nat} {msg : Message} {mode : Mode}
    (hlock : s.lock a = none)
    (hnew : FrameOk T (s.call T t a m msg mode) t ⟨a, m, mode, T.entryPc a msg, none⟩)
    (htop : ∀ g ∈ s.stack t, g.pc ≠ .forwardSet ∧ g.pc ≠ .forwardCall)
    (hbusy : ∀ w, t = .worker w → ∃ m shut, s.loop t = .running m shut)
    (hbottom : mode = .async false → s.stack t = [])
    (honce : ∀ d, m ∈ s.forwarded d → T.entryPc a msg = .forwardSet → a = d) :
    Inv T (s.call T t a m msg mode) where
  frame t' f hf := by
    rcases (State.mem_call_stack T s).1 hf with ⟨rfl, rfl⟩ | hf
    · exact hnew
    · refine (hi.frame t' f hf).congr ?_ rfl rfl (fun _ _ => rfl) rfl (fun _ _ _ => ⟨rfl, rfl⟩)
        (fun _ _ _ _ _ => rfl)
      simp [State.call, Function.update_noteq (hi.actor_ne_of_lock_none hlock hf)]
  nodup t' := by
    simp only [State.call, Function.update_apply]
    split_ifs with h
    · subst h
      rw [List.map_cons, List.nodup_cons]
      refine ⟨fun hm => ?_, hi.nodup _⟩
      obtain ⟨g, hg, he⟩ := List.mem_map.1 hm
      exact hi.actor_ne_of_lock_none hlock hg he
    · exact hi.nodup t'
  forwardTop t' f hf hfw := by
    rcases (State.mem_call_stack T s).1 hf with ⟨rfl, rfl⟩ | hf'
    · exact ⟨s.stack t', by simp [State.call]⟩
    · by_cases h : t' = t
      · subst h; exact absurd hfw (not_or.2 (htop f hf'))
      · simpa [State.call, Function.update_noteq h] using hi.forwardTop t' f hf' hfw
  bottom t' f hf hm := by
    rcases (State.mem_call_stack T s).1 hf with ⟨rfl, rfl⟩ | hf'
    · exact ⟨[], by simp [State.call, hbottom hm]⟩
    · obtain ⟨pre, hp⟩ := hi.bottom t' f hf' hm
      by_cases h : t' = t
      · subst h; exact ⟨⟨a, m, mode, T.entryPc a msg, none⟩ :: pre, by simp [State.call, hp]⟩
      · exact ⟨pre, by simpa [State.call, Function.update_noteq h] using hp⟩
  busy w hne := by
    by_cases h : ThreadId.worker w = t
    · subst h; exact hbusy w rfl
    · exact hi.busy w (by simpa [State.call, Function.update_noteq h] using hne)
  ready := hi.ready
  running := hi.running
  mailbox := hi.mailbox
  accounting := hi.accounting
  acceptedNodup := hi.acceptedNodup
  acceptedDisjoint := hi.acceptedDisjoint
  acceptedOwner := hi.acceptedOwner
  fresh := hi.fresh
  noWorker := hi.noWorker
  forwardedDispatched := hi.forwardedDispatched
  forwardedMember := hi.forwardedMember
  forwardedNodup := hi.forwardedNodup
  forwardedOnce d m' t' f hm' hf hfm hfw := by
    rcases (State.mem_call_stack T s).1 hf with ⟨rfl, rfl⟩ | hf'
    · subst hfm
      exact honce d hm' (hfw.resolve_right (T.entryPc_ne_forwardCall a msg))
    · exact hi.forwardedOnce d m' t' f hm' hf' hfm hfw
  forwardedDisjoint := hi.forwardedDisjoint

/-- `fast_send` keeps the invariant, from a thread inside no `forward` and, on a worker, inside
its turn. -/
theorem fastSend (hi : Inv T s) {t : ThreadId} {r m : Nat} {sender : Option Nat} {s' : State}
    (ho : s.owner m = some t) (htop : ∀ g ∈ s.stack t, g.pc ≠ .forwardSet ∧ g.pc ≠ .forwardCall)
    (hbusy : ∀ w, t = .worker w → ∃ m shut, s.loop t = .running m shut)
    (h : s.fastSend T t r m sender = some s') : Inv T s' := by
  obtain ⟨msg, hm, hlock, rfl | rfl⟩ := State.fastSend_eq_some T s h
  · exact (hi.stampFast hlock ho hm htop).unread _ _ _
  · refine (hi.stampFast hlock ho hm htop).call hlock ⟨by simp [State.call], fun _ => ?_,
      (fun _ h => nomatch h), fun _ hp => ?_, fun hp => absurd hp (T.entryPc_ne_forwardCall _ _)⟩
      htop hbusy (fun h => nomatch h) (fun d hd => absurd hd (hi.not_forwarded_of_owner ho d))
    · simp [State.call, State.stampFast]
    · exact ⟨hp.resolve_right (T.entryPc_ne_forwardCall _ _), by simpa [State.call, State.stampFast],
        { msg with sender := sender, isFast := true, last := true }, by simp [State.call, State.stampFast],
        rfl⟩

/-- `reply` in a `fast_send` invocation keeps the invariant: the reply, its thread's own message,
becomes the invocation's last reply. -/
theorem stashReply (hi : Inv T s) {t : ThreadId} {f : Frame} {rest : List Frame} {r : Nat}
    {msg : Message} (hs : s.stack t = f :: rest) (hfast : f.mode = .fast) (hpc : f.pc = .user)
    (ho : s.owner r = some t) (hr : s.heap r = some msg) :
    Inv T (s.stashReply t f rest r msg) where
  frame t' g hg := by
    rcases mem_setTop hg with ⟨rfl, rfl⟩ | hg
    · have h := hi.frame t' f (State.mem_top hs)
      exact ⟨by simpa [State.stashReply] using h.lock,
        fun _ => ⟨by simpa [State.stashReply] using (h.fast hfast).1, by simp [State.stashReply]⟩,
        fun dd hm => by simp [hfast] at hm, fun _ hp => by simp [hpc] at hp,
        fun hp => by simp [hpc] at hp⟩
    · obtain ⟨hg1, hne⟩ := hi.actor_ne_top hs hg
      have htop := hi.no_forward_of_top fun f0 rest0 h => by
        rw [hs, List.cons.injEq] at h; rw [← h.1, hpc]; simp
      refine (hi.frame t' g hg1).congr rfl rfl ?_ (fun _ _ => rfl) rfl (fun hfw _ _ => ?_)
        (fun _ _ _ _ _ => rfl)
      · simp [State.stashReply, Function.update_noteq hne]
      · simp [State.stashReply, Function.update_noteq (hi.msg_ne_of_owned ho htop hg1 hfw)]
  nodup := hi.nodup_setTop hs rfl
  forwardTop := hi.forwardTop_setTop hs
  bottom := hi.bottom_setTop hs rfl
  busy := hi.busy_setTop hs
  ready w m' shut hr' := by
    obtain ⟨msg', d, h1, h2, h3, h4, h5⟩ := hi.ready w m' shut hr'
    exact ⟨msg', d, by simpa [State.stashReply, Function.update_noteq (ne_of_owner ho h4)] using h1,
      h2, h3, h4, h5⟩
  running := hi.running
  mailbox w m' hm' := by
    obtain ⟨msg', d, h1, h2, h3, h4, h5⟩ := hi.mailbox w m' hm'
    exact ⟨msg', d, by simpa [State.stashReply, Function.update_noteq (ne_of_owner ho h4)] using h1,
      h2, h3, h4, h5⟩
  accounting := hi.accounting
  acceptedNodup := hi.acceptedNodup
  acceptedDisjoint := hi.acceptedDisjoint
  acceptedOwner := hi.acceptedOwner
  fresh u (hu : s.nextUid ≤ u) := by
    have hne : u ≠ r := by have := hi.lt_of_heap hr; omega
    simpa [State.stashReply, Function.update_noteq hne] using hi.fresh u hu
  noWorker := hi.noWorker
  forwardedDispatched := hi.forwardedDispatched
  forwardedMember := hi.forwardedMember
  forwardedNodup := hi.forwardedNodup
  forwardedOnce := hi.forwardedOnce_setTop hs rfl rfl id
  forwardedDisjoint := hi.forwardedDisjoint

theorem reply (hi : Inv T s) {t : ThreadId} {r : Nat} {s' : State} (hu : s.userCode t = true)
    (ho : s.owner r = some t) (h : s.reply T t r = some s') : Inv T s' := by
  obtain ⟨f, rest, hs, ⟨huse, msg, hr, rfl⟩ | ⟨-, d, -, h⟩⟩ := State.reply_eq_some T s h
  · have hpc : f.pc = .user := by simpa [State.userCode, hs] using hu
    exact hi.stashReply hs (hi.fast_of_usingFastSend (State.mem_top hs) huse) hpc ho hr
  · exact hi.send ho (hi.no_forward_of_userCode hu) h

/-- A handler's return keeps the invariant: the mutex it releases is held by no other
invocation. -/
theorem unlock (hi : Inv T s) {t : ThreadId} {f : Frame} {rest : List Frame}
    (hs : s.stack t = f :: rest) : Inv T (s.unlock t f rest) where
  frame t' g hg := by
    obtain ⟨hg1, hne⟩ := hi.actor_ne_top hs (mem_update_stack.1 hg)
    exact (hi.frame t' g hg1).congr (by simp [State.unlock, Function.update_noteq hne]) rfl rfl
      (fun _ _ => rfl) rfl (fun _ _ _ => ⟨rfl, rfl⟩) (fun _ _ _ _ _ => rfl)
  nodup t' := by
    simp only [State.unlock, Function.update_apply]
    split_ifs
    · have := hi.nodup t; rw [hs, List.map_cons] at this; exact this.of_cons
    · exact hi.nodup t'
  forwardTop t' g hg hfw := by
    rcases mem_update_stack.1 hg with ⟨-, hg⟩ | ⟨hne, hg⟩
    · exact absurd hfw (not_or.2 (hi.rest_not_forward hs hg))
    · simpa [State.unlock, Function.update_noteq hne] using hi.forwardTop t' g hg hfw
  bottom t' g hg hgm := by
    rcases mem_update_stack.1 hg with ⟨rfl, hg'⟩ | ⟨hne, hg⟩
    · simpa [State.unlock] using hi.rest_bottom hs hg' hgm
    · simpa [State.unlock, Function.update_noteq hne] using hi.bottom t' g hg hgm
  busy w hne := hi.busy w fun h0 => by
    by_cases h : ThreadId.worker w = t
    · rw [h, hs] at h0; cases h0
    · exact hne (by simp [State.unlock, Function.update_noteq h, h0])
  ready := hi.ready
  running := hi.running
  mailbox := hi.mailbox
  accounting := hi.accounting
  acceptedNodup := hi.acceptedNodup
  acceptedDisjoint := hi.acceptedDisjoint
  acceptedOwner := hi.acceptedOwner
  fresh := hi.fresh
  noWorker := hi.noWorker
  forwardedDispatched := hi.forwardedDispatched
  forwardedMember := hi.forwardedMember
  forwardedNodup := hi.forwardedNodup
  forwardedOnce d m t' g hm hg := hi.forwardedOnce d m t' g hm (hi.actor_ne_top hs (mem_update_stack.1 hg)).1
  forwardedDisjoint := hi.forwardedDisjoint

/-- The end of a worker's turn keeps the invariant: its handler has returned, and the message it
frees is read by no other invocation. -/
theorem endTurn (hi : Inv T s) {w m d : Nat} {shut : Bool} {msg : Message}
    (hr : s.loop (.worker w) = .running m shut) (hs : s.stack (.worker w) = [])
    (hm : s.heap m = some msg) (hd : msg.destination = some d) (hmd : T.mailboxOf d = w)
    (ho : s.owner m = none) : Inv T (s.endTurn w m shut) where
  frame t' g hg := by
    have ht : t' ≠ .worker w := by rintro rfl; exact List.not_mem_nil g (hs ▸ hg)
    refine (hi.frame t' g hg).congr rfl rfl rfl (fun _ _ => rfl)
      (by simp [State.endTurn, Function.update_noteq ht]) (fun hfw _ _ => ?_) (fun _ _ _ _ _ => rfl)
    simp [State.endTurn, Function.update_noteq (hi.msg_ne_of_thread hm hd ho hg (hmd ▸ ht) hfw)]
  nodup := hi.nodup
  forwardTop := hi.forwardTop
  bottom := hi.bottom
  busy w' hne := by
    have hw : w' ≠ w := by rintro rfl; exact hne hs
    simpa [State.endTurn, Function.update_noteq (mt ThreadId.worker.inj hw)] using hi.busy w' hne
  ready w' m' shut' hr' := by
    by_cases hw : w' = w
    · subst hw
      simp only [State.endTurn, Function.update_same] at hr'
      split_ifs at hr'
    · have hr0 : s.loop (.worker w') = .ready m' shut' := by
        simpa [State.endTurn, Function.update_noteq (mt ThreadId.worker.inj hw)] using hr'
      obtain ⟨msg', d', h1, h2, h3, h4, h5⟩ := hi.ready w' m' shut' hr0
      have hne : m' ≠ m := fun he => hw (hi.acceptedDisjoint _ _ m' (hi.accepted_of_ready hr0)
        (he ▸ hi.accepted_of_dispatched (hi.running w m shut hr)))
      exact ⟨msg', d', by simpa [State.endTurn, Function.update_noteq hne] using h1, h2, h3, h4, h5⟩
  running w' m' shut' hr' := by
    by_cases hw : w' = w
    · subst hw
      simp only [State.endTurn, Function.update_same] at hr'
      split_ifs at hr'
    · exact hi.running w' m' shut'
        (by simpa [State.endTurn, Function.update_noteq (mt ThreadId.worker.inj hw)] using hr')
  mailbox w' m' hm' := by
    obtain ⟨msg', d', h1, h2, h3, h4, h5⟩ := hi.mailbox w' m' hm'
    have hne : m' ≠ m := fun he => hi.not_contents_of_dispatched (hi.running w m shut hr) w' (he ▸ hm')
    exact ⟨msg', d', by simpa [State.endTurn, Function.update_noteq hne] using h1, h2, h3, h4, h5⟩
  accounting w' := by
    by_cases hw : w' = w
    · subst hw
      have := hi.accounting w'
      rw [hr] at this
      simp only [State.endTurn, Function.update_same]
      split_ifs <;> simpa [Loop.held] using this
    · simpa [State.endTurn, Function.update_noteq (mt ThreadId.worker.inj hw)] using hi.accounting w'
  acceptedNodup := hi.acceptedNodup
  acceptedDisjoint := hi.acceptedDisjoint
  acceptedOwner := hi.acceptedOwner
  fresh u hu := by
    refine ⟨?_, (hi.fresh u hu).2⟩
    simp only [State.endTurn, Function.update_apply]
    split_ifs
    · rfl
    · exact (hi.fresh u hu).1
  noWorker w' hw' := by
    by_cases hw : w' = w
    · subst hw; rw [hi.noWorker w' hw'] at hr; cases hr
    · simpa [State.endTurn, Function.update_noteq (mt ThreadId.worker.inj hw)] using hi.noWorker w' hw'
  forwardedDispatched := hi.forwardedDispatched
  forwardedMember := hi.forwardedMember
  forwardedNodup := hi.forwardedNodup
  forwardedOnce := hi.forwardedOnce
  forwardedDisjoint := hi.forwardedDisjoint

theorem ret (hi : Inv T s) {t : ThreadId} {s' : State} (h : s.ret t = some s') : Inv T s' := by
  obtain ⟨f, rest, hs, -, ⟨-, rfl⟩ | ⟨-, rfl⟩ | ⟨w, m, shut, hm, rfl, hl, rfl⟩⟩ := State.ret_eq_some s h
  · exact (hi.unlock hs).unread _ _ _
  · exact hi.unlock hs
  · obtain ⟨w', shut', msg, d, hw, hl', hh, hd, hmd, ho, -⟩ :=
      (hi.frame _ f (State.mem_top hs)).async false hm
    cases hw
    rw [hl] at hl'
    obtain ⟨rfl, rfl⟩ := Loop.running.inj hl'
    exact (hi.unlock hs).endTurn hl (by simp [State.unlock, hi.rest_nil_of_bottom hs hm]) hh hd hmd ho

/-- Taking the head of a mailbox keeps the invariant: the worker holds it with `reply_to` set to
its sender, and no handler of that worker runs. -/
theorem popped (hi : Inv T s) {w m : Nat} {last : Bool} {q : BQueue Nat} {msg : Message}
    (hl : s.loop (.worker w) = .idle) (hp : (s.msgq w).pop = some (m, last, q))
    (hm : s.heap m = some msg) : Inv T (s.popped w m last q msg) := by
  have hc := BQueue.contents_of_pop hp
  have hmem : m ∈ (s.msgq w).contents := by rw [hc]; exact .head _
  obtain ⟨msg', d, h1, hd, hmd, ho, -⟩ := hi.mailbox w m hmem
  rw [hm] at h1; cases h1
  have hs := hi.stack_eq_nil w (by simp [hl])
  have hmw : T.mailboxOf w = w := hi.mailboxOf_of_loop (by simp [hl])
  exact {
    frame := fun t' g hg => by
      have ht : t' ≠ .worker w := by rintro rfl; exact List.not_mem_nil g (hs ▸ hg)
      refine (hi.frame t' g hg).congr rfl rfl rfl (fun dd hgm => ?_)
        (by simp [State.popped, Function.update_noteq ht]) (fun hfw _ _ => ?_)
        (fun hp' msg'' d' h1' h2' => ?_)
      · have : g.actor ≠ w := fun he => ht (by rw [hi.async_thread hg hgm, he, hmw])
        simp [State.popped, Function.update_noteq this]
      · simp [State.popped, Function.update_noteq (hi.msg_ne_of_thread hm hd ho hg (hmd ▸ ht) hfw)]
      · obtain ⟨dd, hgm⟩ := hi.async_of_forwardCall hg hp'
        have : d' ≠ w := fun he => ht (by
          rw [hi.async_thread hg hgm, ← hi.async_mailbox_msg hg hgm h1' h2', he, hmw])
        simp [State.popped, Function.update_noteq this]
    nodup := hi.nodup
    forwardTop := hi.forwardTop
    bottom := hi.bottom
    busy := fun w' hne => by
      have hw : w' ≠ w := by rintro rfl; exact hne hs
      simpa [State.popped, Function.update_noteq (mt ThreadId.worker.inj hw)] using hi.busy w' hne
    ready := fun w' m' shut' hr' => by
      by_cases hw : w' = w
      · subst hw
        simp only [State.popped, Function.update_same, Loop.ready.injEq] at hr'
        obtain ⟨rfl, rfl⟩ := hr'
        exact ⟨{ msg with last := last }, d, by simp [State.popped], hd, hmd, ho, by simp [State.popped]⟩
      · have hr0 : s.loop (.worker w') = .ready m' shut' := by
          simpa [State.popped, Function.update_noteq (mt ThreadId.worker.inj hw)] using hr'
        obtain ⟨msg', d', h1, h2, h3, h4, h5⟩ := hi.ready w' m' shut' hr0
        have hne : m' ≠ m := fun he => hw (hi.acceptedDisjoint _ _ m' (hi.accepted_of_ready hr0)
          (he ▸ hi.accepted_of_contents hmem))
        exact ⟨msg', d', by simpa [State.popped, Function.update_noteq hne] using h1, h2, h3, h4,
          by simpa [State.popped, Function.update_noteq hw] using h5⟩
    running := fun w' m' shut' hr' => by
      by_cases hw : w' = w
      · subst hw; simp [State.popped] at hr'
      · exact hi.running w' m' shut'
          (by simpa [State.popped, Function.update_noteq (mt ThreadId.worker.inj hw)] using hr')
    mailbox := fun w' m' hm' => by
      have hm0 : m' ∈ (s.msgq w').contents := by
        by_cases hw : w' = w
        · subst hw; simp only [State.popped, Function.update_same] at hm'; rw [hc]; exact .tail _ hm'
        · simpa [State.popped, Function.update_noteq hw] using hm'
      obtain ⟨msg', d', h1, h2, h3, h4, h5⟩ := hi.mailbox w' m' hm0
      by_cases he : m' = m
      · subst he; rw [hm] at h1; cases h1
        exact ⟨{ msg with last := last }, d', by simp [State.popped], h2, h3, h4, h5⟩
      · exact ⟨msg', d', by simpa [State.popped, Function.update_noteq he] using h1, h2, h3, h4, h5⟩
    accounting := fun w' => by
      by_cases hw : w' = w
      · subst hw
        have := hi.accounting w'
        rw [hl, hc] at this
        simpa [State.popped, Loop.held] using this
      · simpa [State.popped, Function.update_noteq hw, Function.update_noteq (mt ThreadId.worker.inj hw)]
          using hi.accounting w'
    acceptedNodup := hi.acceptedNodup
    acceptedDisjoint := hi.acceptedDisjoint
    acceptedOwner := hi.acceptedOwner
    fresh := fun u (hu : s.nextUid ≤ u) => by
      have hne : u ≠ m := by have := hi.lt_of_heap hm; omega
      simpa [State.popped, Function.update_noteq hne] using hi.fresh u hu
    noWorker := fun w' hw' => by
      by_cases hw : w' = w
      · subst hw; rw [hi.noWorker w' hw'] at hl; cases hl
      · simpa [State.popped, Function.update_noteq (mt ThreadId.worker.inj hw)] using hi.noWorker w' hw'
    forwardedDispatched := hi.forwardedDispatched
    forwardedMember := hi.forwardedMember
    forwardedNodup := hi.forwardedNodup
    forwardedOnce := hi.forwardedOnce
    forwardedDisjoint := hi.forwardedDisjoint }

theorem pop (hi : Inv T s) {w : Nat} {s' : State} (h : s.pop w = some s') : Inv T s' := by
  obtain ⟨m, last, q, msg, hl, hp, hm, rfl⟩ := State.pop_eq_some s h
  exact hi.popped hl hp hm

/-- The writes of `process_message_internal` before its call keep the invariant: nobody holds the
actor's mutex. -/
theorem stampInternal (hi : Inv T s) {a : Nat} (hlock : s.lock a = none) : Inv T (s.stampInternal a) where
  frame t f hf := (hi.frame t f hf).congr rfl
    (by simp [State.stampInternal, Function.update_noteq (hi.actor_ne_of_lock_none hlock hf)]) rfl
    (fun _ _ => rfl) rfl (fun _ _ _ => ⟨rfl, rfl⟩) (fun _ _ _ _ _ => rfl)
  nodup := hi.nodup
  forwardTop := hi.forwardTop
  bottom := hi.bottom
  busy := hi.busy
  ready := hi.ready
  running := hi.running
  mailbox := hi.mailbox
  accounting := hi.accounting
  acceptedNodup := hi.acceptedNodup
  acceptedDisjoint := hi.acceptedDisjoint
  acceptedOwner := hi.acceptedOwner
  fresh := hi.fresh
  noWorker := hi.noWorker
  forwardedDispatched := hi.forwardedDispatched
  forwardedMember := hi.forwardedMember
  forwardedNodup := hi.forwardedNodup
  forwardedOnce := hi.forwardedOnce
  forwardedDisjoint := hi.forwardedDisjoint

/-- A worker entering its turn with the message it holds keeps the invariant: the message moves
from held to dispatched. -/
theorem startTurn (hi : Inv T s) {w m : Nat} {shut : Bool} (hr : s.loop (.worker w) = .ready m shut) :
    Inv T { s with loop := Function.update s.loop (.worker w) (.running m shut)
                   dispatched := Function.update s.dispatched w (s.dispatched w ++ [m]) } where
  frame t' g hg := by
    have ht : t' ≠ .worker w := by
      rintro rfl; exact List.not_mem_nil g (hi.stack_eq_nil w (by simp [hr]) ▸ hg)
    exact (hi.frame t' g hg).congr rfl rfl rfl (fun _ _ => rfl) (by simp [Function.update_noteq ht])
      (fun _ _ _ => ⟨rfl, rfl⟩) (fun _ _ _ _ _ => rfl)
  nodup := hi.nodup
  forwardTop := hi.forwardTop
  bottom := hi.bottom
  busy w' hne := by
    by_cases hw : w' = w
    · subst hw; exact ⟨m, shut, by simp⟩
    · simpa [Function.update_noteq (mt ThreadId.worker.inj hw)] using hi.busy w' hne
  ready w' m' shut' hr' := by
    by_cases hw : w' = w
    · subst hw; simp at hr'
    · exact hi.ready w' m' shut' (by simpa [Function.update_noteq (mt ThreadId.worker.inj hw)] using hr')
  running w' m' shut' hr' := by
    by_cases hw : w' = w
    · subst hw
      simp only [Function.update_same, Loop.running.injEq] at hr'
      simp [hr'.1]
    · simpa [Function.update_noteq hw] using
        hi.running w' m' shut' (by simpa [Function.update_noteq (mt ThreadId.worker.inj hw)] using hr')
  mailbox := hi.mailbox
  accounting w' := by
    by_cases hw : w' = w
    · subst hw
      have := hi.accounting w'
      rw [hr] at this
      simpa [Loop.held] using this
    · simpa [Function.update_noteq hw, Function.update_noteq (mt ThreadId.worker.inj hw)]
        using hi.accounting w'
  acceptedNodup := hi.acceptedNodup
  acceptedDisjoint := hi.acceptedDisjoint
  acceptedOwner := hi.acceptedOwner
  fresh := hi.fresh
  noWorker w' hw' := by
    by_cases hw : w' = w
    · subst hw; rw [hi.noWorker w' hw'] at hr; cases hr
    · simpa [Function.update_noteq (mt ThreadId.worker.inj hw)] using hi.noWorker w' hw'
  forwardedDispatched d m' hm' := by
    have := hi.forwardedDispatched d m' hm'
    simp only [Function.update_apply]
    split_ifs <;> simp_all
  forwardedMember := hi.forwardedMember
  forwardedNodup := hi.forwardedNodup
  forwardedOnce := hi.forwardedOnce
  forwardedDisjoint := hi.forwardedDisjoint

/-- `process_message_internal` from the worker loop keeps the invariant. -/
theorem processMessageInternal (hi : Inv T s) {w : Nat} {s' : State}
    (h : s.processMessageInternal T w = some s') : Inv T s' := by
  obtain ⟨m, shut, msg, hr, hm, hlock, rfl⟩ := State.processMessageInternal_eq_some T s h
  obtain ⟨msg', d, h1, hd, hmd, ho, hrt⟩ := hi.ready w m shut hr
  rw [hm] at h1; cases h1
  have hs := hi.stack_eq_nil w (by simp [hr])
  refine ((hi.stampInternal hlock).startTurn hr).call hlock
    ⟨by simp [State.call], (fun h => nomatch h), fun dd hdd => ?_, (fun h => nomatch h),
      fun hp => absurd hp (T.entryPc_ne_forwardCall _ _)⟩
    (fun g hg => absurd (hs ▸ hg) (List.not_mem_nil g)) (fun _ _ => ⟨m, shut, by simp⟩) (fun _ => hs)
    (fun d' hd' => absurd (hi.forwardedDispatched d' m hd') (hi.not_dispatched_of_ready hr _))
  cases Mode.async.inj hdd
  exact ⟨w, shut, msg, d, rfl, by simp [State.call], hm, hd, hmd, ho,
    by simp [State.call, State.stampInternal], hrt, rfl⟩

/-- `m->destination->reply_to = m->sender` in `forward` keeps the invariant: every handler that
reads the destination's `reply_to` runs in the same turn of the same worker, for the same
message. -/
theorem forwardSet (hi : Inv T s) {t : ThreadId} {f : Frame} {rest : List Frame} {id : Int}
    {sender : Option Nat} {d : Nat} {last : Bool} (hs : s.stack t = f :: rest)
    (hpc : f.pc = .forwardSet) (hm : s.heap f.msg = some ⟨id, sender, some d, false, last⟩) :
    Inv T { s.setPc t f rest .forwardCall with replyTo := Function.update s.replyTo d sender } := by
  have hf := hi.frame t f (State.mem_top hs)
  obtain ⟨dd, hfm⟩ : ∃ dd, f.mode = .async dd := by
    cases hmode : f.mode with
    | async dd => exact ⟨dd, rfl⟩
    | fast =>
      obtain ⟨-, -, msg, h1, h2⟩ := hf.fastForward hmode (.inl hpc)
      rw [hm] at h1; cases h1; cases h2
  obtain ⟨w, shut, msg, d', rfl, hl, h1, h2, hmd, ho, huse, hrt, hact⟩ := hf.async dd hfm
  rw [hm] at h1; cases h1; cases h2
  have hfw : T.mailboxOf f.actor = w :=
    ThreadId.worker.inj (hi.async_thread (State.mem_top hs) hfm).symm
  -- an asynchronous handler of an actor of this mailbox reads this very message
  have hsame : ∀ t' g, g ∈ s.stack t' → ∀ dd', g.mode = .async dd' → T.mailboxOf g.actor = w →
      s.heap g.msg = some ⟨id, sender, some d, false, last⟩ := fun t' g hg dd' hgm he => by
    rw [← (hi.async_msg_eq (State.mem_top hs) hg hfm hgm (hfw.trans he.symm)).2]; exact hm
  exact {
    frame := fun t' g hg => by
      rcases mem_setTop hg with ⟨rfl, rfl⟩ | hg'
      · refine ⟨hf.lock, (fun h => by rw [hfm] at h; cases h), fun dd' h' => ?_,
          (fun h => by rw [hfm] at h; cases h), fun _ => ⟨_, d, hm, rfl, by simp⟩⟩
        rw [hfm] at h'; cases h'
        refine ⟨w, shut, _, d, rfl, hl, hm, rfl, hmd, ho, huse, ?_, hact⟩
        show Function.update s.replyTo d sender f.actor = sender
        rw [Function.update_apply]; split_ifs
        · rfl
        · exact hrt
      · obtain ⟨hg1, -⟩ := hi.actor_ne_top hs hg'
        have hg0 := hi.frame t' g hg1
        refine hg0.congr rfl rfl rfl (fun dd' hgm => ?_) rfl (fun _ _ _ => ⟨rfl, rfl⟩)
          (fun hp msg' d' h1' h2' => ?_)
        · show Function.update s.replyTo d sender g.actor = s.replyTo g.actor
          rw [Function.update_apply]; split_ifs with he
          · obtain ⟨_, _, msg'', _, -, -, h3, -, -, -, -, h8, -⟩ := hg0.async dd' hgm
            rw [hsame t' g hg1 dd' hgm (by rw [he, hmd])] at h3; cases h3
            rw [he] at h8 ⊢; exact h8.symm
          · rfl
        · show Function.update s.replyTo d sender d' = s.replyTo d'
          rw [Function.update_apply]; split_ifs with he
          · subst he
            obtain ⟨dd', hgm⟩ := hi.async_of_forwardCall hg1 hp
            obtain ⟨msg'', d'', h3, h4, h5⟩ := hg0.forwardCall hp
            rw [h1'] at h3; cases h3; rw [h2'] at h4; cases h4
            rw [hsame t' g hg1 dd' hgm (by rw [← hi.async_mailbox_msg hg1 hgm h1' h2', hmd])] at h1'
            cases h1'
            exact h5.symm
          · rfl
    nodup := hi.nodup_setTop hs rfl
    forwardTop := hi.forwardTop_setTop hs
    bottom := hi.bottom_setTop hs rfl
    busy := hi.busy_setTop hs
    ready := fun w' m' shut' (hr' : s.loop (.worker w') = .ready m' shut') => by
      have hne : w' ≠ d := by
        rintro rfl
        rw [hi.mailboxOf_of_loop (by simp [hr'])] at hmd
        subst hmd; rw [hl] at hr'; cases hr'
      obtain ⟨msg', d', h1, h2, h3, h4, h5⟩ := hi.ready w' m' shut' hr'
      exact ⟨msg', d', h1, h2, h3, h4, by simpa [Function.update_noteq hne] using h5⟩
    running := hi.running
    mailbox := hi.mailbox
    accounting := hi.accounting
    acceptedNodup := hi.acceptedNodup
    acceptedDisjoint := hi.acceptedDisjoint
    acceptedOwner := hi.acceptedOwner
    fresh := hi.fresh
    noWorker := hi.noWorker
    forwardedDispatched := hi.forwardedDispatched
    forwardedMember := hi.forwardedMember
    forwardedNodup := hi.forwardedNodup
    forwardedOnce := hi.forwardedOnce_setTop hs rfl rfl fun _ => .inl hpc
    forwardedDisjoint := hi.forwardedDisjoint }

/-- `m->destination->process_message_internal(m, true)` in `forward` keeps the invariant: the
destination's mutex is free, the Group's worker enters its handler for the same message, and
the message is recorded as forwarded to it once. -/
theorem forwardTo (hi : Inv T s) {t : ThreadId} {f : Frame} {rest : List Frame} {msg : Message}
    {d : Nat} (hs : s.stack t = f :: rest) (hpc : f.pc = .forwardCall) (hm : s.heap f.msg = some msg)
    (hd : msg.destination = some d) (hlock : s.lock d = none) :
    Inv T ({ (s.setPc t f rest .done).stampInternal d with
      forwarded := Function.update s.forwarded d (s.forwarded d ++ [f.msg]) }.call T t d f.msg msg
        (.async true)) := by
  have hf := hi.frame t f (State.mem_top hs)
  obtain ⟨dd, hfm⟩ := hi.async_of_forwardCall (State.mem_top hs) hpc
  obtain ⟨w, shut, msg', d', rfl, hl, h1, h2, hmd, ho, -, -, hact⟩ := hf.async dd hfm
  rw [hm] at h1; cases h1; rw [hd] at h2; cases h2
  obtain ⟨msg'', d'', h1, h2, hrd⟩ := hf.forwardCall hpc
  rw [hm] at h1; cases h1; rw [hd] at h2; cases h2
  have hne : f.actor ≠ d := by intro he; rw [← he, hf.lock] at hlock; cases hlock
  have hfw : f.actor = w := by cases dd <;> simp_all
  have hw : T.mailboxOf w = w := hi.mailboxOf_of_loop (by simp [hl])
  -- the message was forwarded nowhere before: that would have been by this invocation
  have hfresh : ∀ d0, f.msg ∉ s.forwarded d0 := fun d0 hd0 => by
    have := hi.forwardedOnce d0 f.msg _ f hd0 (State.mem_top hs) rfl (.inr hpc)
    exact absurd hw ((this.symm.trans hfw) ▸ hi.forwardedMember d0 f.msg hd0)
  have h0 := (hi.setPc hs .done ⟨by simp, by simp⟩).stampInternal hlock
  have h1 : Inv T { (s.setPc (.worker w) f rest .done).stampInternal d with
      forwarded := Function.update s.forwarded d (s.forwarded d ++ [f.msg]) } := {
    frame := fun t' g hg => (h0.frame t' g hg).congr rfl rfl rfl (fun _ _ => rfl) rfl
      (fun _ _ _ => ⟨rfl, rfl⟩) (fun _ _ _ _ _ => rfl)
    nodup := h0.nodup
    forwardTop := h0.forwardTop
    bottom := h0.bottom
    busy := h0.busy
    ready := h0.ready
    running := h0.running
    mailbox := h0.mailbox
    accounting := h0.accounting
    acceptedNodup := h0.acceptedNodup
    acceptedDisjoint := h0.acceptedDisjoint
    acceptedOwner := h0.acceptedOwner
    fresh := h0.fresh
    noWorker := h0.noWorker
    forwardedDispatched := fun d0 m0 hm0 => by
      rcases mem_update_append.1 hm0 with hm0 | ⟨rfl, rfl⟩
      · exact hi.forwardedDispatched d0 m0 hm0
      · rw [hmd]; exact hi.running w _ shut hl
    forwardedMember := fun d0 m0 hm0 => by
      rcases mem_update_append.1 hm0 with hm0 | ⟨rfl, rfl⟩
      · exact hi.forwardedMember d0 m0 hm0
      · rw [hmd]; exact fun h => hne (hfw.trans h)
    forwardedNodup := fun d0 => by
      show (Function.update s.forwarded d (s.forwarded d ++ [f.msg]) d0).Nodup
      rw [Function.update_apply]
      split_ifs with h
      · subst h
        exact (hi.forwardedNodup _).append (List.nodup_singleton _) (List.disjoint_singleton.2 (hfresh _))
      · exact hi.forwardedNodup d0
    forwardedOnce := fun d0 m0 t' g hm0 hg hgm hgw => by
      have hg1 : g ∈ s.stack t' := by
        rcases mem_setTop hg with ⟨-, rfl⟩ | hg'
        · simp at hgw
        · exact (hi.actor_ne_top hs hg').1
      rcases mem_update_append.1 hm0 with hm0 | ⟨rfl, rfl⟩
      · exact hi.forwardedOnce d0 m0 t' g hm0 hg1 hgm hgw
      · rcases mem_setTop hg with ⟨-, rfl⟩ | ⟨-, hg'⟩ | ⟨ht, -⟩
        · simp at hgw
        · exact absurd hgw (not_or.2 (hi.rest_not_forward hs hg'))
        · exact absurd hgm (hi.msg_ne_of_thread hm hd ho hg1 (by rw [hmd]; exact ht) fun _ => hgw)
    forwardedDisjoint := fun d1 d2 m0 h1 h2 => by
      rcases mem_update_append.1 h1 with e1 | ⟨e1, rfl⟩
      · rcases mem_update_append.1 h2 with e2 | ⟨-, rfl⟩
        · exact hi.forwardedDisjoint d1 d2 m0 e1 e2
        · exact absurd e1 (hfresh d1)
      · rcases mem_update_append.1 h2 with e2 | ⟨e2, -⟩
        · exact absurd e2 (hfresh d2)
        · exact e1.trans e2.symm }
  refine h1.call hlock ⟨by simp [State.call], (fun h => nomatch h), fun dd' hdd => ?_,
      (fun h => nomatch h), fun hp => absurd hp (T.entryPc_ne_forwardCall _ _)⟩
    (fun g hg => ?_) (fun _ _ => ⟨_, _, hl⟩) (fun h => nomatch h) (fun d0 hd0 _ => ?_)
  · cases Mode.async.inj hdd
    exact ⟨w, shut, msg, d, rfl, hl, hm, hd, hmd, ho, by simp [State.call, State.stampInternal], hrd, rfl⟩
  · rcases mem_setTop hg with ⟨-, rfl⟩ | ⟨-, hg'⟩ | ⟨h, -⟩
    · simp
    · exact hi.rest_not_forward hs hg'
    · exact absurd rfl h
  · rcases mem_update_append.1 hd0 with hd0 | ⟨rfl, -⟩
    · exact absurd hd0 (hfresh d0)
    · rfl

theorem groupStep (hi : Inv T s) {t : ThreadId} {s' : State} (h : s.groupStep T t = some s') :
    Inv T s' := by
  obtain ⟨f, rest, hs, ⟨id, -, rfl⟩ | ⟨id, a, todo, -, h⟩ | ⟨id, sender, d, last, hpc, hm, rfl⟩ |
    ⟨msg, d, hpc, hm, hd, hlock, rfl⟩⟩ := State.groupStep_eq_some T s h
  · exact hi.setPc hs .done ⟨by simp, by simp⟩
  · have h1 := (hi.setPc hs (.fanOut id todo) ⟨by simp, by simp⟩).alloc t id
    refine h1.fastSend (by simp [State.alloc, State.setPc]) (h1.no_forward_of_top fun g r hr => ?_) (fun w hw => ?_) h
    · simp only [State.alloc, State.setPc, Function.update_same, List.cons.injEq] at hr
      rw [← hr.1]; simp
    · obtain ⟨m, shut, hl⟩ := hi.busy w (by rw [← hw, hs]; simp)
      exact ⟨m, shut, hw ▸ hl⟩
  · exact hi.forwardSet hs hpc hm
  · exact hi.forwardTo hs hpc hm hd hlock

theorem busy_of_userCode (hi : Inv T s) {t : ThreadId} (hu : s.userCode t = true) :
    ∀ w, t = .worker w → ∃ m shut, s.loop t = .running m shut := by
  rintro w rfl
  exact hi.busy w fun h0 => by simp [State.userCode, h0] at hu

/-- Every step keeps the invariant. -/
theorem step (hi : Inv T s) {a : Action} {s' : State} (h : step T s a = some s') : Inv T s' := by
  cases a with
  | alloc t id =>
    simp only [Actors.step] at h; split_ifs at h; cases h; exact hi.alloc t id
  | send t r m sender =>
    simp only [Actors.step] at h; split_ifs at h with hc
    exact hi.send hc.2 (hi.no_forward_of_userCode hc.1) h
  | fastSend t r m sender =>
    simp only [Actors.step] at h; split_ifs at h with hc
    exact hi.fastSend hc.2 (hi.no_forward_of_userCode hc.1) (hi.busy_of_userCode hc.1) h
  | reply t m =>
    simp only [Actors.step] at h; split_ifs at h with hc
    exact hi.reply hc.1 hc.2 h
  | setTerminated t a =>
    simp only [Actors.step] at h; split_ifs at h; cases h; exact hi.setTerminated a
  | ret t => exact hi.ret h
  | pop w => exact hi.pop h
  | processMessageInternal w => exact hi.processMessageInternal h
  | group t => exact hi.groupStep h

end Inv

/-- The invariant holds in every reachable state. -/
theorem Reachable.inv {s : State} (h : Reachable T s) : Inv T s := by
  induction h with
  | initial => exact inv_initial T
  | step _ _ hstep ih => exact ih.step hstep

end Actors
