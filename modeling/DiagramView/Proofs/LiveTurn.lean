import DiagramView.Proofs.Front

/-!
# Turns of the live session

What the live session does in a turn depends on the front of its scheduler and on the replies that
it hears from the engine (`Scene.replies`), and on nothing else: in two schedulers with the same
front, live sessions that hear the same replies leave the same front behind
(`Scene.Abreast.resumeSession_front`). The engines may be different ones, and so may be all that
lies behind the front.
-/

namespace DiagramView

variable {σ τ ο π : Type}

/-! ## Replies -/

/-- What an engine did in the course of a call, and what it answered. -/
structure Reply (α : Type) where
  deeds : List (Deed Empty)
  answer : α
  deriving DecidableEq

def Response.reply {α : Type} (response : Response σ Empty α) : Reply α :=
  ⟨response.deeds, response.answer⟩

/-- The replies that a session heard in a turn. -/
structure Replies where
  verdict : Option (Reply (Except ParseError Diagram.Keyword)) := none
  opening : Option (Reply HostId) := none
  result : Option (Reply (Except String String)) := none
  deriving DecidableEq

namespace Scene

/-- The replies that a session hears if it has its turn now. -/
def replies (e : Engine σ Empty) (s : Scene σ ο) (x : Session) : Replies :=
  match x.progress with
  | .deferred =>
    match (s.verdict e x).answer with
    | .error _ => { verdict := some (s.verdict e x).reply }
    | .ok _ =>
      { verdict := some (s.verdict e x).reply
        opening := some (s.opening e x).reply
        result := ((s.opening e x).after.poll e (s.opening e x).answer).map Response.reply }
  | .waiting host => { result := (s.toBench.poll e host).map Response.reply }
  | _ => {}

variable {s : Scene σ ο} {t : Scene τ π} {x : Session} {e : Engine σ Empty} {f : Engine τ Empty}

theorem replies_verdict (hprogress : x.progress = .deferred) :
    (s.replies e x).verdict = some (s.verdict e x).reply := by
  simp only [replies, hprogress]
  split <;> rfl

theorem replies_opening (hprogress : x.progress = .deferred) {keyword : Diagram.Keyword}
    (hverdict : (s.verdict e x).answer = .ok keyword) :
    (s.replies e x).opening = some (s.opening e x).reply ∧
      (s.replies e x).result =
        ((s.opening e x).after.poll e (s.opening e x).answer).map Response.reply := by
  simp only [replies, hprogress, hverdict, and_self]

theorem replies_result {host : HostId} (hprogress : x.progress = .waiting host) :
    (s.replies e x).result = (s.toBench.poll e host).map Response.reply := by
  simp only [replies, hprogress]

theorem verdict_reply_eq (hprogress : x.progress = .deferred)
    (hreplies : s.replies e x = t.replies f x) :
    (s.verdict e x).reply = (t.verdict f x).reply := by
  have heq := congrArg Replies.verdict hreplies
  rw [replies_verdict hprogress, replies_verdict hprogress] at heq
  exact Option.some.inj heq

/-- Polls with the same replies are both over or both not. -/
theorem eq_none_or_some_of_reply_eq {α : Type} {o : Option (Response σ Empty α)}
    {o' : Option (Response τ Empty α)} (h : o.map Response.reply = o'.map Response.reply) :
    (o = none ∧ o' = none) ∨ ∃ response response', o = some response ∧ o' = some response' ∧
      response.deeds = response'.deeds ∧ response.answer = response'.answer := by
  cases o with
  | none =>
    cases o' with
    | none => exact .inl ⟨rfl, rfl⟩
    | some response' => cases h
  | some response =>
    cases o' with
    | none => cases h
    | some response' =>
      have hreply : response.reply = response'.reply := Option.some.inj h
      exact .inr ⟨response, response', rfl, rfl, congrArg Reply.deeds hreply,
        congrArg Reply.answer hreply⟩

/-! ## Turns of the live session -/

/-- What the live session works with, in two scenes with the same front. -/
structure Abreast (s : Scene σ ο) (t : Scene τ π) (x : Session) : Prop where
  sound : s.Sound
  sound' : t.Sound
  agree : Agree s.ownsLatest s.hostsLatest s t
  mem : x ∈ s.sessions
  mem' : x ∈ t.sessions
  live : s.live = some x.seq
  last : x.seq = s.lastSeq
  kept : x.cancelled = false
  session : s.status.session.isSome = true

theorem Abreast.of_front_eq (hs : s.Sound) (ht : t.Sound) (hfront : s.front = t.front)
    (hx : x ∈ s.sessions) (hlive : s.live = some x.seq) : Abreast s t x := by
  obtain ⟨hlast, hkept, -⟩ := hs.of_live hx hlive
  have hagree := Agree.of_front_eq hfront
  have hsome : s.status.session.isSome = true := by rw [hs.session_of_live hlive]; rfl
  have hfound : t.session? t.lastSeq = some x := by
    rw [← hagree.latest hsome, ← hlast]
    exact hs.books.session?_of_mem hx
  exact ⟨hs, ht, hagree, hx, (session?_eq_some hfound).1, hlive, hlast, hkept, hsome⟩

namespace Abreast

variable (h : Abreast s t x)
include h

/-- Scenes that agree after a turn have the same front, if the session awaits no call in a host
that was there before. -/
theorem front_eq {s' : Scene σ ο} {t' : Scene τ π} (houtline : s'.outline = s.outline)
    (hattached : s.surface.attached ≤ s'.surface.attached)
    (hnew : ∀ y ∈ s'.sessions, y.seq = x.seq → ∀ host, y.progress = .waiting host →
      s.surface.attached < host.number)
    (hagree : Agree s.ownsLatest s.hostsLatest s' t') : s'.front = t'.front := by
  refine hagree.front_eq ?_ (hostsLatest_of_progress hattached ?_)
  · rw [ownsLatest_of_outline_eq houtline]
    exact fun _ hnode => hnode
  · intro y hy hseq
    have hlast : s'.lastSeq = s.lastSeq := congrArg Outline.lastSeq houtline
    exact hnew y hy (hseq.trans (hlast.trans h.last.symm))

theorem verdict_agree (hdeeds : (s.verdict e x).deeds = (t.verdict f x).deeds) :
    Agree s.ownsLatest s.hostsLatest (s.onBench (s.verdict e x).after)
      (t.onBench (t.verdict f x).after) := by
  refine h.agree.answered ?_ hdeeds
  rw [verdict, verdict, Bench.validate_surface, Bench.validate_surface]
  exact h.agree.part

theorem opening_agree (hverdict : (s.verdict e x).deeds = (t.verdict f x).deeds)
    (hopening : (s.opening e x).deeds = (t.opening f x).deeds) :
    Agree s.ownsLatest s.hostsLatest (s.onBench (s.opening e x).after)
      (t.onBench (t.opening f x).after) := by
  have hagree := h.verdict_agree hverdict
  have hpart : (s.verdict e x).after.surface.part s.ownsLatest s.hostsLatest =
      (t.verdict f x).after.surface.part s.ownsLatest s.hostsLatest := hagree.part
  -- a host that is attached now was nobody's before
  have hnext : s.hostsLatest (s.verdict e x).after.surface.nextHost = true := by
    have hlt : s.surface.attached < (s.verdict e x).after.surface.nextHost.number := by
      rw [Surface.nextHost, verdict_attached]
      exact Nat.lt_succ_self _
    simp only [hostsLatest, hlt, decide_true, Bool.true_or]
  have hnext' : s.hostsLatest (t.verdict f x).after.surface.nextHost = true := by
    rw [Surface.nextHost, ← Surface.attached_of_part_eq hpart]
    exact hnext
  refine h.agree.answered ?_ hopening
  rw [opening, opening, Bench.render_surface, Bench.render_surface, Surface.part_attachHost hnext,
    Surface.part_attachHost hnext', hpart]

/-- The live session takes the same result in the same way. -/
theorem takeResult_front {s₁ : Scene σ ο} {t₁ : Scene τ π}
    (hagree : Agree s.ownsLatest s.hostsLatest s₁ t₁)
    (hattached : s.surface.attached ≤ s₁.surface.attached) (hlive : s₁.live = some x.seq)
    (hsession : s₁.status.session = s.status.session) {host : HostId} {b : Bench σ} {c : Bench τ}
    (hb : b.surface = s₁.surface) (hc : c.surface = t₁.surface)
    {response : Response (Bench σ) Empty (Except String String)}
    {response' : Response (Bench τ) Empty (Except String String)}
    (hpoll : b.poll e host = some response) (hpoll' : c.poll f host = some response')
    (hdeeds : response.deeds = response'.deeds) (hanswer : response.answer = response'.answer)
    (houtline : ((s₁.onBench response.after).takeResult x.seq host response.answer).outline =
      s.outline) :
    ((s₁.onBench response.after).takeResult x.seq host response.answer).front =
      ((t₁.onBench response'.after).takeResult x.seq host response'.answer).front := by
  obtain ⟨hsurface, hgrows, -⟩ := Bench.poll_eq_some hpoll
  obtain ⟨hsurface', -, -⟩ := Bench.poll_eq_some hpoll'
  have hpolled : Agree s.ownsLatest s.hostsLatest (s₁.onBench response.after)
      (t₁.onBench response'.after) := by
    refine hagree.answered ?_ hdeeds
    rw [hsurface, hsurface', hb, hc]
    exact hagree.part
  obtain ⟨hsame, hended⟩ := takeResult_progress x.seq host response.answer
    (s₁.onBench response.after)
  rw [← hanswer]
  refine h.front_eq houtline ?_ ?_ (hpolled.takeResult ?_ hlive host response.answer)
  · rw [hsame]
    refine Nat.le_trans hattached ?_
    rw [← hb]
    exact (hgrows.trans response.after_grows).attached
  · intro y hy hseq other hwaiting
    obtain ⟨how, hhow⟩ := hended y hy hseq
    rw [hhow] at hwaiting
    cases hwaiting
  · exact (congrArg Option.isSome hsession).trans h.session

/-- A live session whose text is accepted begins its call in the same way. -/
theorem begun_front (hprogress : x.progress = .deferred) {keyword : Diagram.Keyword}
    (hverdict : (s.verdict e x).answer = .ok keyword)
    (hreplies : s.replies e x = t.replies f x) {obey : Empty → Scene σ ο → Scene σ ο}
    {obey' : Empty → Scene τ π → Scene τ π} :
    (s.resumeSession e obey x.seq).front = (t.resumeSession f obey' x.seq).front := by
  have hreply := verdict_reply_eq hprogress hreplies
  have hverdict' : (t.verdict f x).answer = .ok keyword :=
    (congrArg Reply.answer hreply).symm.trans hverdict
  obtain ⟨hopening, hresult⟩ := replies_opening (e := e) hprogress hverdict
  obtain ⟨hopening', hresult'⟩ := replies_opening (e := f) hprogress hverdict'
  rw [hreplies, hopening'] at hopening
  rw [hreplies, hresult'] at hresult
  have hopened : (t.opening f x).reply = (s.opening e x).reply := Option.some.inj hopening
  have hhost : (t.opening f x).answer = (s.opening e x).answer := congrArg Reply.answer hopened
  have hagree := h.opening_agree (congrArg Reply.deeds hreply) (congrArg Reply.deeds hopened).symm
  have hlive : (s.onBench (s.opening e x).after).live = some x.seq := h.live
  have hlive' : (t.onBench (t.opening f x).after).live = some x.seq :=
    h.agree.live.symm.trans h.live
  have hwaiting := hagree.beginAwait hlive (s.opening e x).answer
  have houtline : (s.resumeSession e obey x.seq).outline = s.outline :=
    h.sound.resume_outline e obey ⟨s.instanceId, x.seq, .session⟩
  have hattached : s.surface.attached ≤ (s.opening e x).after.surface.attached := by
    rw [opening_attached]
    exact Nat.le_succ _
  rw [resumeSession_begun h.sound.books h.mem hprogress h.kept hverdict] at houtline ⊢
  rw [resumeSession_begun h.sound'.books h.mem' hprogress h.kept hverdict', hhost]
  rcases eq_none_or_some_of_reply_eq hresult.symm with
    ⟨hpoll, hpoll'⟩ | ⟨response, response', hpoll, hpoll', hdeeds, hanswer⟩
  · rw [hhost] at hpoll'
    simp only [hpoll] at houtline ⊢
    simp only [hpoll']
    refine h.front_eq houtline ?_ ?_ hwaiting
    · rw [beginAwait_eq hlive]
      exact hattached
    · intro y hy hseq host hy'
      rw [beginAwait_eq hlive] at hy
      rw [progress_of_mem_setProgress hy hseq] at hy'
      cases hy'
      change s.surface.attached < (s.verdict e x).after.surface.attached + 1
      rw [verdict_attached]
      exact Nat.lt_succ_self _
  · rw [hhost] at hpoll'
    simp only [hpoll] at houtline ⊢
    simp only [hpoll']
    refine h.takeResult_front hwaiting ?_ ?_ ?_ ?_ ?_ hpoll hpoll' hdeeds hanswer houtline
    · rw [beginAwait_eq hlive]
      exact hattached
    · rw [beginAwait_eq hlive]
      exact hlive
    · rw [beginAwait_eq hlive]
      rfl
    · rw [beginAwait_eq hlive]
      rfl
    · rw [beginAwait_eq hlive']
      rfl

theorem waiting_front {host : HostId} (hprogress : x.progress = .waiting host)
    (hfront : s.front = t.front) (hreplies : s.replies e x = t.replies f x)
    {obey : Empty → Scene σ ο → Scene σ ο} {obey' : Empty → Scene τ π → Scene τ π} :
    (s.resumeSession e obey x.seq).front = (t.resumeSession f obey' x.seq).front := by
  have hresult : (s.toBench.poll e host).map Response.reply =
      (t.toBench.poll f host).map Response.reply := by
    have heq := congrArg Replies.result hreplies
    rwa [replies_result hprogress, replies_result hprogress] at heq
  have houtline : (s.resumeSession e obey x.seq).outline = s.outline :=
    h.sound.resume_outline e obey ⟨s.instanceId, x.seq, .session⟩
  rw [resumeSession_waiting h.sound.books h.mem hprogress, if_neg (by simp [h.kept])] at houtline ⊢
  rw [resumeSession_waiting h.sound'.books h.mem' hprogress, if_neg (by simp [h.kept])]
  rcases eq_none_or_some_of_reply_eq hresult with
    ⟨hpoll, hpoll'⟩ | ⟨response, response', hpoll, hpoll', hdeeds, hanswer⟩
  · simp only [hpoll, hpoll']
    exact hfront
  · simp only [hpoll] at houtline ⊢
    simp only [hpoll']
    exact h.takeResult_front h.agree (Nat.le_refl _) h.live rfl rfl rfl hpoll hpoll' hdeeds hanswer
      houtline

end Abreast

/-- Two live sessions that hear the same replies in a turn do the same. -/
theorem Abreast.resumeSession_front (h : Abreast s t x)
    {obey : Empty → Scene σ ο → Scene σ ο} {obey' : Empty → Scene τ π → Scene τ π}
    (hfront : s.front = t.front) (hreplies : s.replies e x = t.replies f x) :
    (s.resumeSession e obey x.seq).front = (t.resumeSession f obey' x.seq).front := by
  have hbooks := h.sound.books
  have hbooks' := h.sound'.books
  have houtline : (s.resumeSession e obey x.seq).outline = s.outline :=
    h.sound.resume_outline e obey ⟨s.instanceId, x.seq, .session⟩
  cases hprogress : x.progress with
  | created =>
    rw [resumeSession_created hbooks h.mem hprogress h.kept] at houtline ⊢
    rw [resumeSession_created hbooks' h.mem' hprogress h.kept]
    refine h.front_eq houtline (Nat.le_refl _) ?_ ?_
    · intro y hy hseq host hwaiting
      rw [progress_of_mem_setProgress hy hseq] at hwaiting
      cases hwaiting
    · have hdeferred := h.agree.setProgress x.seq .deferred
      exact hdeferred.frame rfl rfl hdeferred.part
  | deferred =>
    have hverdict := verdict_reply_eq hprogress hreplies
    have hdeeds : (s.verdict e x).deeds = (t.verdict f x).deeds := congrArg Reply.deeds hverdict
    have hanswer : (s.verdict e x).answer = (t.verdict f x).answer := congrArg Reply.answer hverdict
    cases hs : (s.verdict e x).answer with
    | error error =>
      rw [resumeSession_refused hbooks h.mem hprogress h.kept hs] at houtline ⊢
      rw [resumeSession_refused hbooks' h.mem' hprogress h.kept (hanswer.symm.trans hs)]
      refine h.front_eq houtline (Nat.le_of_eq (s.verdict_attached e x).symm) ?_
        ((h.verdict_agree hdeeds).refuse h.session x.seq _)
      intro y hy hseq host hwaiting
      rw [progress_of_mem_setProgress hy hseq] at hwaiting
      cases hwaiting
    | ok keyword => exact h.begun_front hprogress hs hreplies
  | waiting host => exact h.waiting_front hprogress hfront hreplies
  | running =>
    simp only [resumeSession, hbooks.session?_of_mem h.mem, hbooks'.session?_of_mem h.mem',
      hprogress]
    exact hfront
  | ended how =>
    simp only [resumeSession, hbooks.session?_of_mem h.mem, hbooks'.session?_of_mem h.mem',
      hprogress]
    exact hfront

end Scene

end DiagramView
