import Semisweet.Client.Stub

/-!
# Requests and their responses

Frames carry no request numbers: a client takes the next frame it receives for the answer
to the request it is making. This module says when it is.

A request that is dropped after its frame is in the write buffer leaves something on the
connection — the frame, or the answer to it — and the connection stays in the cell. The
next request is sent behind it, and the answer to the dropped one is received in its place.

## What is proved

* `correlated` — in every run in which a request's frame is only ever handed to a connection
  with nothing left on it, every response is the daemon's answer to the request it is
  returned for.
* `cleanFeed_of_cancels` — so it is in every run in which no request is dropped between
  handing its frame over and receiving the answer, on an open connection in the cell.
* `correlated_fails` — a request is returned the answer to a dropped one.
-/

namespace Semisweet.Client

open Semisweet.Core Semisweet.Foundations Semisweet.Protocol

variable {ns configJson : String}

/-- **Every response answers its request**: a frame received for request `n` is the daemon's
answer to request `n`. -/
def Correlated (h : History State Action) : Prop :=
  ∀ h₁ s m resp h₂, h = h₁ ++ (s, .receive m resp) :: h₂ →
    ∃ n r retried, s.phase = .awaiting n r retried ∧ m = n ∧ ∃ s₀, (s₀, Action.serve n r resp) ∈ h₁

/-- A frame is only handed to a connection with nothing left on it, or to a closed one. -/
def CleanFeed : Guard State Action := fun _ s a => a = .feed → s.conn.live = true → s.conn.Quiet

/-- All that is on the connection is the frame of request `n`, or the daemon's answer to it. -/
def Ours (h : History State Action) (n : ℕ) (r : Request) (c : Conn) : Prop :=
  (∀ f ∈ c.buffer, f = (n, r)) ∧ (∀ f ∈ c.toDaemon, f = (n, r)) ∧
    ∀ f ∈ c.toClient, f.1 = n ∧ ∃ s₀, (s₀, Action.serve n r f.2) ∈ h

/-- Once a request has handed its frame over, the connection is its own, or takes no bytes. -/
def Aligned (h : History State Action) (s : State) : Prop :=
  match s.phase with
  | .flushing n r _ => Ours h n r s.conn ∨ (s.conn.live = false ∧ s.conn.buffer ≠ [])
  | .awaiting n r _ => Ours h n r s.conn
  | _ => True

theorem Ours.mono {h : History State Action} {n : ℕ} {r : Request} {c : Conn} (t : State × Action)
    (ho : Ours h n r c) : Ours (h ++ [t]) n r c := by
  obtain ⟨hb, hd, hc⟩ := ho
  refine ⟨hb, hd, fun f hf => ?_⟩
  obtain ⟨hn, s₀, hm⟩ := hc f hf
  exact ⟨hn, s₀, List.mem_append_left _ hm⟩

theorem Ours.hangUp {h : History State Action} {n : ℕ} {r : Request} {c : Conn}
    (ho : Ours h n r c) :
    Ours h n r c.hangUp := ⟨ho.1, by simp [Conn.hangUp], ho.2.2⟩

/-- A request whose future has ended is not in flight. -/
theorem aligned_settle (h : History State Action) (s : State) : Aligned h s.settle := trivial

theorem aligned_lost (h : History State Action) (s : State) (n : ℕ) (r : Request) (retried : Bool) :
    Aligned h (s.lost n r retried) := by
  cases retried <;> trivial

/-- What closes the connection, or registers elsewhere, leaves it the request's own. -/
theorem aligned_hangUp {h : History State Action} {s : State} (t : State × Action)
    (registry : Finset String) (ha : Aligned h s) :
    Aligned (h ++ [t]) { s with conn := s.conn.hangUp, registry := registry } := by
  unfold Aligned at ha ⊢
  cases hp : s.phase with
  | flushing n r retried =>
    simp only [hp] at ha ⊢
    exact ha.imp (fun ho => (ho.mono t).hangUp) fun hc => ⟨rfl, hc.2⟩
  | awaiting n r retried =>
    simp only [hp] at ha ⊢
    exact (ha.mono t).hangUp
  | _ => trivial

/-- **Every step keeps the connection aligned.** -/
theorem aligned_step {h : History State Action} {s s' : State} {a : Action} (ha : Aligned h s)
    (hclean : CleanFeed h s a) (hstep : Step ns configJson s a s') :
    Aligned (h ++ [(s, a)]) s' := by
  cases hstep with
  | connect _ _ => trivial
  | issue _ _ => trivial
  | reconnect _ => trivial
  | @feed n r retried hp =>
    show Ours _ n r _ ∨ _
    cases hl : s.conn.live with
    | false => exact .inr ⟨rfl, by simp⟩
    | true =>
      obtain ⟨hb, hd, hc⟩ := hclean rfl hl
      exact .inl ⟨by simp [hb], by simp [hd], by simp [hc]⟩
  | @write f rest n r retried hp hlive hbuf =>
    rcases hp with hp | hp
    · simp [Aligned, hp]
    · -- the connection is open, so what is written is the request's own frame
      simp only [Aligned, hp, hlive] at ha ⊢
      obtain ⟨hb, hd, hc⟩ := (ha.resolve_right (by simp)).mono (s, .write)
      rw [hbuf] at hb
      refine .inl ⟨fun f' hf' => hb f' (List.mem_cons_of_mem _ hf'), fun f' hf' => ?_, hc⟩
      rcases List.mem_append.mp hf' with hf' | hf'
      · exact hd f' hf'
      · rw [List.mem_singleton] at hf'
        exact hf' ▸ hb f List.mem_cons_self
  | @flushed n r retried hp hbuf =>
    simp only [Aligned, hp, hbuf] at ha ⊢
    exact (ha.resolve_right (by simp)).mono _
  | sendFail _ _ => exact aligned_lost _ _ _ _ _
  | receive _ _ => exact aligned_settle _ _
  | eof _ _ _ => exact aligned_lost _ _ _ _ _
  | reconnectFail _ => exact aligned_settle _ _
  | cancel _ => exact aligned_settle _ _
  | @serve n r resp rest hlive hd hans =>
    -- the daemon answers the request's own frame
    have hserve : ∀ n' r', Ours h n' r' s.conn → Ours (h ++ [(s, .serve n r resp)]) n' r'
        { s.conn with toDaemon := rest, toClient := s.conn.toClient ++ [(n, resp)]
                      live := decide (r ≠ .bye) } := by
      intro n' r' ho
      obtain ⟨hb, hd', hc⟩ := ho.mono (s, .serve n r resp)
      rw [hd] at hd'
      have heq := hd' (n, r) List.mem_cons_self
      simp only [Prod.mk.injEq] at heq
      obtain ⟨rfl, rfl⟩ := heq
      refine ⟨hb, fun f hf => hd' f (List.mem_cons_of_mem _ hf), fun f hf => ?_⟩
      rcases List.mem_append.mp hf with hf | hf
      · exact hc f hf
      · rw [List.mem_singleton] at hf
        exact hf ▸ ⟨rfl, s, by simp⟩
    unfold Aligned at ha ⊢
    cases hp : s.phase with
    | flushing n' r' retried =>
      simp only [hp, hlive] at ha ⊢
      exact .inl (hserve n' r' (ha.resolve_right (by simp)))
    | awaiting n' r' retried =>
      simp only [hp] at ha ⊢
      exact hserve n' r' ha
    | _ => trivial
  | otherRegister =>
    unfold Aligned at ha ⊢
    cases hp : s.phase with
    | flushing n r retried =>
      simp only [hp] at ha ⊢
      exact ha.imp (fun ho => ho.mono _) id
    | awaiting n r retried =>
      simp only [hp] at ha ⊢
      exact ha.mono _
    | _ => trivial
  | drop => exact aligned_hangUp _ s.registry ha
  | terminate => exact aligned_hangUp _ ∅ ha

/-- **Correlation**: in every run in which frames are handed only to connections with nothing
left on them, every response is the answer to its request. -/
theorem correlated {h : History State Action} {s : State}
    (hrun : ClientRun ns configJson CleanFeed h s) :
    Correlated h := by
  rintro h₁ s₁ m resp h₂ rfl
  obtain ⟨s', hbefore, -, hstep, -⟩ := hrun.split
  have hinit : Aligned [] State.init := trivial
  have haligned : Aligned h₁ s₁ :=
    Run.invariant hinit (fun h s a s' _ ha hclean hstep => aligned_step ha hclean hstep) hbefore
  cases hstep with
  | receive hp hc =>
    dsimp only at hp hc
    simp only [Aligned, hp] at haligned
    obtain ⟨hm, s₀, hserve⟩ := haligned.2.2 (m, resp) (by simp [hc])
    exact ⟨_, _, _, hp, hm, s₀, hserve⟩

/-! ### Dropped requests -/

/-- Between handing its frame over and receiving the answer. -/
def Phase.InFlight : Phase → Prop
  | .flushing _ _ _ => True
  | .awaiting _ _ _ => True
  | _ => False

/-- A request is not dropped in flight on an open connection the cell holds. -/
def HarmlessCancel : Guard State Action := fun _ s a =>
  a = .cancel → s.ready = true → s.conn.live = true → ¬ s.phase.InFlight

/-- How many frames are on the connection. -/
def Conn.frames (c : Conn) : ℕ := c.buffer.length + c.toDaemon.length + c.toClient.length

/-- An open connection holds one frame if a request is in flight on it, and none otherwise. -/
def OneInFlight (s : State) : Prop :=
  s.conn.live = true → (s.phase.InFlight → s.conn.frames = 1) ∧
    (¬ s.phase.InFlight → s.conn.frames = 0)

theorem Conn.quiet_of_frames {c : Conn} (h : c.frames = 0) : c.Quiet := by
  unfold Conn.frames at h
  refine ⟨?_, ?_, ?_⟩ <;> exact List.eq_nil_of_length_eq_zero (by omega)

theorem oneInFlight_settle {s : State}
    (hs : s.ready = true → s.conn.live = true → s.conn.frames = 0) :
    OneInFlight s.settle := by
  intro hl
  cases hr : s.ready with
  | false => simp [State.settle, hr, Conn.dead] at hl
  | true =>
    simp only [State.settle, hr, if_true] at hl ⊢
    exact ⟨False.elim, fun _ => hs hr hl⟩

theorem oneInFlight_lost {s : State} {n : ℕ} {r : Request} {retried : Bool}
    (hdead : s.conn.live = false) :
    OneInFlight (s.lost n r retried) := by
  cases retried with
  | false => exact fun hl => by simp [State.lost, hdead] at hl
  | true => exact oneInFlight_settle fun _ hl => by simp [hdead] at hl

/-- A step keeps at most one frame on the connection, if it drops no request in flight. -/
theorem oneInFlight_step {h : History State Action} {s s' : State} {a : Action}
    (hone : OneInFlight s) (hcancel : HarmlessCancel h s a) (hstep : Step ns configJson s a s') :
    OneInFlight s' := by
  cases hstep with
  | connect _ _ => exact fun _ => ⟨False.elim, fun _ => rfl⟩
  | reconnect _ => exact fun _ => ⟨False.elim, fun _ => rfl⟩
  | issue hp _ => exact fun hl => ⟨False.elim, fun _ => (hone hl).2 (by simp [hp, Phase.InFlight])⟩
  | feed hp =>
    refine fun hl => ⟨fun _ => ?_, fun hno => absurd trivial hno⟩
    have := (hone hl).2 (by simp [hp, Phase.InFlight])
    simp only [Conn.frames, List.length_append, List.length_singleton] at this ⊢
    omega
  | write hp hlive hbuf =>
    intro _
    have := hone hlive
    simp only [Conn.frames, hbuf, List.length_append, List.length_cons, List.length_nil] at this ⊢
    exact ⟨fun h => by have := this.1 h; omega, fun h => by have := this.2 h; omega⟩
  | flushed hp _ =>
    refine fun hl => ⟨fun _ => (hone hl).1 (by simp [hp, Phase.InFlight]),
      fun hno => absurd trivial hno⟩
  | sendFail _ hdead => exact oneInFlight_lost hdead
  | eof _ _ hdead => exact oneInFlight_lost hdead
  | receive hp hc =>
    refine oneInFlight_settle fun _ hl => ?_
    have := (hone hl).1 (by simp [hp, Phase.InFlight])
    simp only [Conn.frames, hc, List.length_cons] at this ⊢
    omega
  | reconnectFail hp =>
    exact oneInFlight_settle fun _ hl => (hone hl).2 (by simp [hp, Phase.InFlight])
  | cancel _ => exact oneInFlight_settle fun hr hl => (hone hl).2 (hcancel rfl hr hl)
  | serve hlive hd _ =>
    intro _
    have := hone hlive
    simp only [Conn.frames, hd, List.length_append, List.length_cons, List.length_nil] at this ⊢
    exact ⟨fun h => by have := this.1 h; omega, fun h => by have := this.2 h; omega⟩
  | otherRegister => exact hone
  | drop => exact fun hl => by simp [Conn.hangUp] at hl
  | terminate => exact fun hl => by simp [Conn.hangUp] at hl

/-- **Without requests dropped in flight** nothing is ever left on a connection. -/
theorem cleanFeed_of_cancels {h : History State Action} {s : State}
    (hrun : ClientRun ns configJson HarmlessCancel h s) :
    ClientRun ns configJson CleanFeed h s := by
  have hone : ∀ h s, ClientRun ns configJson HarmlessCancel h s → OneInFlight s := fun h s =>
    Run.invariant_state (fun hl => by simp [State.init, Conn.dead] at hl)
      (fun h s a s' hone hcancel hstep => oneInFlight_step hone hcancel hstep)
  refine hrun.mono fun h s a s' hr _ hstep ha hlive => ?_
  subst ha
  cases hstep with
  | feed hp => exact Conn.quiet_of_frames ((hone h s hr hlive).2 (by simp [hp, Phase.InFlight]))

/-- A client asks, and is answered. -/
theorem correlated_asked : ∃ h s, ClientRun Sample.prod Sample.config CleanFeed h s ∧
    (∃ s₀, (s₀, Action.receive 1 (.value (some [1]))) ∈ h) ∧ Correlated h := by
  have hok : ∀ h s a, a ≠ .cancel → HarmlessCancel h s a := fun _ _ _ hne ha => absurd ha hne
  obtain ⟨_, hrun⟩ := connected_run hok
  obtain ⟨_, hrun⟩ := Sample.ask_run "a" hok hrun
  have hserve := hrun.next (hok _ _ (.serve 1 _ _) (by simp))
    (.serve rfl rfl (Sample.answers_ask (some [1])))
  have hreceive := hserve.next (hok _ _ (.receive 1 _) (by simp)) (.receive rfl rfl)
  have hclean := cleanFeed_of_cancels hreceive
  exact ⟨_, _, hclean, ⟨_, List.mem_append_right _ (List.mem_singleton_self _)⟩, correlated hclean⟩

/-- **Answered with the answer to another request**: a request is dropped while its answer is
awaited, and the next one is returned that answer. -/
theorem correlated_fails :
    ¬ ∀ h s, ClientRun Sample.prod Sample.config Always h s → Correlated h := by
  intro hall
  have hok : ∀ h s a, a ≠ .cancel → (Always : Guard State Action) h s a := fun _ _ _ _ => trivial
  obtain ⟨_, hrun⟩ := connected_run hok
  obtain ⟨_, hrun⟩ := Sample.ask_run "a" hok hrun
  have hcancel := hrun.next trivial (.cancel (by simp))
  obtain ⟨_, hrun⟩ := Sample.ask_run "b" hok hcancel
  have hserve := hrun.next trivial (.serve rfl rfl (Sample.answers_ask (some [1])))
  obtain ⟨n, r, retried, hphase, hn, -⟩ := hall _ _
    (hserve.next trivial (.receive rfl rfl)) _ _ _ _ [] rfl
  cases hphase
  exact absurd hn (by decide)

end Semisweet.Client
