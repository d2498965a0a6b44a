import Semisweet.Daemon.Shutdown
import Semisweet.Protocol.Decoding

/-!
# What was set can be served

The codec of a connection has one limit for the frames it reads and those it sends
(`serve`, `src/daemon/conn.rs`). What a `Get` is answered came to the daemon in a `Set`: through
a shadow, or through a job and the object store. So it came in a frame, and it leaves in a
smaller one.

## The model

The daemon of `Supervisor`. The object stores may hold payloads of an earlier daemon, and these
were set as well. A frame that decodes to a request is no shorter than the request's encoding, so
that the codec's limit is one on the encoding of what is received (`FramesFit`).

## What is proved

* `contents_step` — what the shadows, the jobs and the object stores hold was set.
* `fitting_run` — in every state reached, a `Value` that is about to be sent fits a frame.
* `set_values_served` — whatever can be set can be served, and in every run it is.
* `values_reach_clients` — in every run that goes by the bytes of its frames, what is about to be
  sent is what the client decodes.
-/

namespace Semisweet.Daemon

open Semisweet.Core Semisweet.Foundations Semisweet.Protocol

variable {R : Type} [Field R] {newV5 : Uuid → List UInt8 → Uuid} {W : Type}

/-! ### Where a payload comes from -/

/-- All payloads the daemon holds are `good`. -/
structure Contents (good : List UInt8 → Prop) (s : State R newV5 W) : Prop where
  /-- Those of the object stores. -/
  object : ∀ slot payload, s.object slot = some payload → good payload
  /-- Those of the shadows. -/
  pending : ∀ slot v, s.pending slot = some v → good v.bytes
  /-- Those of the jobs. -/
  job : ∀ job, s.Live job → good job.value.bytes

variable {good : List UInt8 → Prop}

/-- Nothing is in flight. -/
theorem contents_init {object : Slot → Option (List UInt8)} (vector : Slot → Option (VectorEntry R))
    (hobject : ∀ slot payload, object slot = some payload → good payload) :
    Contents good (State.init object vector : State R newV5 W) where
  object := hobject
  pending _ _ hv := by cases hv
  job := by
    rintro job ⟨p, hp⟩
    cases p <;> cases hp

variable [DecidableEq W]

/-- **A payload comes with a `set`**: what is in the stores was a job's, and what is in the shadows
was set. -/
theorem contents_step {capacity : ℕ} {s s' : State R newV5 W} {a : Action newV5 W}
    (hI : Contents good s) (hset : ∀ c job, a = .set c job → good job.value.bytes)
    (hstep : Step capacity s a s') : Contents good s' where
  object := by
    intro slot payload hpayload
    rcases object_step hstep slot with heq | ⟨w, p, outcome, hw, -, -, hnew⟩ | ⟨-, -, -, hnone⟩
    · exact hI.object slot payload (heq ▸ hpayload)
    · obtain rfl := Option.some.inj (hnew.symm.trans hpayload)
      exact hI.job p.job ⟨.worker w, by simp [State.jobAt, hw, Worker.job]⟩
    · cases hnone.symm.trans hpayload
  pending := by
    intro slot v hv
    rcases step_jobs hstep with ⟨c, job, rfl, -, -, -, rfl⟩ | ⟨-, ⟨-, hpend⟩, -⟩
    · simp only [State.toHandler_pending, PendingWrites.insert, Function.update_apply] at hv
      split at hv
      · obtain rfl := Option.some.inj hv
        exact hset c job rfl
      · exact hI.pending slot v hv
    · exact hI.pending slot v (hpend slot v hv)
  job := by
    rintro job ⟨p, hp⟩
    rcases step_jobs hstep with ⟨c, job', rfl, -, -, -, rfl⟩ | ⟨-, ⟨⟨f, -, hf⟩, -⟩, -⟩
    · rcases jobAt_set hp with ⟨-, rfl⟩ | ⟨-, hp⟩
      · exact hset c job rfl
      · exact hI.job job ⟨p, hp⟩
    · exact hI.job job ⟨f p, hf p job hp⟩

theorem contents_queue_step {capacity : ℕ} {q q' : QueueState R newV5 W} {b : QueueAction newV5 W}
    (hI : Contents good q.daemon) (hset : ∀ c job, b = .daemon (.set c job) → good job.value.bytes)
    (hstep : QueueStep capacity q b q') : Contents good q'.daemon := by
  cases hstep with
  | daemon hd _ _ => exact contents_step hI (fun c job ha => hset c job (ha ▸ rfl)) hd
  | _ => exact hI

/-! ### The frames -/

/-- The request that is handled came in a frame, and the payload that is sent fits one. -/
def Conn.Fitting : Conn → Prop
  | .handling request => Fits (encode Request.serialize) request
  | .replying (.value value) => Fits (encode Response.serialize) (.value value)
  | _ => True

/-- The codec yields no frame above its limit. -/
def FramesFit : Guard (Server R newV5 W) (ServerAction newV5 W) := fun _ _ a =>
  ∀ c request, a = .receive c (.frame (some request)) → Fits (encode Request.serialize) request

/-- What the daemon holds was set, and what it reads and sends fits a frame. -/
structure Fitting (s : Server R newV5 W) : Prop where
  /-- What the daemon holds. -/
  contents : Contents Settable s.queue.daemon
  /-- What the connections have. -/
  conn : ∀ c, (s.conn c).Fitting

omit [DecidableEq W] in
/-- The task of a connection goes on. -/
theorem Fitting.toConn {s t : Server R newV5 W} (hI : Fitting s)
    (hcontents : Contents Settable t.queue.daemon) (hconn : t.conn = s.conn) {c : ℕ} {x : Conn}
    (hx : x.Fitting) : Fitting (t.toConn c x) where
  contents := hcontents
  conn c' := by
    rw [Server.toConn_conn, hconn, Function.update_apply]
    split
    · exact hx
    · exact hI.conn c'

omit [DecidableEq W] in
/-- What a `Set` of the client sets is what its frame held. -/
theorem begins_set {registry : Finset String} {r : Request} {c : ℕ} {job : WriteJob newV5}
    (h : Begins registry r (.set c job : Action newV5 W)) :
    ∃ ns query keys context, r = .set ns query keys context job.value.bytes := by
  cases h with
  | set _ _ _ hvalue => exact ⟨_, _, _, _, by rw [hvalue]⟩

/-- A frame that was received. -/
theorem fitting_received (config : Config) {frame : Frame}
    (hfits : ∀ request, frame = .frame (some request) → Fits (encode Request.serialize) request) :
    (Conn.received config frame).Fitting := by
  unfold Conn.received
  split
  · split
    case h_4 => exact hfits _ rfl
    case h_3 => split <;> trivial
    all_goals trivial
  · trivial

variable {config : Config} {capacity : ℕ} {s s' : Server R newV5 W} {a : ServerAction newV5 W}
  {h : History (Server R newV5 W) (ServerAction newV5 W)}

/-- What a handler's last step answers fits a frame. -/
theorem fitting_concluded {q q' : QueueState R newV5 W} {b : Action newV5 W} {response : Response}
    (hI : Contents Settable q.daemon) (hstep : QueueStep capacity q (.daemon b) q')
    (hresponse : Concludes q.daemon b response) : (Conn.replying response).Fitting := by
  cases hresponse with
  | shadow =>
    cases hstep with
    | daemon hd _ _ =>
      cases hd with
      | getHit _ hget => exact (hI.pending _ _ hget).fits
  | @loaded c slot _ =>
    show Fits (encode Response.serialize) (.value (q.daemon.object slot))
    cases hobject : q.daemon.object slot with
    | none => exact fits_value_none
    | some payload => exact (hI.object slot payload hobject).fits
  | miss => exact fits_value_none
  | _ => trivial

theorem fitting_step (hI : Fitting s) (hok : FramesFit h s a)
    (hstep : ServerStep config capacity s a s') : Fitting s' := by
  have hhandled : ∀ {c r b q}, s.conn c = .handling r → Begins s.registry r b ∨ b.Continues →
      QueueStep capacity s.queue (.daemon b) q → Contents Settable q.daemon := by
    intro c r b q hc hb hq
    refine contents_queue_step hI.contents (fun c' job hbj => ?_) hq
    obtain rfl : b = .set c' job := by simpa using hbj
    obtain ⟨ns, query, keys, context, rfl⟩ := begins_set (hb.resolve_right id)
    have hfits := hI.conn c
    rw [hc] at hfits
    exact ⟨ns, query, keys, context, hfits⟩
  cases hstep with
  | guard _ _ ha hq | drain _ ha hq =>
    refine ⟨contents_queue_step hI.contents ?_ hq, hI.conn⟩
    rintro c job rfl
    exact ha.elim
  | work ha hq =>
    refine ⟨contents_queue_step hI.contents ?_ hq, hI.conn⟩
    rintro c job rfl
    cases ha
  | handle hc _ hb hq _ => exact ⟨hhandled hc hb hq, hI.conn⟩
  | @conclude _ _ _ q _ hc _ hb hq _ hresponse =>
    exact hI.toConn (t := { s with queue := q }) (hhandled hc hb hq) rfl
      (fitting_concluded hI.contents hq hresponse)
  | receive _ =>
    refine hI.toConn hI.contents rfl (fitting_received config fun request hframe => ?_)
    exact hok _ request (by rw [hframe])
  | accept _ _ =>
    exact hI.toConn (t := { s with phase := .guarding }) hI.contents rfl (by trivial)
  | @register _ ns _ _ =>
    exact hI.toConn (t := { s with registry := insert ns s.registry }) hI.contents rfl (by trivial)
  | refuse _ _ _ => exact hI.toConn hI.contents rfl (by trivial)
  | greet _ =>
    refine hI.toConn hI.contents rfl ?_
    unfold Conn.greeted
    split <;> trivial
  | enter _ => exact hI.toConn (by simpa using hI.contents) (by simp) (by trivial)
  | reply _ =>
    refine hI.toConn hI.contents rfl ?_
    unfold Conn.replied
    split <;> trivial
  | leave _ | panic _ _ =>
    unfold Server.close
    split
    · exact hI.toConn (by simpa using hI.contents) (by simp) (by trivial)
    · exact hI.toConn hI.contents rfl (by trivial)
  | event _ _ => exact ⟨by simpa using hI.contents, by simpa using hI.conn⟩
  | _ => exact ⟨hI.contents, hI.conn⟩

/-- **What is about to be sent fits a frame**, in every run from stores whose payloads were set. -/
theorem fitting_run {object : Slot → Option (List UInt8)} {vector : Slot → Option (VectorEntry R)}
    (hobject : ∀ slot payload, object slot = some payload → Settable payload)
    (hrun : Run (ServerStep config capacity) (Server.init object vector) FramesFit h s) :
    Fitting s := by
  refine Run.invariant_state (I := Fitting) ?_ ?_ hrun
  · exact ⟨contents_init vector hobject, fun _ => trivial⟩
  · intro h s a s' hI hok hstep
    exact fitting_step (h := h) hI hok hstep

/-- **Every value that can be set can be served.** A payload of a `Set` that fits a frame fits a
frame as a `Value`; so in every run of a daemon that reads no larger frame, from stores whose
payloads were set, no answer to a `Get` is above the limit. -/
theorem set_values_served :
    (∀ ns query keys context value,
      Fits (encode Request.serialize) (.set ns query keys context value) →
        Fits (encode Response.serialize) (.value (some value))) ∧
    ∀ (config : Config) (capacity : ℕ) (object : Slot → Option (List UInt8))
      (vector : Slot → Option (VectorEntry R))
      (h : History (Server R newV5 W) (ServerAction newV5 W)) (s : Server R newV5 W),
      (∀ slot payload, object slot = some payload → Settable payload) →
        Run (ServerStep config capacity) (Server.init object vector) FramesFit h s →
          ∀ c value, s.conn c = .replying (.value value) →
            Fits (encode Response.serialize) (.value value) := by
  refine ⟨fun ns query keys context value hfits => Settable.fits ⟨ns, query, keys, context, hfits⟩,
    fun config capacity object vector h s hobject hrun c value hc => ?_⟩
  have hfitting := (fitting_run hobject hrun).conn c
  rwa [hc] at hfitting

/-! ### A client that reads what it wrote -/

namespace Sample

/-- Its `Get` of what it wrote. -/
def read : Request := .get ns "q" ["a"] none

/-- The client's frames are small. -/
theorem framesFit_request (h : ServerLog) (s : ServerMachine) {r : Request}
    (hr : r ∈ [registration, write, read]) : FramesFit h s (.receive 0 (.frame (some r))) := by
  rintro c _ ⟨⟩
  rw [fits_encode_iff]
  simp only [List.mem_cons, List.not_mem_nil, or_false] at hr
  rcases hr with rfl | rfl | rfl <;> decide +kernel

theorem framesFit_other (h : ServerLog) (s : ServerMachine)
    {a : ServerAction Core.Sample.platform.newV5 (Fin writeWorkers)}
    (ha : ∀ c f, a ≠ .receive c f) : FramesFit h s a :=
  fun c _ hr => absurd hr (ha c _)

/-- The client registers its namespace. -/
theorem framed_serving_run : ∃ h : ServerLog,
    Run (ServerStep settings writeQueueCapacity) server FramesFit h serving := by
  have h₀ : Run (ServerStep settings writeQueueCapacity) server FramesFit [] server := .start
  obtain ⟨hempty, hyes⟩ :=
    isDrained_yes (s := server.queue) writeQueueCapacity (k := 0) rfl rfl rfl
  have h₁ := h₀.next (framesFit_other _ _ (by simp)) (.guard (a := .isEmpty 0) rfl rfl rfl hempty)
  have h₂ := h₁.next (framesFit_other _ _ (by simp))
    (.guard (a := .isDrained 0 true) rfl rfl rfl hyes)
  have h₃ := h₂.next (framesFit_other _ _ (by simp)) (.accept (c := 0) rfl rfl)
  have h₄ := h₃.next (a := .greet 0 hello true) (framesFit_other _ _ (by simp)) (.greet rfl)
  have h₅ := h₄.next (framesFit_other _ _ (by simp)) (.enter (c := 0) rfl)
  have h₆ := h₅.next (framesFit_request _ _ (r := registration) (by simp)) (.receive rfl)
  have h₇ := h₆.next (a := .register 0 ns) (framesFit_other _ _ (by simp)) (.register rfl)
  have h₈ := h₇.next (a := .reply 0 true) (framesFit_other _ _ (by simp)) (.reply rfl)
  exact ⟨_, h₈⟩

theorem read_step : QueueStep writeQueueCapacity { queue with daemon := queued }
    (.daemon (.getHit 0 (job 0 [1]).slot (job 0 [1]).value)) { queue with daemon := queued } :=
  .daemon (.getHit rfl (Function.update_self _ _ _)) (by simp) (by simp [Action.runner])

/-- The handler of the client's `Get` begins with this step. -/
theorem begins_read {registry : Finset String} (hns : ns ∈ registry) :
    Begins registry read (.getHit 0 (job 0 [1]).slot (job 0 [1]).value :
      Action Core.Sample.platform.newV5 (Fin writeWorkers)) :=
  .getHit hns (by decide) (show reconstruct "q" ["a"] none = .ok (job 0 [1]).parts by decide)

/-- The client writes, and is about to be sent what it wrote. -/
theorem framed_read_run : ∃ (h : ServerLog) (s : ServerMachine),
    Run (ServerStep settings writeQueueCapacity) server FramesFit h s ∧
      s.conn 0 = .replying (.value (some [1])) := by
  obtain ⟨h, hrun⟩ := framed_serving_run
  have h₁ := hrun.next (framesFit_request _ _ (r := write) (by simp)) (.receive rfl)
  have h₂ := h₁.next (a := .handle 0 (.set 0 (job 0 [1]))) (framesFit_other _ _ (by simp))
    (.handle rfl rfl (.inl (by exact begins_write (by decide))) shadowed_step
      (by simp [shadowed, State.toHandler]))
  have h₃ := h₂.next (a := .handle 0 (.push 0 (job 0 [1]))) (framesFit_other _ _ (by simp))
    (.conclude rfl rfl (.inr (by exact trivial)) queued_step rfl .accepted)
  have h₄ := h₃.next (a := .reply 0 true) (framesFit_other _ _ (by simp)) (.reply rfl)
  have h₅ := h₄.next (framesFit_request _ _ (r := read) (by simp)) (.receive rfl)
  have h₆ := h₅.next (a := .handle 0 (.getHit 0 (job 0 [1]).slot (job 0 [1]).value))
    (framesFit_other _ _ (by simp))
    (.conclude rfl rfl (.inl (by exact begins_read (by decide))) read_step rfl .shadow)
  exact ⟨_, _, h₆, rfl⟩

end Sample

/-- A client sets a payload, and the `Value` it reads fits a frame. -/
theorem set_values_served_read :
    Fits (encode Response.serialize) (.value (some [7])) ∧
    ∃ (h : Sample.ServerLog) (s : Sample.ServerMachine),
      Run (ServerStep Sample.settings writeQueueCapacity) Sample.server FramesFit h s ∧
        s.conn 0 = .replying (.value (some [1])) ∧
          Fits (encode Response.serialize) (.value (some [1])) := by
  obtain ⟨hset, hget⟩ :=
    @set_values_served ℚ _ Core.Sample.platform.newV5 (Fin writeWorkers) _
  obtain ⟨h, s, hrun, hc⟩ := Sample.framed_read_run
  refine ⟨hset "t" "q" ["a"] none [7] (fits_encode_iff.mpr (by decide)), h, s, hrun, hc, ?_⟩
  exact hget Sample.settings writeQueueCapacity _ _ h s (by simp) hrun 0 _ hc

/-! ### From bytes to bytes -/

/-- Every request that is received was decoded from a frame the codec yields. -/
def FromBytes (deserializer : Deserializer) : Guard (Server R newV5 W) (ServerAction newV5 W) :=
  fun _ _ a => ∀ c request, a = .receive c (.frame (some request)) →
    ∃ body : List UInt8, body.length ≤ maxFrameBytes ∧
      decode deserializer.request body = .ok request

omit [DecidableEq W] in
/-- A request decoded from a frame would fit one itself. -/
theorem framesFit_iff {deserializer : Deserializer} {s : Server R newV5 W}
    {a : ServerAction newV5 W} {h : History (Server R newV5 W) (ServerAction newV5 W)} :
    FramesFit h s a ↔ FromBytes deserializer h s a := by
  have hwire := (messages_on_the_wire deserializer).1
  constructor
  · intro hfit c request ha
    have hlen := fits_encode_iff.mp (hfit c request ha)
    have hdecode := hwire.whole [] (m := request) (by unfold maxFrameBytes at hlen; omega)
    rw [List.append_nil] at hdecode
    exact ⟨request.serialize, hlen, hdecode⟩
  · intro hbytes c request ha
    obtain ⟨body, hlen, hdecode⟩ := hbytes c request ha
    exact fits_encode_iff.mpr ((hwire.least hdecode).trans hlen)

/-- **A value reaches its client.** In every run whose requests are decoded from frames within the
limit, from stores whose payloads were set, a `Value` that is about to be sent has an encoding
within the limit, and the client decodes it to the same `Value`. -/
theorem values_reach_clients (deserializer : Deserializer) (config : Config) (capacity : ℕ)
    {object : Slot → Option (List UInt8)} {vector : Slot → Option (VectorEntry R)}
    {h : History (Server R newV5 W) (ServerAction newV5 W)} {s : Server R newV5 W}
    (hobject : ∀ slot payload, object slot = some payload → Settable payload)
    (hrun : Run (ServerStep config capacity) (Server.init object vector) (FromBytes deserializer)
      h s) {c : ℕ} {value : Option (List UInt8)} (hc : s.conn c = .replying (.value value)) :
    ∃ body, encode Response.serialize (.value value) = .ok body ∧ body.length ≤ maxFrameBytes ∧
      decode deserializer.response body = .ok (.value value) := by
  have hfitting := (fitting_run hobject (hrun.mono fun _ _ _ _ _ hok _ =>
    framesFit_iff.mpr hok)).conn c
  rw [hc] at hfitting
  have hlen := fits_encode_iff.mp hfitting
  have hdecode := (messages_on_the_wire deserializer).2.whole [] (m := Response.value value)
    (by unfold maxFrameBytes at hlen; omega)
  rw [List.append_nil] at hdecode
  exact ⟨_, rfl, hlen, hdecode⟩

/-- The client decodes what it wrote. -/
theorem values_reach_clients_read :
    ∃ (h : Sample.ServerLog) (s : Sample.ServerMachine) (body : List UInt8),
      Run (ServerStep Sample.settings writeQueueCapacity) Sample.server
        (FromBytes Deserializer.postcard) h s ∧
        s.conn 0 = .replying (.value (some [1])) ∧
          decode Deserializer.postcard.response body = .ok (.value (some [1])) := by
  obtain ⟨h, s, hrun, hc⟩ := Sample.framed_read_run
  have hbytes : Run (ServerStep Sample.settings writeQueueCapacity) Sample.server
      (FromBytes Deserializer.postcard) h s :=
    hrun.mono fun _ _ _ _ _ hok _ => framesFit_iff.mp hok
  obtain ⟨body, -, -, hdecode⟩ :=
    values_reach_clients Deserializer.postcard Sample.settings writeQueueCapacity (by simp)
      hbytes hc
  exact ⟨h, s, body, hbytes, hc, hdecode⟩

end Semisweet.Daemon
