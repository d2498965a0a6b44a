import Semisweet.Client.Stub

/-!
# Reconnecting

A client registers its namespace once, before it keeps its connection. The daemon holds the
registry in memory; when it terminates, the client reconnects and sends its request again —
to a daemon that has registered nothing. `ClientStub` calls this a single transparent
reconnect. This module says when it is transparent.

## What is proved

* `registered_iff` — a namespace is registered exactly when somebody registered it since the
  daemon last terminated.
* `neverUnknown_iff` — in every run, no request of the client's own namespace is answered
  `UnknownNamespace` if and only if each is served after somebody registered the namespace
  since the daemon last terminated.
* `neverUnknown_fails` — after a termination nobody does, and the request fails.
-/

namespace Semisweet.Client

open Semisweet.Core Semisweet.Foundations Semisweet.Protocol

variable {ns configJson : String}

/-- The action registers the namespace. -/
def Registers (ns : String) : Action → Prop
  | .serve _ (.registerNamespace ns' _) .registered => ns' = ns
  | .otherRegister ns' => ns' = ns
  | _ => False

/-- Somebody registered the namespace since the daemon last terminated. -/
def RegisteredSince (ns : String) (h : History State Action) : Prop :=
  ∃ h₁ t h₂, h = h₁ ++ t :: h₂ ∧ Registers ns t.2 ∧ ∀ t' ∈ h₂, t'.2 ≠ .terminate

/-- **A transparent reconnect**: no `Get`, `Set` or `Del` of the namespace is answered
`UnknownNamespace`. -/
def NeverUnknown (ns : String) (h : History State Action) : Prop :=
  ∀ s n r t, (s, Action.serve n r (.error (.unknownNamespace ns))) ∈ h →
    target r = some t → t.ns ≠ ns

/-- Each `Get`, `Set` and `Del` of the namespace is served after somebody registered it since
the daemon last terminated. -/
def RegisteredWhenServed (ns : String) (h : History State Action) : Prop :=
  ∀ h₁ s n r resp h₂ t, h = h₁ ++ (s, .serve n r resp) :: h₂ → target r = some t → t.ns = ns →
    RegisteredSince ns h₁

theorem registeredSince_snoc {h : History State Action} {t : State × Action} :
    RegisteredSince ns (h ++ [t]) ↔
      Registers ns t.2 ∨ (RegisteredSince ns h ∧ t.2 ≠ .terminate) := by
  constructor
  · rintro ⟨h₁, t₁, h₂, heq, hreg, hno⟩
    rcases List.eq_nil_or_concat h₂ with rfl | ⟨h₂, t₂, rfl⟩
    · obtain ⟨-, ht⟩ := List.append_inj' heq rfl
      simp only [List.cons.injEq, and_true] at ht
      exact .inl (ht ▸ hreg)
    · rw [List.concat_eq_append, ← List.cons_append, ← List.append_assoc] at heq
      obtain ⟨rfl, ht⟩ := List.append_inj' heq rfl
      simp only [List.cons.injEq, and_true] at ht
      subst ht
      exact .inr ⟨⟨h₁, t₁, h₂, rfl, hreg, fun t' ht' => hno t' (by simp [ht'])⟩, hno t (by simp)⟩
  · rintro (hreg | ⟨⟨h₁, t₁, h₂, rfl, hreg, hno⟩, hne⟩)
    · exact ⟨h, t, [], rfl, hreg, by simp⟩
    · refine ⟨h₁, t₁, h₂ ++ [t], by simp, hreg, fun t' ht' => ?_⟩
      rcases List.mem_append.mp ht' with ht' | ht'
      · exact hno t' ht'
      · rw [List.mem_singleton] at ht'
        exact ht' ▸ hne

/-- What a request does to the registry. -/
theorem mem_register {registry : Finset String} {r : Request} {resp : Response} (n : ℕ) :
    ns ∈ register registry r resp ↔ Registers ns (.serve n r resp) ∨ ns ∈ registry := by
  unfold register
  split
  · simp [Registers, eq_comm]
  · rename_i hno
    have : ¬ Registers ns (.serve n r resp) := by
      unfold Registers
      split <;> simp_all
    simp [this]

/-- What is left alone by what is no registration and no termination. -/
theorem registered_keep {h : History State Action} {s s' : State} {a : Action}
    (ih : ns ∈ s.registry ↔ RegisteredSince ns h) (hsame : s'.registry = s.registry)
    (hreg : ¬ Registers ns a) (hterm : a ≠ .terminate) :
    ns ∈ s'.registry ↔ RegisteredSince ns (h ++ [(s, a)]) := by
  rw [registeredSince_snoc, hsame, ih]
  simp [hreg, hterm]

/-- **The registry** holds the namespaces registered since the daemon last terminated. -/
theorem registered_iff {ns' : String} {h : History State Action} {s : State}
    (hrun : ClientRun ns configJson Always h s) : ns' ∈ s.registry ↔ RegisteredSince ns' h := by
  induction hrun with
  | start => simp [State.init, RegisteredSince]
  | next hr hok hstep ih =>
    cases hstep with
    | serve hlive hd hans =>
      rw [registeredSince_snoc, ← ih]
      simpa using mem_register _
    | otherRegister =>
      rw [registeredSince_snoc, Finset.mem_insert, ih]
      simp [Registers, eq_comm]
    | terminate =>
      rw [registeredSince_snoc]
      simp [Registers]
    | _ => exact registered_keep ih (by simp) (by simp [Registers]) (by simp)

/-! ### Unknown namespaces -/

/-- An error the handlers come by is not answered `UnknownNamespace`. -/
theorem backendError_ne_unknown {e : Error} (he : Raised e) (ns : String) :
    backendError e ≠ .error (.unknownNamespace ns) := by
  cases e <;> simp_all [backendError, Raised]

/-- **A lookup is answered `UnknownNamespace`** exactly when its namespace is not registered. -/
theorem answers_unknown_iff {registry : Finset String} {r : Request} {t : Target} {resp : Response}
    (hans : Answers registry r resp) (ht : target r = some t) :
    resp = .error (.unknownNamespace t.ns) ↔ t.ns ∉ registry := by
  cases hans with
  | unknown ht' hns =>
    obtain rfl := Option.some.inj (ht'.symm.trans ht)
    simp [hns]
  | invalid ht' hns hrec =>
    obtain rfl := Option.some.inj (ht'.symm.trans ht)
    obtain ⟨err, rfl⟩ := reconstruct_eq_error hrec
    simp [invalidRequest, hns]
  | failed ht' hns _ he =>
    obtain rfl := Option.some.inj (ht'.symm.trans ht)
    simp [backendError_ne_unknown he, hns]
  | value hns _ =>
    obtain rfl := Option.some.inj ht
    simp [hns]
  | accepted hns _ =>
    obtain rfl := Option.some.inj ht
    simp [hns]
  | deleted hns _ =>
    obtain rfl := Option.some.inj ht
    simp [hns]
  | _ => simp [target] at ht

/-- **When the reconnect is transparent**: no request of the namespace is answered
`UnknownNamespace` if and only if each is served after a registration since the last
termination. -/
theorem neverUnknown_iff {h : History State Action} {s : State}
    (hrun : ClientRun ns configJson Always h s) :
    NeverUnknown ns h ↔ RegisteredWhenServed ns h := by
  constructor
  · rintro hnever h₁ s₁ n r resp h₂ t rfl ht rfl
    obtain ⟨s', hbefore, -, hstep, -⟩ := hrun.split
    rw [← registered_iff hbefore]
    cases hstep with
    | serve hlive hd hans =>
      by_contra hns
      have := (answers_unknown_iff hans ht).mpr hns
      subst this
      exact hnever s₁ n r t (by simp) ht rfl
  · rintro hserved s₁ n r t hm ht rfl
    obtain ⟨h₁, h₂, s', rfl, hbefore, -, hstep, -⟩ := hrun.exists_of_mem hm
    have hsince := hserved h₁ s₁ n r _ h₂ t rfl ht rfl
    rw [← registered_iff hbefore] at hsince
    cases hstep with
    | serve hlive hd hans => exact (answers_unknown_iff hans ht).mp rfl hsince

/-- No request is answered with an error. -/
def ErrorFree : Guard State Action := fun _ _ a => ∀ n r e, a ≠ .serve n r (.error e)

theorem neverUnknown_of_errorFree {h : History State Action} {s : State}
    (hrun : ClientRun ns configJson ErrorFree h s) : NeverUnknown ns h := by
  intro t n r target hm _ _
  obtain ⟨_, _, _, _, _, hok, _, _⟩ := hrun.exists_of_mem hm
  exact hok n r _ rfl

/-- The daemon terminates, another client registers the namespace with the next one, and a `Get` is
sent again and served. -/
theorem neverUnknown_reregistered : ∃ (h : History State Action) (s : State),
    ClientRun Sample.prod Sample.config Always h s ∧ (∃ t, (t, Action.terminate) ∈ h) ∧
      (∃ t, (t, Action.serve 1 (Sample.ask "a") (.value none)) ∈ h) ∧
        NeverUnknown Sample.prod h ∧ RegisteredWhenServed Sample.prod h := by
  obtain ⟨h, hrun⟩ : ∃ h, ClientRun Sample.prod Sample.config ErrorFree h
      (State.connected Sample.prod) := connecting_run fun _ _ _ _ ha => ha
  have hterminate := hrun.next (a := .terminate) (by simp [ErrorFree]) .terminate
  have hissue := hterminate.next (a := .issue (Sample.ask "a")) (by simp [ErrorFree])
    (.issue rfl rfl)
  have hfeed := hissue.next (a := .feed) (by simp [ErrorFree]) (.feed rfl)
  have hsendFail := hfeed.next (a := .sendFail) (by simp [ErrorFree]) (.sendFail (.inr rfl) rfl)
  have hother := hsendFail.next (a := .otherRegister Sample.prod) (by simp [ErrorFree])
    .otherRegister
  have hreconnect := hother.next (a := .reconnect) (by simp [ErrorFree]) (.reconnect rfl)
  have hagain := hreconnect.next (a := .feed) (by simp [ErrorFree]) (.feed rfl)
  have hwrite := hagain.next (a := .write) (by simp [ErrorFree]) (.write (.inr rfl) rfl rfl)
  have hflushed := hwrite.next (a := .flushed) (by simp [ErrorFree]) (.flushed rfl rfl)
  have hserve := hflushed.next (a := .serve 1 (Sample.ask "a") (.value none))
    (by simp [ErrorFree]) (.serve rfl rfl (Sample.answers_ask none))
  have hall : ClientRun Sample.prod Sample.config Always _ _ :=
    hserve.mono fun _ _ _ _ _ _ _ => trivial
  have hnever := neverUnknown_of_errorFree hserve
  exact ⟨_, _, hall, ⟨State.connected Sample.prod, by simp⟩, ⟨_, List.mem_concat_self⟩, hnever,
    (neverUnknown_iff hall).mp hnever⟩

/-- **Not transparent**: the daemon terminates, the client asks, reconnects and asks again, and
the new daemon does not know its namespace. -/
theorem neverUnknown_fails :
    ¬ ∀ h s, ClientRun Sample.prod Sample.config Always h s → NeverUnknown Sample.prod h := by
  intro hall
  obtain ⟨_, hrun⟩ :
      ∃ h, ClientRun Sample.prod Sample.config Always h (State.connected Sample.prod) :=
    connected_run fun _ _ _ _ => trivial
  have hterminate := hrun.next trivial .terminate
  have hissue := hterminate.next trivial (.issue (r := Sample.ask "a") rfl rfl)
  have hfeed := hissue.next trivial (.feed rfl)
  have hsendFail := hfeed.next trivial (.sendFail (.inr rfl) rfl)
  have hreconnect := hsendFail.next trivial (.reconnect rfl)
  have hagain := hreconnect.next trivial (.feed rfl)
  have hwrite := hagain.next trivial (.write (.inr rfl) rfl rfl)
  have hflushed := hwrite.next trivial (.flushed rfl rfl)
  have hunknown : Answers ∅ (Sample.ask "a") (.error (.unknownNamespace Sample.prod)) :=
    .unknown (t := ⟨Sample.prod, "a", [], none⟩) rfl (by simp)
  have hserve := hflushed.next trivial (.serve rfl rfl hunknown)
  exact hall _ _ hserve _ _ _ _ (List.mem_append_right _ (List.mem_singleton_self _)) rfl rfl

end Semisweet.Client
