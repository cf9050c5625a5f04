import HelperHandoff.Proofs.Handoff.Requests

/-!
The policy of a search, told by the answers of the endpoint alone: what the first attempt, the start
of a helper and the further attempts come to decides which calls the endpoint sees, what is reported
and what is returned.
-/

set_option autoImplicit false

namespace HelperHandoff

namespace Act

def isPause : Act → Bool
  | .pause _ => true
  | _ => false

def pauses (acts : List Act) : List Act := acts.filter isPause

@[simp] theorem calls_nil : calls [] = [] := rfl

@[simp] theorem calls_append (a b : List Act) : calls (a ++ b) = calls a ++ calls b :=
  List.filter_append a b

theorem calls_cons (a : Act) (acts : List Act) :
    calls (a :: acts) = if a.isEndpointCall then a :: calls acts else calls acts :=
  List.filter_cons

@[simp] theorem calls_map_report (es : List Event) : calls (es.map .report) = [] :=
  filter_map_report (fun _ => rfl) es

@[simp] theorem pauses_nil : pauses [] = [] := rfl

@[simp] theorem pauses_append (a b : List Act) : pauses (a ++ b) = pauses a ++ pauses b :=
  List.filter_append a b

theorem pauses_cons (a : Act) (acts : List Act) :
    pauses (a :: acts) = if a.isPause then a :: pauses acts else pauses acts :=
  List.filter_cons

@[simp] theorem pauses_map_report (es : List Event) : pauses (es.map .report) = [] :=
  filter_map_report (fun _ => rfl) es

end Act

namespace Search

variable {σ κ : Type}

structure Was (found : Search σ κ) (result : Except HandoffError κ) (calls : List Act)
    (events : List Event) (pauses : List Act) (endpoint : σ) : Prop where
  result : found.result = result
  calls : Act.calls found.acts = calls
  events : Act.events found.acts = events
  pauses : Act.pauses found.acts = pauses
  endpoint : found.endpoint = endpoint

variable {found : Search σ κ} {result : Except HandoffError κ} {calls : List Act}
  {events : List Event} {pauses : List Act} {endpoint : σ}

theorem Was.after (h : found.Was result calls events pauses endpoint) (acts : List Act) :
    (found.after acts).Was result (Act.calls acts ++ calls) (Act.events acts ++ events)
      (Act.pauses acts ++ pauses) endpoint where
  result := h.result
  calls := by rw [acts_after, Act.calls_append, h.calls]
  events := by rw [acts_after, Act.events_append, h.events]
  pauses := by rw [acts_after, Act.pauses_append, h.pauses]
  endpoint := h.endpoint

theorem Was.opened (h : found.Was result calls events pauses endpoint) (e : IoError)
    (es : List Event) :
    (found.after (Endpoint.opening e es)).Was result (.connect (some e) :: .spawn none :: calls)
      (.helperUnreachable e :: (es ++ events)) pauses endpoint := by
  have hw := h.after (Endpoint.opening e es)
  simpa [Endpoint.opening, Act.calls_cons, Act.isEndpointCall, Act.events_cons, Act.event?,
    Act.events_map_report, Act.pauses_cons, Act.isPause] using hw

end Search

namespace Endpoint

variable {σ κ : Type} (E : Endpoint σ κ)

/-! ### The answers of an endpoint -/

def tried (s : σ) : Nat → σ
  | 0 => s
  | k + 1 => tried (E.connect s).2 k

theorem tried_succ (u : σ) (k : Nat) : E.tried u (k + 1) = (E.connect (E.tried u k)).2 := by
  induction k generalizing u with
  | zero => rfl
  | succ k ih => exact ih (E.connect u).2

def started (s : σ) : Except IoError Unit := (E.spawn (E.connect s).2).1

def startEvents (s : σ) : List Event := (E.spawn (E.connect s).2).2.1

def roused (s : σ) : σ := (E.spawn (E.connect s).2).2.2

/-- The answer to attempt `k`; a helper is started between the first one and the next. -/
def reply (s : σ) : Nat → Except IoError κ
  | 0 => (E.connect s).1
  | k + 1 => (E.connect (E.tried (E.roused s) k)).1

def Refuses (s : σ) (es : List IoError) : Prop :=
  ∀ k e, es[k]? = some e → E.reply s (k + 1) = .error e

variable {E}

theorem Fails.tried {s u : σ} {es : List IoError} (h : E.Fails s es u) :
    u = E.tried s es.length ∧
      ∀ k e, es[k]? = some e → (E.connect (E.tried s k)).1 = .error e := by
  induction h with
  | none => exact ⟨rfl, nofun⟩
  | @more s t u e es hc hs ih =>
    obtain ⟨hu, hes⟩ := ih
    have ht : (E.connect s).2 = t := by rw [hc]
    refine ⟨by rw [hu, List.length_cons, Endpoint.tried, ht], fun k f hk => ?_⟩
    cases k with
    | zero =>
      rw [List.getElem?_cons_zero, Option.some.injEq] at hk
      rw [Endpoint.tried, hc, hk]
    | succ k =>
      rw [List.getElem?_cons_succ] at hk
      rw [Endpoint.tried, ht]
      exact hes k f hk

variable (E)

theorem fails_of_reply {s : σ} {n : Nat} (h : ∀ k, 1 ≤ k → k ≤ n → ∃ e, E.reply s k = .error e) :
    ∃ es, es.length = n ∧ E.Fails (E.roused s) es (E.tried (E.roused s) n) ∧ E.Refuses s es := by
  obtain ⟨es, u, rfl, hs⟩ | ⟨es, u, conn, v, hl, hs, hu⟩ := E.exists_fails n (E.roused s)
  · obtain ⟨rfl, hes⟩ := hs.tried
    exact ⟨es, rfl, hs, hes⟩
  · obtain ⟨rfl, -⟩ := hs.tried
    obtain ⟨e, he⟩ := h (es.length + 1) (by omega) hl
    rw [reply, hu] at he
    cases he

/-! ### The rounds -/

variable {E}

@[simp] theorem calls_pauseBefore (intervalMs left : Nat) :
    Act.calls (pauseBefore intervalMs left) = [] := by
  cases left <;> rfl

theorem calls_rounds (intervalMs left k : Nat) (es : List IoError) :
    Act.calls (rounds intervalMs left k es) = unanswered es := by
  induction es generalizing k with
  | nil => rfl
  | cons e es ih => simp [rounds, Act.calls_cons, Act.isEndpointCall, ih, unanswered]

theorem pauses_rounds (intervalMs left k : Nat) (es : List IoError) :
    Act.pauses (rounds intervalMs left k es) =
      List.replicate (min es.length (es.length + left - 1)) (.pause intervalMs) := by
  induction es generalizing k with
  | nil => rfl
  | cons e es ih =>
    have hrounds : Act.pauses (rounds intervalMs left k (e :: es)) =
        Act.pauses (pauseBefore intervalMs (es.length + left)) ++
          Act.pauses (rounds intervalMs left (k + 1) es) := by
      simp [rounds, Act.pauses_cons, Act.isPause]
    rw [hrounds, ih]
    cases hn : es.length + left with
    | zero =>
      have hz : es.length = 0 := by omega
      have hl : left = 0 := by omega
      simp [pauseBefore, hz, hl, Act.pauses]
    | succ n =>
      have hm : min (e :: es).length ((e :: es).length + left - 1) =
          min es.length n + 1 := by
        rw [List.length_cons]
        omega
      rw [hm, List.replicate_succ]
      rfl

/-! ### The whole -/

variable (E)

theorem locate_answered {policy : ConnectRetry} {s : σ} {conn : κ} (h : E.reply s 0 = .ok conn) :
    (E.locate policy s).Was (.ok conn) [.connect none] [.helperConnected 0] [] (E.tried s 1) := by
  have hc : E.connect s = (.ok conn, E.tried s 1) := Prod.ext h rfl
  rw [locate_of_answered hc]
  exact ⟨rfl, rfl, rfl, rfl, rfl⟩

theorem locate_unstarted {policy : ConnectRetry} {s : σ} {e f : IoError}
    (h : E.reply s 0 = .error e) (hf : E.started s = .error f) :
    (E.locate policy s).Was (.error (.bootstrap (E.program (E.roused s)) f))
      [.connect (some e), .spawn (some f), .program] (.helperUnreachable e :: E.startEvents s) []
      (E.roused s) := by
  have hc : E.connect s = (.error e, (E.connect s).2) := Prod.ext h rfl
  have hw : E.spawn (E.connect s).2 = (.error f, E.startEvents s, E.roused s) := Prod.ext hf rfl
  rw [locate_of_unstarted hc hw]
  refine ⟨rfl, ?_, ?_, ?_, rfl⟩
  · simp [Act.calls_cons, Act.isEndpointCall]
  · simp [Act.events_cons, Act.event?, Act.events_map_report]
  · simp [Act.pauses_cons, Act.isPause]

theorem locate_started {policy : ConnectRetry} {s : σ} {e : IoError}
    (h : E.reply s 0 = .error e) (hs : E.started s = .ok ()) :
    E.locate policy s = (E.reconnect policy policy.attempts 1 (E.roused s)).after
      (opening e (E.startEvents s)) := by
  have hc : E.connect s = (.error e, (E.connect s).2) := Prod.ext h rfl
  have hw : E.spawn (E.connect s).2 = (.ok (), E.startEvents s, E.roused s) := Prod.ext hs rfl
  exact locate_of_started hc hw policy

def retries (es : List IoError) : List Event := (es.zipIdx 1).map fun p => .connectRetry p.2 p.1

theorem locate_found {policy : ConnectRetry} {s : σ} {e : IoError} {es : List IoError}
    {conn : κ} (h : E.reply s 0 = .error e) (hs : E.started s = .ok ())
    (hes : E.Fails (E.roused s) es (E.tried (E.roused s) es.length))
    (hl : es.length < policy.attempts) (hk : E.reply s (es.length + 1) = .ok conn) :
    (E.locate policy s).Was (.ok conn)
      (.connect (some e) :: .spawn none :: (unanswered es ++ [.connect none]))
      (.helperUnreachable e :: (E.startEvents s ++
        (retries es ++ [.helperConnected (es.length + 1)])))
      (List.replicate es.length (.pause policy.intervalMs))
      (E.tried (E.roused s) (es.length + 1)) := by
  rw [E.locate_started h hs, tried_succ]
  have hu : E.connect (E.tried (E.roused s) es.length) =
      (.ok conn, (E.connect (E.tried (E.roused s) es.length)).2) := Prod.ext hk rfl
  apply Search.Was.opened
  rw [reconnect_of_answered hes hu policy hl]
  refine ⟨rfl, ?_, ?_, ?_, rfl⟩
  · simp [calls_rounds, Act.calls_cons, Act.isEndpointCall]
  · simp [events_rounds, retries, Act.events_cons, Act.event?, Nat.add_comm]
  · have hm : min es.length (es.length + (policy.attempts - es.length) - 1) = es.length := by
      omega
    simp [pauses_rounds, hm, Act.pauses_cons, Act.isPause]

theorem locate_unfound {policy : ConnectRetry} {s : σ} {e : IoError} {es : List IoError}
    (h : E.reply s 0 = .error e) (hs : E.started s = .ok ())
    (hes : E.Fails (E.roused s) es (E.tried (E.roused s) es.length))
    (hl : es.length = policy.attempts) :
    (E.locate policy s).Was
      (.error (.connectTimeout (E.address (E.tried (E.roused s) es.length)) es.length))
      (.connect (some e) :: .spawn none :: (unanswered es ++ [.address]))
      (.helperUnreachable e :: (E.startEvents s ++ retries es))
      (List.replicate (es.length - 1) (.pause policy.intervalMs))
      (E.tried (E.roused s) es.length) := by
  rw [E.locate_started h hs, ← hl, reconnect_of_unanswered hes]
  apply Search.Was.opened
  refine ⟨by rw [hl], ?_, ?_, ?_, rfl⟩
  · simp [calls_rounds, Act.calls_cons, Act.isEndpointCall]
  · simp [events_rounds, retries, Act.events_cons, Act.event?]
  · simp [pauses_rounds, Act.pauses_cons, Act.isPause]

/-- Whatever the endpoint is: a helper that answers at once is not started; one that cannot be
started is not asked again; one that was started is asked until it answers, but no more often than
the policy allows, with a pause between two attempts; and what is reported is what happened, attempt
by attempt. -/
theorem locate_exact (policy : ConnectRetry) (s : σ) :
    (∀ conn, E.reply s 0 = .ok conn →
      (E.locate policy s).Was (.ok conn) [.connect none] [.helperConnected 0] [] (E.tried s 1)) ∧
    (∀ e f, E.reply s 0 = .error e → E.started s = .error f →
      (E.locate policy s).Was (.error (.bootstrap (E.program (E.roused s)) f))
        [.connect (some e), .spawn (some f), .program] (.helperUnreachable e :: E.startEvents s) []
        (E.roused s)) ∧
    (∀ e k conn, E.reply s 0 = .error e → E.started s = .ok () →
      1 ≤ k → k ≤ policy.attempts → (∀ j, 1 ≤ j → j < k → ∃ f, E.reply s j = .error f) →
      E.reply s k = .ok conn →
      ∃ es, es.length = k - 1 ∧ E.Refuses s es ∧
        (E.locate policy s).Was (.ok conn)
          (.connect (some e) :: .spawn none :: (unanswered es ++ [.connect none]))
          (.helperUnreachable e :: (E.startEvents s ++ (retries es ++ [.helperConnected k])))
          (List.replicate (k - 1) (.pause policy.intervalMs)) (E.tried (E.roused s) k)) ∧
    (∀ e, E.reply s 0 = .error e → E.started s = .ok () →
      (∀ j, 1 ≤ j → j ≤ policy.attempts → ∃ f, E.reply s j = .error f) →
      ∃ es, es.length = policy.attempts ∧ E.Refuses s es ∧
        (E.locate policy s).Was
          (.error (.connectTimeout (E.address (E.tried (E.roused s) policy.attempts))
            policy.attempts))
          (.connect (some e) :: .spawn none :: (unanswered es ++ [.address]))
          (.helperUnreachable e :: (E.startEvents s ++ retries es))
          (List.replicate (policy.attempts - 1) (.pause policy.intervalMs))
          (E.tried (E.roused s) policy.attempts)) ∧
    (E.locate policy s).acts.countP Act.isSpawn ≤ 1 := by
  refine ⟨fun conn h => E.locate_answered h, fun e f h hf => E.locate_unstarted h hf, ?_, ?_, ?_⟩
  · intro e k conn h hs h1 hn hfail hk
    obtain ⟨m, rfl⟩ : ∃ m, k = m + 1 := ⟨k - 1, by omega⟩
    obtain ⟨es, rfl, hes, hr⟩ := E.fails_of_reply (n := m) fun j hj hm =>
      hfail j hj (Nat.lt_succ_of_le hm)
    exact ⟨es, rfl, hr, E.locate_found h hs hes hn hk⟩
  · intro e h hs hfail
    obtain ⟨es, hl, hes, hr⟩ := E.fails_of_reply hfail
    rw [← hl] at hes ⊢
    exact ⟨es, rfl, hr, E.locate_unfound h hs hes hl⟩
  · rw [← Act.countP_requests Act.isRequest_of_isSpawn]
    exact (E.sought_locate policy s).countP_isSpawn_le

/-- A helper that takes one attempt to come up is found by the second, with no pause behind it. -/
example :
    (scripted [some (.system .noEntry), some (.system .connectionRefused), none] none [] []).locate
        ⟨3, 50⟩ 0 =
      ⟨.ok 3,
        [.connect (some (.system .noEntry)), .report (.helperUnreachable (.system .noEntry)),
          .spawn none, .connect (some (.system .connectionRefused)),
          .report (.connectRetry 1 (.system .connectionRefused)), .pause 50, .connect none,
          .report (.helperConnected 2)], 3⟩ := rfl

end Endpoint

end HelperHandoff
