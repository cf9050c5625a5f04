import HelperHandoff.Locator

set_option autoImplicit false

namespace HelperHandoff

def Event.isAttempt : Event → Bool
  | .helperUnreachable _ | .connectRetry _ _ | .helperSpawned _ _ _ => true
  | _ => false

def HandoffError.isUnfound : HandoffError → Bool
  | .bootstrap _ _ | .connectTimeout _ _ => true
  | _ => false

/-- Nothing but attempts is reported, and at the end the one that was answered. -/
def Search.Reported {σ κ : Type} (s : Search σ κ) : Prop :=
  match s.result with
  | .ok _ => ∃ tries k, Act.events s.acts = tries ++ [.helperConnected k] ∧
      ∀ x ∈ tries, x.isAttempt = true
  | .error e => e.isUnfound = true ∧ ∀ x ∈ Act.events s.acts, x.isAttempt = true

theorem Search.Reported.after {σ κ : Type} {s : Search σ κ} (h : s.Reported) {acts : List Act}
    (ha : ∀ x ∈ Act.events acts, x.isAttempt = true) : (s.after acts).Reported := by
  unfold Search.Reported at h ⊢
  rw [result_after]
  cases hr : s.result with
  | ok conn =>
    rw [hr] at h
    obtain ⟨tries, k, he, ht⟩ := h
    refine ⟨Act.events acts ++ tries, k, by simp [he], ?_⟩
    intro x hx
    obtain hx | hx := List.mem_append.mp hx
    · exact ha x hx
    · exact ht x hx
  | error e =>
    rw [hr] at h
    refine ⟨h.1, ?_⟩
    intro x hx
    rw [acts_after, Act.events_append] at hx
    obtain hx | hx := List.mem_append.mp hx
    · exact ha x hx
    · exact h.2 x hx

namespace Endpoint

variable {σ κ : Type} (E : Endpoint σ κ)

/-! ### Rounds of attempts -/

/-- Attempts to connect, one after the other, all in vain. -/
inductive Fails : σ → List IoError → σ → Prop where
  | none {s : σ} : Fails s [] s
  | more {s t u : σ} {e : IoError} {es : List IoError} (h : E.connect s = (.error e, t))
      (hs : Fails t es u) : Fails s (e :: es) u

def rounds (intervalMs left : Nat) : Nat → List IoError → List Act
  | _, [] => []
  | k, e :: es => .connect (some e) :: .report (.connectRetry k e) ::
      pauseBefore intervalMs (es.length + left) ++ rounds intervalMs left (k + 1) es

variable {E}

theorem reconnect_of_fails {s u : σ} {es : List IoError} (h : E.Fails s es u)
    (policy : ConnectRetry) (left k : Nat) :
    E.reconnect policy (es.length + left) k s =
      (E.reconnect policy left (k + es.length) u).after (rounds policy.intervalMs left k es) := by
  induction h generalizing k with
  | none => simp [rounds, Search.after]
  | @more s t u e es h _ ih =>
    have hl : (e :: es).length + left = (es.length + left) + 1 := by
      rw [List.length_cons]
      omega
    have hk : k + (e :: es).length = k + 1 + es.length := by
      rw [List.length_cons]
      omega
    rw [hl, hk]
    simp only [reconnect, h, ih, rounds, Search.after, List.cons_append, List.append_assoc]

variable (E)

theorem exists_fails (n : Nat) (s : σ) :
    (∃ es u, es.length = n ∧ E.Fails s es u) ∨
      ∃ es u conn v, es.length < n ∧ E.Fails s es u ∧ E.connect u = (.ok conn, v) := by
  induction n generalizing s with
  | zero => exact .inl ⟨[], s, rfl, .none⟩
  | succ n ih =>
    cases hc : E.connect s with
    | mk answer t =>
      cases answer with
      | ok conn => exact .inr ⟨[], s, conn, t, Nat.succ_pos n, .none, hc⟩
      | error e =>
        obtain ⟨es, u, hl, hs⟩ | ⟨es, u, conn, v, hl, hs, hu⟩ := ih t
        · exact .inl ⟨e :: es, u, congrArg Nat.succ hl, .more hc hs⟩
        · exact .inr ⟨e :: es, u, conn, v, Nat.succ_lt_succ hl, .more hc hs, hu⟩

variable {E}

theorem reconnect_of_answered {s u v : σ} {es : List IoError} {conn : κ} (h : E.Fails s es u)
    (hu : E.connect u = (.ok conn, v)) (policy : ConnectRetry) {left : Nat} (hl : es.length < left)
    (k : Nat) :
    E.reconnect policy left k s =
      ⟨.ok conn, rounds policy.intervalMs (left - es.length) k es ++
        [.connect none, .report (.helperConnected (k + es.length))], v⟩ := by
  obtain ⟨m, rfl⟩ : ∃ m, left = es.length + (m + 1) := ⟨left - es.length - 1, by omega⟩
  rw [reconnect_of_fails h, Nat.add_sub_cancel_left]
  simp only [reconnect, hu, Search.after]

theorem reconnect_of_unanswered {s u : σ} {es : List IoError} (h : E.Fails s es u)
    (policy : ConnectRetry) (k : Nat) :
    E.reconnect policy es.length k s =
      ⟨.error (.connectTimeout (E.address u) policy.attempts),
        rounds policy.intervalMs 0 k es ++ [.address], u⟩ :=
  reconnect_of_fails h policy 0 k

theorem reconnect_cases (E : Endpoint σ κ) (policy : ConnectRetry) (left k : Nat) (s : σ) :
    (∃ es u, es.length = left ∧ E.reconnect policy left k s =
      ⟨.error (.connectTimeout (E.address u) policy.attempts),
        rounds policy.intervalMs 0 k es ++ [.address], u⟩) ∨
    ∃ es conn v, es.length < left ∧ E.reconnect policy left k s =
      ⟨.ok conn, rounds policy.intervalMs (left - es.length) k es ++
        [.connect none, .report (.helperConnected (k + es.length))], v⟩ := by
  obtain ⟨es, u, rfl, hs⟩ | ⟨es, u, conn, v, hl, hs, hu⟩ := E.exists_fails left s
  · exact .inl ⟨es, u, rfl, reconnect_of_unanswered hs policy k⟩
  · exact .inr ⟨es, conn, v, hl, reconnect_of_answered hs hu policy hl k⟩

/-! ### The first attempt -/

def opening (e : IoError) (es : List Event) : List Act :=
  .connect (some e) :: .report (.helperUnreachable e) :: .spawn none :: es.map .report

theorem locate_of_answered {s t : σ} {conn : κ} (hc : E.connect s = (.ok conn, t))
    (policy : ConnectRetry) :
    E.locate policy s = ⟨.ok conn, [.connect none, .report (.helperConnected 0)], t⟩ := by
  simp only [locate, hc]

theorem locate_of_unstarted {s t u : σ} {e f : IoError} {es : List Event}
    (hc : E.connect s = (.error e, t)) (hw : E.spawn t = (.error f, es, u))
    (policy : ConnectRetry) :
    E.locate policy s = ⟨.error (.bootstrap (E.program u) f),
      .connect (some e) :: .report (.helperUnreachable e) :: .spawn (some f) ::
        (es.map .report ++ [.program]), u⟩ := by
  simp only [locate, hc, hw, List.cons_append, List.nil_append]

theorem locate_of_started {s t u : σ} {e : IoError} {es : List Event}
    (hc : E.connect s = (.error e, t)) (hw : E.spawn t = (.ok (), es, u))
    (policy : ConnectRetry) :
    E.locate policy s = (E.reconnect policy policy.attempts 1 u).after (opening e es) := by
  simp only [locate, hc, hw, opening, List.cons_append, List.nil_append]

theorem locate_cases (E : Endpoint σ κ) (policy : ConnectRetry) (s : σ) :
    (∃ conn t, E.locate policy s =
      ⟨.ok conn, [.connect none, .report (.helperConnected 0)], t⟩) ∨
    (∃ e t f es u, E.spawn t = (.error f, es, u) ∧ E.locate policy s =
      ⟨.error (.bootstrap (E.program u) f),
        .connect (some e) :: .report (.helperUnreachable e) :: .spawn (some f) ::
          (es.map .report ++ [.program]), u⟩) ∨
    ∃ e t es u, E.spawn t = (.ok (), es, u) ∧ E.locate policy s =
      (E.reconnect policy policy.attempts 1 u).after (opening e es) := by
  cases hc : E.connect s with
  | mk answer t =>
    cases answer with
    | ok conn => exact .inl ⟨conn, t, locate_of_answered hc policy⟩
    | error e =>
      cases hw : E.spawn t with
      | mk start rest =>
        obtain ⟨es, u⟩ := rest
        cases start with
        | error f => exact .inr (.inl ⟨e, t, f, es, u, hw, locate_of_unstarted hc hw policy⟩)
        | ok _ => exact .inr (.inr ⟨e, t, es, u, hw, locate_of_started hc hw policy⟩)

/-! ### Reports -/

@[simp] theorem events_pauseBefore (intervalMs left : Nat) :
    Act.events (pauseBefore intervalMs left) = [] := by
  cases left <;> rfl

theorem events_rounds (intervalMs left k : Nat) (es : List IoError) :
    Act.events (rounds intervalMs left k es) =
      (es.zipIdx k).map fun p => .connectRetry p.2 p.1 := by
  induction es generalizing k with
  | nil => rfl
  | cons e es ih => simp [rounds, Act.events_cons, Act.event?, ih]

variable (E)

theorem reported_reconnect (policy : ConnectRetry) (left k : Nat) (s : σ) :
    (E.reconnect policy left k s).Reported := by
  have hevents (left : Nat) (es : List IoError) :
      ∀ x ∈ Act.events (rounds policy.intervalMs left k es), x.isAttempt = true := by
    rw [events_rounds]
    intro x hx
    obtain ⟨p, -, rfl⟩ := List.mem_map.mp hx
    rfl
  obtain ⟨es, u, -, h⟩ | ⟨es, conn, v, -, h⟩ := E.reconnect_cases policy left k s <;> rw [h]
  · refine ⟨rfl, ?_⟩
    simpa [Act.events_cons, Act.event?] using hevents 0 es
  · exact ⟨_, k + es.length, by rw [Act.events_append]; rfl, hevents _ es⟩

theorem reported_locate (policy : ConnectRetry) (s : σ)
    (hspawn : ∀ t, ∀ x ∈ (E.spawn t).2.1, x.isAttempt = true) : (E.locate policy s).Reported := by
  obtain ⟨conn, t, h⟩ | ⟨e, t, f, es, u, hw, h⟩ | ⟨e, t, es, u, hw, h⟩ :=
    E.locate_cases policy s <;> rw [h]
  · exact ⟨[], 0, rfl, by simp⟩
  · have hs := hspawn t
    rw [hw] at hs
    refine ⟨rfl, ?_⟩
    simpa [Act.events_cons, Act.event?, Act.events_map_report, Event.isAttempt] using hs
  · have hs := hspawn t
    rw [hw] at hs
    apply (E.reported_reconnect policy policy.attempts 1 u).after
    simpa [opening, Act.events_cons, Act.event?, Act.events_map_report, Event.isAttempt] using hs

end Endpoint

end HelperHandoff
