import HelperHandoff.Proofs.Completion.Settlement

set_option autoImplicit false

namespace HelperHandoff.Completion

def Stage.rank : Stage → Nat
  | .receiving => 0
  | .reading _ => 1
  | .removing _ => 2
  | .joining _ => 3
  | .returned _ => 4

theorem Stage.isOver_iff {stage : Stage} : stage.isOver = true ↔ 3 ≤ stage.rank := by
  cases stage <;> simp [isOver, rank]

namespace Race

variable {r r' : Race} {turn : Turn}

def rank (r : Race) : Nat := r.client.stage.rank

theorem Steps.rank_le (h : Steps turn r r') : r.rank ≤ r'.rank := by
  cases h <;> simp_all [rank, Stage.rank]

theorem rank_le_run (turns : List Turn) (r : Race) : r.rank ≤ (r.run turns).rank :=
  run_induction (P := fun r' => r.rank ≤ r'.rank) (Nat.le_refl _) turns
    fun _ _ _ _ h ih => Nat.le_trans ih h.rank_le

theorem run_of_steps (h : Steps turn r r') : r.run [turn] = r' := by
  simp [step_of_steps h]

/-! ### From the message to the removal -/

/-- The client has something to take, or has taken it, or no longer waits for it. -/
def Ready (r : Race) : Prop := r.client.inbox.isSome ∨ 1 ≤ r.rank

theorem Ready.step (h : r.Ready) (s : Steps turn r r') : r'.Ready := by
  cases s with
  | sends _ _ => exact .inl rfl
  | wakes | hears | expires | reads | removes | misses | joins =>
    exact .inr (by simp [rank, Stage.rank])
  | _ => exact h

theorem Ready.run (h : r.Ready) (turns : List Turn) : (r.run turns).Ready :=
  run_induction h turns fun _ _ _ _ s h => h.step s

theorem ready_deadline (r : Race) : (r.run [.own .deadline]).Ready := by
  cases hi : r.client.inbox with
  | some message => exact Ready.run (.inl (by simp [hi])) _
  | none =>
    cases hs : r.client.stage with
    | receiving =>
      rw [run_of_steps (.expires hs hi)]
      exact .inr (Nat.le_refl 1)
    | _ => exact Ready.run (.inr (by simp [rank, hs, Stage.rank])) _

theorem Ready.receive (h : r.Ready) : 1 ≤ (r.run [.own .receive]).rank := by
  obtain hi | hr := h
  · cases hs : r.client.stage with
    | receiving =>
      cases hm : r.client.inbox with
      | none => simp [hm] at hi
      | some message =>
        cases message with
        | none =>
          rw [run_of_steps (.wakes hs hm)]
          exact Nat.le_refl 1
        | some e =>
          rw [run_of_steps (.hears hs hm)]
          exact Nat.le_succ 1
    | _ => exact Nat.le_trans (by simp [rank, hs, Stage.rank]) (rank_le_run _ r)
  · exact Nat.le_trans hr (rank_le_run _ r)

theorem rank_read (h : 1 ≤ r.rank) : 2 ≤ (r.run [.own .read]).rank := by
  cases hs : r.client.stage with
  | receiving => simp [rank, hs, Stage.rank] at h
  | reading woken =>
    rw [run_of_steps (.reads hs)]
    exact Nat.le_refl 2
  | _ => exact Nat.le_trans (by simp [rank, hs, Stage.rank]) (rank_le_run _ r)

theorem rank_remove (h : 2 ≤ r.rank) : 3 ≤ (r.run [.own .remove]).rank := by
  cases hs : r.client.stage with
  | receiving | reading => simp [rank, hs, Stage.rank] at h
  | removing o =>
    cases hf : (r.client.guard.destroy r.store).failure with
    | none =>
      rw [run_of_steps (.removes hs hf)]
      exact Nat.le_refl 3
    | some e =>
      rw [run_of_steps (.misses hs hf)]
      exact Nat.le_succ 3
  | _ => exact Nat.le_trans (by simp [rank, hs, Stage.rank]) (rank_le_run _ r)

/-! ### After the removal -/

def parted : List Turn := [.own .monitorCalls, .own .monitorSends, .own .join]

theorem Sound.not_parked (h : Sound r) (ho : r.client.stage.isOver = true) :
    r.store.stage? r.client.monitor ≠ some .parked := by
  intro hp
  have hv := h.watched.rests hp
  rw [h.gone ho] at hv
  cases hv

theorem Sound.monitor_ends (h : Sound r) (ho : r.client.stage.isOver = true) :
    ∃ f, (r.run [.own .monitorCalls]).store.stage? r.client.monitor = some (.returned f) := by
  obtain ⟨t, ht, hid, hs⟩ := h.watched.exists_waiter
  cases hst : t.stage with
  | parked => exact absurd (hs.trans (by rw [hst])) (h.not_parked ho)
  | calling =>
    rw [hst] at hs
    have hc := Counter.Store.waiters_call ht
    refine ⟨some .invalidArgument, ?_⟩
    rw [run_of_steps (.calls hs)]
    simp [Counter.Store.stage?, hc, hid, h.gone ho, Counter.Waiter.call, hst]
  | returned f =>
    rw [hst] at hs
    have hsame : r.run [.own .monitorCalls] = r := by simp [Race.step, Client.step, hs]
    exact ⟨f, by rw [hsame]; exact hs⟩

theorem sent_monitorSends {f : Option Errno}
    (h : r.store.stage? r.client.monitor = some (.returned f)) :
    (r.run [.own .monitorSends]).client.sent = true := by
  cases hs : r.client.sent with
  | false => rw [run_of_steps (.sends h hs)]
  | true =>
    have hsame : r.run [.own .monitorSends] = r := by simp [step, Client.step, h, hs]
    rw [hsame]
    exact hs

theorem result?_join (hs : r.client.sent = true) (ho : 3 ≤ r.rank) :
    (r.run [.own .join]).result?.isSome := by
  cases hst : r.client.stage with
  | joining o =>
    rw [run_of_steps (.joins hst hs)]
    rfl
  | returned o =>
    have hsame : r.run [.own .join] = r := by simp [step, Client.step, hst]
    rw [hsame]
    simp [result?, Client.result?, hst]
  | _ => simp [rank, hst, Stage.rank] at ho

theorem Sound.parted (h : Sound r) (ho : r.client.stage.isOver = true) :
    (r.run Race.parted).result?.isSome := by
  obtain ⟨f, hf⟩ := h.monitor_ends ho
  have hm := (run_later [.own .monitorCalls] r).monitor
  rw [← hm] at hf
  have hs := sent_monitorSends hf
  have hr : r.run Race.parted =
      ((r.run [.own .monitorCalls]).run [.own .monitorSends]).run [.own .join] := by
    rw [← run_append, ← run_append]
    rfl
  rw [hr]
  apply result?_join hs
  rw [← run_append]
  exact Nat.le_trans (Stage.isOver_iff.mp ho) (rank_le_run _ r)

theorem result?_of_outcome? {o : Outcome} (h : r.client.stage.outcome? = some o)
    (hr : r.result?.isSome) : r.result? = some o := by
  obtain ⟨o', ho'⟩ := Option.isSome_iff_exists.mp hr
  rw [ho', ← outcome?_of_result? ho', h]

/-- Whatever has happened so far, the client gets to its end once it has the turns for it. -/
theorem Sound.closing (h : Sound r) : (r.run Race.closing).result?.isSome := by
  have hturns : Race.closing = Race.prompt ++ ([.own .deadline] ++
      ([.own .monitorCalls, .own .monitorSends] ++ ([.own .receive] ++ ([.own .read] ++
        ([.own .remove] ++ Race.parted))))) := rfl
  simp only [hturns, run_append]
  apply Sound.parted
  · simp only [← run_append]
    exact run_sound h _
  · have hready := (ready_deadline (r.run Race.prompt)).run [.own .monitorCalls, .own .monitorSends]
    exact Stage.isOver_iff.mpr (rank_remove (rank_read hready.receive))

end Race

end HelperHandoff.Completion
