import HelperHandoff.Proofs.Completion.Consistency

set_option autoImplicit false

namespace HelperHandoff.Completion

namespace Race

/-- The client reads its counter after `before`, woken by its monitor or after the deadline. -/
structure ReadsAfter (r : Race) (turns before : List Turn) (woken : Bool) : Prop where
  isPrefix : before ++ [.own .read] <+: turns
  stage : (r.run before).client.stage = .reading woken

/-- The client takes the message after `before` that the monitor's wait has failed. -/
structure HearsAfter (r : Race) (turns before : List Turn) (e : Errno) : Prop where
  isPrefix : before ++ [.own .receive] <+: turns
  stage : (r.run before).client.stage = .receiving
  inbox : (r.run before).client.inbox = some (some e)

def verdict (r : Race) (woken : Bool) : Outcome :=
  judge r.client.timeoutMs woken (r.store.read r.id)

/-- The origin of an outcome. -/
def Settled (r : Race) (turns : List Turn) (o : Outcome) : Prop :=
  (∃ before woken, r.ReadsAfter turns before woken ∧ o = (r.run before).verdict woken) ∨
    ∃ before e, r.HearsAfter turns before e ∧ o = .error (.counterLost (.system e))

theorem ReadsAfter.before_isPrefix {r : Race} {turns before : List Turn} {woken : Bool}
    (h : r.ReadsAfter turns before woken) : before <+: turns :=
  (List.prefix_append before _).trans h.isPrefix

theorem ReadsAfter.append {r : Race} {turns before : List Turn} {woken : Bool}
    (h : r.ReadsAfter turns before woken) (later : List Turn) :
    r.ReadsAfter (turns ++ later) before woken :=
  ⟨h.isPrefix.trans (List.prefix_append _ _), h.stage⟩

theorem Settled.append {r : Race} {turns : List Turn} {o : Outcome} (h : r.Settled turns o)
    (later : List Turn) : r.Settled (turns ++ later) o := by
  obtain ⟨before, woken, hr, ho⟩ | ⟨before, e, hh, ho⟩ := h
  · exact .inl ⟨before, woken, hr.append later, ho⟩
  · exact .inr ⟨before, e, ⟨hh.isPrefix.trans (List.prefix_append _ _), hh.stage, hh.inbox⟩, ho⟩

theorem Steps.outcome? {turn : Turn} {r r' : Race} (h : Steps turn r r') {o : Outcome}
    (ho : r'.client.stage.outcome? = some o) :
    r.client.stage.outcome? = some o ∨
      (∃ woken, turn = .own .read ∧ r.client.stage = .reading woken ∧ o = r.verdict woken) ∨
      ∃ e, turn = .own .receive ∧ r.client.stage = .receiving ∧
        r.client.inbox = some (some e) ∧ o = .error (.counterLost (.system e)) := by
  cases h with
  | wakes hs hi | expires hs hi => simp [Stage.outcome?] at ho
  | @hears _ e hs hi =>
    obtain rfl := Option.some.inj ho
    exact .inr (.inr ⟨e, rfl, hs, hi, rfl⟩)
  | @reads _ woken hs =>
    obtain rfl := Option.some.inj ho
    exact .inr (.inl ⟨woken, rfl, hs, rfl⟩)
  | removes hs _ | misses hs _ | joins hs _ =>
    rw [hs]
    exact .inl ho
  | _ => exact .inl ho

/-- Whatever a client returns, it found by reading its counter or heard from its monitor. -/
theorem run_settled {r : Race} (h : r.client.stage = .receiving) (turns : List Turn)
    {o : Outcome} (ho : (r.run turns).client.stage.outcome? = some o) : r.Settled turns o := by
  induction turns using List.reverseRecOn with
  | nil =>
    rw [run_nil, h] at ho
    simp [Stage.outcome?] at ho
  | append_singleton turns turn ih =>
    obtain hsame | hstep := run_concat_cases turns turn r
    · rw [hsame] at ho
      exact (ih ho).append _
    · obtain hold | ⟨woken, rfl, hs, hv⟩ | ⟨e, rfl, hs, hi, hv⟩ := hstep.outcome? ho
      · exact (ih hold).append _
      · exact .inl ⟨turns, woken, ⟨List.prefix_refl _, hs⟩, hv⟩
      · exact .inr ⟨turns, e, ⟨List.prefix_refl _, hs, hi⟩, hv⟩

theorem ReadsAfter.outcome? {r : Race} {turns before : List Turn} {woken : Bool}
    (h : r.ReadsAfter turns before woken) :
    (r.run turns).client.stage.outcome? = some ((r.run before).verdict woken) := by
  have hread : (r.run (before ++ [.own .read])).client.stage.outcome? =
      some ((r.run before).verdict woken) := by
    rw [run_concat, step_of_steps (.reads h.stage)]
    rfl
  exact (run_later_of_isPrefix h.isPrefix r).outcome? _ hread

theorem ReadsAfter.outcome {r : Race} {turns before : List Turn} {woken : Bool}
    (h : r.ReadsAfter turns before woken) {o : Outcome}
    (ho : (r.run turns).client.stage.outcome? = some o) : o = (r.run before).verdict woken := by
  rw [h.outcome?] at ho
  exact (Option.some.inj ho).symm

theorem HearsAfter.outcome? {r : Race} {turns before : List Turn} {e : Errno}
    (h : r.HearsAfter turns before e) :
    (r.run turns).client.stage.outcome? = some (.error (.counterLost (.system e))) := by
  have hhear : (r.run (before ++ [.own .receive])).client.stage.outcome? =
      some (.error (.counterLost (.system e))) := by
    rw [run_concat, step_of_steps (.hears h.stage h.inbox)]
    rfl
  exact (run_later_of_isPrefix h.isPrefix r).outcome? _ hhear

theorem HearsAfter.removed {r : Race} {turns before : List Turn} {e : Errno}
    (h : r.HearsAfter turns before e) (hs : Sound (r.run before)) :
    Removed (r.run before).deeds := by
  have hgone := hs.failure e h.inbox
  exact (hs.kept (by simp [h.stage, Stage.isOver])).gone_iff.mp hgone

theorem outcome?_of_result? {r : Race} {o : Outcome} (h : r.result? = some o) :
    r.client.stage.outcome? = some o := by
  unfold result? Client.result? at h
  cases hs : r.client.stage with
  | returned o' => simpa [hs, Stage.outcome?] using h
  | _ => simp [hs] at h

end Race

end HelperHandoff.Completion
